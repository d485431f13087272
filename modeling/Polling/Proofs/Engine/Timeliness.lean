import Polling.Proofs.Engine.Handling
import Polling.Proofs.Engine.Reconciliation
import Polling.Proofs.Schedule.Confirmation

namespace Polling

open Poller Engine

/-- The operation does not fail by waiting for a removal too long. -/
def Timely {α : Type} (x : EngineM α) (s : Poller) : Prop :=
  ∀ e t, x s = .error e t → ¬ e.IsDeletionTimeout

section Operations

variable {α β : Type} {x : EngineM α} {f : α → EngineM β} {s t : Poller} {a : α}

theorem timely_of_ok (h : x s = .ok a t) : Timely x s := by
  intro e u he
  rw [h] at he
  cases he

theorem timely_pure (a : α) (s : Poller) : Timely (pure a) s := timely_of_ok (t := s) rfl

/-- A call that fails is no wait. -/
theorem timely_lift (x : CallM α) (s : Poller) : Timely (liftM x : EngineM α) s := by
  intro e t he
  cases hx : x s with
  | ok a u =>
    rw [lift_of_ok hx] at he
    cases he
  | error cause u =>
    rw [lift_of_error hx] at he
    obtain ⟨rfl, rfl⟩ := EStateM.Result.error.inj he
    exact id

theorem timely_bind (hx : Timely x s) (hf : ∀ a t, Timely (f a) t) : Timely (x >>= f) s := by
  intro e u he
  cases h : x s with
  | ok a t =>
    rw [bind_of_ok h] at he
    exact hf a t e u he
  | error cause t =>
    rw [bind_of_error h] at he
    obtain ⟨rfl, rfl⟩ := EStateM.Result.error.inj he
    exact hx _ _ h

theorem timely_bind_of_ok (h : x s = .ok a t) (hf : Timely (f a) t) : Timely (x >>= f) s := by
  intro e u he
  rw [bind_of_ok h] at he
  exact hf e u he

/-- What fails is handed over as a value. -/
theorem attempt_isOk {ε δ : Type} (x : EStateM ε Poller α) (s : Poller) :
    ∃ result, (attempt x : EStateM δ Poller _) s = .ok result (final x s) := by
  cases h : x s with
  | ok a t =>
    rw [final_of_ok h]
    exact ⟨_, attempt_of_ok h⟩
  | error e t =>
    rw [final, h]
    exact ⟨_, attempt_of_error h⟩

theorem timely_attempt {ε : Type} (x : EStateM ε Poller α) (s : Poller) : Timely (attempt x) s := by
  obtain ⟨result, h⟩ := attempt_isOk (δ := Error) x s
  exact timely_of_ok h

theorem timely_discard (hx : Timely x s) : Timely (discard x) s := by
  intro e u he
  cases h : x s with
  | ok a t =>
    rw [discard_of_ok h] at he
    cases he
  | error cause t =>
    rw [discard_of_error h] at he
    obtain ⟨rfl, rfl⟩ := EStateM.Result.error.inj he
    exact hx _ _ h

theorem timely_given {field : Except InputError α} {next : α → EngineM Disposition}
    (h : ∀ a, Timely (next a) s) : Timely (given field next) s := by
  cases field with
  | ok a => exact h a
  | error cause => exact timely_pure _ s

end Operations

namespace Engine

variable {s : Poller}

theorem timely_nodeLabel (node : NodeId) (n : Notification) (s : Poller) :
    Timely (nodeLabel node n) s := by
  refine timely_bind (timely_attempt _ s) fun result t => ?_
  split <;> exact timely_pure _ t

theorem timely_nodeLocation (node : NodeId) (s : Poller) : Timely (nodeLocation node) s := by
  refine timely_bind (timely_attempt _ s) fun result t => ?_
  split <;> exact timely_pure _ t

theorem timely_scheduleService (key : ServiceKey) (info : NodeInfo) (s : Poller) :
    Timely (scheduleService key info) s := by
  apply timely_bind_of_ok (get_eq s)
  split
  · exact timely_pure _ s
  · exact timely_lift _ s

/-- The engine waits for the key only if it is marked for removal. -/
theorem timely_serviceGained (h : s.Ready) (hp : s.Patient) (n : Notification) (node : NodeId) :
    Timely (serviceGained n node) s := by
  refine timely_given fun (address, service) => ?_
  apply timely_bind_of_ok (lift_of_ok (markOf_eq h.faults ⟨node, address, service⟩))
  have add (t : Poller) : Timely (do
      let label ← nodeLabel node n
      let location ← nodeLocation node
      discard (scheduleService ⟨node, address, service⟩ { label, location })
      return Disposition.applied) t :=
    timely_bind (timely_nodeLabel node n t) fun _ t => timely_bind (timely_nodeLocation node t)
      fun _ t => timely_bind (timely_discard (timely_scheduleService _ _ t)) fun _ t =>
        timely_pure _ t
  cases hm : s.schedule.mark? ⟨node, address, service⟩ with
  | none => exact add s
  | some mark =>
    cases mark with
    | scheduled => exact timely_pure _ s
    | pendingDelete =>
      exact timely_bind_of_ok (awaitDeletion_of_pending h.toPrompt hp hm) (add _)

theorem timely_serviceRemoved (h : s.faults = []) (n : Notification) (node : NodeId) :
    Timely (serviceRemoved n node) s := by
  refine timely_given fun (address, service) => ?_
  apply timely_bind_of_ok (closeOutages_eq_closed h (.service ⟨node, address, service⟩) n)
  have hc : (s.closed n (.service ⟨node, address, service⟩)).faults = [] := h
  apply timely_bind_of_ok (lift_of_ok (markOf_eq hc ⟨node, address, service⟩))
  split
  · exact timely_pure _ _
  · exact timely_pure _ _
  · exact timely_bind_of_ok (requestDeletion_eq hc _) (timely_pure _ _)

theorem timely_interfaceDeleted (n : Notification) (node : NodeId) (s : Poller) :
    Timely (interfaceDeleted n node) s := by
  refine timely_given fun address => timely_bind (timely_lift _ s) fun _ t =>
    timely_bind (timely_lift _ t) fun tracked t => ?_
  split
  · exact timely_pure _ t
  · exact timely_bind (timely_lift _ t) fun _ t => timely_pure _ t

theorem timely_nodeDeleted (n : Notification) (node : NodeId) (s : Poller) :
    Timely (nodeDeleted n node) s := by
  refine timely_bind (timely_lift _ s) fun _ t => timely_bind (timely_lift _ t) fun info t => ?_
  split
  · exact timely_pure _ t
  · exact timely_bind (timely_lift _ t) fun _ t => timely_pure _ t

theorem timely_interfaceReparented (n : Notification) (s : Poller) :
    Timely (interfaceReparented n) s := by
  refine timely_given fun address => timely_given fun source => timely_given fun target => ?_
  split
  · exact timely_pure _ s
  refine timely_bind (timely_lift _ s) fun info t => ?_
  split
  · exact timely_pure _ t
  refine timely_bind (timely_lift _ t) fun info t => ?_
  split
  · exact timely_pure _ t
  refine timely_bind (timely_lift _ t) fun tracked t => ?_
  split
  · exact timely_pure _ t
  · exact timely_bind (timely_lift _ t) fun _ t => timely_pure _ t

theorem timely_labelChanged (n : Notification) (node : NodeId) (s : Poller) :
    Timely (labelChanged n node) s := by
  refine timely_given fun label => timely_bind (timely_lift _ s) fun info t => ?_
  split
  · exact timely_pure _ t
  · exact timely_bind (timely_lift _ t) fun _ t => timely_pure _ t

theorem timely_reconcile (h : s.Ready) (hp : s.Patient) (node : NodeId) (force : Bool)
    (n : Notification) : Timely (reconcile node force n) s :=
  timely_of_ok (reconcile_eq h.toPrompt hp node force n)

theorem timely_membershipChanged (h : s.Ready) (hp : s.Patient) (n : Notification)
    (node : NodeId) (force : Bool) : Timely (membershipChanged n node force) s := by
  apply timely_bind_of_ok (rebuildCaches_eq s)
  have hr := timely_reconcile (h.withStore s.store.rebuild) hp node force n
  exact timely_bind (timely_discard hr) fun _ t => timely_pure _ t

theorem timely_onStore {α : Type} (x : StoreM α) (s : Poller) : Timely (onStore x) s := by
  intro e t he
  unfold onStore at he
  split at he
  · cases he
  · obtain ⟨rfl, rfl⟩ := EStateM.Result.error.inj he
    exact id

/-- A reload fails if the document cannot be read, and then nothing is waited for. -/
theorem timely_reload (h : s.Ready) (hp : s.Patient) (n : Notification) :
    Timely (do onStore Store.reload; rescheduleAll n) s := by
  intro e t he
  cases hr : (onStore Store.reload : EngineM Unit) s with
  | ok u t' =>
    rw [bind_of_ok hr] at he
    have e' := orderly_onStore Store.reload s
    rw [final_of_ok hr] at e'
    exact timely_of_ok (rescheduleAll_eq (h.evolves e') (hp.evolves e') n) e t he
  | error cause t' =>
    rw [bind_of_error hr] at he
    obtain ⟨rfl, rfl⟩ := EStateM.Result.error.inj he
    exact timely_onStore Store.reload s _ _ hr

theorem timely_calendarChanged (h : s.Ready) (hp : s.Patient) (n : Notification) :
    Timely (calendarChanged n) s := by
  obtain ⟨result, hr⟩ := attempt_isOk (δ := Error) (onStore Store.reload : EngineM Unit) s
  apply timely_bind_of_ok (discard_of_ok hr)
  have e := orderly_onStore Store.reload s
  exact timely_bind_of_ok (rescheduleAll_eq (h.evolves e) (hp.evolves e) n) (timely_pure _ _)

/-- What a requested reload fails with is what the reload itself failed with. -/
theorem timely_reloadRequested (h : s.Ready) (hp : s.Patient) (n : Notification) :
    Timely (reloadRequested n) s := by
  apply timely_bind_of_ok (get_eq s)
  dsimp only
  split
  · exact timely_pure _ s
  have announced (a : Announcement) (t : Poller) : Timely (discard
      (attempt (announce a) : EngineM (Except CallError Unit)) : EngineM PUnit) t :=
    timely_discard (timely_attempt _ t)
  cases hr : (do onStore Store.reload; rescheduleAll n : EngineM Unit) s with
  | ok u t =>
    apply timely_bind_of_ok (attempt_of_ok hr)
    apply timely_bind_of_ok (get_eq t)
    exact timely_bind (announced _ t) fun _ t => timely_pure _ t
  | error cause t =>
    apply timely_bind_of_ok (attempt_of_error hr)
    apply timely_bind_of_ok (get_eq t)
    -- The announcement may fail too, but the error that is thrown is the one of the reload.
    refine timely_bind (announced _ t) fun _ t' e u he => ?_
    obtain ⟨rfl, rfl⟩ := EStateM.Result.error.inj he
    exact timely_reload h hp n _ _ hr

/-- No notification makes a patient engine wait in vain. -/
theorem timely_handle (h : s.Ready) (hp : s.Patient) (n : Notification) : Timely (handle n) s := by
  unfold handle
  split
  · exact timely_given (timely_serviceGained h hp n)
  · exact timely_given (timely_serviceGained h hp n)
  · exact timely_given (timely_serviceRemoved h.faults n)
  · exact timely_given (timely_serviceRemoved h.faults n)
  · exact timely_given fun _ => timely_interfaceReparented n s
  · exact timely_given fun node => timely_interfaceDeleted n node s
  · exact timely_given fun node => timely_nodeDeleted n node s
  · exact timely_given fun node => timely_nodeDeleted n node s
  · exact timely_given fun node => timely_labelChanged n node s
  · exact timely_given fun node => timely_membershipChanged h hp n node false
  · exact timely_given fun node => timely_membershipChanged h hp n node false
  · exact timely_given fun node => timely_membershipChanged h hp n node true
  · exact timely_calendarChanged h hp n
  · exact timely_reloadRequested h hp n
  · exact timely_pure _ s
  · exact timely_pure _ s
  · exact timely_pure _ s

/-- No removal is forgotten. Whatever callers and the worker did, each marked key is in the scope of
a queued removal, so the queue, carried out in any order, leaves exactly the scheduled keys and what
is known of their nodes. And a patient engine whose worker is prompt never waits in vain. -/
theorem no_removal_forgotten :
    (∀ actions : List Schedule.Action, (Schedule.run {} actions).Covered ∧
      ∀ scopes : List Scope, scopes.Perm (Schedule.run {} actions).queue →
        (∀ key, ((Schedule.run {} actions).carriedOut scopes).mark? key =
          if (Schedule.run {} actions).mark? key = some .scheduled then some .scheduled else none) ∧
        ∀ node, ((Schedule.run {} actions).carriedOut scopes).node? node =
          if ((Schedule.run {} actions).carriedOut scopes).Tracks (.node node) then
            (Schedule.run {} actions).node? node
          else none) ∧
    ∀ s : Poller, s.Reachable → s.Patient →
      (∀ n, Timely (handle n) s) ∧ ∀ node force n, Timely (reconcile node force n) s := by
  constructor
  · intro actions
    have covered := Schedule.covered_run actions
    refine ⟨covered, fun scopes order => ⟨fun key => ?_, fun node => ?_⟩⟩
    · rw [covered.mark?_carriedOut order.symm.subset]
      cases (Schedule.run {} actions).mark? key with
      | none => rfl
      | some mark => cases mark <;> rfl
    · exact (Schedule.trim_run actions).node?_carriedOut scopes node
  · intro s hs hp
    exact ⟨timely_handle hs.ready hp, timely_reconcile hs.ready hp⟩

/-- ICMP is on its way out twice over when HTTP joins it on its node: the two removals, the later
one first, leave HTTP and the label of the node. -/
theorem http_left_by_removals :
    let actions : List Schedule.Action := [.add Sample.icmp ⟨some "gateway", none⟩,
      .delete (.service Sample.icmp), .delete (.interface ⟨1⟩ Sample.address), .add Sample.http {}]
    let scopes : List Scope := [.interface ⟨1⟩ Sample.address, .service Sample.icmp]
    let left := (Schedule.run {} actions).carriedOut scopes
    (scopes.Perm (Schedule.run {} actions).queue ∧ left.mark? Sample.icmp = none ∧
        left.mark? Sample.http = some .scheduled ∧
        left.node? ⟨1⟩ = some ⟨some "gateway", none⟩) ∧
      Sample.pending.Reachable ∧ Sample.pending.Patient ∧
        Timely (handle Sample.change) Sample.pending ∧
        Timely (reconcile ⟨1⟩ true Sample.change) Sample.pending := by
  intro actions scopes left
  have order : scopes.Perm (Schedule.run {} actions).queue := by decide +kernel
  obtain ⟨marks, nodes⟩ := (no_removal_forgotten.1 actions).2 scopes order
  have patient : Sample.pending.Patient := by decide
  obtain ⟨handled, reconciled⟩ :=
    no_removal_forgotten.2 Sample.pending Sample.reachable_pending patient
  refine ⟨⟨order, ?_, ?_, ?_⟩, Sample.reachable_pending, patient, handled _, reconciled _ _ _⟩
  · rw [marks]
    decide +kernel
  · rw [marks]
    decide +kernel
  · rw [nodes]
    decide +kernel

end Engine

end Polling
