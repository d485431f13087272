import Polling.Proofs.Engine.Plan
import Polling.Proofs.Engine.Reachable

namespace Polling

def Scope.untracked : Scope → DiscardReason
  | service key => .serviceUntracked key
  | interface n a => .interfaceUntracked n a
  | node n => .nodeUntracked n

namespace Poller

section Final

variable {ε σ α β : Type} {x : EStateM ε σ α} {f : α → EStateM ε σ β} {s t : σ} {a : α}

theorem final_bind_of_ok (h : x s = .ok a t) : final (x >>= f) s = final (f a) t := by
  rw [final, bind_of_ok h, final]

end Final

def acted (s : Poller) (action : Schedule.Action) : Poller :=
  { s with schedule := s.schedule.act action }

theorem acted_of_same {s : Poller} {action : Schedule.Action}
    (h : s.schedule.act action = s.schedule) : s.acted action = s := by
  rw [acted, h]

def closed (s : Poller) (n : Notification) (scope : Scope) : Poller :=
  { s with outages := s.outages.close scope ⟨n.time, n.id⟩ }

@[simp] theorem schedule_closed (s : Poller) (n : Notification) (scope : Scope) :
    (s.closed n scope).schedule = s.schedule :=
  rfl

def withdraw (s : Poller) (n : Notification) (scope : Scope) : Poller :=
  (s.closed n scope).acted (.delete scope)

theorem withdraw_of_same {s : Poller} {scope : Scope}
    (h : s.schedule.act (.delete scope) = s.schedule) (n : Notification) :
    s.withdraw n scope = s.closed n scope :=
  acted_of_same h

def verdict (s : Poller) (scope : Scope) : Disposition :=
  if s.schedule.Tracks scope then .applied else .discarded scope.untracked

theorem verdict_of_tracks {s : Poller} {scope : Scope} (h : s.schedule.Tracks scope) :
    s.verdict scope = .applied :=
  if_pos h

theorem verdict_of_not_tracks {s : Poller} {scope : Scope} (h : ¬ s.schedule.Tracks scope) :
    s.verdict scope = .discarded scope.untracked :=
  if_neg h

/-- The poller once a key is waited for whose removal may be pending, and then scheduled if a local
package polls it. -/
def gain (s : Poller) (n : Notification) (key : ServiceKey) : Poller :=
  let waited : Poller := { s with schedule := s.schedule.expel key }
  if s.store.active.PollsLocally key.address key.service then
    waited.acted (.add key
      ⟨(s.inventory.entry key.node).info.label.or (n.param? "node_label"),
        (s.inventory.entry key.node).info.location⟩)
  else waited

theorem store_gain (s : Poller) (n : Notification) (key : ServiceKey) :
    (s.gain n key).store = s.store := by
  unfold gain
  split <;> rfl

def reconciledAll (s : Poller) (n : Notification) (nodes : List NodeId) : Poller :=
  nodes.foldl (fun s node => s.reconciled node true n) s

/-- Reconciling nodes changes the schedule and the outages only. -/
theorem reconciledAll_eq (s : Poller) (n : Notification) (nodes : List NodeId) :
    s.reconciledAll n nodes = { s with
      schedule := (s.reconciledAll n nodes).schedule
      outages := (s.reconciledAll n nodes).outages } := by
  induction nodes generalizing s with
  | nil => rfl
  | cons node nodes ih =>
    change (s.reconciled node true n).reconciledAll n nodes = _
    rw [ih]
    rfl

/-- The poller once all tracked nodes are reconciled by force under a configuration whose address
caches are built again. -/
def rescheduled (s : Poller) (n : Notification) (store : Store) : Poller :=
  reconciledAll { s with store := store.rebuild } n s.schedule.nodeIds

end Poller

namespace Engine

open Poller

variable {s : Poller} {n : Notification} {node : NodeId}

theorem given_of_ok {α : Type} {field : Except InputError α} {next : α → EngineM Disposition}
    {a : α} (h : field = .ok a) : given field next = next a := by
  rw [h]
  rfl

theorem final_given_of_error {α : Type} {field : Except InputError α}
    {next : α → EngineM Disposition} {e : InputError} (h : field = .error e) :
    final (given field next) s = s := by
  rw [h]
  rfl

theorem closeOutages_eq_closed (h : s.faults = []) (scope : Scope) (n : Notification) :
    (liftM (closeOutages scope n) : EngineM Unit) s = .ok () (s.closed n scope) :=
  lift_of_ok (closeOutages_eq h scope n)

theorem delete_closed_eq (h : s.faults = []) {scope : Scope} (ht : s.schedule.Tracks scope) :
    (liftM (delete scope) : EngineM Unit) (s.closed n scope) = .ok () (s.withdraw n scope) :=
  lift_of_ok (delete_eq (s := s.closed n scope) h ht)

theorem serviceRemoved_eq (h : s.faults = []) {subject : Address × String}
    (hn : n.requireSubject = .ok subject) :
    serviceRemoved n node s = .ok (s.verdict (.service ⟨node, subject.1, subject.2⟩))
      (s.withdraw n (.service ⟨node, subject.1, subject.2⟩)) := by
  obtain ⟨address, service⟩ := subject
  have hc : (s.closed n (.service ⟨node, address, service⟩)).faults = [] := h
  have mark := lift_of_ok (markOf_eq hc ⟨node, address, service⟩)
  rw [schedule_closed] at mark
  rw [serviceRemoved, given_of_ok hn]
  refine (bind_of_ok (closeOutages_eq_closed h _ n)).trans ((bind_of_ok mark).trans ?_)
  have tracked : s.schedule.Tracks (.service ⟨node, address, service⟩) ↔ _ :=
    Schedule.tracks_service
  -- Either nothing is there, or the removal is requested already, or it is requested now.
  cases hm : s.schedule.mark? ⟨node, address, service⟩ with
  | none =>
    have ht : ¬ s.schedule.Tracks (.service ⟨node, address, service⟩) := by
      simp [tracked, hm]
    rw [verdict_of_not_tracks ht, withdraw_of_same (Schedule.act_delete_of_not_tracks ht)]
    rfl
  | some mark =>
    rw [verdict_of_tracks (tracked.2 (Option.isSome_of_eq_some hm))]
    cases mark with
    | pendingDelete =>
      rw [withdraw_of_same (Schedule.act_delete_of_requested hm)]
      rfl
    | scheduled => exact bind_of_ok (requestDeletion_eq hc _)

theorem final_serviceRemoved (h : s.faults = []) {subject : Address × String}
    (hn : n.requireSubject = .ok subject) :
    final (serviceRemoved n node) s = s.withdraw n (.service ⟨node, subject.1, subject.2⟩) :=
  final_of_ok (serviceRemoved_eq h hn)

theorem interfaceDeleted_eq (h : s.faults = []) {address : Address}
    (hn : n.requireAddress = .ok address) :
    interfaceDeleted n node s = .ok (s.verdict (.interface node address))
      (s.withdraw n (.interface node address)) := by
  have hc : (s.closed n (.interface node address)).faults = [] := h
  rw [interfaceDeleted, given_of_ok hn, bind_of_ok (closeOutages_eq_closed h _ n),
    bind_of_ok (lift_of_ok (hasInterface_eq hc _ _)), schedule_closed]
  by_cases ht : s.schedule.Tracks (.interface node address)
  · rw [verdict_of_tracks ht, if_neg (not_not_intro (decide_eq_true ht)),
      bind_of_ok (delete_closed_eq h ht)]
    rfl
  · rw [verdict_of_not_tracks ht, withdraw_of_same (Schedule.act_delete_of_not_tracks ht),
      if_pos (by simpa using ht)]
    rfl

theorem final_interfaceDeleted (h : s.faults = []) {address : Address}
    (hn : n.requireAddress = .ok address) :
    final (interfaceDeleted n node) s = s.withdraw n (.interface node address) :=
  final_of_ok (interfaceDeleted_eq h hn)

/-- A node is known as long as one of its keys is tracked, so from a node that is not known nothing
is removed. -/
theorem nodeDeleted_eq (h : s.Ready) :
    nodeDeleted n node s = .ok (s.verdict (.node node)) (s.withdraw n (.node node)) := by
  have hc : (s.closed n (.node node)).faults = [] := h.faults
  rw [nodeDeleted, bind_of_ok (closeOutages_eq_closed h.faults _ n),
    bind_of_ok (lift_of_ok (trackedNode_eq hc _)), schedule_closed]
  by_cases ht : s.schedule.Tracks (.node node)
  · have known := (h.trim node).2 ht
    rw [verdict_of_tracks ht, if_neg (by simpa [Option.isSome_iff_ne_none] using known),
      bind_of_ok (delete_closed_eq h.faults ht)]
    rfl
  · have unknown := mt (h.trim node).1 ht
    rw [verdict_of_not_tracks ht, withdraw_of_same (Schedule.act_delete_of_not_tracks ht),
      if_pos (by simpa using unknown)]
    rfl

theorem final_nodeDeleted (h : s.Ready) :
    final (nodeDeleted n node) s = s.withdraw n (.node node) :=
  final_of_ok (nodeDeleted_eq h)

theorem reparent_eq (h : s.faults = []) {address : Address} {source target : NodeId}
    (hs : s.schedule.node? source ≠ none) (ht : s.schedule.node? target ≠ none)
    (hi : s.schedule.Tracks (.interface source address)) :
    reparent address source target s = .ok () (s.acted (.reparent address source target)) :=
  change_of_ok (Call.meet_of_no_faults h _) (Schedule.reparent_ok hs ht hi)

theorem final_interfaceReparented (h : s.faults = []) {address : Address} {source target : NodeId}
    (ha : n.requireAddress = .ok address) (hs : n.nodeParam "old_node_id" = .ok source)
    (ht : n.nodeParam "new_node_id" = .ok target) :
    final (interfaceReparented n) s = s.acted (.reparent address source target) := by
  rw [interfaceReparented, given_of_ok ha, given_of_ok hs, given_of_ok ht]
  -- What the transition checks first is what the action checks, so a failed check changes nothing.
  by_cases he : source = target
  · rw [if_pos he, acted_of_same (Schedule.act_reparent_of_not (.inl he))]
    rfl
  rw [if_neg he, final_bind_of_ok (lift_of_ok (trackedNode_eq h _))]
  cases hns : s.schedule.node? source with
  | none =>
    rw [acted_of_same (Schedule.act_reparent_of_not (.inr (.inl hns)))]
    rfl
  | some i =>
    change final (liftM (trackedNode target) >>= _) s = _
    rw [final_bind_of_ok (lift_of_ok (trackedNode_eq h _))]
    cases hnt : s.schedule.node? target with
    | none =>
      rw [acted_of_same (Schedule.act_reparent_of_not (.inr (.inr (.inl hnt))))]
      rfl
    | some j =>
      change final (liftM (hasInterface source address) >>= _) s = _
      rw [final_bind_of_ok (lift_of_ok (hasInterface_eq h _ _))]
      by_cases hi : s.schedule.Tracks (.interface source address)
      · rw [if_neg (by simpa using hi), final_bind_of_ok (lift_of_ok (reparent_eq h
          (by simp [hns]) (by simp [hnt]) hi))]
        rfl
      · rw [if_pos (by simpa using hi),
          acted_of_same (Schedule.act_reparent_of_not (.inr (.inr (.inr hi))))]
        rfl

theorem final_labelChanged (h : s.faults = []) {label : String}
    (hn : n.requireParam "new_node_label" = .ok label) :
    final (labelChanged n node) s = s.acted (.setLabel node label) := by
  rw [labelChanged, given_of_ok hn, final_bind_of_ok (lift_of_ok (trackedNode_eq h _))]
  cases hk : s.schedule.node? node with
  | none =>
    have same : s.schedule.act (.setLabel node label) = s.schedule := by
      simp [Schedule.act, Schedule.after, Schedule.setLabel, hk]
    rw [acted_of_same same]
    rfl
  | some info =>
    obtain ⟨t, ht⟩ : ∃ t, s.schedule.setLabel node label = .ok t := by
      simp [Schedule.setLabel, hk]
    have done : setLabel node label s = .ok () (s.acted (.setLabel node label)) := by
      rw [acted, Schedule.act, ht]
      exact change_of_ok (Call.meet_of_no_faults h _) ht
    exact final_bind_of_ok (lift_of_ok done)

/-- What is known of the node of a key is looked up, and the key is scheduled if it is polled. -/
theorem final_lookUp (h : s.faults = []) (n : Notification) (key : ServiceKey) :
    final (do
      let label ← nodeLabel key.node n
      let location ← nodeLocation key.node
      discard (scheduleService key { label, location })
      return Disposition.applied) s =
      if s.store.active.PollsLocally key.address key.service then
        s.acted (.add key ⟨(s.inventory.entry key.node).info.label.or (n.param? "node_label"),
          (s.inventory.entry key.node).info.location⟩)
      else s := by
  rw [final_bind_of_ok (nodeLabel_eq h _ n), final_bind_of_ok (nodeLocation_eq h _)]
  have hs := scheduleService_eq ⟨(s.inventory.entry key.node).info.label.or (n.param? "node_label"),
    (s.inventory.entry key.node).info.location⟩ h key
  by_cases hl : s.store.active.PollsLocally key.address key.service
  · rw [if_pos hl] at hs ⊢
    exact final_bind_of_ok (discard_of_ok hs)
  · rw [if_neg hl] at hs ⊢
    exact final_bind_of_ok (discard_of_ok hs)

/-- A key that is scheduled already is left alone. -/
theorem final_serviceGained (h : s.Ready) (hp : s.Patient) {subject : Address × String}
    (hn : n.requireSubject = .ok subject) :
    final (serviceGained n node) s =
      if s.schedule.mark? ⟨node, subject.1, subject.2⟩ = some .scheduled then s
      else s.gain n ⟨node, subject.1, subject.2⟩ := by
  rw [serviceGained, given_of_ok hn, final_bind_of_ok (lift_of_ok (markOf_eq h.faults _)), gain]
  cases hm : s.schedule.mark? ⟨node, subject.1, subject.2⟩ with
  | none =>
    rw [if_neg nofun, Schedule.expel_of_untracked hm]
    exact final_lookUp h.faults n ⟨node, subject.1, subject.2⟩
  | some mark =>
    cases mark with
    | scheduled =>
      rw [if_pos rfl]
      rfl
    | pendingDelete =>
      rw [if_neg (by simp), Schedule.expel_of_pending hm]
      refine (final_bind_of_ok (awaitDeletion_of_pending h.toPrompt hp hm)).trans ?_
      exact final_lookUp (s := { s with schedule := s.schedule.settle }) h.faults n
        ⟨node, subject.1, subject.2⟩

theorem ready_reconciled (h : s.Ready) (hp : s.Patient) (node : NodeId) (force : Bool)
    (n : Notification) : (s.reconciled node force n).Ready := by
  have e := orderly_reconcile node force n s
  rw [final_of_ok (reconcile_eq h.toPrompt hp node force n)] at e
  exact h.evolves e

theorem rebuildCaches_eq (s : Poller) :
    rebuildCaches s = .ok () { s with store := s.store.rebuild } :=
  rfl

theorem membershipChanged_eq (h : s.Ready) (hp : s.Patient) (force : Bool) :
    membershipChanged n node force s =
      .ok .applied (Poller.reconciled { s with store := s.store.rebuild } node force n) := by
  rw [membershipChanged, bind_of_ok (rebuildCaches_eq s), bind_of_ok (discard_of_ok
    (reconcile_eq (h.withStore s.store.rebuild).toPrompt hp node force n))]
  rfl

theorem final_membershipChanged (h : s.Ready) (hp : s.Patient) (force : Bool) :
    final (membershipChanged n node force) s =
      Poller.reconciled { s with store := s.store.rebuild } node force n :=
  final_of_ok (membershipChanged_eq h hp force)

theorem rescheduleNodes_eq (h : s.Ready) (hp : s.Patient) (n : Notification)
    (nodes : List NodeId) : rescheduleNodes n nodes s = .ok () (s.reconciledAll n nodes) := by
  induction nodes generalizing s with
  | nil => rfl
  | cons node nodes ih =>
    rw [rescheduleNodes, bind_of_ok (discard_of_ok
      (attempt_of_ok (reconcile_eq h.toPrompt hp node true n)))]
    exact ih (ready_reconciled h hp node true n) hp

theorem rescheduleAll_eq (h : s.Ready) (hp : s.Patient) (n : Notification) :
    rescheduleAll n s = .ok () (s.rescheduled n s.store) := by
  have hr := h.withStore s.store.rebuild
  rw [rescheduleAll, bind_of_ok (rebuildCaches_eq s),
    bind_of_ok (lift_of_ok (trackedNodes_eq hr.faults))]
  exact rescheduleNodes_eq hr hp n _

/-- Whatever comes of reading the configuration again, only the store changes. -/
theorem attempt_reload_eq (s : Poller) :
    ∃ result, (attempt (onStore Store.reload) : EngineM (Except Error Unit)) s =
      .ok result { s with store := final Store.reload s.store } := by
  unfold attempt onStore final
  cases Store.reload s.store with
  | ok a store => exact ⟨_, rfl⟩
  | error e store => exact ⟨_, rfl⟩

/-- Whether the configuration could be read again or not, all nodes are scheduled afresh. -/
theorem calendarChanged_eq (h : s.Ready) (hp : s.Patient) :
    calendarChanged n s = .ok .applied (s.rescheduled n (final Store.reload s.store)) := by
  -- What comes of the reading is discarded, so only the store that it leaves counts.
  obtain ⟨result, hr⟩ := attempt_reload_eq s
  rw [calendarChanged, bind_of_ok (discard_of_ok hr)]
  have done := rescheduleAll_eq (s := { s with store := final Store.reload s.store })
    (h.withStore _) hp n
  exact bind_of_ok done

theorem final_calendarChanged (h : s.Ready) (hp : s.Patient) :
    final (calendarChanged n) s = s.rescheduled n (final Store.reload s.store) :=
  final_of_ok (calendarChanged_eq h hp)

def Addressed (s : Poller) (n : Notification) : Prop :=
  ∃ name ∈ n.param? "daemon_name", Text.Caseless name s.settings.daemonName

instance (s : Poller) (n : Notification) : Decidable (Addressed s n) :=
  inferInstanceAs (Decidable (∃ name ∈ n.param? "daemon_name", _))

theorem final_reloadRequested_of_other (ha : ¬ Addressed s n) :
    final (reloadRequested n) s = s := by
  rw [reloadRequested, final_bind_of_ok (get_eq s)]
  exact congrArg (final · s) (if_pos ha)

def outcome (s : Poller) (failure : Option Error) : Announcement :=
  ⟨failure, s.settings.daemonName, s.store.location⟩

theorem announce_outcome_eq (h : s.faults = []) (a : Announcement) :
    (discard (attempt (announce a) : EngineM (Except CallError Unit)) : EngineM PUnit) s =
      .ok .unit { s with sent := s.sent ++ [a] } :=
  discard_of_ok (attempt_of_ok (announce_eq h a))

/-- A reload that cannot read the document is announced and changes nothing else. -/
theorem reloadRequested_of_error (h : s.faults = []) (ha : Addressed s n) {e : ConfigError}
    (he : s.store.read = .error e) :
    reloadRequested n s =
      .error (.config e) { s with sent := s.sent ++ [outcome s (some (.config e))] } := by
  have failed : (onStore Store.reload : EngineM Unit) s = .error (.config e) s := by
    rw [onStore, Store.reload, he]
  unfold Addressed at ha
  rw [reloadRequested, bind_of_ok (get_eq s)]
  dsimp only
  rw [if_neg (not_not_intro ha), bind_of_ok (attempt_of_error (bind_of_error failed)),
    bind_of_ok (get_eq s)]
  exact bind_of_ok (announce_outcome_eq h _)

/-- Scheduling all nodes afresh changes the schedule, the outages and the caches only. -/
theorem rescheduled_eq (s : Poller) (n : Notification) (store : Store) :
    s.rescheduled n store = { s with
      store := store.rebuild
      schedule := (s.rescheduled n store).schedule
      outages := (s.rescheduled n store).outages } :=
  reconciledAll_eq _ n _

@[simp] theorem store_rescheduled (s : Poller) (n : Notification) (store : Store) :
    (s.rescheduled n store).store = store.rebuild := by
  rw [rescheduled_eq]

@[simp] theorem inventory_rescheduled (s : Poller) (n : Notification) (store : Store) :
    (s.rescheduled n store).inventory = s.inventory := by
  rw [rescheduled_eq]

@[simp] theorem sent_rescheduled (s : Poller) (n : Notification) (store : Store) :
    (s.rescheduled n store).sent = s.sent := by
  rw [rescheduled_eq]

theorem reloadRequested_of_ok (h : s.Ready) (hp : s.Patient) (ha : Addressed s n)
    {c : Configuration} (hc : s.store.read = .ok c) :
    reloadRequested n s = .ok .applied
      { s.rescheduled n (s.store.install c) with
        sent := s.sent ++ [outcome s none] } := by
  have loaded : (onStore Store.reload : EngineM Unit) s =
      .ok () { s with store := s.store.install c } := by
    rw [onStore, Store.reload, hc]
  have done := rescheduleAll_eq (s := { s with store := s.store.install c }) (h.withStore _) hp n
  have hr : (do onStore Store.reload; rescheduleAll n : EngineM Unit) s =
      .ok () (s.rescheduled n (s.store.install c)) := by
    rw [bind_of_ok loaded]
    exact done
  -- The announcement is a call too, and no call fails after the reload if none failed before.
  have e := orderly_rescheduleAll n { s with store := s.store.install c }
  rw [final_of_ok done] at e
  have location : (s.rescheduled n (s.store.install c)).store.location = s.store.location := by
    rw [store_rescheduled]
    rfl
  have announced := announce_outcome_eq (e.faults h.faults) (outcome s none)
  rw [sent_rescheduled] at announced
  unfold Addressed at ha
  rw [reloadRequested, bind_of_ok (get_eq s)]
  dsimp only
  rw [if_neg (not_not_intro ha), bind_of_ok (attempt_of_ok hr), bind_of_ok (get_eq _), location]
  exact bind_of_ok announced

theorem final_reloadRequested_of_error (h : s.faults = []) (ha : Addressed s n) {e : ConfigError}
    (he : s.store.read = .error e) : ∃ sent, final (reloadRequested n) s = { s with sent } := by
  rw [final, reloadRequested_of_error h ha he]
  exact ⟨_, rfl⟩

theorem final_reloadRequested_of_ok (h : s.Ready) (hp : s.Patient) (ha : Addressed s n)
    {c : Configuration} (hc : s.store.read = .ok c) :
    ∃ sent, final (reloadRequested n) s =
      { s.rescheduled n (s.store.install c) with sent } := by
  rw [final_of_ok (reloadRequested_of_ok h hp ha hc)]
  exact ⟨_, rfl⟩

end Engine

end Polling
