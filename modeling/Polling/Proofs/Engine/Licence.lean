import Polling.Proofs.Engine.Footprint
import Polling.Proofs.Engine.Handling
import Polling.Proofs.Schedule.Provenance
import Polling.Store.Queries

namespace Polling

/-- A package for this instance polls the key. It contains the address and enables the service, and
the service has a monitor. -/
def Active.Authorizes (c : Active) (key : ServiceKey) : Prop :=
  ∃ p ∈ c.packageFor? key.address key.service,
    p ∈ c.configuration.packages ∧ ¬ p.remote ∧ p.Contains c.caches key.address ∧
      p.Enables key.service ∧ c.registry.Monitors key.service

theorem Active.authorizes_of_packageFor? {c : Active} {key : ServiceKey} {p : Package}
    (h : c.packageFor? key.address key.service = some p) : c.Authorizes key := by
  refine ⟨p, h, ?_⟩
  rw [packageFor?] at h
  split at h
  · next monitored =>
    have polls : ¬ p.remote ∧ p.Enables key.service ∧ p.Contains c.caches key.address := by
      simpa using List.find?_some h
    exact ⟨List.mem_of_find?_eq_some h, polls.1, polls.2.2, polls.2.1, monitored⟩
  · cases h

/-- The effect leaves the configuration in force, and if it schedules a key, then on a valid node
and with the authority of the configuration. -/
def Effect.Licensed (c : Active) : Effect → Prop
  | .acted action => action.AddsOnly fun key => key.node.Valid ∧ c.Authorizes key
  | .stored _ => False
  | .met _ | .closed _ _ | .announced _ => True

theorem Effect.PlainOn.licensed {node : NodeId} {e : Effect} (h : e.PlainOn node) (c : Active) :
    e.Licensed c := by
  cases e with
  | acted action =>
    cases action with
    | add key info => cases h
    | _ => trivial
  | stored store => cases h
  | _ => trivial

theorem Effect.Moves.licensed {address : Address} {source target : NodeId} {e : Effect}
    (h : e.Moves address source target) (c : Active) : e.Licensed c := by
  cases e with
  | met call => trivial
  | acted action =>
    cases h
    trivial
  | _ => cases h

namespace Poller

variable {s t : Poller} {effects : List Effect} {c : Active}

theorem store_foldl_after (h : ∀ e ∈ effects, e.Licensed c) (s : Poller) :
    (effects.foldl after s).store = s.store := by
  refine foldl_leads (R := fun s t => t.store = s.store) h (fun _ => rfl)
    (fun h k => k.trans h) ?_ s
  intro s e he
  cases e with
  | stored store => cases he
  | _ => rfl

theorem writes_foldl_after (h : ∀ e ∈ effects, e.Licensed c) (s : Poller) :
    Schedule.Writes c.Authorizes s.schedule (effects.foldl after s).schedule := by
  refine foldl_leads (R := fun s t => Schedule.Writes c.Authorizes s.schedule t.schedule) h
    (fun s => .refl s.schedule) (fun h k => h.trans k) ?_ s
  intro s e he
  cases e with
  | acted action => exact (Schedule.writesOne_act s.schedule (he.mono fun _ hk => hk.2)).writes
  | _ => exact .refl s.schedule

/-- Where no service without a name is monitored, licensed effects leave all proper. -/
theorem proper_foldl_after (h : ∀ e ∈ effects, e.Licensed c)
    (named : ∀ service, c.registry.Monitors service → ¬ Text.AllBlank service)
    (hs : s.schedule.Proper) : (effects.foldl after s).schedule.Proper := by
  refine foldl_leads (R := fun s t => s.schedule.Proper → t.schedule.Proper) h (fun _ => id)
    (fun h k hs => k (h hs)) ?_ s hs
  intro s e he hs
  cases e with
  | acted action =>
    refine hs.act (Schedule.Action.AddsOnly.mono he ?_)
    rintro key ⟨valid, p, -, -, -, -, -, monitored⟩
    exact ⟨valid, named _ monitored⟩
  | _ => exact hs

/-- From the state on, the operation has only effects that the configuration in force licenses, also
when it fails. -/
def ObeysFrom (s : Poller) {ε α : Type} (x : EStateM ε Poller α) : Prop :=
  ∃ effects : List Effect, (∀ e ∈ effects, e.Licensed s.store.active) ∧
    final x s = effects.foldl after s

def Obeys {ε α : Type} (x : EStateM ε Poller α) : Prop := ∀ s, ObeysFrom s x

section Operations

variable {ε ε' α β : Type} {x : EStateM ε Poller α} {f : α → EStateM ε Poller β}

/-- An operation with effects that every configuration licenses. -/
theorem Within.obeys (hx : Within (fun e => ∀ c, e.Licensed c) x) : Obeys x := by
  intro s
  obtain ⟨effects, he, hs⟩ := hx s
  exact ⟨effects, fun e hm => he e hm s.store.active, hs⟩

theorem Within.obeys_of_plain {node : NodeId} (hx : Within (Effect.PlainOn node) x) : Obeys x :=
  (hx.mono fun _ he => he.licensed).obeys

theorem Obeys.pure (a : α) : Obeys (pure a : EStateM ε Poller α) :=
  fun _ => ⟨[], by simp, rfl⟩

theorem Obeys.throw (e : ε) : Obeys (throw e : EStateM ε Poller α) :=
  fun _ => ⟨[], by simp, rfl⟩

theorem Obeys.get : Obeys (get : EStateM ε Poller Poller) := fun _ => ⟨[], by simp, rfl⟩

/-- The first part leaves the configuration in force, so the second has to obey the same one. -/
theorem ObeysFrom.bind (hx : ObeysFrom s x) (hf : ∀ a t, x s = .ok a t → ObeysFrom t (f a)) :
    ObeysFrom s (x >>= f) := by
  obtain ⟨first, hfirst, hs⟩ := hx
  cases hr : x s with
  | ok a t =>
    rw [final_of_ok hr] at hs
    obtain ⟨second, hsecond, ht⟩ := hf a t hr
    have same : t.store = s.store := hs ▸ store_foldl_after hfirst s
    rw [same] at hsecond
    refine ⟨first ++ second, fun e he => ?_, ?_⟩
    · exact (List.mem_append.1 he).elim (hfirst e) (hsecond e)
    · rw [final_bind_of_ok hr, ht, List.foldl_append, ← hs]
  | error e t =>
    rw [final_of_error hr] at hs
    exact ⟨first, hfirst, (final_of_error (bind_of_error hr)).trans hs⟩

theorem Obeys.bind (hx : Obeys x) (hf : ∀ a, Obeys (f a)) : Obeys (x >>= f) :=
  fun s => (hx s).bind fun a t _ => hf a t

theorem Obeys.bind_of {Q : α → Prop} (hx : Obeys x) (hq : Returns x Q)
    (hf : ∀ a, Q a → Obeys (f a)) : Obeys (x >>= f) :=
  fun s => (hx s).bind fun a t h => hf a (hq s a t h) t

theorem Obeys.attempt (hx : Obeys x) : Obeys (attempt x : EStateM ε' Poller _) := by
  intro s
  rw [ObeysFrom, final_attempt]
  exact hx s

theorem Obeys.discard (hx : Obeys x) : Obeys (discard x) := by
  intro s
  rw [ObeysFrom, final_discard]
  exact hx s

theorem Obeys.lift {x : CallM α} (hx : Obeys x) : Obeys (liftM x : EngineM α) := by
  intro s
  rw [ObeysFrom, final_lift]
  exact hx s

end Operations

end Poller

namespace Engine

open Poller

variable {node : NodeId}

theorem obeys_ask {α : Type} (call : Call) (f : Poller → α) : Obeys (call.ask f) :=
  (within_ask f fun _ => trivial).obeys

theorem obeys_nodeLabel (node : NodeId) (n : Notification) : Obeys (nodeLabel node n) := by
  have plain : Within (Effect.PlainOn node) (nodeLabel node n) := within_nodeLabel node n
  exact plain.obeys_of_plain

theorem obeys_nodeLocation (node : NodeId) : Obeys (nodeLocation node) := by
  have plain : Within (Effect.PlainOn node) (nodeLocation node) := within_nodeLocation node
  exact plain.obeys_of_plain

theorem obeys_awaitDeletion (key : ServiceKey) : Obeys (awaitDeletion key) := by
  have plain : Within (Effect.PlainOn key.node) (awaitDeletion key) := within_awaitDeletion key
  exact plain.obeys_of_plain

/-- The package is looked up in the configuration that is in force when the key is added. -/
theorem obeys_scheduleService {key : ServiceKey} (hk : key.node.Valid) (info : NodeInfo) :
    Obeys (scheduleService key info) := by
  intro s
  refine (Obeys.get s).bind fun u t ht => ?_
  cases ht
  split
  · exact Obeys.pure _ s
  · next found =>
    have authorized := Active.authorizes_of_packageFor? found
    have added : Within (fun e => e.Licensed s.store.active) (addToSchedule key info) :=
      within_addToSchedule trivial ⟨hk, authorized⟩
    exact added.lift s

theorem obeys_scheduleKeys (n : Notification) (info : NodeInfo) {keys : List ServiceKey}
    (hk : ∀ key ∈ keys, key.node.Valid) : Obeys (scheduleKeys n info keys) := by
  induction keys with
  | nil => exact .pure _
  | cons key keys ih =>
    have rest := ih fun k h => hk k (List.mem_cons_of_mem _ h)
    have close : Within (Effect.PlainOn key.node) (closeOutages (.service key) n) :=
      within_closeOutages trivial rfl
    refine .bind (obeys_scheduleService (hk key List.mem_cons_self) info) fun added =>
      .bind .get fun s => ?_
    dsimp only
    split
    · exact .bind close.obeys_of_plain.lift fun _ => .bind rest fun _ => .pure _
    · exact .bind rest fun _ => .pure _

theorem obeys_reconcile (hn : node.Valid) (force : Bool) (n : Notification) :
    Obeys (reconcile node force n) := by
  refine .bind_of (within_listedKeys node).obeys_of_plain (returns_listedKeys node) fun listed hl =>
    .bind_of (obeys_ask _ _).lift (.lift (returns_trackedKeys node)) fun tracked ht =>
      .bind (obeys_ask _ _).lift fun info => ?_
  extract_lets removed common goOn
  have valid (keys : List ServiceKey) : ∀ key ∈ listed.filter (· ∉ keys), key.node.Valid :=
    fun key hk => hl key (List.mem_filter.1 hk).1 ▸ hn
  have rest (label : Option String) : Obeys (goOn label) :=
    .bind (obeys_nodeLocation node) fun _ =>
      .bind (within_removeKeys n fun k h => ht k (List.mem_filter.1 h).1).obeys_of_plain fun _ =>
        .bind (within_removeForRescheduling force fun k h =>
          ht k (List.mem_filter.1 h).1).obeys_of_plain fun _ =>
            .bind (obeys_scheduleKeys n _ (valid _)) fun _ => .pure _
  split
  · exact .bind (.pure _) rest
  · exact .bind (obeys_nodeLabel node n) rest

theorem obeys_rescheduleNodes (n : Notification) {nodes : List NodeId}
    (hn : ∀ node ∈ nodes, node.Valid) : Obeys (rescheduleNodes n nodes) := by
  induction nodes with
  | nil => exact .pure _
  | cons node nodes ih =>
    have first := obeys_reconcile (hn node List.mem_cons_self) true n
    exact .bind (.discard (.attempt first)) fun _ => ih fun m h => hn m (List.mem_cons_of_mem _ h)

theorem obeys_given {α : Type} {field : Except InputError α} {next : α → EngineM Disposition}
    (h : ∀ a, field = .ok a → Obeys (next a)) : Obeys (given field next) := by
  unfold given
  split
  · exact h _ rfl
  · exact .pure _

theorem obeys_serviceGained (n : Notification) (hn : node.Valid) :
    Obeys (serviceGained n node) := by
  refine obeys_given fun subject _ => .bind (obeys_ask _ _).lift fun mark => ?_
  let key : ServiceKey := ⟨node, subject.1, subject.2⟩
  have hk : key.node.Valid := hn
  have add : Obeys (do
      let label ← nodeLabel node n
      let location ← nodeLocation node
      discard (scheduleService key { label, location })
      return Disposition.applied) :=
    .bind (obeys_nodeLabel node n) fun _ =>
      .bind (obeys_nodeLocation node) fun _ =>
        .bind (.discard (obeys_scheduleService hk _)) fun _ => .pure _
  split
  · exact .pure _
  · exact .bind (obeys_awaitDeletion _) fun _ => add
  · exact add

end Engine

end Polling
