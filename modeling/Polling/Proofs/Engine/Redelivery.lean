import Polling.Proofs.Engine.Agreement
import Polling.Proofs.Engine.Demand
import Polling.Proofs.Engine.Reload

namespace Polling

namespace Store

/-- Reading the same document again leads to the same configuration. -/
theorem active_reload_again (s : Store) :
    (Poller.final reload (Poller.final reload s).rebuild).rebuild.active =
      (Poller.final reload s).rebuild.active := by
  have same : (Poller.final reload s).rebuild.read = s.read := by
    rw [final_reload]
    split <;> rfl
  rw [final_reload, same, final_reload]
  cases s.read <;> rfl

end Store

namespace Poller

open Engine

variable {s t : Poller} {n : Notification}

def settled (s : Poller) : Poller := { s with schedule := s.schedule.settle }

theorem ready_settled (h : s.Ready) : s.settled.Ready :=
  ⟨⟨h.faults, h.worker, h.covered.settle⟩, h.trim.settle⟩

/-- With no removal pending there is nothing for the worker to do. -/
theorem agrees_settled (h : s.Ready) (hq : s.schedule.Quiet) : Agrees s.settled s :=
  .of_tracked (hq.mark?_settle h.covered) (hq.node?_settle h.covered h.trim) rfl rfl

/-- What a demand asks for is there already. -/
def Satisfies (s : Poller) (n : Notification) : Demand → Prop
  | .poll key =>
    s.store.active.PollsLocally key.address key.service → s.schedule.mark? key = some .scheduled
  | .withdraw scope => ∀ key ∈ scope, s.schedule.mark? key = none ∧ key ∉ s.outages.openKeys
  | .move address source target =>
    source = target ∨ s.schedule.node? source = none ∨ s.schedule.node? target = none ∨
      ¬ s.schedule.Tracks (.interface source address)
  | .label node label => ∀ info ∈ s.schedule.node? node, info.label = some label
  | .reconcile node false => s.store.rebuild.active = s.store.active ∧ s.Stable node
  | .reconcile node true => s.store.rebuild.active = s.store.active ∧ s.Aligned n node
  | .realign =>
    (final Store.reload s.store).rebuild.active = s.store.active ∧
      ∀ node ∈ s.schedule.nodeIds, s.Aligned n node
  | .reload =>
    Addressed s n → ∀ c, s.store.read = .ok c →
      s.store.derive c = s.store.active ∧ ∀ node ∈ s.schedule.nodeIds, s.Aligned n node

/-- Withdrawing a scope of which nothing is tracked and no outage is open does nothing. -/
theorem agrees_withdraw {scope : Scope}
    (hd : ∀ key ∈ scope, s.schedule.mark? key = none ∧ key ∉ s.outages.openKeys) :
    Agrees (s.withdraw n scope) s := by
  have untracked : ¬ s.schedule.Tracks scope := by
    rw [Schedule.tracks_iff]
    rintro ⟨key, hk, ht⟩
    rw [(hd key hk).1] at ht
    cases ht
  rw [withdraw_of_same (Schedule.act_delete_of_not_tracks untracked)]
  exact ⟨rfl, rfl, OutageLog.outages_close_of_closed (fun key hk => (hd key hk).2) _, rfl⟩

/-- Labelling a node as it is labelled does nothing. -/
theorem agrees_setLabel {node : NodeId} {label : String}
    (hd : ∀ info ∈ s.schedule.node? node, info.label = some label) :
    Agrees (s.acted (.setLabel node label)) s := by
  refine .of_tracked (Schedule.mark?_act_setLabel _ node label) (fun m => ?_) rfl rfl
  refine (Schedule.node?_act_setLabel _ node label m).trans ?_
  split
  · next hm =>
    subst hm
    cases hk : s.schedule.node? m with
    | none => rfl
    | some info => rw [Option.map_some, ← hd info hk]
  · rfl

/-- Scheduling all nodes afresh under the configuration in force does nothing if each is in line. -/
theorem agrees_rescheduled (h : s.Ready) (hp : s.Patient) (hq : s.schedule.Quiet) {store : Store}
    (hs : store.rebuild.active = s.store.active)
    (ha : ∀ node ∈ s.schedule.nodeIds, s.Aligned n node) : Agrees (s.rescheduled n store) s := by
  have configured : Agrees { s with store := store.rebuild } s := ⟨rfl, rfl, rfl, hs⟩
  have aligned (node : NodeId) (hn : node ∈ s.schedule.nodeIds) :
      Aligned { s with store := store.rebuild } n node := (ha node hn).congr configured rfl
  exact (agrees_reconciledAll (h.withStore store.rebuild) hp hq aligned).trans configured

/-- A demand that is satisfied is met by doing nothing. -/
theorem agrees_met (h : s.Ready) (hp : s.Patient) (hq : s.schedule.Quiet) {d : Demand}
    (hd : s.Satisfies n d) : Agrees (s.met n (some d)) s := by
  cases d with
  | poll key =>
    rw [met]
    split
    · exact .refl s
    · next hm =>
      -- No removal is pending, so a key that is not scheduled is not tracked.
      have untracked : s.schedule.mark? key = none := by
        rw [← Option.not_isSome_iff_eq_none]
        exact fun ht => hm (hq.eq_scheduled ht)
      rw [gain, Schedule.expel_of_untracked untracked, if_neg fun hl => hm (hd hl)]
      exact .refl s
  | withdraw scope => exact agrees_withdraw hd
  | move address source target =>
    rw [met, acted_of_same (Schedule.act_reparent_of_not hd)]
    exact .refl s
  | label node label => exact agrees_setLabel hd
  | reconcile node force =>
    have active : s.store.rebuild.active = s.store.active := by cases force <;> exact hd.1
    have configured : Agrees { s with store := s.store.rebuild } s := ⟨rfl, rfl, rfl, active⟩
    cases force with
    | false => exact ((hd.2.congr configured rfl).agrees_reconciled h.covered hq).trans configured
    | true =>
      exact ((hd.2.congr configured rfl).agrees_reconciled (h.withStore _) hp hq).trans configured
  | realign => exact agrees_rescheduled h hp hq hd.1 hd.2
  | reload =>
    rw [met]
    split
    · next addressed =>
      cases hc : s.store.read with
      | error e => exact ⟨rfl, rfl, rfl, rfl⟩
      | ok c =>
        obtain ⟨active, aligned⟩ := hd addressed c hc
        have same : Agrees (s.rescheduled n (s.store.install c)) s :=
          agrees_rescheduled h hp hq active aligned
        exact ⟨same.marks, same.nodes, same.outages, same.active⟩
    · exact .refl s

/-- Scheduling all nodes afresh leaves in line every node that is tracked in the end. -/
theorem aligned_rescheduled (h : s.Ready) (hp : s.Patient) (hq : s.schedule.Quiet)
    (n : Notification) (store : Store) {node : NodeId}
    (hn : node ∈ (s.rescheduled n store).settled.schedule.nodeIds) :
    (s.rescheduled n store).settled.Aligned n node := by
  have hr := h.withStore store.rebuild
  have ready : (s.rescheduled n store).Ready := ready_reconciledAll hr hp n _
  have quiet : (s.rescheduled n store).schedule.Quiet := quiet_reconciledAll hr hp hq n _
  have same := agrees_settled ready quiet
  -- A node that is tracked in the end was tracked before, so it is among those reconciled.
  have known : node ∈ s.schedule.nodeIds := by
    rw [Schedule.mem_nodeIds] at hn ⊢
    rw [same.node?] at hn
    apply Decidable.byContradiction
    intro unknown
    rw [(realigned_rescheduled h hp n store).others node
      (Option.not_isSome_iff_eq_none.1 unknown)] at hn
    cases hn
  exact (aligned_reconciledAll hr hp known).congr same rfl

/-- A key that is gained is scheduled if a local package polls it. -/
theorem mark?_met_poll (h : s.schedule.Covered) {key : ServiceKey}
    (hl : s.store.active.PollsLocally key.address key.service) :
    (s.met n (some (.poll key))).schedule.mark? key = some .scheduled := by
  rw [met]
  split
  · assumption
  · rw [gain, if_pos hl]
    refine (Schedule.mark?_act_add _ key _ key).trans ?_
    exact if_pos ⟨rfl, Schedule.mark?_expel_self h key⟩

theorem store_met_poll (s : Poller) (n : Notification) (key : ServiceKey) :
    (s.met n (some (.poll key))).store = s.store := by
  rw [met]
  split
  · rfl
  · exact store_gain s n key

theorem satisfies_reload (h : s.Ready) (hp : s.Patient) (hq : s.schedule.Quiet) :
    (s.met n (some .reload)).settled.Satisfies n .reload := by
  by_cases ha : Addressed s n
  · cases hr : s.store.read with
    | error e =>
      have failed : s.met n (some .reload) =
          { s with sent := s.sent ++ [outcome s (some (.config e))] } := by
        rw [met, if_pos ha, hr]
      rw [failed]
      intro _ c hc
      rw [show s.store.read = .ok c from hc] at hr
      cases hr
    | ok c =>
      have done : s.met n (some .reload) =
          { s.rescheduled n (s.store.install c) with sent := s.sent ++ [outcome s none] } := by
        rw [met, if_pos ha, hr]
      rw [done]
      intro _ c' hc
      change (s.rescheduled n (s.store.install c)).store.read = .ok c' at hc
      change (s.rescheduled n (s.store.install c)).store.derive c' =
        (s.rescheduled n (s.store.install c)).store.active ∧ _
      rw [store_rescheduled] at hc ⊢
      -- The document has not changed since it was read.
      rw [show s.store.read = .ok c' from hc] at hr
      cases hr
      refine ⟨rfl, fun node hn => ?_⟩
      exact (aligned_rescheduled h hp hq n _ hn).congr ⟨rfl, rfl, rfl, rfl⟩ rfl
  · rw [met, if_neg ha]
    exact fun addressed => absurd addressed ha

/-- A demand is satisfied once it is met and the worker has carried out all that is queued. -/
theorem satisfies_met (h : s.Ready) (hp : s.Patient) (hq : s.schedule.Quiet) {d : Demand}
    (ready : (s.met n (some d)).Ready) : (s.met n (some d)).settled.Satisfies n d := by
  cases d with
  | poll key =>
    intro hl
    have locally : s.store.active.PollsLocally key.address key.service := by
      rw [← store_met_poll s n key]
      exact hl
    refine (Schedule.mark?_settle ready.covered key).trans ?_
    rw [mark?_met_poll h.covered locally]
    rfl
  | withdraw scope =>
    intro key hk
    constructor
    · refine (Schedule.mark?_settle ready.covered key).trans ?_
      change ((s.schedule.act (.delete scope)).mark? key).filter _ = _
      rw [Schedule.mark?_act_delete, if_pos hk]
      cases s.schedule.mark? key <;> rfl
    · exact fun ho => ((OutageLog.mem_openKeys_close _ _ _ _).1 ho).2 hk
  | move address source target =>
    have same := agrees_settled ready (hq.reparent address source target)
    rw [Satisfies, same.node?, same.node?, same.tracks_iff]
    exact s.schedule.not_movable_act_reparent address source target
  | label node label =>
    have same := agrees_settled ready (hq.setLabel node label)
    intro info hi
    have labelled := s.schedule.node?_act_setLabel node label node
    rw [if_pos rfl] at labelled
    rw [same.node?, show (s.met n (some (.label node label))).schedule.node? node = _ from
      labelled] at hi
    obtain ⟨old, -, rfl⟩ := Option.map_eq_some_iff.1 hi
    rfl
  | reconcile node force =>
    have hr := h.withStore s.store.rebuild
    have same := agrees_settled ready (quiet_reconciled hr.covered hq node force n)
    cases force with
    | false => exact ⟨rfl, (stable_reconciled hr.covered hq).congr same rfl⟩
    | true => exact ⟨rfl, (aligned_reconciled hr).congr same rfl⟩
  | realign =>
    refine ⟨?_, fun node hn => aligned_rescheduled h hp hq n _ hn⟩
    change (final Store.reload (s.rescheduled n _).store).rebuild.active =
      (s.rescheduled n _).store.active
    rw [store_rescheduled]
    exact Store.active_reload_again s.store
  | reload => exact satisfies_reload h hp hq

def delivered (s : Poller) (n : Notification) : Poller := (final (handle n) s).settled

theorem ready_handled (h : s.Ready) (n : Notification) : (final (handle n) s).Ready :=
  h.evolves (orderly_handle n s)

theorem patient_delivered (hp : s.Patient) (n : Notification) : (s.delivered n).Patient := by
  have handled : (final (handle n) s).Patient := Patient.evolves hp (orderly_handle n s)
  exact handled

/-- Of every kind, a notification that is delivered twice leaves what it leaves when it is delivered
once. The removals that were pending before are carried out already. -/
theorem redelivery_agrees (hs : s.Reachable) (hp : s.Patient) (hq : s.schedule.Quiet)
    (n : Notification) : Agrees ((s.delivered n).delivered n) (s.delivered n) := by
  have h := hs.ready
  have once := ready_handled h n
  have ready : (s.delivered n).Ready := ready_settled once
  have patient := patient_delivered hp n
  have quiet : (s.delivered n).schedule.Quiet := Schedule.quiet_settle once.covered
  -- The first delivery leaves the demand satisfied, so the second is met by doing nothing.
  have again : Agrees (final (handle n) (s.delivered n)) (s.delivered n) := by
    rw [final_handle ready patient]
    cases hd : n.demand? with
    | none => exact .refl _
    | some d =>
      apply agrees_met ready patient quiet
      rw [delivered, final_handle h hp, hd]
      rw [final_handle h hp, hd] at once
      exact satisfies_met h hp hq once
  exact (agrees_settled (ready_handled ready n) (again.quiet quiet)).trans again

end Poller

namespace Sample

/-- Both services are scheduled, and the document no longer has ICMP. -/
def watched : Poller :=
  { start with
    store := reloadable.store
    schedule := Schedule.run {} [.add http {}, .add icmp {}] }

theorem reachable_watched : watched.Reachable :=
  .configured reloadable.store <| .acted (.add icmp {}) <| .acted (.add http {}) <|
    .start start.store start.inventory {}

def interfaceGone : Notification :=
  { change with kind := .interfaceDeleted, address := some address }

end Sample

namespace Poller

/-- The second reload finds HTTP as it is to be, and the second deletion finds nothing. -/
theorem reload_and_deletion_twice :
    let once (n : Notification) := Sample.watched.delivered n
    let twice (n : Notification) := (Sample.watched.delivered n).delivered n
    (Agrees (twice Sample.reload) (once Sample.reload) ∧
      (twice Sample.reload).schedule.mark? Sample.http = some .scheduled) ∧
    Agrees (twice Sample.interfaceGone) (once Sample.interfaceGone) ∧
      (twice Sample.interfaceGone).schedule.mark? Sample.http = none := by
  intro once twice
  have patient : Sample.watched.Patient := by decide
  have quiet : Sample.watched.schedule.Quiet := by decide +kernel
  have reloaded := redelivery_agrees Sample.reachable_watched patient quiet Sample.reload
  have deleted := redelivery_agrees Sample.reachable_watched patient quiet Sample.interfaceGone
  refine ⟨⟨reloaded, ?_⟩, deleted, ?_⟩
  · rw [reloaded.mark?]
    decide +kernel
  · rw [deleted.mark?]
    decide +kernel

end Poller

end Polling
