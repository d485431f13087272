import Polling.Proofs.Engine.Handling
import Polling.Proofs.Engine.Outcome

namespace Polling

namespace Poller

variable {s : Poller} {node : NodeId} {force : Bool} {n : Notification} {key : ServiceKey}

def SafeAt (s : Poller) (key : ServiceKey) : Prop :=
  key ∈ s.outages.openKeys → s.schedule.mark? key = some .scheduled

def Dangles (s : Poller) (key : ServiceKey) : Prop :=
  s.schedule.mark? key = none ∧ key ∈ s.outages.openKeys

theorem SafeAt.not_dangles (h : s.SafeAt key) : ¬ s.Dangles key := by
  rintro ⟨hm, ho⟩
  rw [h ho] at hm
  cases hm

/-- The inventory lists the key, and under the given configuration only remote collectors poll
it. -/
def RemoteOnly (s : Poller) (store : Store) (key : ServiceKey) : Prop :=
  (key.address, key.service) ∈ s.inventory.services key.node ∧
    store.active.Polls key.address key.service ∧
      ¬ store.active.PollsLocally key.address key.service

theorem mem_openKeys_reconciled :
    key ∈ (s.reconciled node force n).outages.openKeys ↔
      key ∈ s.outages.openKeys ∧ key ∉ s.unlisted node ∧
        (key ∈ s.missing node force → s.store.active.Polls key.address key.service) := by
  rw [reconciled, OutageLog.mem_openKeys_closeAll, List.mem_append, not_or, summary,
    List.mem_filter, decide_eq_true_eq, not_and, Classical.not_not]

/-- A scheduled key that is not removed stays scheduled. -/
theorem mark?_reconciled_of_kept (hc : s.schedule.Covered)
    (hm : s.schedule.mark? key = some .scheduled)
    (hu : key ∉ s.unlisted node) (hr : key ∉ s.redone node force) :
    (s.reconciled node force n).schedule.mark? key = some .scheduled := by
  have out : key ∉ s.unlisted node ++ s.redone node force := by
    rw [List.mem_append, not_or]
    exact ⟨hu, hr⟩
  have kept : key ∉ s.missing node force := by
    intro h
    obtain ⟨hl, h⟩ := mem_missing.1 h
    exact hr (h (mem_common.2 ⟨Option.isSome_of_eq_some hm, (mem_listed.1 hl).1, hl⟩))
  rw [mark?_reconciled hc, if_neg kept, mark?_cleared hc, if_neg out, hm]
  split <;> rfl

/-- A reconciliation does nothing to the scheduled keys of other nodes. -/
theorem safeAt_reconciled_of_ne (hc : s.schedule.Covered) (hn : key.node ≠ node)
    (hs : s.SafeAt key) : (s.reconciled node force n).SafeAt key := by
  intro ho
  have hr : key ∉ s.redone node force := fun h =>
    hn (mem_common.1 (redone_subset_common h)).2.1
  exact mark?_reconciled_of_kept hc (hs (mem_openKeys_reconciled.1 ho).1)
    (mem_openKeys_reconciled.1 ho).2.1 hr

/-- A reconciliation closes no outage of another node. -/
theorem mem_openKeys_reconciled_of_ne (hn : key.node ≠ node) (ho : key ∈ s.outages.openKeys) :
    key ∈ (s.reconciled node force n).outages.openKeys := by
  refine mem_openKeys_reconciled.2 ⟨ho, ?_, ?_⟩
  · exact fun h => hn (mem_unlisted.1 h).2.1
  · exact fun h => absurd (mem_listed.1 (mem_missing.1 h).1).1 hn

theorem dangles_reconciled_of_ne (hc : s.schedule.Covered) (hn : key.node ≠ node)
    (hd : s.Dangles key) : (s.reconciled node force n).Dangles key := by
  refine ⟨?_, mem_openKeys_reconciled_of_ne hn hd.2⟩
  have kept : key ∉ s.missing node force := fun h =>
    hn (mem_listed.1 (mem_missing.1 h).1).1
  rw [mark?_reconciled hc, if_neg kept, mark?_cleared hc, hd.1]
  simp

/-- Without force the scheduled keys that are listed are left alone. -/
theorem safeAt_reconciled_unforced (hc : s.schedule.Covered) (hs : s.SafeAt key) :
    (s.reconciled node false n).SafeAt key := by
  intro ho
  have hm := hs (mem_openKeys_reconciled.1 ho).1
  have hr : key ∉ s.redone node false := by
    intro h
    have hp := ((mem_redone_unforced hc).1 h).2.1
    rw [hm] at hp
    cases hp
  exact mark?_reconciled_of_kept hc hm (mem_openKeys_reconciled.1 ho).2.1 hr

/-- By force a key that is polled remotely only is removed, and its outage stays open. -/
theorem dangles_reconciled_force (hc : s.schedule.Covered) (ho : key ∈ s.outages.openKeys)
    (hr : s.RemoteOnly s.store key) : (s.reconciled key.node true n).Dangles key := by
  obtain ⟨hl, hp, hlocal⟩ := hr
  constructor
  · rw [mark?_reconciled_force hc n rfl, if_neg fun h => hlocal h.2]
  · refine mem_openKeys_reconciled.2 ⟨ho, ?_, fun _ => hp⟩
    exact not_mem_unlisted (mem_listed.2 ⟨rfl, hl⟩)

/-- By force every other key with an open outage is scheduled again. -/
theorem safeAt_reconciled_force (hc : s.schedule.Covered) (hs : s.SafeAt key)
    (hr : ¬ s.RemoteOnly s.store key) : (s.reconciled key.node true n).SafeAt key := by
  intro ho
  obtain ⟨ho, hu, hp⟩ := mem_openKeys_reconciled.1 ho
  have hl : key ∈ s.listed key.node := by
    apply Decidable.byContradiction
    intro hl
    exact hu (mem_unlisted.2 ⟨Option.isSome_of_eq_some (hs ho), rfl, hl⟩)
  rw [missing_force] at hp
  have hlocal : s.store.active.PollsLocally key.address key.service := by
    apply Decidable.byContradiction
    intro hlocal
    exact hr ⟨(mem_listed.1 hl).2, hp hl, hlocal⟩
  rw [mark?_reconciled_force hc n rfl, if_pos ⟨hl, hlocal⟩]

theorem dangles_reconciledAll (h : s.Ready) (hp : s.Patient) (hd : s.Dangles key)
    (hr : s.RemoteOnly s.store key) (nodes : List NodeId) :
    (s.reconciledAll n nodes).Dangles key := by
  induction nodes generalizing s with
  | nil => exact hd
  | cons node nodes ih =>
    have hd' : (s.reconciled node true n).Dangles key := by
      by_cases hn : key.node = node
      · subst hn
        exact dangles_reconciled_force h.covered hd.2 hr
      · exact dangles_reconciled_of_ne h.covered hn hd
    exact ih (Engine.ready_reconciled h hp node true n) hp hd' hr

/-- If its node is among those reconciled by force, a key that is polled remotely only is left
behind. -/
theorem dangles_reconciledAll_of_mem (h : s.Ready) (hp : s.Patient)
    (ho : key ∈ s.outages.openKeys) (hr : s.RemoteOnly s.store key) {nodes : List NodeId}
    (hn : key.node ∈ nodes) : (s.reconciledAll n nodes).Dangles key := by
  induction nodes generalizing s with
  | nil => cases hn
  | cons node nodes ih =>
    have h' := Engine.ready_reconciled h hp node true n
    by_cases e : key.node = node
    · subst e
      exact dangles_reconciledAll h' hp (dangles_reconciled_force h.covered ho hr) hr nodes
    · exact ih h' hp (mem_openKeys_reconciled_of_ne e ho) hr (List.mem_of_ne_of_mem e hn)

theorem safeAt_reconciledAll (h : s.Ready) (hp : s.Patient) (hs : s.SafeAt key)
    (hr : ¬ s.RemoteOnly s.store key) (nodes : List NodeId) :
    (s.reconciledAll n nodes).SafeAt key := by
  induction nodes generalizing s with
  | nil => exact hs
  | cons node nodes ih =>
    have hs' : (s.reconciled node true n).SafeAt key := by
      by_cases hn : key.node = node
      · subst hn
        exact safeAt_reconciled_force h.covered hs hr
      · exact safeAt_reconciled_of_ne h.covered hn hs
    exact ih (Engine.ready_reconciled h hp node true n) hp hs' hr

theorem mem_openKeys_of_reconciledAll {nodes : List NodeId}
    (h : key ∈ (s.reconciledAll n nodes).outages.openKeys) : key ∈ s.outages.openKeys := by
  induction nodes generalizing s with
  | nil => exact h
  | cons node nodes ih => exact (mem_openKeys_reconciled.1 (ih h)).1

def LeftIf (s : Poller) (key : ServiceKey) (p : Prop) : Prop :=
  (p → s.Dangles key) ∧ (¬ p → s.SafeAt key)

theorem SafeAt.leftIf {p : Prop} (h : s.SafeAt key) (hp : ¬ p) : s.LeftIf key p :=
  ⟨fun h' => absurd h' hp, fun _ => h⟩

theorem LeftIf.congr {p q : Prop} (h : s.LeftIf key p) (e : q ↔ p) : s.LeftIf key q :=
  ⟨fun hq => h.1 (e.1 hq), fun hq => h.2 (mt e.2 hq)⟩

/-- All tracked nodes are reconciled, so a key with an open outage is too. -/
theorem leftIf_rescheduled (h : s.Ready) (hp : s.Patient) (hs : s.SafeAt key) (store : Store) :
    (s.rescheduled n store).LeftIf key
      (key ∈ s.outages.openKeys ∧ s.RemoteOnly store.rebuild key) := by
  have h' := h.withStore store.rebuild
  constructor
  · rintro ⟨ho, hr⟩
    apply dangles_reconciledAll_of_mem h' hp ho hr
    apply Schedule.mem_nodeIds.2
    exact h.trim.isSome_node? (Option.isSome_of_eq_some (hs ho))
  · intro hn ht
    have ho := mem_openKeys_of_reconciledAll ht
    exact safeAt_reconciledAll h' hp hs (fun hr => hn ⟨ho, hr⟩) _ ht

theorem safeAt_withdraw (hs : s.SafeAt key) (scope : Scope) : (s.withdraw n scope).SafeAt key := by
  intro ho
  obtain ⟨ho, hk⟩ := (OutageLog.mem_openKeys_close _ _ _ _).1 ho
  change (s.schedule.act (.delete scope)).mark? key = _
  rw [Schedule.mark?_act_delete, if_neg hk]
  exact hs ho

theorem safeAt_setLabel (hs : s.SafeAt key) (node : NodeId) (label : String) :
    (s.acted (.setLabel node label)).SafeAt key := by
  intro ho
  change (s.schedule.act (.setLabel node label)).mark? key = _
  rw [Schedule.mark?_act_setLabel]
  exact hs ho

/-- The worker drops no scheduled key. -/
theorem safeAt_work (hs : s.SafeAt key) (count : Nat) : (s.acted (.work count)).SafeAt key := by
  intro ho
  change (s.schedule.act (.work count)).mark? key = _
  rw [Schedule.mark?_act_work, hs ho]
  rfl

theorem safeAt_add (hs : s.SafeAt key) (k : ServiceKey) (info : NodeInfo) :
    (s.acted (.add k info)).SafeAt key := by
  intro ho
  change (s.schedule.act (.add k info)).mark? key = _
  rw [Schedule.mark?_act_add, hs ho]
  simp

theorem safeAt_gain (hc : s.schedule.Covered) (hs : s.SafeAt key) {k : ServiceKey}
    (hk : s.schedule.mark? k ≠ some .scheduled) : (s.gain n k).SafeAt key := by
  -- The key that is gained has no open outage, so dropping it does no harm.
  have waited : Poller.SafeAt { s with schedule := s.schedule.expel k } key := by
    intro ho
    change (s.schedule.expel k).mark? key = _
    have hm := hs ho
    have hne : key ≠ k := by
      rintro rfl
      exact hk hm
    cases ht : s.schedule.mark? k with
    | none => rw [Schedule.expel_of_untracked ht, hm]
    | some mark =>
      rw [Schedule.mark?_expel hc (Option.isSome_of_eq_some ht), if_neg hne, hm]
      rfl
  unfold gain
  split
  · exact safeAt_add waited k _
  · exact waited

/-- An interface that moves takes its services along, and leaves their outages behind. -/
theorem leftIf_reparent (h : s.Ready) (hs : s.SafeAt key) (address : Address)
    (source target : NodeId) :
    (s.acted (.reparent address source target)).LeftIf key
      (key ∈ s.outages.openKeys ∧ key.node = source ∧ key.address = address ∧ source ≠ target ∧
        (s.schedule.node? target).isSome) := by
  constructor
  · rintro ⟨ho, hn, ha, hne, ht⟩
    refine ⟨?_, ho⟩
    -- The key is scheduled, so the node it is on is known.
    have hsource : (s.schedule.node? source).isSome := by
      rw [← hn]
      exact h.trim.isSome_node? (Option.isSome_of_eq_some (hs ho))
    change (s.schedule.act (.reparent address source target)).mark? key = _
    rw [Schedule.mark?_act_reparent, if_pos ⟨hne, ht, hsource⟩, if_pos ⟨hn, ha⟩]
  · intro hleft ho
    change (s.schedule.act (.reparent address source target)).mark? key = _
    have hm := hs ho
    rw [Schedule.mark?_act_reparent, hm]
    split
    · next hc =>
      have out : key ∉ Scope.interface source address := fun hk =>
        hleft ⟨ho, hk.1, hk.2, hc.1, hc.2.1⟩
      rw [if_neg out]
      split <;> rfl
    · rfl

end Poller

end Polling
