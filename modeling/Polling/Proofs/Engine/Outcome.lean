import Polling.Proofs.Engine.Plan

namespace Polling

namespace Poller

variable {s : Poller} {node : NodeId} {force : Bool} {key : ServiceKey}

theorem mem_unlisted :
    key ∈ s.unlisted node ↔
      (s.schedule.mark? key).isSome ∧ key.node = node ∧ key ∉ s.listed node := by
  rw [unlisted, List.mem_filter, Schedule.mem_keysIn, Scope.mem_node, decide_eq_true_eq, and_assoc]

theorem mem_common :
    key ∈ s.common node ↔
      (s.schedule.mark? key).isSome ∧ key.node = node ∧ key ∈ s.listed node := by
  rw [common, List.mem_filter, Schedule.mem_keysIn, Scope.mem_node, decide_eq_true_eq, and_assoc]

theorem ascending_common (s : Poller) (node : NodeId) : ServiceKey.Ascending (s.common node) :=
  (s.schedule.ascending_keysIn _).filter _

/-- The tracked keys of the node that are not listed, in terms of the inventory. -/
theorem lists_unlisted (s : Poller) (node : NodeId) :
    ServiceKey.Lists (s.unlisted node) fun key =>
      key.node = node ∧ (s.schedule.mark? key).isSome ∧
        (key.address, key.service) ∉ s.inventory.services node := by
  refine ⟨(s.schedule.ascending_keysIn _).filter _, fun key => ?_⟩
  rw [mem_unlisted, mem_listed]
  constructor
  · rintro ⟨ht, hk, hl⟩
    exact ⟨hk, ht, fun h => hl ⟨hk, h⟩⟩
  · rintro ⟨hk, ht, hl⟩
    exact ⟨ht, hk, fun h => hl h.2⟩

theorem lists_common (s : Poller) (node : NodeId) :
    ServiceKey.Lists (s.common node) fun key =>
      key.node = node ∧ (s.schedule.mark? key).isSome ∧
        (key.address, key.service) ∈ s.inventory.services node := by
  refine ⟨ascending_common s node, fun key => ?_⟩
  rw [mem_common, mem_listed]
  constructor
  · rintro ⟨ht, hk, -, hl⟩
    exact ⟨hk, ht, hl⟩
  · rintro ⟨hk, ht, hl⟩
    exact ⟨ht, hk, hk, hl⟩

theorem redone_subset_common : s.redone node force ⊆ s.common node :=
  Schedule.redone_subset _ _ _

theorem mem_missing :
    key ∈ s.missing node force ↔
      key ∈ s.listed node ∧ (key ∈ s.common node → key ∈ s.redone node force) := by
  rw [missing, List.mem_filter, decide_eq_true_eq, List.mem_filter, decide_eq_true_eq]
  simp only [not_and, Classical.not_not]

theorem not_mem_unlisted (h : key ∈ s.listed node) : key ∉ s.unlisted node :=
  fun hu => (mem_unlisted.1 hu).2.2 h

theorem not_mem_missing (h : key ∉ s.listed node) : key ∉ s.missing node force :=
  fun hm => h (mem_missing.1 hm).1

/-- All that is removed is there. -/
theorem isSome_of_mem_removed (h : key ∈ s.unlisted node ++ s.redone node force) :
    (s.schedule.mark? key).isSome ∧ key.node = node := by
  rcases List.mem_append.1 h with hk | hk
  · exact ⟨(mem_unlisted.1 hk).1, (mem_unlisted.1 hk).2.1⟩
  · have hc := mem_common.1 (redone_subset_common hk)
    exact ⟨hc.1, hc.2.1⟩

/-- Once all is removed that is to be removed, the scheduled keys are left, or all if nothing had to
be removed. -/
theorem mark?_cleared (hs : s.schedule.Covered) (k : ServiceKey) :
    (s.cleared node force).mark? k =
      if s.unlisted node ++ s.redone node force = [] then s.schedule.mark? k
      else if k ∈ s.unlisted node ++ s.redone node force then none
      else (s.schedule.mark? k).filter (· = .scheduled) := by
  rw [cleared]
  split
  · next h =>
    rw [h]
    rfl
  · next h =>
    obtain ⟨key, hk⟩ := List.exists_mem_of_ne_nil _ h
    exact Schedule.mark?_expelAll hs ⟨key, hk, (isSome_of_mem_removed hk).1⟩ k

/-- What is taken for missing is not tracked any more. -/
theorem mark?_cleared_of_missing (hs : s.schedule.Covered) (h : key ∈ s.missing node force) :
    (s.cleared node force).mark? key = none := by
  obtain ⟨hl, hr⟩ := mem_missing.1 h
  rw [mark?_cleared hs]
  by_cases hk : (s.schedule.mark? key).isSome
  · have hin : key ∈ s.unlisted node ++ s.redone node force :=
      List.mem_append_right _ (hr (mem_common.2 ⟨hk, (mem_listed.1 hl).1, hl⟩))
    rw [if_neg (List.ne_nil_of_mem hin), if_pos hin]
  · rw [Option.not_isSome_iff_eq_none] at hk
    simp [hk]

/-- What is missing and polled is scheduled, and all else is as it was left. -/
theorem mark?_reconciled (hs : s.schedule.Covered) (n : Notification) (k : ServiceKey) :
    (s.reconciled node force n).schedule.mark? k =
      if k ∈ s.missing node force then
        if s.store.active.PollsLocally k.address k.service then some .scheduled else none
      else (s.cleared node force).mark? k := by
  rw [reconciled, Schedule.mark?_addAll]
  simp only [List.mem_filter, decide_eq_true_eq]
  by_cases hm : k ∈ s.missing node force
  · simp [hm, mark?_cleared_of_missing hs hm]
  · simp [hm]

/-- Of the keys of the node that are not listed none is left. -/
theorem mark?_reconciled_of_not_listed (hs : s.schedule.Covered) (n : Notification)
    (hk : key.node = node) (hl : key ∉ s.listed node) :
    (s.reconciled node force n).schedule.mark? key = none := by
  rw [mark?_reconciled hs, if_neg (not_mem_missing hl), mark?_cleared hs]
  cases hm : s.schedule.mark? key with
  | none =>
    split
    · rfl
    · split <;> rfl
  | some mark =>
    have removed : key ∈ s.unlisted node ++ s.redone node force :=
      List.mem_append_left _ (mem_unlisted.2 ⟨Option.isSome_of_eq_some hm, hk, hl⟩)
    rw [if_neg (List.ne_nil_of_mem removed), if_pos removed]

/-- What a reconciliation reports as scheduled was missing and is polled. -/
theorem scheduled_summary (hs : s.schedule.Covered) :
    (s.summary node force).scheduled =
      (s.missing node force).filter fun key =>
        s.store.active.PollsLocally key.address key.service := by
  apply List.filter_congr
  intro k hk
  simp [mark?_cleared_of_missing hs hk]

theorem redone_force (s : Poller) (node : NodeId) : s.redone node true = s.common node := rfl

theorem missing_force (s : Poller) (node : NodeId) : s.missing node true = s.listed node := by
  rw [missing, redone_force, List.filter_eq_self]
  simp

/-- By force no tracked key of the node is left. -/
theorem mark?_cleared_force (hs : s.schedule.Covered) (hk : key.node = node) :
    (s.cleared node true).mark? key = none := by
  cases hm : s.schedule.mark? key with
  | none =>
    rw [mark?_cleared hs, hm]
    simp
  | some mark =>
    have ht : (s.schedule.mark? key).isSome := Option.isSome_of_eq_some hm
    have hin : key ∈ s.unlisted node ++ s.redone node true := by
      rw [List.mem_append, redone_force, mem_unlisted, mem_common]
      by_cases hl : key ∈ s.listed node
      · exact .inr ⟨ht, hk, hl⟩
      · exact .inl ⟨ht, hk, hl⟩
    rw [mark?_cleared hs, if_neg (List.ne_nil_of_mem hin), if_pos hin]

theorem mark?_reconciled_force (hs : s.schedule.Covered) (n : Notification)
    (hk : key.node = node) :
    (s.reconciled node true n).schedule.mark? key =
      if key ∈ s.listed node ∧ s.store.active.PollsLocally key.address key.service then
        some .scheduled
      else none := by
  rw [mark?_reconciled hs, missing_force, mark?_cleared_force hs hk]
  by_cases hl : key ∈ s.listed node
  · simp [hl]
  · simp [hl]

/-- By force exactly the tracked keys of the node are reported as scheduled. -/
theorem lists_scheduled_force (hs : s.schedule.Covered) (n : Notification) :
    ServiceKey.Lists (s.summary node true).scheduled fun key =>
      key.node = node ∧ ((s.reconciled node true n).schedule.mark? key).isSome := by
  rw [scheduled_summary hs, missing_force]
  refine ⟨(s.ascending_listed node).filter _, fun key => ?_⟩
  rw [List.mem_filter, decide_eq_true_eq]
  constructor
  · rintro ⟨hl, hp⟩
    have hk := (mem_listed.1 hl).1
    refine ⟨hk, ?_⟩
    rw [mark?_reconciled_force hs n hk, if_pos ⟨hl, hp⟩]
    rfl
  · rintro ⟨hk, ht⟩
    rw [mark?_reconciled_force hs n hk] at ht
    split at ht
    · assumption
    · cases ht

/-- By force a node that keeps a key is entered anew. -/
theorem node?_reconciled_force (hs : s.schedule.Covered) (ht : s.schedule.Trim) (n : Notification) :
    (s.reconciled node true n).schedule.node? node =
      if (s.reconciled node true n).schedule.Tracks (.node node) then
        some ⟨s.labelOf node n, (s.inventory.entry node).info.location⟩
      else none := by
  have hc : (s.cleared node true).Trim := ht.expelAll _
  -- The node goes with the last of its keys, so the place where it was is not kept.
  have gone : (s.cleared node true).node? node = none := by
    rw [← Option.not_isSome_iff_eq_none, hc node, Schedule.tracks_iff]
    rintro ⟨k, hk, htracked⟩
    rw [mark?_cleared_force hs (Scope.mem_node.1 hk)] at htracked
    cases htracked
  have own (k : ServiceKey) (hk : k ∈ (s.missing node true).filter fun key =>
      s.store.active.PollsLocally key.address key.service) : k.node = node :=
    (mem_listed.1 (mem_missing.1 (List.mem_filter.1 hk).1).1).1
  have info : (s.reconciled node true n).schedule.node? node =
      if (s.summary node true).scheduled = [] then none
      else some ⟨s.labelOf node n, (s.inventory.entry node).info.location⟩ := by
    rw [scheduled_summary hs, reconciled, hc.node?_addAll _ own, gone]
    rfl
  have tracked : (s.reconciled node true n).schedule.Tracks (.node node) ↔
      (s.summary node true).scheduled ≠ [] := by
    have lists : ServiceKey.Lists (s.summary node true).scheduled _ := lists_scheduled_force hs n
    rw [Schedule.tracks_iff]
    constructor
    · rintro ⟨key, hk, ht⟩
      exact List.ne_nil_of_mem ((lists.mem_iff key).2 ⟨hk, ht⟩)
    · intro h
      obtain ⟨key, hk⟩ := List.exists_mem_of_ne_nil _ h
      exact ⟨key, (lists.mem_iff key).1 hk⟩
  rw [info]
  by_cases h : (s.summary node true).scheduled = []
  · rw [if_pos h, if_neg fun ht => tracked.1 ht h]
  · rw [if_neg h, if_pos (tracked.2 h)]

/-- Without force one marked key at most is scheduled afresh: the least, if no other key had to be
waited for before. -/
theorem mem_redone_unforced (hs : s.schedule.Covered) :
    key ∈ s.redone node false ↔
      key ∈ s.common node ∧ s.schedule.mark? key = some .pendingDelete ∧ s.unlisted node = [] ∧
        ∀ k ∈ s.common node, s.schedule.mark? k = some .pendingDelete → compare k key ≠ .lt := by
  by_cases hu : s.unlisted node = []
  · have e : s.redone node false = s.schedule.redone false (s.common node) := by
      rw [redone, hu]
      rfl
    rw [e, Schedule.mem_redone (ascending_common s node)]
    simp [hu]
  · -- The wait for a key that is not listed drops the marked keys, so none is left to be chosen.
    have e : s.redone node false = [] := by
      apply Schedule.redone_of_none_marked
      intro k _ hk
      obtain ⟨first, hf⟩ := List.exists_mem_of_ne_nil _ hu
      rw [Schedule.mark?_expelAll hs ⟨first, hf, (mem_unlisted.1 hf).1⟩] at hk
      split at hk
      · cases hk
      · simp [Option.filter_eq_some_iff] at hk
    simp [e, hu]

/-- A marked key is left out if the reconciliation waits for another key before it: one that is not
listed, or a lesser one that is marked too. -/
def LeavesOut (s : Poller) (node : NodeId) (key : ServiceKey) : Prop :=
  s.schedule.mark? key = some .pendingDelete ∧
    ∃ other, other.node = node ∧
      ((s.schedule.mark? other).isSome ∧ other ∉ s.listed node ∨
        s.schedule.mark? other = some .pendingDelete ∧ other ∈ s.listed node ∧
          compare other key = .lt)

theorem leavesOut_iff (hs : s.schedule.Covered) (hl : key ∈ s.listed node) :
    s.LeavesOut node key ↔
      s.schedule.mark? key = some .pendingDelete ∧ key ∉ s.redone node false := by
  unfold LeavesOut
  apply and_congr_right
  intro hm
  have hk : key ∈ s.common node :=
    mem_common.2 ⟨Option.isSome_of_eq_some hm, (mem_listed.1 hl).1, hl⟩
  rw [mem_redone_unforced hs]
  simp only [hk, hm, true_and, not_and, ne_eq]
  -- The key is passed over exactly if another one is waited for before it.
  constructor
  · rintro ⟨other, hn, ⟨ht, ho⟩ | ⟨hp, ho, hlt⟩⟩
    · intro hu
      have hin := mem_unlisted.2 ⟨ht, hn, ho⟩
      rw [hu] at hin
      cases hin
    · intro _ least
      exact least other (mem_common.2 ⟨Option.isSome_of_eq_some hp, hn, ho⟩) hp hlt
  · intro h
    by_cases hu : s.unlisted node = []
    · obtain ⟨other, hc, hp, hlt⟩ : ∃ other ∈ s.common node,
          s.schedule.mark? other = some .pendingDelete ∧ compare other key = .lt := by
        simpa only [Classical.not_forall, Classical.not_not, exists_prop] using h hu
      obtain ⟨-, hn, ho⟩ := mem_common.1 hc
      exact ⟨other, hn, .inr ⟨hp, ho, hlt⟩⟩
    · obtain ⟨other, ho⟩ := List.exists_mem_of_ne_nil _ hu
      obtain ⟨ht, hn, ho⟩ := mem_unlisted.1 ho
      exact ⟨other, hn, .inl ⟨ht, ho⟩⟩

/-- Without force a listed key that is polled is scheduled in the end, unless it is left out. -/
theorem mark?_reconciled_unforced (hs : s.schedule.Covered) (n : Notification)
    (hl : key ∈ s.listed node) (hp : s.store.active.PollsLocally key.address key.service) :
    (s.reconciled node false n).schedule.mark? key = some .scheduled ↔
      ¬ s.LeavesOut node key := by
  rw [leavesOut_iff hs hl, mark?_reconciled hs, if_pos hp]
  by_cases hr : key ∈ s.redone node false
  · have hm : key ∈ s.missing node false := mem_missing.2 ⟨hl, fun _ => hr⟩
    simp [hm, hr]
  · cases hm : s.schedule.mark? key with
    | none =>
      have hmissing : key ∈ s.missing node false := by
        refine mem_missing.2 ⟨hl, fun hc => ?_⟩
        have ht := (mem_common.1 hc).1
        rw [hm] at ht
        cases ht
      simp [hmissing]
    | some mark =>
      have hc : key ∈ s.common node :=
        mem_common.2 ⟨Option.isSome_of_eq_some hm, (mem_listed.1 hl).1, hl⟩
      -- A tracked key that is not chosen is taken for kept, also if its removal is pending.
      have kept : key ∉ s.missing node false := fun h => hr ((mem_missing.1 h).2 hc)
      have out : key ∉ s.unlisted node ++ s.redone node false := by
        rw [List.mem_append, not_or]
        exact ⟨fun h => (mem_unlisted.1 h).2.2 hl, hr⟩
      rw [if_neg kept, mark?_cleared hs, if_neg out, hm]
      cases mark <;> split <;> simp [hr, Option.filter]

end Poller

end Polling
