import Polling.Proofs.Engine.Handling
import Polling.Proofs.Engine.Safety
import Polling.Proofs.Schedule.Confirmation

namespace Polling

namespace Poller

variable {s : Poller} {node m : NodeId} {force : Bool} {n : Notification} {key : ServiceKey}

/-- Waiting for the keys of one node drops the marked keys of the others, and nothing else. -/
theorem mark?_reconciled_of_ne (hc : s.schedule.Covered) (hn : key.node ≠ node)
    (hm : s.schedule.mark? key ≠ some .pendingDelete) :
    (s.reconciled node force n).schedule.mark? key = s.schedule.mark? key := by
  have other : key ∉ s.missing node force := fun h => hn (mem_listed.1 (mem_missing.1 h).1).1
  have kept : key ∉ s.unlisted node ++ s.redone node force :=
    fun h => hn (isSome_of_mem_removed h).2
  rw [mark?_reconciled hc, if_neg other, mark?_cleared hc, if_neg kept]
  cases hk : s.schedule.mark? key with
  | none => simp
  | some mark =>
    cases mark with
    | scheduled => split <;> rfl
    | pendingDelete => exact absurd hk hm

theorem tracks_reconciled_of_ne (hc : s.schedule.Covered) (hn : m ≠ node)
    (hm : ∀ key : ServiceKey, key.node = m → s.schedule.mark? key ≠ some .pendingDelete) :
    (s.reconciled node force n).schedule.Tracks (.node m) ↔ s.schedule.Tracks (.node m) := by
  apply Schedule.tracks_congr
  intro key hk
  rw [mark?_reconciled_of_ne hc (fun e => hn (hk.symm.trans e)) (hm key hk)]

/-- A node without marked keys is known as before when another node is reconciled. -/
theorem node?_reconciled_of_ne (h : s.Ready) (hp : s.Patient) (hn : m ≠ node)
    (hm : ∀ key : ServiceKey, key.node = m → s.schedule.mark? key ≠ some .pendingDelete) :
    (s.reconciled node force n).schedule.node? m = s.schedule.node? m := by
  have cleared : Schedule.KeepsInfo s.schedule (s.cleared node force) :=
    Schedule.keepsInfo_expelAll s.schedule _
  have added : (s.reconciled node force n).schedule.node? m = (s.cleared node force).node? m := by
    apply Schedule.node?_addAll_of_ne
    intro key hk he
    have hl := (mem_missing.1 (List.mem_filter.1 hk).1).1
    exact hn (he.symm.trans (mem_listed.1 hl).1)
  have kept := cleared m
  rw [← added] at kept
  exact h.trim.node?_of_tracks_iff (Engine.ready_reconciled h hp node force n).trim kept
    (tracks_reconciled_of_ne h.covered hn hm)

/-- The node has exactly the keys that the inventory lists and a local package polls, it is known
as a reconciliation enters it, and no listed key that nobody polls has an open outage. -/
structure Aligned (s : Poller) (n : Notification) (node : NodeId) : Prop where
  marks : ∀ key : ServiceKey, key.node = node →
    s.schedule.mark? key =
      if key ∈ s.listed node ∧ s.store.active.PollsLocally key.address key.service then
        some .scheduled
      else none
  info : s.schedule.node? node =
    if s.schedule.Tracks (.node node) then
      some ⟨s.labelOf node n, (s.inventory.entry node).info.location⟩
    else none
  closed : ∀ key ∈ s.listed node, key ∈ s.outages.openKeys →
    s.store.active.Polls key.address key.service

/-- The label that a node is entered with is the one that it keeps. -/
theorem labelOf_reconciled (hc : s.schedule.Covered) (ht : s.schedule.Trim)
    (hk : (s.reconciled node true n).schedule.Tracks (.node node)) :
    (s.reconciled node true n).labelOf node n = s.labelOf node n := by
  have info : (s.reconciled node true n).schedule.node? node = _ :=
    node?_reconciled_force hc ht n
  rw [if_pos hk] at info
  rw [labelOf, info]
  change (s.labelOf node n).or _ = _
  rw [labelOf]
  cases (s.schedule.node? node).bind NodeInfo.label with
  | some label => rfl
  | none => exact Option.or_self

theorem aligned_reconciled (h : s.Ready) : (s.reconciled node true n).Aligned n node where
  marks := fun key hk => mark?_reconciled_force h.covered n hk
  info := by
    rw [node?_reconciled_force h.covered h.trim]
    split
    · next hk =>
      rw [labelOf_reconciled h.covered h.trim hk]
      rfl
    · rfl
  closed := by
    intro key hl ho
    have hp := (mem_openKeys_reconciled.1 ho).2.2
    rw [missing_force] at hp
    exact hp hl

/-- No key of a node in line is marked for removal. -/
theorem Aligned.settled (ha : s.Aligned n m) (key : ServiceKey) (hk : key.node = m) :
    s.schedule.mark? key ≠ some .pendingDelete := by
  rw [ha.marks key hk]
  split <;> simp

/-- A node in line stays so while another node is reconciled. -/
theorem Aligned.reconciled_of_ne (ha : s.Aligned n m) (h : s.Ready) (hp : s.Patient)
    (hn : m ≠ node) : (s.reconciled node force n).Aligned n m where
  marks := by
    intro key hk
    rw [mark?_reconciled_of_ne h.covered (fun e => hn (hk.symm.trans e)) (ha.settled key hk)]
    exact ha.marks key hk
  info := by
    have known : (s.reconciled node force n).schedule.node? m = s.schedule.node? m :=
      node?_reconciled_of_ne h hp hn ha.settled
    have tracked : (s.reconciled node force n).schedule.Tracks (.node m) ↔
        s.schedule.Tracks (.node m) := tracks_reconciled_of_ne h.covered hn ha.settled
    have label : (s.reconciled node force n).labelOf m n = s.labelOf m n := by
      rw [labelOf, known]
      rfl
    rw [known, label, ha.info]
    simp only [tracked]
    rfl
  closed := fun key hl ho => ha.closed key hl (mem_openKeys_reconciled.1 ho).1

theorem ready_reconciledAll (h : s.Ready) (hp : s.Patient) (n : Notification)
    (nodes : List NodeId) : (s.reconciledAll n nodes).Ready := by
  have e := Engine.orderly_rescheduleNodes n nodes s
  rw [final_of_ok (Engine.rescheduleNodes_eq h hp n nodes)] at e
  exact h.evolves e

/-- A node in line stays so whatever nodes are reconciled by force. -/
theorem Aligned.reconciledAll (ha : s.Aligned n m) (h : s.Ready) (hp : s.Patient)
    (nodes : List NodeId) : (s.reconciledAll n nodes).Aligned n m := by
  induction nodes generalizing s with
  | nil => exact ha
  | cons node nodes ih =>
    have next : (s.reconciled node true n).Aligned n m := by
      by_cases hn : m = node
      · subst hn
        exact aligned_reconciled h
      · exact ha.reconciled_of_ne h hp hn
    exact ih next (Engine.ready_reconciled h hp node true n) hp

/-- Every node that is reconciled by force is in line in the end. -/
theorem aligned_reconciledAll (h : s.Ready) (hp : s.Patient) {nodes : List NodeId}
    (hm : m ∈ nodes) : (s.reconciledAll n nodes).Aligned n m := by
  induction nodes generalizing s with
  | nil => cases hm
  | cons node nodes ih =>
    have h' := Engine.ready_reconciled h hp node true n
    rcases List.mem_cons.1 hm with rfl | hm
    · exact (aligned_reconciled h).reconciledAll h' hp nodes
    · exact ih h' hp hm

/-- A key that is not tracked on a node that is not reconciled stays untracked. -/
theorem mark?_reconciledAll_of_untracked (h : s.Ready) (hp : s.Patient) {nodes : List NodeId}
    (hn : key.node ∉ nodes) (hm : s.schedule.mark? key = none) :
    (s.reconciledAll n nodes).schedule.mark? key = none := by
  induction nodes generalizing s with
  | nil => exact hm
  | cons node nodes ih =>
    rw [List.mem_cons, not_or] at hn
    have first : (s.reconciled node true n).schedule.mark? key = none := by
      rw [mark?_reconciled_of_ne h.covered hn.1 (by simp [hm])]
      exact hm
    exact ih (Engine.ready_reconciled h hp node true n) hp hn.2 first

end Poller

end Polling
