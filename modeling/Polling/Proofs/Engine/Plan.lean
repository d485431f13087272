import Polling.Proofs.Engine.Loops
import Polling.Proofs.Schedule.Listing

namespace Polling

namespace Schedule

variable {s : Schedule}

/-- Of the marked keys the least is scheduled afresh. -/
theorem mem_redone {keys : List ServiceKey} (h : ServiceKey.Ascending keys) {key : ServiceKey} :
    key ∈ s.redone false keys ↔
      key ∈ keys ∧ s.mark? key = some .pendingDelete ∧
        ∀ k ∈ keys, s.mark? k = some .pendingDelete → compare k key ≠ .lt := by
  induction keys with
  | nil => simp [redone]
  | cons first keys ih =>
    obtain ⟨hlt, h⟩ := List.pairwise_cons.1 h
    by_cases hf : s.mark? first = some .pendingDelete
    · -- The list ascends, so a first key that is marked is less than all others.
      have only : s.redone false (first :: keys) = [first] := by simp [redone, hf]
      rw [only, List.mem_singleton]
      constructor
      · rintro rfl
        refine ⟨List.mem_cons_self, hf, ?_⟩
        intro k hk _
        rcases List.mem_cons.1 hk with rfl | hk
        · simp [Std.ReflOrd.compare_self]
        · exact Std.OrientedCmp.not_lt_of_lt (hlt k hk)
      · rintro ⟨hk, -, least⟩
        rcases List.mem_cons.1 hk with rfl | hk
        · rfl
        · exact absurd (hlt key hk) (least first List.mem_cons_self hf)
    · rw [redone_cons_of_keep (by simpa using hf), ih h]
      constructor
      · rintro ⟨hk, hm, least⟩
        refine ⟨List.mem_cons_of_mem _ hk, hm, ?_⟩
        intro k hin hp
        rcases List.mem_cons.1 hin with rfl | hin
        · exact absurd hp hf
        · exact least k hin hp
      · rintro ⟨hk, hm, least⟩
        rcases List.mem_cons.1 hk with rfl | hk
        · exact absurd hm hf
        · exact ⟨hk, hm, fun k hin => least k (List.mem_cons_of_mem _ hin)⟩

end Schedule

namespace Poller

def listed (s : Poller) (node : NodeId) : List ServiceKey :=
  (Std.ExtTreeSet.ofList ((s.inventory.services node).map fun (address, service) =>
    (⟨node, address, service⟩ : ServiceKey))).toList

theorem mem_listed {s : Poller} {node : NodeId} {key : ServiceKey} :
    key ∈ s.listed node ↔
      key.node = node ∧ (key.address, key.service) ∈ s.inventory.services node := by
  rw [listed, Std.ExtTreeSet.mem_toList, Std.ExtTreeSet.mem_ofList, List.contains_iff_mem,
    List.mem_map]
  constructor
  · rintro ⟨⟨address, service⟩, h, rfl⟩
    exact ⟨rfl, h⟩
  · rintro ⟨rfl, h⟩
    exact ⟨_, h, rfl⟩

theorem ascending_listed (s : Poller) (node : NodeId) : ServiceKey.Ascending (s.listed node) :=
  Std.ExtTreeSet.ordered_toList

/-- The label of a node: as it is tracked, or else as the inventory has it, or else as the
notification gives it. -/
def labelOf (s : Poller) (node : NodeId) (n : Notification) : Option String :=
  ((s.schedule.node? node).bind NodeInfo.label).or
    ((s.inventory.entry node).info.label.or (n.param? "node_label"))

def unlisted (s : Poller) (node : NodeId) : List ServiceKey :=
  (s.schedule.keysIn (.node node)).filter (· ∉ s.listed node)

def common (s : Poller) (node : NodeId) : List ServiceKey :=
  (s.schedule.keysIn (.node node)).filter (· ∈ s.listed node)

def redone (s : Poller) (node : NodeId) (force : Bool) : List ServiceKey :=
  (s.schedule.expelAll (s.unlisted node)).redone force (s.common node)

def cleared (s : Poller) (node : NodeId) (force : Bool) : Schedule :=
  s.schedule.expelAll (s.unlisted node ++ s.redone node force)

/-- The listed keys that are taken for missing once all that is to be removed is gone. -/
def missing (s : Poller) (node : NodeId) (force : Bool) : List ServiceKey :=
  (s.listed node).filter (· ∉ (s.common node).filter (· ∉ s.redone node force))

def summary (s : Poller) (node : NodeId) (force : Bool) : Reconciliation where
  removed := s.unlisted node
  rescheduled := s.redone node force
  scheduled := (s.missing node force).filter fun key =>
    s.store.active.PollsLocally key.address key.service ∧
      (s.cleared node force).mark? key = none
  unpolled := (s.missing node force).filter fun key =>
    ¬ s.store.active.Polls key.address key.service

def reconciled (s : Poller) (node : NodeId) (force : Bool) (n : Notification) : Poller :=
  { s with
    schedule := (s.cleared node force).addAll
      ⟨s.labelOf node n, (s.inventory.entry node).info.location⟩
      ((s.missing node force).filter fun key =>
        s.store.active.PollsLocally key.address key.service)
    outages := s.outages.closeAll
      (s.unlisted node ++ (s.summary node force).unpolled) ⟨n.time, n.id⟩ }

end Poller

namespace Engine

open Poller

variable {s t : Poller}

theorem listedKeys_eq (h : s.faults = []) (node : NodeId) :
    listedKeys node s = .ok (s.listed node) s := by
  rw [listedKeys, bind_of_ok (lift_of_ok (inventoryServices_eq h node))]
  rfl

theorem nodeLabel_eq (h : s.faults = []) (node : NodeId) (n : Notification) :
    nodeLabel node n s =
      .ok ((s.inventory.entry node).info.label.or (n.param? "node_label")) s := by
  rw [nodeLabel, bind_of_ok (attempt_of_ok (inventoryLabel_eq h node))]
  cases (s.inventory.entry node).info.label <;> rfl

theorem nodeLocation_eq (h : s.faults = []) (node : NodeId) :
    nodeLocation node s = .ok (s.inventory.entry node).info.location s := by
  rw [nodeLocation, bind_of_ok (attempt_of_ok (inventoryLocation_eq h node))]
  rfl

/-- A reconciliation first reads, and then carries out what it has decided on. -/
theorem reconcile_reads (h : s.faults = []) (node : NodeId) (force : Bool) (n : Notification) :
    reconcile node force n s = (do
      removeKeys n (s.unlisted node)
      let rescheduled ← removeForRescheduling force (s.common node)
      let (scheduled, unpolled) ←
        scheduleKeys n ⟨s.labelOf node n, (s.inventory.entry node).info.location⟩
          ((s.listed node).filter (· ∉ (s.common node).filter (· ∉ rescheduled)))
      return ({ removed := s.unlisted node, rescheduled, scheduled, unpolled } :
        Reconciliation)) s := by
  rw [reconcile, bind_of_ok (listedKeys_eq h node), bind_of_ok (lift_of_ok (trackedKeys_eq h node)),
    bind_of_ok (lift_of_ok (trackedNode_eq h node)), labelOf]
  cases s.schedule.node? node with
  | none =>
    exact (bind_of_ok (nodeLabel_eq h node n)).trans (bind_of_ok (nodeLocation_eq h node))
  | some info =>
    obtain ⟨label | label, location⟩ := info
    · exact (bind_of_ok (nodeLabel_eq h node n)).trans (bind_of_ok (nodeLocation_eq h node))
    · exact bind_of_ok (nodeLocation_eq h node)

/-- A reconciliation that succeeds does what the plan says. -/
theorem reconcile_ok (hs : s.Prompt) {node : NodeId} {force : Bool} {n : Notification}
    {r : Reconciliation} (h : reconcile node force n s = .ok r t) :
    r = s.summary node force ∧ t = s.reconciled node force n := by
  rw [reconcile_reads hs.faults] at h
  -- The three loops, each from where the one before has ended.
  obtain ⟨_, s₁, h₁, h⟩ := bind_eq_ok h
  obtain rfl := removeKeys_ok hs h₁
  have hs₁ := hs.without n (s.unlisted node)
  obtain ⟨rescheduled, s₂, h₂, h⟩ := bind_eq_ok h
  obtain ⟨hr, rfl⟩ := removeForRescheduling_ok hs₁ h₂
  change rescheduled = s.redone node force at hr
  subst hr
  have hs₂ := hs₁.withSchedule (hs₁.covered.expelAll (s.redone node force))
  rw [bind_of_ok (scheduleKeys_eq _ _ hs₂.faults ((s.ascending_listed node).filter _).nodup)] at h
  cases h
  rw [reconciled, cleared, Schedule.expelAll_append, OutageLog.closeAll_append, summary, cleared,
    Schedule.expelAll_append]
  exact ⟨rfl, rfl⟩

theorem reconcile_isOk (hs : s.Prompt) (hp : s.Patient) (node : NodeId) (force : Bool)
    (n : Notification) : ∃ r t, reconcile node force n s = .ok r t := by
  rw [reconcile_reads hs.faults]
  obtain ⟨s₁, h₁⟩ := removeKeys_isOk hs hp n (s.unlisted node)
  rw [bind_of_ok h₁]
  obtain rfl := removeKeys_ok hs h₁
  have hs₁ := hs.without n (s.unlisted node)
  obtain ⟨rescheduled, s₂, h₂⟩ := removeForRescheduling_isOk hs₁ hp force (s.common node)
  rw [bind_of_ok h₂]
  obtain ⟨-, rfl⟩ := removeForRescheduling_ok hs₁ h₂
  have hs₂ := hs₁.withSchedule (hs₁.covered.expelAll rescheduled)
  rw [bind_of_ok (scheduleKeys_eq _ _ hs₂.faults ((s.ascending_listed node).filter _).nodup)]
  exact ⟨_, _, rfl⟩

/-- A patient engine does not fail to reconcile a node. -/
theorem reconcile_eq (hs : s.Prompt) (hp : s.Patient) (node : NodeId) (force : Bool)
    (n : Notification) :
    reconcile node force n s = .ok (s.summary node force) (s.reconciled node force n) := by
  obtain ⟨r, t, h⟩ := reconcile_isOk hs hp node force n
  obtain ⟨rfl, rfl⟩ := reconcile_ok hs h
  exact h

end Engine

end Polling
