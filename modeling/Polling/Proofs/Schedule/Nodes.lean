import Polling.Proofs.Schedule.Actions

namespace Polling.Schedule

variable {s t : Schedule}

theorem mem_nodeIds {node : NodeId} : node ∈ s.nodeIds ↔ (s.node? node).isSome := by
  simp [nodeIds, node?]

theorem node?_prune (s : Schedule) (node m : NodeId) :
    (s.prune node).node? m =
      if m = node ∧ ¬ s.Tracks (.node node) then none else s.node? m := by
  unfold prune
  by_cases ht : s.Tracks (.node node)
  · simp [ht]
  · simp only [ht, if_false, node?, Std.ExtTreeMap.getElem?_erase, Std.compare_eq_iff_eq,
      not_false_eq_true, and_true, @eq_comm _ m node]

/-- A node that is new comes with the given information, and any other keeps its own. -/
theorem node?_of_add? {key : ServiceKey} {info : NodeInfo} (h : s.add? key info = some t)
    (m : NodeId) :
    t.node? m = if m = key.node then some ((s.node? m).getD info) else s.node? m := by
  unfold add? at h
  split at h
  · contradiction
  · cases h
    rw [node?, Std.ExtTreeMap.getElem?_insertIfNew]
    simp only [Std.compare_eq_iff_eq, @eq_comm _ m]
    by_cases hm : key.node = m
    · subst hm
      by_cases hn : key.node ∈ s.nodes <;> simp [hn, node?]
    · simp only [hm, false_and, if_false]
      rfl

theorem node?_of_delete {scope : Scope} (h : s.delete scope = .ok t) (m : NodeId) :
    t.node? m = s.node? m := by
  unfold delete at h
  split at h
  · contradiction
  split at h <;> cases h <;> rfl

theorem node?_act_delete (s : Schedule) (scope : Scope) (m : NodeId) :
    (s.act (.delete scope)).node? m = s.node? m :=
  after_induction (P := fun t => t.node? m = s.node? m) rfl fun _ ht => node?_of_delete ht m

theorem node?_of_setLabel {node : NodeId} {label : String} (h : s.setLabel node label = .ok t)
    (m : NodeId) :
    t.node? m =
      if m = node then (s.node? m).map fun info => { info with label := some label }
      else s.node? m := by
  unfold setLabel at h
  split at h
  · contradiction
  · next info hn =>
    cases h
    rw [node?, Std.ExtTreeMap.getElem?_insert]
    simp only [Std.compare_eq_iff_eq, @eq_comm _ m]
    by_cases hm : node = m
    · subst hm
      simp [hn]
    · simp only [hm, if_false]
      rfl

theorem node?_act_setLabel (s : Schedule) (node : NodeId) (label : String) (m : NodeId) :
    (s.act (.setLabel node label)).node? m =
      if m = node then (s.node? m).map fun info => { info with label := some label }
      else s.node? m := by
  rw [act]
  cases h : s.setLabel node label with
  | ok t => exact node?_of_setLabel h m
  | error e =>
    rw [after]
    split
    · next hm =>
      have unknown : s.node? node = none := by
        unfold setLabel at h
        split at h
        · assumption
        · cases h
      rw [hm, unknown]
      rfl
    · rfl

/-- A node is known exactly as long as one of its keys is tracked. -/
def Trim (s : Schedule) : Prop := ∀ node, (s.node? node).isSome ↔ s.Tracks (.node node)

theorem trim_empty : Trim {} := by
  intro node
  simp [node?, Tracks, keys]

/-- Pruning the node that lost keys is all that is needed. -/
theorem trim_prune {node : NodeId} (hn : s.Tracks (.node node) → (s.node? node).isSome)
    (h : ∀ m, m ≠ node → ((s.node? m).isSome ↔ s.Tracks (.node m))) : (s.prune node).Trim := by
  intro m
  have same : (s.prune node).Tracks (.node m) ↔ s.Tracks (.node m) :=
    tracks_congr fun k _ => by rw [mark?_prune]
  rw [same, node?_prune]
  by_cases hm : m = node
  · subst hm
    by_cases ht : s.Tracks (.node m)
    · simp [ht, hn ht]
    · simp [ht]
  · simp [hm, h m hm]

theorem Trim.isSome_node? (h : s.Trim) {key : ServiceKey} (hk : (s.mark? key).isSome) :
    (s.node? key.node).isSome :=
  (h key.node).2 (tracks_iff.2 ⟨key, rfl, hk⟩)

theorem Trim.add (h : s.Trim) (key : ServiceKey) (info : NodeInfo) :
    (s.act (.add key info)).Trim := by
  rw [act]
  cases ha : s.add? key info with
  | none => exact h
  | some t =>
    intro m
    rw [Option.getD_some, node?_of_add? ha, tracks_iff]
    -- The new key keeps its own node, and no other node gets a key.
    by_cases hm : m = key.node
    · subst hm
      simp only [if_true, Option.isSome_some, true_iff]
      exact ⟨key, rfl, by simp [mark?_of_add? ha]⟩
    · rw [if_neg hm, h m, tracks_iff]
      apply exists_congr
      intro k
      apply and_congr_right
      intro hk
      have hne : k ≠ key := by
        rintro rfl
        exact hm (Scope.mem_node.1 hk).symm
      rw [mark?_of_add? ha, if_neg hne]

theorem Trim.delete (h : s.Trim) (scope : Scope) : (s.act (.delete scope)).Trim := by
  intro m
  rw [node?_act_delete, h m]
  apply tracks_congr
  intro k _
  rw [mark?_act_delete]
  split <;> simp

theorem Trim.setLabel (h : s.Trim) (node : NodeId) (label : String) :
    (s.act (.setLabel node label)).Trim := by
  apply after_induction h
  intro t ht m
  have same : t.Tracks (.node m) ↔ s.Tracks (.node m) :=
    tracks_congr fun k _ => by rw [mark?_of_setLabel ht]
  rw [node?_of_setLabel ht, same, ← h m]
  split <;> simp

theorem Trim.reparent (h : s.Trim) (address : Address) (source target : NodeId) :
    (s.act (.reparent address source target)).Trim := by
  apply after_induction h
  intro t ht
  rcases reparent_cases ht with ⟨hnt, hns, -, ⟨-, rfl⟩ | ⟨hne, e⟩⟩
  · exact h
  · subst e
    apply trim_prune
    · exact fun _ => hns
    · intro m hm
      -- Off the source no key is lost, and keys are won on the target only, which is known.
      have off {k : ServiceKey} (hk : k ∈ Scope.node m) : k ∉ Scope.interface source address :=
        fun hi => hm ((Scope.mem_node.1 hk).symm.trans (Scope.mem_interface.1 hi).1)
      rw [tracks_iff]
      constructor
      · intro hk
        obtain ⟨k, hk, hs⟩ := tracks_iff.1 ((h m).1 hk)
        refine ⟨k, hk, ?_⟩
        rw [mark?, getElem?_movedMarks s address hne, if_neg (off hk)]
        split
        · rfl
        · exact hs
      · rintro ⟨k, hk, hs⟩
        rw [mark?, getElem?_movedMarks s address hne, if_neg (off hk)] at hs
        split at hs
        · next hi =>
          have e : m = target := (Scope.mem_node.1 hk).symm.trans (Scope.mem_interface.1 hi.1).1
          rw [e]
          exact hnt
        · exact (h m).2 (tracks_iff.2 ⟨k, hk, hs⟩)

theorem Trim.drop (h : s.Trim) (scope : Scope) : (s.drop scope).Trim := by
  have left (k : ServiceKey) := mark?_drop s scope k
  simp only [Schedule.drop, mark?_prune] at left
  apply trim_prune
  · intro ht
    obtain ⟨k, hk, hs⟩ := tracks_iff.1 ht
    rw [left, Option.isSome_filter] at hs
    exact (h _).2 (tracks_iff.2 ⟨k, hk, Option.isSome_of_any hs⟩)
  · intro m hm
    refine (h m).trans (tracks_congr fun k hk => ?_)
    -- The scope is on its owner.
    have out : k ∉ scope := fun hs => hm ((Scope.mem_node.1 hk).symm.trans (Scope.node_eq_owner hs))
    rw [left]
    simp [out]

theorem Trim.foldl_drop (h : s.Trim) (scopes : List Scope) :
    (scopes.foldl Schedule.drop s).Trim := by
  induction scopes generalizing s with
  | nil => exact h
  | cons scope scopes ih => exact ih (h.drop scope)

theorem Trim.act (h : s.Trim) (action : Action) : (s.act action).Trim := by
  cases action with
  | add key info => exact h.add key info
  | delete scope => exact h.delete scope
  | reparent address source target => exact h.reparent address source target
  | setLabel node label => exact h.setLabel node label
  | work count => exact Trim.foldl_drop (s := { s with queue := s.queue.drop count }) h _
  | carryOut scope => exact h.drop scope

theorem Trim.run (h : s.Trim) (actions : List Action) : (s.run actions).Trim :=
  run_induction (fun _ action h => h.act action) h actions

/-- Whatever callers and the worker do, a node is known as long as one of its keys is tracked. -/
theorem trim_run (actions : List Action) : (run {} actions).Trim :=
  trim_empty.run actions

end Polling.Schedule
