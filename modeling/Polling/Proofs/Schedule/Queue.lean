import Polling.Proofs.Schedule.Actions

namespace Polling.Schedule

variable {s t : Schedule}

/-- Every key that is marked for removal is in the scope of a removal in the queue. -/
def Covered (s : Schedule) : Prop :=
  ∀ key, s.mark? key = some .pendingDelete → ∃ scope ∈ s.queue, key ∈ scope

theorem covered_empty : Covered {} := by
  intro key h
  simp [mark?] at h

/-- The queue stays covering as long as it keeps its removals and no further key is marked. -/
theorem Covered.mono (hs : s.Covered) (hq : s.queue ⊆ t.queue)
    (h : ∀ k, t.mark? k = some .pendingDelete → s.mark? k = some .pendingDelete) : t.Covered := by
  intro k hk
  obtain ⟨scope, hm, hc⟩ := hs k (h k hk)
  exact ⟨scope, hq hm, hc⟩

theorem Covered.add (h : s.Covered) (key : ServiceKey) (info : NodeInfo) :
    (s.act (.add key info)).Covered := by
  apply h.mono
  · rw [act]
    unfold add?
    split <;> exact fun _ hm => hm
  · intro k hk
    rw [mark?_act_add] at hk
    split at hk
    · cases hk
    · exact hk

theorem Covered.delete (h : s.Covered) (scope : Scope) : (s.act (.delete scope)).Covered := by
  apply after_induction h
  intro t ht
  rcases delete_cases ht with ⟨-, ⟨-, rfl⟩ | ⟨-, e⟩⟩
  · exact h
  · -- What becomes marked is in the scope that joins the queue.
    have hq : t.queue = s.queue ++ [scope] := by rw [e]
    intro k hk
    rw [mark?_of_delete ht] at hk
    split at hk
    · next hs => exact ⟨scope, by simp [hq], hs⟩
    · obtain ⟨other, ho, hc⟩ := h k hk
      exact ⟨other, by simp [hq, ho], hc⟩

theorem Covered.reparent (h : s.Covered) (address : Address) (source target : NodeId) :
    (s.act (.reparent address source target)).Covered := by
  apply after_induction h
  intro t ht
  rcases reparent_cases ht with ⟨-, -, -, ⟨-, rfl⟩ | ⟨hne, e⟩⟩
  · exact h
  · apply h.mono
    · rw [e, queue_prune]
      exact fun _ hm => hm
    · intro k hk
      rw [mark?_of_reparent hne ht] at hk
      split at hk
      · cases hk
      · split at hk
        · cases hk
        · exact hk

theorem Covered.setLabel (h : s.Covered) (node : NodeId) (label : String) :
    (s.act (.setLabel node label)).Covered := by
  apply h.mono
  · rw [act]
    unfold Schedule.setLabel
    split <;> exact fun _ hm => hm
  · intro k hk
    rwa [mark?_act_setLabel] at hk

@[simp] theorem queue_drop (s : Schedule) (scope : Scope) : (s.drop scope).queue = s.queue := by
  rw [drop, queue_prune]

@[simp] theorem queue_foldl_drop (s : Schedule) (scopes : List Scope) :
    (scopes.foldl drop s).queue = s.queue := by
  induction scopes generalizing s with
  | nil => rfl
  | cons scope scopes ih => rw [List.foldl_cons, ih, queue_drop]

theorem queue_advance (s : Schedule) (count : Nat) :
    (s.advance count).queue = s.queue.drop count :=
  queue_foldl_drop _ _

theorem Covered.carryOut (h : s.Covered) (scope : Scope) : (s.act (.carryOut scope)).Covered := by
  apply h.mono
  · rw [act, queue_drop]
    exact fun _ hm => hm
  · intro k hk
    rw [mark?_act_carryOut, Option.filter_eq_some_iff] at hk
    exact hk.1

/-- What is still marked after some removals was not in their scopes, so a later one covers it. -/
theorem Covered.work (h : s.Covered) (count : Nat) : (s.act (.work count)).Covered := by
  intro k hk
  rw [mark?_act_work, Option.filter_eq_some_iff] at hk
  obtain ⟨hp, hf⟩ := hk
  obtain ⟨scope, hq, hc⟩ := h k hp
  refine ⟨scope, ?_, hc⟩
  rw [act, queue_advance]
  rw [← List.take_append_drop count s.queue, List.mem_append] at hq
  rcases hq with taken | left
  · -- A removal that is carried out leaves no marked key in its scope.
    simp only [decide_eq_true_eq, true_and] at hf
    exact absurd ⟨scope, taken, hc⟩ hf
  · exact left

theorem Covered.act (h : s.Covered) (action : Action) : (s.act action).Covered := by
  cases action with
  | add key info => exact h.add key info
  | delete scope => exact h.delete scope
  | reparent address source target => exact h.reparent address source target
  | setLabel node label => exact h.setLabel node label
  | work count => exact h.work count
  | carryOut scope => exact h.carryOut scope

theorem Covered.run (h : s.Covered) (actions : List Action) : (s.run actions).Covered :=
  run_induction (fun _ action h => h.act action) h actions

/-- Whatever callers and the worker do, no marked key is forgotten. -/
theorem covered_run (actions : List Action) : (run {} actions).Covered :=
  covered_empty.run actions

def carriedOut (s : Schedule) (scopes : List Scope) : Schedule :=
  scopes.foldl drop { s with queue := [] }

theorem settle_eq (s : Schedule) : s.settle = s.carriedOut s.queue := by
  simp only [settle, advance, carriedOut, List.take_length, List.drop_length]

/-- Once all that is queued is carried out, in whatever order, exactly the scheduled keys are
left. -/
theorem Covered.mark?_carriedOut (h : s.Covered) {scopes : List Scope} (hq : s.queue ⊆ scopes)
    (k : ServiceKey) : (s.carriedOut scopes).mark? k = (s.mark? k).filter (· = .scheduled) := by
  have dropped : (s.carriedOut scopes).mark? k = (s.mark? k).filter fun mark =>
      ¬ (mark = .pendingDelete ∧ ∃ scope ∈ scopes, k ∈ scope) := mark?_foldl_drop _ scopes k
  rw [dropped]
  cases hk : s.mark? k with
  | none => rfl
  | some mark =>
    cases mark with
    | scheduled => simp [Option.filter]
    | pendingDelete =>
      obtain ⟨scope, hm, hc⟩ := h k hk
      have found : ∃ scope ∈ scopes, k ∈ scope := ⟨scope, hq hm, hc⟩
      simp [Option.filter, found]

theorem mark?_settle (h : s.Covered) (k : ServiceKey) :
    s.settle.mark? k = (s.mark? k).filter (· = .scheduled) := by
  rw [settle_eq]
  exact h.mark?_carriedOut (List.Subset.refl _) k

end Polling.Schedule
