import Polling.Proofs.Schedule.Marks

namespace Polling.Schedule

inductive Action where
  | add (key : ServiceKey) (info : NodeInfo)
  | delete (scope : Scope)
  | reparent (address : Address) (source target : NodeId)
  | setLabel (node : NodeId) (label : String)
  | work (count : Nat)
  /-- The worker carries out a removal that it has in hand, which may be out of date. -/
  | carryOut (scope : Scope)
deriving DecidableEq, Repr

/-- The schedule after a call: the result, or the schedule as it was if the call failed. -/
def after (s : Schedule) : Except CallError Schedule → Schedule
  | .ok t => t
  | .error _ => s

def act (s : Schedule) : Action → Schedule
  | .add key info => (s.add? key info).getD s
  | .delete scope => s.after (s.delete scope)
  | .reparent address source target => s.after (s.reparent address source target)
  | .setLabel node label => s.after (s.setLabel node label)
  | .work count => s.advance count
  | .carryOut scope => s.drop scope

def run (s : Schedule) (actions : List Action) : Schedule := actions.foldl act s

theorem run_append (s : Schedule) (first second : List Action) :
    s.run (first ++ second) = (s.run first).run second :=
  List.foldl_append

variable {s t : Schedule}

/-- What each of the actions keeps, their run keeps. -/
theorem run_induction_of {P : Schedule → Prop} {Q : Action → Prop}
    (step : ∀ s action, Q action → P s → P (s.act action)) (h : P s) {actions : List Action}
    (ha : ∀ action ∈ actions, Q action) : P (s.run actions) := by
  induction actions generalizing s with
  | nil => exact h
  | cons action actions ih =>
    have first := step s action (ha action List.mem_cons_self) h
    exact ih first fun a hm => ha a (List.mem_cons_of_mem action hm)

/-- What every action keeps, every run keeps. -/
theorem run_induction {P : Schedule → Prop} (step : ∀ s action, P s → P (s.act action))
    (h : P s) (actions : List Action) : P (s.run actions) :=
  run_induction_of (Q := fun _ => True) (fun s action _ => step s action) h fun _ _ => trivial

/-- What holds of a schedule and of every result of a call holds after the call. -/
theorem after_induction {P : Schedule → Prop} {result : Except CallError Schedule} (h : P s)
    (ok : ∀ t, result = .ok t → P t) : P (s.after result) := by
  cases result with
  | ok t => exact ok t rfl
  | error e => exact h

/-- All that requesting a removal can do. -/
theorem delete_cases {scope : Scope} (h : s.delete scope = .ok t) :
    s.Tracks scope ∧
      (s.Requested scope ∧ t = s ∨
        ¬ s.Requested scope ∧ t = { s with
          marks := s.marks.map fun key mark => if key ∈ scope then .pendingDelete else mark
          queue := s.queue ++ [scope]
          journal := s.journal ++ [.delete scope] }) := by
  unfold delete at h
  split at h
  · contradiction
  · next ht =>
    refine ⟨Classical.not_not.1 ht, ?_⟩
    split at h
    · next hr =>
      cases h
      exact .inl ⟨hr, rfl⟩
    · next hr =>
      cases h
      exact .inr ⟨hr, rfl⟩

theorem delete_error {e : CallError} {scope : Scope} (h : s.delete scope = .error e) :
    ¬ s.Tracks scope := by
  unfold delete at h
  split at h
  · assumption
  · split at h <;> contradiction

theorem act_delete_of_not_tracks {scope : Scope} (h : ¬ s.Tracks scope) :
    s.act (.delete scope) = s := by
  simp [act, after, delete, h]

theorem act_delete_of_requested {key : ServiceKey} (h : s.mark? key = some .pendingDelete) :
    s.act (.delete (.service key)) = s := by
  have ht : s.Tracks (.service key) := tracks_iff.2 ⟨key, rfl, Option.isSome_of_eq_some h⟩
  have hr : s.Requested (.service key) := h
  simp [act, after, delete, ht, hr]

/-- An interface moves only if both nodes are known, they differ, and it is there. -/
theorem act_reparent_of_not {address : Address} {source target : NodeId}
    (h : source = target ∨ s.node? source = none ∨ s.node? target = none ∨
      ¬ s.Tracks (.interface source address)) :
    s.act (.reparent address source target) = s := by
  refine after_induction (P := (· = s)) rfl ?_
  intro t ht
  rcases reparent_cases ht with ⟨hnt, hns, hi, ⟨-, e⟩ | ⟨hne, -⟩⟩
  · exact e
  · rcases h with h | h | h | h
    · exact absurd h hne
    · rw [h] at hns
      cases hns
    · rw [h] at hnt
      cases hnt
    · exact absurd hi h

/-- An interface that is there moves between nodes that are known. -/
theorem reparent_ok {address : Address} {source target : NodeId} (hs : s.node? source ≠ none)
    (ht : s.node? target ≠ none) (hi : s.Tracks (.interface source address)) :
    s.reparent address source target = .ok (s.act (.reparent address source target)) := by
  rw [act]
  cases hr : s.reparent address source target with
  | ok t => rfl
  | error e =>
    rcases reparent_error hr with he | he | he
    · exact absurd he ht
    · exact absurd he hs
    · exact absurd hi he

theorem mark?_act_add (s : Schedule) (key : ServiceKey) (info : NodeInfo) (k : ServiceKey) :
    (s.act (.add key info)).mark? k =
      if k = key ∧ s.mark? k = none then some .scheduled else s.mark? k := by
  rw [act]
  cases h : s.add? key info with
  | some t =>
    have hn : s.mark? key = none := by
      rw [← Option.not_isSome_iff_eq_none, ← add?_eq_none, h]
      simp
    rw [Option.getD_some, mark?_of_add? h]
    by_cases hk : k = key
    · subst hk
      simp [hn]
    · simp [hk]
  | none =>
    have hs : (s.mark? key).isSome := add?_eq_none.1 h
    rw [Option.getD_none]
    by_cases hk : k = key
    · subst hk
      simp [Option.isSome_iff_ne_none.1 hs]
    · simp [hk]

/-- Requesting a removal marks what is tracked in the scope, if anything is. -/
theorem mark?_act_delete (s : Schedule) (scope : Scope) (k : ServiceKey) :
    (s.act (.delete scope)).mark? k =
      if k ∈ scope then (s.mark? k).map fun _ => .pendingDelete else s.mark? k := by
  rw [act]
  cases h : s.delete scope with
  | ok t => exact mark?_of_delete h k
  | error e =>
    by_cases hk : k ∈ scope
    · simp [after, hk, mark?_eq_none_of_not_tracks (delete_error h) hk]
    · simp [after, hk]

theorem mark?_act_setLabel (s : Schedule) (node : NodeId) (label : String) (k : ServiceKey) :
    (s.act (.setLabel node label)).mark? k = s.mark? k := by
  rw [act]
  cases h : s.setLabel node label with
  | ok t => exact mark?_of_setLabel h k
  | error e => rfl

/-- Moving an interface does to the marks what it says, or nothing. -/
theorem mark?_act_reparent (s : Schedule) (address : Address) (source target : NodeId)
    (k : ServiceKey) :
    (s.act (.reparent address source target)).mark? k =
      if source ≠ target ∧ (s.node? target).isSome ∧ (s.node? source).isSome then
        if k ∈ Scope.interface source address then none
        else if k ∈ Scope.interface target address ∧
          s.mark? { k with node := source } = some .scheduled then some .scheduled
        else s.mark? k
      else s.mark? k := by
  rw [act]
  cases h : s.reparent address source target with
  | ok t =>
    rcases reparent_cases h with ⟨ht, hs, -, ⟨rfl, rfl⟩ | ⟨hne, -⟩⟩
    · simp [after]
    · rw [if_pos ⟨hne, ht, hs⟩]
      exact mark?_of_reparent hne h k
  | error e =>
    rw [after]
    by_cases hc : source ≠ target ∧ (s.node? target).isSome ∧ (s.node? source).isSome
    · rw [if_pos hc]
      -- The nodes are known, so the interface is what is missing, and nothing is there to move.
      have hi : ¬ s.Tracks (.interface source address) := by
        rcases reparent_error h with ht | hs | hi
        · simp [ht] at hc
        · simp [hs] at hc
        · exact hi
      have none_at (service : String) : s.mark? ⟨source, address, service⟩ = none :=
        mark?_eq_none_of_not_tracks hi ⟨rfl, rfl⟩
      by_cases hk : k ∈ Scope.interface source address
      · rw [if_pos hk, mark?_eq_none_of_not_tracks hi hk]
      · rw [if_neg hk, if_neg]
        rintro ⟨hkt, hks⟩
        obtain ⟨node, a, service⟩ := k
        obtain ⟨-, rfl⟩ := Scope.mem_interface.1 hkt
        simp [none_at] at hks
    · rw [if_neg hc]

/-- An interface cannot move again from where it moved away. -/
theorem not_movable_act_reparent (s : Schedule) (address : Address) (source target : NodeId) :
    source = target ∨ (s.act (.reparent address source target)).node? source = none ∨
      (s.act (.reparent address source target)).node? target = none ∨
        ¬ (s.act (.reparent address source target)).Tracks (.interface source address) := by
  by_cases he : source = target
  · exact .inl he
  -- If a node is not known the interface does not move, and the node is not known afterwards.
  by_cases hs : s.node? source = none
  · rw [act_reparent_of_not (.inr (.inl hs))]
    exact .inr (.inl hs)
  by_cases ht : s.node? target = none
  · rw [act_reparent_of_not (.inr (.inr (.inl ht)))]
    exact .inr (.inr (.inl ht))
  refine .inr (.inr (.inr ?_))
  rw [tracks_iff]
  rintro ⟨key, hk, tracked⟩
  rw [← ne_eq, ← Option.isSome_iff_ne_none] at hs ht
  rw [mark?_act_reparent, if_pos ⟨he, ht, hs⟩, if_pos hk] at tracked
  cases tracked

/-- A mark that a removal may take away is a pending one. -/
theorem filter_of_scheduled {p : Mark → Bool} (hp : p .scheduled = true) (mark : Option Mark) :
    mark.filter p = mark ∨ mark = some .pendingDelete ∧ mark.filter p = none := by
  match mark with
  | none => exact .inl rfl
  | some .scheduled => simp [Option.filter, hp]
  | some .pendingDelete => cases h : p .pendingDelete <;> simp [Option.filter, h]

theorem filter_of_not_pending {p : Mark → Bool} (hp : p .scheduled = true) {mark : Option Mark}
    (h : mark ≠ some .pendingDelete) : mark.filter p = mark :=
  (filter_of_scheduled hp mark).resolve_right fun taken => h taken.1

/-- The worker drops what is marked in one of the scopes. -/
theorem mark?_foldl_drop (s : Schedule) (scopes : List Scope) (k : ServiceKey) :
    (scopes.foldl drop s).mark? k =
      (s.mark? k).filter fun mark => ¬ (mark = .pendingDelete ∧ ∃ scope ∈ scopes, k ∈ scope) := by
  induction scopes generalizing s with
  | nil => cases h : s.mark? k <;> simp [h, Option.filter]
  | cons scope scopes ih =>
    rw [List.foldl_cons, ih, mark?_drop]
    cases h : s.mark? k with
    | none => rfl
    | some mark => cases mark <;> by_cases hk : k ∈ scope <;> simp [Option.filter, hk]

theorem mark?_act_work (s : Schedule) (count : Nat) (k : ServiceKey) :
    (s.act (.work count)).mark? k =
      (s.mark? k).filter fun mark =>
        ¬ (mark = .pendingDelete ∧ ∃ scope ∈ s.queue.take count, k ∈ scope) :=
  mark?_foldl_drop _ _ _

theorem mark?_act_carryOut (s : Schedule) (scope : Scope) (k : ServiceKey) :
    (s.act (.carryOut scope)).mark? k =
      (s.mark? k).filter fun mark => ¬ (k ∈ scope ∧ mark = .pendingDelete) :=
  mark?_drop s scope k

end Polling.Schedule
