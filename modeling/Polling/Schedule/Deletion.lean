import Polling.Schedule.Basic

namespace Polling

structure RemovalSettings where
  /-- The time before each removal, in milliseconds. -/
  delay : Nat := 0
  capacity : Nat := 1024
  /-- Removals are taken from the queue and never carried out. -/
  stalled : Bool := false
deriving DecidableEq, Repr

namespace Schedule

def Requested (s : Schedule) : Scope → Prop
  | .service key => s.mark? key = some .pendingDelete
  | _ => False

instance (s : Schedule) : (scope : Scope) → Decidable (s.Requested scope)
  | .service key => inferInstanceAs (Decidable (s.mark? key = some .pendingDelete))
  | .interface _ _ => inferInstanceAs (Decidable False)
  | .node _ => inferInstanceAs (Decidable False)

def delete (s : Schedule) (scope : Scope) : Except CallError Schedule :=
  if ¬ s.Tracks scope then .error scope.notFound
  else if s.Requested scope then .ok s
  else
    .ok { s with
      marks := s.marks.map fun key mark => if key ∈ scope then .pendingDelete else mark
      queue := s.queue ++ [scope]
      journal := s.journal ++ [.delete scope] }

/-- A requested removal marks what is tracked in its scope. -/
theorem mark?_of_delete {s t : Schedule} {scope : Scope} (h : s.delete scope = .ok t)
    (k : ServiceKey) :
    t.mark? k = if k ∈ scope then (s.mark? k).map fun _ => .pendingDelete else s.mark? k := by
  unfold delete at h
  split at h
  · contradiction
  split at h
  · next requested =>
    cases h
    -- The one key of the scope is marked already.
    match scope, requested with
    | .service key, (requested : s.mark? key = _) =>
      by_cases hk : k = key
      · subst hk
        rw [if_pos (Scope.mem_service.2 rfl), requested]
        rfl
      · rw [if_neg (mt Scope.mem_service.1 hk)]
  · cases h
    rw [mark?, Std.ExtTreeMap.getElem?_map]
    by_cases hk : k ∈ scope
    · simp only [if_pos hk]
      rfl
    · simp only [if_neg hk, Option.map_id_fun']
      rfl

/-- Drops the marked keys of a scope, and their node if it has no other. -/
def drop (s : Schedule) (scope : Scope) : Schedule :=
  let marks := s.marks.filter fun key mark => ¬ (key ∈ scope ∧ mark = .pendingDelete)
  { s with marks }.prune scope.owner

/-- What is dropped is marked and in the scope. -/
theorem mark?_drop (s : Schedule) (scope : Scope) (k : ServiceKey) :
    (s.drop scope).mark? k =
      (s.mark? k).filter fun mark => ¬ (k ∈ scope ∧ mark = .pendingDelete) := by
  unfold drop
  rw [mark?_prune]
  simp [mark?, Std.ExtTreeMap.getElem?_filter]

def advance (s : Schedule) (count : Nat) : Schedule :=
  (s.queue.take count).foldl drop { s with queue := s.queue.drop count }

def settle (s : Schedule) : Schedule := s.advance s.queue.length

end Schedule

end Polling
