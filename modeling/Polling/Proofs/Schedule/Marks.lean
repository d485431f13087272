import Polling.Schedule.Deletion

namespace Polling.Schedule

variable {s t : Schedule}

theorem getElem?_foldl_insert (keys : List ServiceKey) (marks : Std.ExtTreeMap ServiceKey Mark)
    (k : ServiceKey) :
    (keys.foldl (fun marks key => marks.insert key Mark.scheduled) marks)[k]? =
      if k ∈ keys then some Mark.scheduled else marks[k]? := by
  induction keys generalizing marks with
  | nil => simp
  | cons key keys ih =>
    rw [List.foldl_cons, ih, Std.ExtTreeMap.getElem?_insert]
    simp only [Std.compare_eq_iff_eq, List.mem_cons, @eq_comm _ k key]
    by_cases hk : k ∈ keys
    · simp only [hk, or_true, if_true]
    · simp only [hk, or_false, if_false]

/-- A key is not added if it is tracked. -/
theorem add?_eq_none {key : ServiceKey} {info : NodeInfo} :
    s.add? key info = none ↔ (s.mark? key).isSome := by
  unfold add?
  split
  · next h => simp [h]
  · next h => simp [h]

theorem mem_scheduledAt {node : NodeId} {address : Address} {k : ServiceKey} :
    k ∈ s.scheduledAt node address ↔
      k ∈ Scope.interface node address ∧ s.mark? k = some .scheduled := by
  simp only [scheduledAt, List.mem_filter, mem_keys, decide_eq_true_eq]
  constructor
  · exact fun h => h.2
  · exact fun h => ⟨Option.isSome_of_eq_some h.2, h⟩

theorem tracks_congr {scope : Scope} (h : ∀ k ∈ scope, (s.mark? k).isSome ↔ (t.mark? k).isSome) :
    s.Tracks scope ↔ t.Tracks scope := by
  simp only [tracks_iff]
  exact exists_congr fun k => and_congr_right (h k)

theorem tracks_service {key : ServiceKey} : s.Tracks (.service key) ↔ (s.mark? key).isSome := by
  simp [tracks_iff]

theorem tracks_interface {node : NodeId} {address : Address} :
    s.Tracks (.interface node address) ↔
      ∃ service, (s.mark? ⟨node, address, service⟩).isSome := by
  rw [tracks_iff]
  constructor
  · intro h
    obtain ⟨⟨_, _, service⟩, ⟨rfl, rfl⟩, tracked⟩ := h
    exact ⟨service, tracked⟩
  · intro h
    obtain ⟨service, tracked⟩ := h
    exact ⟨_, ⟨rfl, rfl⟩, tracked⟩

theorem mark?_eq_none_of_not_tracks {scope : Scope} (h : ¬ s.Tracks scope) {k : ServiceKey}
    (hk : k ∈ scope) : s.mark? k = none := by
  rw [tracks_iff] at h
  exact Option.not_isSome_iff_eq_none.1 fun hs => h ⟨k, hk, hs⟩

@[simp] theorem queue_prune (s : Schedule) (node : NodeId) : (s.prune node).queue = s.queue := by
  unfold prune
  split <;> rfl

@[simp] theorem journal_prune (s : Schedule) (node : NodeId) :
    (s.prune node).journal = s.journal := by
  unfold prune
  split <;> rfl

def movedMarks (s : Schedule) (address : Address) (source target : NodeId) :
    Std.ExtTreeMap ServiceKey Mark :=
  ((s.scheduledAt source address).map fun key => { key with node := target }).foldl
    (fun marks key => marks.insert key .scheduled)
    (s.marks.filter fun key _ => key ∉ Scope.interface source address)

/-- All that moving an interface can do. -/
theorem reparent_cases {address : Address} {source target : NodeId}
    (h : s.reparent address source target = .ok t) :
    (s.node? target).isSome ∧ (s.node? source).isSome ∧ s.Tracks (.interface source address) ∧
      (source = target ∧ t = s ∨
        source ≠ target ∧
          t = prune { s with
            marks := s.movedMarks address source target
            journal := s.journal ++ [.reparent address source target] } source) := by
  unfold reparent at h
  split at h
  · contradiction
  · next ht =>
    split at h
    · contradiction
    · next hs =>
      split at h
      · contradiction
      · next hi =>
        refine ⟨Option.isSome_iff_ne_none.2 ht, Option.isSome_iff_ne_none.2 hs,
          Classical.not_not.1 hi, ?_⟩
        split at h
        · next e =>
          cases h
          exact .inl ⟨e, rfl⟩
        · next e =>
          cases h
          exact .inr ⟨e, rfl⟩

/-- Moving an interface fails if one of the nodes or the interface is not tracked. -/
theorem reparent_error {address : Address} {source target : NodeId} {e : CallError}
    (h : s.reparent address source target = .error e) :
    s.node? target = none ∨ s.node? source = none ∨ ¬ s.Tracks (.interface source address) := by
  unfold reparent at h
  split at h
  · next ht => exact .inl ht
  · split at h
    · next hs => exact .inr (.inl hs)
    · split at h
      · next hi => exact .inr (.inr hi)
      · split at h <;> contradiction

theorem getElem?_movedMarks (s : Schedule) (address : Address) {source target : NodeId}
    (hne : source ≠ target) (k : ServiceKey) :
    (s.movedMarks address source target)[k]? =
      if k ∈ Scope.interface source address then none
      else if k ∈ Scope.interface target address ∧
        s.mark? { k with node := source } = some .scheduled then some .scheduled
      else s.mark? k := by
  obtain ⟨node, a, service⟩ := k
  -- The keys that are inserted are those that were scheduled on the interface.
  have moved : ⟨node, a, service⟩ ∈ (s.scheduledAt source address).map
      (fun key : ServiceKey => { key with node := target }) ↔
      (node = target ∧ a = address) ∧ s.mark? ⟨source, a, service⟩ = some .scheduled := by
    simp only [List.mem_map, mem_scheduledAt, Scope.mem_interface]
    constructor
    · rintro ⟨⟨n, b, v⟩, ⟨⟨rfl, rfl⟩, hm⟩, he⟩
      cases he
      exact ⟨⟨rfl, rfl⟩, hm⟩
    · rintro ⟨⟨rfl, rfl⟩, hm⟩
      exact ⟨⟨source, a, service⟩, ⟨⟨rfl, rfl⟩, hm⟩, rfl⟩
  rw [movedMarks, getElem?_foldl_insert, Std.ExtTreeMap.getElem?_filter']
  simp only [moved, Scope.mem_interface]
  by_cases hs : node = source ∧ a = address
  · simp [hs, hne]
  · have keep (o : Option Mark) : o.filter (fun _ => true) = o := by cases o <;> rfl
    simp only [hs, not_false_eq_true, decide_true, keep, if_false]
    rfl

/-- An interface that moves takes its scheduled keys along, and only these. -/
theorem mark?_of_reparent {address : Address} {source target : NodeId} (hne : source ≠ target)
    (h : s.reparent address source target = .ok t) (k : ServiceKey) :
    t.mark? k =
      if k ∈ Scope.interface source address then none
      else if k ∈ Scope.interface target address ∧
        s.mark? { k with node := source } = some .scheduled then some .scheduled
      else s.mark? k := by
  rcases reparent_cases h with ⟨-, -, -, ⟨e, -⟩ | ⟨-, rfl⟩⟩
  · exact absurd e hne
  · rw [mark?_prune]
    exact getElem?_movedMarks s address hne k

end Polling.Schedule
