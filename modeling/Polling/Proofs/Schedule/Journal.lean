import Mathlib.Data.Finset.Image
import Polling.Proofs.Schedule.Actions

namespace Polling

def Change.replay (keys : Finset ServiceKey) : Change → Finset ServiceKey
  | .schedule key => insert key keys
  | .delete scope => keys.filter (· ∉ scope)
  | .reparent address source target =>
    keys.image fun key =>
      if key ∈ Scope.interface source address then { key with node := target } else key
  | .setLabel _ _ => keys

/-- The keys that are scheduled according to a journal. -/
def replay (journal : List Change) : Finset ServiceKey := journal.foldl Change.replay ∅

/-- A key is at an interface that moved in if it was at the one that moved out. -/
theorem Change.mem_replay_reparent {keys : Finset ServiceKey} {address : Address}
    {source target : NodeId} (hne : source ≠ target) (k : ServiceKey) :
    k ∈ Change.replay keys (.reparent address source target) ↔
      k ∉ Scope.interface source address ∧
        (k ∈ keys ∨ k ∈ Scope.interface target address ∧ { k with node := source } ∈ keys) := by
  obtain ⟨node, a, service⟩ := k
  simp only [Change.replay, Finset.mem_image, Scope.mem_interface]
  constructor
  · -- The key that the image is of was at the source, and has moved, or elsewhere, and has not.
    rintro ⟨⟨n, b, v⟩, hk, he⟩
    split at he
    · next hs =>
      obtain ⟨rfl, rfl⟩ := hs
      cases he
      exact ⟨fun e => hne e.1.symm, .inr ⟨⟨rfl, rfl⟩, hk⟩⟩
    · next hs =>
      cases he
      exact ⟨hs, .inl hk⟩
  · rintro ⟨hs, hk | ⟨⟨rfl, rfl⟩, hk⟩⟩
    · exact ⟨_, hk, if_neg hs⟩
    · exact ⟨_, hk, if_pos ⟨rfl, rfl⟩⟩

namespace Schedule

variable {s t u : Schedule}

def scheduled (s : Schedule) : Finset ServiceKey :=
  (s.keys.filter fun key => s.mark? key = some .scheduled).toFinset

@[simp] theorem mem_scheduled {k : ServiceKey} :
    k ∈ s.scheduled ↔ s.mark? k = some .scheduled := by
  simp only [scheduled, List.mem_toFinset, List.mem_filter, mem_keys, decide_eq_true_eq]
  constructor
  · exact fun h => h.2
  · exact fun h => ⟨Option.isSome_of_eq_some h, h⟩

/-- The journal tells how the scheduled keys of one schedule became those of a later one. -/
def Journaled (s t : Schedule) : Prop :=
  ∃ changes, t.journal = s.journal ++ changes ∧
    t.scheduled = changes.foldl Change.replay s.scheduled

theorem Journaled.refl (s : Schedule) : Journaled s s :=
  ⟨[], (List.append_nil _).symm, rfl⟩

theorem Journaled.trans (h : Journaled s t) (k : Journaled t u) : Journaled s u := by
  obtain ⟨first, hj, hs⟩ := h
  obtain ⟨second, kj, ks⟩ := k
  refine ⟨first ++ second, ?_, ?_⟩
  · rw [kj, hj, List.append_assoc]
  · rw [ks, hs, List.foldl_append]

/-- Nothing is written when no scheduled key comes or goes. -/
theorem journaled_of_same (hj : t.journal = s.journal)
    (h : ∀ k, t.mark? k = some .scheduled ↔ s.mark? k = some .scheduled) : Journaled s t := by
  refine ⟨[], by simpa using hj, ?_⟩
  ext k
  simpa using h k

/-- One change is written, and it is what happens to the scheduled keys. -/
theorem journaled_of_change (change : Change) (hj : t.journal = s.journal ++ [change])
    (h : ∀ k, t.mark? k = some .scheduled ↔ k ∈ Change.replay s.scheduled change) :
    Journaled s t := by
  refine ⟨[change], hj, ?_⟩
  ext k
  simpa using h k

theorem journaled_add (s : Schedule) (key : ServiceKey) (info : NodeInfo) :
    Journaled s (s.act (.add key info)) := by
  by_cases hs : (s.mark? key).isSome
  · have same : s.act (.add key info) = s := by simp [act, add?, hs]
    rw [same]
    exact .refl s
  · apply journaled_of_change (.schedule key)
    · simp [act, add?, hs]
    · intro k
      have hn := Option.not_isSome_iff_eq_none.1 hs
      rw [mark?_act_add]
      by_cases hk : k = key
      · subst hk
        simp [Change.replay, hn]
      · simp [Change.replay, hk]

theorem journaled_delete (s : Schedule) (scope : Scope) : Journaled s (s.act (.delete scope)) := by
  apply after_induction (.refl s)
  intro t h
  rcases delete_cases h with ⟨-, ⟨-, rfl⟩ | ⟨-, ht⟩⟩
  · exact .refl t
  · apply journaled_of_change (.delete scope)
    · rw [ht]
    · intro k
      rw [mark?_of_delete h]
      by_cases hk : k ∈ scope <;> simp [Change.replay, hk]

theorem journaled_reparent (s : Schedule) (address : Address) (source target : NodeId) :
    Journaled s (s.act (.reparent address source target)) := by
  apply after_induction (.refl s)
  intro t h
  rcases reparent_cases h with ⟨-, -, -, ⟨-, rfl⟩ | ⟨hne, ht⟩⟩
  · exact .refl t
  · apply journaled_of_change (.reparent address source target)
    · rw [ht, journal_prune]
    · intro k
      rw [mark?_of_reparent hne h, Change.mem_replay_reparent hne]
      by_cases hs : k ∈ Scope.interface source address
      · simp [hs]
      · simp only [hs, if_false, not_false_eq_true, true_and, mem_scheduled]
        split
        · next hk => simp [hk]
        · next hk => simp only [hk, or_false]

theorem journaled_setLabel (s : Schedule) (node : NodeId) (label : String) :
    Journaled s (s.act (.setLabel node label)) := by
  apply after_induction (.refl s)
  intro t h
  apply journaled_of_change (.setLabel node label)
  · unfold setLabel at h
    split at h
    · contradiction
    · cases h
      rfl
  · intro k
    simp [mark?_of_setLabel h, Change.replay]

theorem journal_drop (s : Schedule) (scope : Scope) : (s.drop scope).journal = s.journal := by
  rw [drop, journal_prune]

theorem journal_advance (s : Schedule) (count : Nat) : (s.advance count).journal = s.journal := by
  have drops (s : Schedule) (scopes : List Scope) :
      (scopes.foldl drop s).journal = s.journal := by
    induction scopes generalizing s with
    | nil => rfl
    | cons scope scopes ih => rw [List.foldl_cons, ih, journal_drop]
  exact drops _ _

/-- No removal, not even one that is out of date, adds or removes a scheduled key. -/
theorem mark?_drop_eq_scheduled_iff (s : Schedule) (scope : Scope) (k : ServiceKey) :
    (s.drop scope).mark? k = some .scheduled ↔ s.mark? k = some .scheduled := by
  rw [mark?_drop, Option.filter_eq_some_iff]
  simp

theorem scheduled_drop (s : Schedule) (scope : Scope) : (s.drop scope).scheduled = s.scheduled := by
  ext k
  simpa using mark?_drop_eq_scheduled_iff s scope k

theorem scheduled_foldl_drop (s : Schedule) (scopes : List Scope) :
    (scopes.foldl drop s).scheduled = s.scheduled := by
  induction scopes generalizing s with
  | nil => rfl
  | cons scope scopes ih => rw [List.foldl_cons, ih, scheduled_drop]

theorem journaled_drop (s : Schedule) (scope : Scope) : Journaled s (s.drop scope) :=
  journaled_of_same (journal_drop s scope) (mark?_drop_eq_scheduled_iff s scope)

theorem journaled_foldl_drop (s : Schedule) (scopes : List Scope) :
    Journaled s (scopes.foldl drop s) := by
  induction scopes generalizing s with
  | nil => exact .refl s
  | cons scope scopes ih => exact (journaled_drop s scope).trans (ih _)

theorem journaled_advance (s : Schedule) (count : Nat) : Journaled s (s.advance count) := by
  have taken : Journaled s { s with queue := s.queue.drop count } :=
    journaled_of_same rfl fun _ => Iff.rfl
  exact taken.trans (journaled_foldl_drop _ _)

theorem journaled_act (s : Schedule) (action : Action) : Journaled s (s.act action) := by
  cases action with
  | add key info => exact journaled_add s key info
  | delete scope => exact journaled_delete s scope
  | reparent address source target => exact journaled_reparent s address source target
  | setLabel node label => exact journaled_setLabel s node label
  | work count => exact journaled_advance s count
  | carryOut scope => exact journaled_drop s scope

theorem journaled_run (s : Schedule) (actions : List Action) : Journaled s (s.run actions) :=
  run_induction (fun _ action h => h.trans (journaled_act _ action)) (.refl s) actions

/-- The journal of any run is faithful: read from the start it gives exactly the scheduled keys. The
worker has no part in it, for no removal that it carries out, however old, adds or removes one. -/
theorem replay_journal_run (actions : List Action) :
    replay (run {} actions).journal = (run {} actions).scheduled ∧
      ∀ s : Schedule, (∀ count, (s.advance count).scheduled = s.scheduled) ∧
        ∀ scope, (s.drop scope).scheduled = s.scheduled := by
  refine ⟨?_, fun s => ⟨fun count => ?_, fun scope => ?_⟩⟩
  · obtain ⟨changes, hj, hs⟩ := journaled_run {} actions
    have start : scheduled {} = ∅ := by simp [scheduled, keys]
    rw [hs, start, hj]
    rfl
  · exact scheduled_foldl_drop _ _
  · ext k
    simpa using mark?_drop_eq_scheduled_iff s scope k

/-- Scheduled on one node and on its way out on the other, an interface that moves is scheduled. -/
example :
    let a := Address.v4 #v[10, 0, 0, 1]
    let actions : List Action :=
      [.add ⟨⟨1⟩, a, "ICMP"⟩ {}, .add ⟨⟨2⟩, a, "ICMP"⟩ {}, .delete (.node ⟨2⟩),
        .reparent a ⟨1⟩ ⟨2⟩, .work 1]
    replay (run {} actions).journal = {⟨⟨2⟩, a, "ICMP"⟩} := by
  decide +kernel

end Schedule

end Polling
