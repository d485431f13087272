import Polling.Proofs.Schedule.Journal
import Polling.Proofs.Schedule.Nodes
import Polling.Proofs.Schedule.Queue

namespace Polling.Schedule

variable {s t : Schedule}

theorem Covered.settle (h : s.Covered) : s.settle.Covered := h.act (.work s.queue.length)

theorem Trim.settle (h : s.Trim) : s.settle.Trim := h.act (.work s.queue.length)

/-- The schedule once a key is removed and its removal is carried out. -/
def expel (s : Schedule) (key : ServiceKey) : Schedule :=
  if (s.mark? key).isSome then (s.act (.delete (.service key))).settle else s

theorem expel_of_untracked {key : ServiceKey} (h : s.mark? key = none) : s.expel key = s := by
  simp [expel, h]

/-- To remove a marked key it is enough to wait. -/
theorem expel_of_pending {key : ServiceKey} (h : s.mark? key = some .pendingDelete) :
    s.expel key = s.settle := by
  rw [expel, if_pos (Option.isSome_of_eq_some h), act_delete_of_requested h]

theorem Covered.expel (h : s.Covered) (key : ServiceKey) : (s.expel key).Covered := by
  unfold Schedule.expel
  split
  · exact (h.act _).settle
  · exact h

theorem Trim.expel (h : s.Trim) (key : ServiceKey) : (s.expel key).Trim := by
  unfold Schedule.expel
  split
  · exact (h.act _).settle
  · exact h

/-- Removing a tracked key leaves the scheduled keys but that one. -/
theorem mark?_expel (h : s.Covered) {key : ServiceKey} (hk : (s.mark? key).isSome)
    (k : ServiceKey) :
    (s.expel key).mark? k = if k = key then none else (s.mark? k).filter (· = .scheduled) := by
  rw [expel, if_pos hk, mark?_settle (h.act _), mark?_act_delete]
  simp only [Scope.mem_service]
  split
  · cases s.mark? k <;> rfl
  · rfl

/-- A key that was waited for is gone. -/
theorem mark?_expel_self (h : s.Covered) (key : ServiceKey) : (s.expel key).mark? key = none := by
  cases hk : s.mark? key with
  | none => rw [expel_of_untracked hk, hk]
  | some mark => rw [mark?_expel h (Option.isSome_of_eq_some hk), if_pos rfl]

def expelAll (s : Schedule) (keys : List ServiceKey) : Schedule := keys.foldl expel s

theorem expelAll_append (s : Schedule) (first second : List ServiceKey) :
    s.expelAll (first ++ second) = (s.expelAll first).expelAll second :=
  List.foldl_append

theorem Covered.expelAll (h : s.Covered) (keys : List ServiceKey) : (s.expelAll keys).Covered := by
  induction keys generalizing s with
  | nil => exact h
  | cons key keys ih => exact ih (h.expel key)

theorem Trim.expelAll (h : s.Trim) (keys : List ServiceKey) : (s.expelAll keys).Trim := by
  induction keys generalizing s with
  | nil => exact h
  | cons key keys ih => exact ih (h.expel key)

theorem expelAll_of_untracked {keys : List ServiceKey} (h : ∀ key ∈ keys, s.mark? key = none) :
    s.expelAll keys = s := by
  induction keys with
  | nil => rfl
  | cons key keys ih =>
    change (s.expel key).expelAll keys = s
    rw [expel_of_untracked (h key List.mem_cons_self)]
    exact ih fun k hk => h k (List.mem_cons_of_mem _ hk)

/-- Once one key had to be waited for, the scheduled keys that were not removed are left. -/
theorem mark?_expelAll (h : s.Covered) {keys : List ServiceKey}
    (hk : ∃ key ∈ keys, (s.mark? key).isSome) (k : ServiceKey) :
    (s.expelAll keys).mark? k =
      if k ∈ keys then none else (s.mark? k).filter (· = .scheduled) := by
  induction keys generalizing s with
  | nil => simp at hk
  | cons key keys ih =>
    change ((s.expel key).expelAll keys).mark? k = _
    cases hm : s.mark? key with
    | none =>
      rw [expel_of_untracked hm]
      obtain ⟨other, ho, ht⟩ := hk
      have hne : other ≠ key := by
        rintro rfl
        simp [hm] at ht
      rw [ih h ⟨other, List.mem_of_ne_of_mem hne ho, ht⟩]
      by_cases e : k = key
      · subst e
        simp [hm]
      · simp [e]
    | some mark =>
      have ht : (s.mark? key).isSome := Option.isSome_of_eq_some hm
      have hx := mark?_expel h ht
      -- If none of the other keys is left there is no further wait, and the induction ends here.
      by_cases more : ∃ other ∈ keys, ((s.expel key).mark? other).isSome
      · rw [ih (h.expel key) more, hx]
        by_cases e : k = key
        · simp [e]
        · by_cases hin : k ∈ keys
          · simp [hin]
          · simp [e, hin, Option.filter_filter]
      · have gone (other : ServiceKey) (ho : other ∈ keys) : (s.expel key).mark? other = none :=
          Option.not_isSome_iff_eq_none.1 fun hs => more ⟨other, ho, hs⟩
        rw [expelAll_of_untracked gone, hx]
        by_cases e : k = key
        · simp [e]
        · by_cases hin : k ∈ keys
          · have := gone k hin
            rw [hx, if_neg e] at this
            simp [e, hin, this]
          · simp [e, hin]

/-- Of a removal the journal has the request; carrying it out is not written. -/
theorem journal_expel {key : ServiceKey} (h : s.mark? key = some .scheduled) :
    (s.expel key).journal = s.journal ++ [.delete (.service key)] := by
  have tracked : s.Tracks (.service key) := tracks_iff.2 ⟨key, rfl, Option.isSome_of_eq_some h⟩
  have fresh : ¬ s.Requested (.service key) := by
    intro (requested : s.mark? key = some .pendingDelete)
    rw [h] at requested
    cases requested
  have marked : (s.act (.delete (.service key))).journal =
      s.journal ++ [.delete (.service key)] := by
    simp [act, after, delete, tracked, fresh]
  rw [expel, if_pos (Option.isSome_of_eq_some h), settle, journal_advance, marked]

/-- Scheduled keys that are removed one after the other are written in their order. -/
theorem journal_expelAll (hc : s.Covered) {keys : List ServiceKey} (hn : keys.Nodup)
    (h : ∀ key ∈ keys, s.mark? key = some .scheduled) :
    (s.expelAll keys).journal =
      s.journal ++ keys.map fun key => .delete (.service key) := by
  induction keys generalizing s with
  | nil => exact (List.append_nil _).symm
  | cons key keys ih =>
    obtain ⟨hk, hn⟩ := List.nodup_cons.1 hn
    have first := h key List.mem_cons_self
    have others : ∀ k ∈ keys, (s.expel key).mark? k = some .scheduled := by
      intro k hin
      have hne : k ≠ key := fun e => hk (e ▸ hin)
      rw [mark?_expel hc (Option.isSome_of_eq_some first), if_neg hne,
        h k (List.mem_cons_of_mem _ hin)]
      rfl
    change ((s.expel key).expelAll keys).journal = _
    rw [ih (hc.expel key) hn others, journal_expel first, List.append_assoc]
    rfl

def addAll (s : Schedule) (info : NodeInfo) (keys : List ServiceKey) : Schedule :=
  keys.foldl (fun s key => s.act (.add key info)) s

/-- The keys that were not tracked are scheduled, and no other key changes. -/
theorem mark?_addAll (s : Schedule) (info : NodeInfo) (keys : List ServiceKey) (k : ServiceKey) :
    (s.addAll info keys).mark? k =
      if k ∈ keys ∧ s.mark? k = none then some .scheduled else s.mark? k := by
  induction keys generalizing s with
  | nil => simp [addAll]
  | cons key keys ih =>
    change ((s.act (.add key info)).addAll info keys).mark? k = _
    rw [ih, mark?_act_add]
    by_cases e : k = key
    · subst e
      by_cases hn : s.mark? k = none <;> simp [hn]
    · simp [e]

/-- Untracked keys that are added one after the other are written in their order. -/
theorem journal_addAll (info : NodeInfo) {keys : List ServiceKey} (hn : keys.Nodup)
    (h : ∀ key ∈ keys, s.mark? key = none) :
    (s.addAll info keys).journal = s.journal ++ keys.map .schedule := by
  induction keys generalizing s with
  | nil => exact (List.append_nil _).symm
  | cons key keys ih =>
    obtain ⟨hk, hn⟩ := List.nodup_cons.1 hn
    have first : (s.act (.add key info)).journal = s.journal ++ [.schedule key] := by
      simp [act, add?, h key List.mem_cons_self]
    have others : ∀ k ∈ keys, (s.act (.add key info)).mark? k = none := by
      intro k hin
      have hne : k ≠ key := fun e => hk (e ▸ hin)
      rw [mark?_act_add, if_neg (fun e => hne e.1), h k (List.mem_cons_of_mem _ hin)]
    change ((s.act (.add key info)).addAll info keys).journal = _
    rw [ih hn others, first, List.append_assoc]
    rfl

theorem Trim.node?_act_add (h : s.Trim) (key : ServiceKey) (info : NodeInfo) (m : NodeId) :
    (s.act (.add key info)).node? m =
      if m = key.node then some ((s.node? m).getD info) else s.node? m := by
  rw [Schedule.act]
  cases ha : s.add? key info with
  | some t => exact node?_of_add? ha m
  | none =>
    have hs : (s.mark? key).isSome := add?_eq_none.1 ha
    rw [Option.getD_none]
    split
    · next e =>
      obtain ⟨i, hi⟩ := Option.isSome_iff_exists.1 (h.isSome_node? hs)
      rw [e, hi]
      rfl
    · rfl

/-- A node that gets its first keys comes with the given information. -/
theorem Trim.node?_addAll (h : s.Trim) (info : NodeInfo) {keys : List ServiceKey} {m : NodeId}
    (hm : ∀ key ∈ keys, key.node = m) :
    (s.addAll info keys).node? m =
      if keys = [] then s.node? m else some ((s.node? m).getD info) := by
  induction keys generalizing s with
  | nil => rfl
  | cons key keys ih =>
    change ((s.act (.add key info)).addAll info keys).node? m = _
    have e := hm key List.mem_cons_self
    rw [ih (h.add key info) fun k hk => hm k (List.mem_cons_of_mem _ hk),
      h.node?_act_add key info, if_pos e.symm]
    split <;> simp

end Polling.Schedule
