import Polling.Schedule.Basic

namespace Polling

section Ascending

variable {α : Type} [Ord α] [Std.TransOrd α] {xs ys : List α}
  (hx : xs.Pairwise fun a b => compare a b = .lt)

include hx

theorem nodup_of_ascending : xs.Nodup := by
  apply hx.imp
  rintro a b hab rfl
  simp [Std.ReflOrd.compare_self] at hab

/-- Lists in ascending order with the same members are the same. -/
theorem eq_of_ascending (hy : ys.Pairwise fun a b => compare a b = .lt)
    (h : ∀ a, a ∈ xs ↔ a ∈ ys) : xs = ys := by
  have perm : xs.Perm ys :=
    (List.perm_ext_iff_of_nodup (nodup_of_ascending hx) (nodup_of_ascending hy)).2 h
  refine perm.eq_of_pairwise (fun a b _ _ hab hba => ?_) hx hy
  exact absurd hba (Std.OrientedCmp.not_lt_of_lt hab)

end Ascending

def ServiceKey.Ascending (keys : List ServiceKey) : Prop :=
  keys.Pairwise fun a b => compare a b = .lt

/-- The keys are exactly those with the property, in ascending order. -/
structure ServiceKey.Lists (keys : List ServiceKey) (P : ServiceKey → Prop) : Prop where
  ascending : Ascending keys
  mem_iff : ∀ key, key ∈ keys ↔ P key

namespace ServiceKey

variable {keys : List ServiceKey}

theorem Ascending.filter (h : Ascending keys) (p : ServiceKey → Bool) :
    Ascending (keys.filter p) :=
  List.Pairwise.filter p h

theorem Ascending.nodup (h : Ascending keys) : keys.Nodup := nodup_of_ascending h

/-- Keys are compared by node, then by address, then by service. -/
theorem compare_eq (a b : ServiceKey) :
    compare a b = (compare a.node b.node).then
      ((compare a.address b.address).then (compare a.service b.service)) :=
  rfl

theorem compare_of_node {a b : ServiceKey} (h : compare a.node b.node = .lt) :
    compare a b = .lt := by
  rw [compare_eq, h]
  rfl

theorem compare_of_address {node : NodeId} {x y : Address} {v w : String}
    (h : compare x y = .lt) :
    compare (⟨node, x, v⟩ : ServiceKey) ⟨node, y, w⟩ = .lt := by
  rw [compare_eq]
  simp only [Std.ReflOrd.compare_self, h, Ordering.then]

theorem compare_of_service {node : NodeId} {x : Address} {v w : String} (h : compare v w = .lt) :
    compare (⟨node, x, v⟩ : ServiceKey) ⟨node, x, w⟩ = .lt := by
  rw [compare_eq]
  simp only [Std.ReflOrd.compare_self, h, Ordering.then]

theorem Lists.eq {others : List ServiceKey} {P : ServiceKey → Prop} (h : Lists keys P)
    (h' : Lists others P) : keys = others :=
  eq_of_ascending h.ascending h'.ascending fun key => (h.mem_iff key).trans (h'.mem_iff key).symm

end ServiceKey

namespace Schedule

variable {s : Schedule}

theorem mem_keysIn {scope : Scope} {key : ServiceKey} :
    key ∈ s.keysIn scope ↔ (s.mark? key).isSome ∧ key ∈ scope := by
  rw [keysIn, List.mem_filter, mem_keys, decide_eq_true_eq]

theorem ascending_keys (s : Schedule) : ServiceKey.Ascending s.keys :=
  Std.ExtTreeMap.ordered_keys

theorem ascending_keysIn (s : Schedule) (scope : Scope) :
    ServiceKey.Ascending (s.keysIn scope) :=
  s.ascending_keys.filter _

theorem lists_keys (s : Schedule) : ServiceKey.Lists s.keys fun key => (s.mark? key).isSome :=
  ⟨s.ascending_keys, fun _ => mem_keys⟩

theorem lists_keysIn_node (s : Schedule) (node : NodeId) :
    ServiceKey.Lists (s.keysIn (.node node)) fun key =>
      key.node = node ∧ (s.mark? key).isSome :=
  ⟨s.ascending_keysIn _, fun _ => mem_keysIn.trans And.comm⟩

end Schedule

end Polling
