import Polling.Address.Basic
import Polling.Proofs.Schedule.Listing
import Polling.Proofs.Schedule.Tree

namespace Polling

section Positional

variable {α : Type} {digit : α → Nat} {base : Nat}

/-- The number that digits write after those of `n`, most significant first. -/
def positional (digit : α → Nat) (base n : Nat) (xs : List α) : Nat :=
  xs.foldl (fun n x => base * n + digit x) n

/-- A last digit decides where what stands before it does not. -/
theorem compare_last_digit {a b x y : Nat} (hx : x < base) (hy : y < base) :
    compare (base * a + x) (base * b + y) = (compare a b).then (compare x y) := by
  rcases Nat.lt_trichotomy a b with h | rfl | h
  · -- A digit is below the base, so it cannot make up for what stands before it.
    have step : base * (a + 1) ≤ base * b := Nat.mul_le_mul_left base h
    have lt : base * a + x < base * b + y := by
      rw [Nat.mul_succ] at step
      omega
    rw [Nat.compare_eq_lt.2 h, Nat.compare_eq_lt.2 lt]
    rfl
  · rw [Nat.compare_eq_eq.2 rfl, Ordering.eq_then]
    simp only [Nat.compare_eq_ite_lt, Nat.add_lt_add_iff_left]
  · have step : base * (b + 1) ≤ base * a := Nat.mul_le_mul_left base h
    have gt : base * b + y < base * a + x := by
      rw [Nat.mul_succ] at step
      omega
    rw [Nat.compare_eq_gt.2 h, Nat.compare_eq_gt.2 gt]
    rfl

/-- Equally many digits are compared one after the other. -/
theorem compare_positional [Ord α] (hd : ∀ x, digit x < base)
    (hc : ∀ x y : α, compare x y = compare (digit x) (digit y)) {xs ys : List α}
    (h : xs.length = ys.length) (m n : Nat) :
    compare (positional digit base m xs) (positional digit base n ys) =
      (compare m n).then (compare xs ys) := by
  -- The induction carries the numbers written so far: they decide unless they are equal.
  induction xs generalizing ys m n with
  | nil =>
    obtain rfl := List.length_eq_zero_iff.1 h.symm
    rw [List.compare_nil_nil, Ordering.then_eq]
    rfl
  | cons x xs ih =>
    cases ys with
    | nil => cases h
    | cons y ys =>
      have rest := ih (Nat.succ.inj h) (base * m + digit x) (base * n + digit y)
      rw [compare_last_digit (hd x) (hd y), Ordering.then_assoc, ← hc,
        ← List.compare_cons_cons] at rest
      exact rest

end Positional

namespace Address

theorem compare_octet (x y : UInt8) : compare x y = compare x.toNat y.toNat := by
  change compareOfLessAndEq x y = compareOfLessAndEq x.toNat y.toNat
  simp only [compareOfLessAndEq, UInt8.lt_iff_toNat_lt, UInt8.toNat_inj]

theorem compare_group (g h : UInt16) : compare g h = compare g.toNat h.toNat := by
  change compareOfLessAndEq g h = compareOfLessAndEq g.toNat h.toNat
  simp only [compareOfLessAndEq, UInt16.lt_iff_toNat_lt, UInt16.toNat_inj]

/-- Lists of equally many bytes are ordered by the numbers they write. -/
theorem compare_bigEndian {xs ys : List UInt8} (h : xs.length = ys.length) :
    compare (bigEndian xs) (bigEndian ys) = compare xs ys := by
  have := compare_positional UInt8.toNat_lt compare_octet h 0 0
  rwa [Nat.compare_eq_eq.2 rfl, Ordering.eq_then] at this

theorem positional_groupBytes (n : Nat) (g : UInt16) :
    positional UInt8.toNat 256 n (groupBytes g) = 65536 * n + g.toNat := by
  have := g.toNat_lt
  simp only [positional, groupBytes, List.foldl_cons, List.foldl_nil, UInt16.toNat_toUInt8,
    UInt16.toNat_shiftRight, UInt16.reduceToNat, Nat.reduceMod, Nat.shiftRight_eq_div_pow]
  omega

/-- The bytes of groups write what the groups write. -/
theorem bigEndian_groups (gs : List UInt16) :
    bigEndian (gs.flatMap groupBytes) = positional UInt16.toNat 65536 0 gs := by
  -- Two bytes are one step in base 65536, whatever was written before them.
  have step (n : Nat) (g : UInt16) := positional_groupBytes n g
  unfold positional at step
  rw [bigEndian, List.foldl_flatMap]
  simp only [step]
  rfl

theorem compare_groups {gs hs : List UInt16} (h : gs.length = hs.length) :
    compare (bigEndian (gs.flatMap groupBytes)) (bigEndian (hs.flatMap groupBytes)) =
      compare gs hs := by
  have := compare_positional UInt16.toNat_lt compare_group h 0 0
  rwa [Nat.compare_eq_eq.2 rfl, Ordering.eq_then, ← bigEndian_groups, ← bigEndian_groups] at this

theorem value_v4_lt (o : Vector UInt8 4) : (v4 o).value < UInt32.size := by
  obtain ⟨⟨os⟩, hl⟩ := o
  match os, hl with
  | [a, b, c, d], _ =>
    change 256 * (256 * (256 * (256 * 0 + a.toNat) + b.toNat) + c.toNat) + d.toNat < 4294967296
    have := a.toNat_lt
    have := b.toNat_lt
    have := c.toNat_lt
    have := d.toNat_lt
    omega

theorem value_v4_lt_v6 (o : Vector UInt8 4) (g : Vector UInt16 8) : (v4 o).value < (v6 g).value :=
  Nat.lt_of_lt_of_le (value_v4_lt o) (Nat.le_add_right _ _)

theorem compare_value_v6 (g h : Vector UInt16 8) :
    compare (v6 g).value (v6 h).value =
      compare (bigEndian (v6 g).bytes) (bigEndian (v6 h).bytes) := by
  simp only [value, Nat.compare_eq_ite_lt, Nat.add_lt_add_iff_left]

/-- The order by form and parts: the IPv4 addresses first, and then octet by octet or group by
group. -/
def compareParts : Address → Address → Ordering
  | v4 o, v4 p => compare o.toList p.toList
  | v4 _, v6 _ => .lt
  | v6 _, v4 _ => .gt
  | v6 g, v6 h => compare g.toList h.toList

theorem compareParts_eq_value (a b : Address) :
    compareParts a b = compare a.value b.value := by
  match a, b with
  | v4 o, v4 p => exact (compare_bigEndian (by simp)).symm
  | v4 o, v6 g => exact (Nat.compare_eq_lt.2 (value_v4_lt_v6 o g)).symm
  | v6 g, v4 o => exact (Nat.compare_eq_gt.2 (value_v4_lt_v6 o g)).symm
  | v6 g, v6 h =>
    rw [compare_value_v6]
    exact (compare_groups (by simp)).symm

/-- Shorter byte forms are compared before the bytes. -/
theorem compare_bytes (a b : Address) :
    compare a b = (compare a.bytes.length b.bytes.length).then (compare a.bytes b.bytes) := rfl

theorem compare_eq_value (a b : Address) : compare a b = compare a.value b.value := by
  rw [compare_bytes]
  match a, b with
  | v4 o, v4 p =>
    rw [length_bytes_v4, length_bytes_v4]
    exact (compare_bigEndian (by simp [length_bytes_v4])).symm
  | v4 o, v6 g =>
    rw [length_bytes_v4, length_bytes_v6]
    exact compareParts_eq_value (v4 o) (v6 g)
  | v6 g, v4 o =>
    rw [length_bytes_v4, length_bytes_v6]
    exact compareParts_eq_value (v6 g) (v4 o)
  | v6 g, v6 h =>
    rw [length_bytes_v6, length_bytes_v6, compare_value_v6]
    exact (compare_bigEndian (by simp [length_bytes_v6])).symm

theorem compare_eq_lt_iff {a b : Address} : compare a b = .lt ↔ a.value < b.value := by
  rw [compare_eq_value, Nat.compare_eq_lt]

theorem mem_range_iff {a : Address} {r : AddressRange} :
    a ∈ r ↔ r.first.value ≤ a.value ∧ a.value ≤ r.last.value := by
  rw [AddressRange.mem_iff, compare_eq_value, compare_eq_value, Nat.isLE_compare, Nat.isLE_compare]

theorem compare_key (k l : ServiceKey) :
    compare k l = (compare k.node.number l.node.number).then
      ((compare k.address.value l.address.value).then (compare k.service l.service)) := by
  rw [ServiceKey.compare_eq, compare_eq_value]
  rfl

theorem ascending_interfaces (b : Branch) :
    b.interfaces.keys.Pairwise fun x y => x.value < y.value := by
  have ordered : b.interfaces.keys.Pairwise fun x y => compare x y = .lt :=
    Std.ExtTreeMap.ordered_keys
  exact ordered.imp compare_eq_lt_iff.1

/-- Keys of one node in ascending order: by address, and by service within an interface. -/
theorem lt_of_compare_key {k l : ServiceKey} (hn : k.node = l.node) (h : compare k l = .lt) :
    k.address.value < l.address.value ∨ k.address = l.address ∧ k.service < l.service := by
  rw [ServiceKey.compare_eq, hn, Std.ReflOrd.compare_self, Ordering.eq_then,
    Ordering.then_eq_lt, compare_eq_lt_iff, Std.compare_eq_iff_eq] at h
  rcases h with h | ⟨ha, hs⟩
  · exact .inl h
  · exact .inr ⟨ha, compareOfLessAndEq_eq_lt.1 hs⟩

theorem listing_by_address (s : Schedule) (node : NodeId) :
    (s.keysIn (.node node)).Pairwise fun k l =>
      k.address.value < l.address.value ∨ k.address = l.address ∧ k.service < l.service := by
  have on_node {k : ServiceKey} (hk : k ∈ s.keysIn (.node node)) : k.node = node :=
    (Schedule.mem_keysIn.1 hk).2
  apply (s.ascending_keysIn (.node node)).imp_of_mem
  intro k l hk hl h
  exact lt_of_compare_key ((on_node hk).trans (on_node hl).symm) h

/-- Addresses are ordered by the given numbers wherever they are compared. -/
structure OrderedBy (value : Address → Nat) : Prop where
  compare_eq : ∀ a b : Address, compare a b = compare (value a) (value b)
  total : Std.TransOrd Address
  eq_iff : ∀ a b : Address, compare a b = .eq ↔ a = b
  parts : ∀ a b : Address, compareParts a b = compare a b
  keys : ∀ k l : ServiceKey, compare k l = (compare k.node.number l.node.number).then
    ((compare (value k.address) (value l.address)).then (compare k.service l.service))
  interfaces : ∀ b : Branch, b.interfaces.keys.Pairwise fun x y => value x < value y
  listing : ∀ (s : Schedule) (node : NodeId), (s.keysIn (.node node)).Pairwise fun k l =>
    value k.address < value l.address ∨ k.address = l.address ∧ k.service < l.service
  mem_iff : ∀ (a : Address) (r : AddressRange),
    a ∈ r ↔ value r.first ≤ value a ∧ value a ≤ value r.last
  v6_not_mem_v4 : ∀ first last g, v6 g ∉ AddressRange.mk (v4 first) (v4 last)
  v4_not_mem_v6 : ∀ first last o, v4 o ∉ AddressRange.mk (v6 first) (v6 last)
  inverted : ∀ r : AddressRange, compare r.last r.first = .lt → ∀ a, a ∉ r

/-- Comparisons of addresses, the order of keys, the listings of the schedule and ranges all go by
the number that an address writes in base 256, with the IPv6 addresses after all IPv4 ones. -/
theorem orderedBy_value : OrderedBy value where
  compare_eq := compare_eq_value
  total := inferInstance
  eq_iff _ _ := Std.compare_eq_iff_eq
  parts a b := (compareParts_eq_value a b).trans (compare_eq_value a b).symm
  keys := compare_key
  interfaces := ascending_interfaces
  listing := listing_by_address
  mem_iff _ _ := mem_range_iff
  v6_not_mem_v4 _ last g h := by
    have upper : (v6 g).value ≤ (v4 last).value := (mem_range_iff.1 h).2
    have := value_v4_lt_v6 last g
    omega
  v4_not_mem_v6 first _ o h := by
    have lower : (v6 first).value ≤ (v4 o).value := (mem_range_iff.1 h).1
    have := value_v4_lt_v6 o first
    omega
  inverted r hr a h := by
    obtain ⟨lower, upper⟩ := mem_range_iff.1 h
    rw [compare_eq_lt_iff] at hr
    omega

/-- Octets are not signed, and no IPv4 range reaches `::1`. -/
example : v4 #v[192, 168, 0, 200] ∈ AddressRange.mk (v4 #v[1, 0, 0, 0]) (v4 #v[255, 0, 0, 0]) ∧
    v6 #v[0, 0, 0, 0, 0, 0, 0, 1] ∉
      AddressRange.mk (v4 #v[0, 0, 0, 0]) (v4 #v[255, 255, 255, 255]) := by decide +kernel

end Address

end Polling
