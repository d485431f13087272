namespace Polling

/-- An IPv4 or IPv6 address, its parts most significant first. -/
inductive Address where
  | v4 (octets : Vector UInt8 4)
  | v6 (groups : Vector UInt16 8)
deriving DecidableEq, Repr

namespace Address

def groupBytes (g : UInt16) : List UInt8 := [(g >>> 8).toUInt8, g.toUInt8]

def bytes : Address → List UInt8
  | v4 octets => octets.toList
  | v6 groups => groups.toList.flatMap groupBytes

def bigEndian (bs : List UInt8) : Nat := bs.foldl (fun n b => 256 * n + b.toNat) 0

/-- The place of an address among all: the IPv6 addresses follow the `2 ^ 32` IPv4 ones. -/
def value : Address → Nat
  | v4 octets => bigEndian (v4 octets).bytes
  | v6 groups => UInt32.size + bigEndian (v6 groups).bytes

/-- Shorter byte forms come first, and equally long ones compare byte by byte. -/
instance : Ord Address where
  compare := compareLex (compareOn fun a => a.bytes.length) (compareOn bytes)

instance : Std.TransOrd Address :=
  inferInstanceAs (Std.TransCmp (compareLex (compareOn _) (compareOn bytes)))

theorem groupBytes_injective {g h : UInt16} (e : groupBytes g = groupBytes h) : g = h := by
  simp only [groupBytes, List.cons.injEq, and_true] at e
  have hi := congrArg UInt8.toNat e.1
  have lo := congrArg UInt8.toNat e.2
  have hg := g.toNat_lt
  have hh := h.toNat_lt
  simp only [UInt16.toNat_toUInt8, UInt16.toNat_shiftRight, UInt16.reduceToNat, Nat.reduceMod,
    Nat.shiftRight_eq_div_pow] at hi lo
  apply UInt16.toNat_inj.1
  omega

theorem flatMap_groupBytes_injective :
    ∀ {gs hs : List UInt16}, gs.flatMap groupBytes = hs.flatMap groupBytes → gs = hs
  | [], [], _ => rfl
  | [], h :: hs, e => by simp [groupBytes] at e
  | g :: gs, [], e => by simp [groupBytes] at e
  | g :: gs, h :: hs, e => by
    simp only [List.flatMap_cons] at e
    obtain ⟨e₁, e₂⟩ := List.append_inj e (by simp [groupBytes])
    rw [groupBytes_injective e₁, flatMap_groupBytes_injective e₂]

theorem length_bytes_v4 (o : Vector UInt8 4) : (v4 o).bytes.length = 4 := by
  simp [bytes]

theorem length_bytes_v6 (g : Vector UInt16 8) : (v6 g).bytes.length = 16 := by
  simp [bytes, groupBytes, List.length_flatMap, List.map_const']

/-- An address is its bytes. -/
theorem bytes_injective {a b : Address} (e : a.bytes = b.bytes) : a = b := by
  have l := congrArg List.length e
  match a, b with
  | v4 o, v4 p => exact congrArg v4 (Vector.toList_inj.1 e)
  | v6 g, v6 h => exact congrArg v6 (Vector.toList_inj.1 (flatMap_groupBytes_injective e))
  | v4 o, v6 h => simp [length_bytes_v4, length_bytes_v6] at l
  | v6 g, v4 p => simp [length_bytes_v4, length_bytes_v6] at l

instance : Std.LawfulEqOrd Address where
  eq_of_compare {a b} h := by
    change (compareOn (fun a => a.bytes.length) a b).then (compare a.bytes b.bytes) = .eq at h
    rw [Ordering.then_eq_eq] at h
    exact bytes_injective (Std.LawfulEqOrd.eq_of_compare h.2)

end Address

/-- The addresses from `first` to `last`, both included. The ends may be of two families, and if
they are in the wrong order the range is empty. -/
structure AddressRange where
  first : Address
  last : Address
deriving DecidableEq, Repr

namespace AddressRange

instance : Membership Address AddressRange where
  mem r a := (compare r.first a).isLE ∧ (compare a r.last).isLE

instance (a : Address) (r : AddressRange) : Decidable (a ∈ r) :=
  inferInstanceAs (Decidable ((compare r.first a).isLE ∧ (compare a r.last).isLE))

theorem mem_iff {a : Address} {r : AddressRange} :
    a ∈ r ↔ (compare r.first a).isLE ∧ (compare a r.last).isLE := Iff.rfl

end AddressRange

end Polling
