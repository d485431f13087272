import Polling.Address.Printer
import Polling.Text

namespace Polling

/-- A node number of the inventory, which never gives out zero. -/
structure NodeId where
  number : UInt32
deriving DecidableEq, Repr

namespace NodeId

def Valid (n : NodeId) : Prop := n.number ≠ 0

instance (n : NodeId) : Decidable n.Valid := inferInstanceAs (Decidable (n.number ≠ 0))

instance : Ord NodeId where
  compare := compareOn number

instance : Std.TransOrd NodeId := inferInstanceAs (Std.TransCmp (compareOn number))

instance : Std.LawfulEqOrd NodeId where
  eq_of_compare {a b} h := by
    cases a
    cases b
    exact congrArg mk (Std.LawfulEqOrd.eq_of_compare h)

instance : ToString NodeId := ⟨fun n => toString n.number.toNat⟩

def withoutPlus : List Char → List Char
  | '+' :: cs => cs
  | cs => cs

/-- Reads an id: decimal digits with any number of leading zeros, one plus sign allowed before them
and blanks around the whole. -/
def ofString? (s : String) : Option NodeId :=
  let digits := withoutPlus (Text.trim s.toList)
  let n := Nat.ofDigitChars 10 digits 0
  if digits ≠ [] ∧ digits.all Char.isDigit ∧ n < UInt32.size then some ⟨n.toUInt32⟩ else none

example : ofString? " +042\n" = some ⟨42⟩ := by decide +kernel

example : ofString? "4294967296" = none ∧ ofString? "++1" = none ∧ ofString? "" = none := by
  decide +kernel

end NodeId

/-- One service on one interface of one node. -/
structure ServiceKey where
  node : NodeId
  address : Address
  service : String
deriving DecidableEq, Repr

namespace ServiceKey

instance : Ord ServiceKey where
  compare := compareLex (compareOn node) (compareLex (compareOn address) (compareOn service))

instance : Std.TransOrd ServiceKey :=
  inferInstanceAs (Std.TransCmp
    (compareLex (compareOn node) (compareLex (compareOn address) (compareOn service))))

instance : Std.LawfulEqOrd ServiceKey where
  eq_of_compare {a b} h := by
    obtain ⟨n, x, s⟩ := a
    obtain ⟨m, y, t⟩ := b
    change (compare n m).then ((compare x y).then (compare s t)) = .eq at h
    simp only [Ordering.then_eq_eq] at h
    rw [mk.injEq]
    exact ⟨Std.LawfulEqOrd.eq_of_compare h.1, Std.LawfulEqOrd.eq_of_compare h.2.1,
      Std.LawfulEqOrd.eq_of_compare h.2.2⟩

instance : ToString ServiceKey where
  toString k := toString k.node ++ "/" ++ toString k.address ++ "/" ++ k.service

end ServiceKey

end Polling
