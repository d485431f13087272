namespace Polling.Text

/-- Equality up to the case of ASCII letters. -/
def Caseless (s t : String) : Prop := s.toList.map Char.toLower = t.toList.map Char.toLower

instance (s t : String) : Decidable (Caseless s t) :=
  inferInstanceAs (Decidable (s.toList.map Char.toLower = t.toList.map Char.toLower))

namespace Caseless

theorem refl (s : String) : Caseless s s := rfl

example : Caseless "Http" "hTTP" ∧ ¬ Caseless "é" "É" := by decide

end Caseless

/-- The characters with the Unicode property `White_Space`, 25 in all. -/
def isBlank (c : Char) : Bool :=
  ('\t' ≤ c && c ≤ '\r') || c == ' ' || c == '\x85' || c == '\xa0' || c == '\u1680' ||
    ('\u2000' ≤ c && c ≤ '\u200a') || c == '\u2028' || c == '\u2029' || c == '\u202f' ||
    c == '\u205f' || c == '\u3000'

def trimLeft (cs : List Char) : List Char := cs.dropWhile isBlank

def trim (cs : List Char) : List Char := (trimLeft (trimLeft cs).reverse).reverse

example : trim "\u2003a b\x85\n".toList = "a b".toList := by decide

def AllBlank (s : String) : Prop := ∀ c ∈ s.toList, isBlank c = true

instance (s : String) : Decidable (AllBlank s) :=
  List.decidableBAll (fun c => isBlank c = true) s.toList

/-- A text of `n` line feeds has `n + 1` lines, the last of which may be empty. A carriage return
stays in its line. -/
def lines : List Char → List (List Char)
  | [] => [[]]
  | c :: cs =>
    if c = '\n' then [] :: lines cs
    else
      match lines cs with
      | [] => [[c]]
      | l :: ls => (c :: l) :: ls

example : lines "a\r\n\nb".toList = ["a\r".toList, [], ['b']] := by decide

def hexDigit? (c : Char) : Option Nat :=
  if '0' ≤ c ∧ c ≤ '9' then some (c.toNat - '0'.toNat)
  else if 'a' ≤ c ∧ c ≤ 'f' then some (c.toNat - 'a'.toNat + 10)
  else if 'A' ≤ c ∧ c ≤ 'F' then some (c.toNat - 'A'.toNat + 10)
  else none

def ofHexDigits (digits : List Nat) : Nat := digits.foldl (fun n d => 16 * n + d) 0

def hexDigits? (cs : List Char) : Option (List Nat) := cs.mapM hexDigit?

def hexBytes? : List Char → Option (List UInt8)
  | [] => some []
  | [_] => none
  | a :: b :: cs => do
    let digits ← hexDigits? [a, b]
    return (ofHexDigits digits).toUInt8 :: (← hexBytes? cs)

example : hexBytes? "c3A9".toList = some [0xc3, 0xa9] := by decide

end Polling.Text
