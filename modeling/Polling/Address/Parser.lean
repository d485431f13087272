import Polling.Address.Basic
import Polling.Text

namespace Polling.Address

/-- Reads one octet: one to three digits, no leading zero, at most 255. -/
def octet? (cs : List Char) : Option (UInt8 × List Char) :=
  let digits := cs.takeWhile Char.isDigit
  let n := Nat.ofDigitChars 10 digits 0
  if digits.length ∈ [1, 2, 3] ∧ (digits.head? = some '0' → digits.length = 1) ∧ n ≤ 255 then
    some (n.toUInt8, cs.dropWhile Char.isDigit)
  else none

def after? (c : Char) : List Char → Option (List Char)
  | d :: cs => if d = c then some cs else none
  | [] => none

def octets? (cs : List Char) : Option (Vector UInt8 4 × List Char) := do
  let (a, cs) ← octet? cs
  let (b, cs) ← octet? (← after? '.' cs)
  let (c, cs) ← octet? (← after? '.' cs)
  let (d, cs) ← octet? (← after? '.' cs)
  return (#v[a, b, c, d], cs)

def group? (cs : List Char) : Option (UInt16 × List Char) :=
  let digits := cs.takeWhile fun c => (Text.hexDigit? c).isSome
  if digits.length ∈ [1, 2, 3, 4] then
    some ((Text.ofHexDigits (digits.filterMap Text.hexDigit?)).toUInt16, cs.drop digits.length)
  else none

def octetGroups (o : Vector UInt8 4) : List UInt16 :=
  [o[0].toUInt16 <<< 8 ||| o[1].toUInt16, o[2].toUInt16 <<< 8 ||| o[3].toUInt16]

/-- What `readGroups` found: the groups, whether the last two were written as an IPv4 address, and
the rest of the text. -/
structure Groups where
  groups : List UInt16
  endsInOctets : Bool
  rest : List Char

/-- Reads at most `room` groups with colons between them. Where two groups fit, an IPv4 address is
tried first, and it ends the list. A colon that no group follows is left unread. -/
def readGroups (first : Bool) : (room : Nat) → List Char → Groups
  | 0, cs => ⟨[], false, cs⟩
  | room + 1, cs =>
    match if first then some cs else after? ':' cs with
    | none => ⟨[], false, cs⟩
    | some body =>
      match if room = 0 then none else octets? body with
      | some (octets, rest) => ⟨octetGroups octets, true, rest⟩
      | none =>
        match group? body with
        | none => ⟨[], false, cs⟩
        | some (g, rest) =>
          let more := readGroups false room rest
          { more with groups := g :: more.groups }

def ofGroups? (groups : List UInt16) : Option Address :=
  if h : groups.length = 8 then some (v6 ⟨groups.toArray, by simpa using h⟩) else none

/-- Reads an IPv6 address: eight groups, or fewer around one `::`. -/
def v6? (cs : List Char) : Option (Address × List Char) := do
  let head := readGroups true 8 cs
  if head.groups.length = 8 then
    return (← ofGroups? head.groups, head.rest)
  if head.endsInOctets then failure
  let tail := readGroups true (7 - head.groups.length) (← after? ':' (← after? ':' head.rest))
  let zeros := List.replicate (8 - head.groups.length - tail.groups.length) 0
  return (← ofGroups? (head.groups ++ zeros ++ tail.groups), tail.rest)

def ofChars? (cs : List Char) : Option Address := do
  let (address, rest) ← match octets? cs with
    | some (octets, rest) => some (v4 octets, rest)
    | none => v6? cs
  if rest = [] then some address else none

def ofString? (s : String) : Option Address := ofChars? s.toList

example : ofString? "::ffff:10.0.0.1" = some (v6 #v[0, 0, 0, 0, 0, 0xffff, 0x0a00, 1]) := by
  decide +kernel

example : ofString? "1:2:3:4:5:6:7::8" = none ∧ ofString? "10.0.0.01" = none := by decide +kernel

end Polling.Address
