import Polling.Address.Basic

namespace Polling.Address

def separated (sep : Char) : List (List Char) → List Char
  | [] => []
  | [t] => t
  | t :: u :: ts => t ++ sep :: separated sep (u :: ts)

def octetsText (octets : List UInt8) : List Char :=
  separated '.' (octets.map fun o => Nat.toDigits 10 o.toNat)

def groupsText (groups : List UInt16) : List Char :=
  separated ':' (groups.map fun g => Nat.toDigits 16 g.toNat)

def zerosInFront (groups : List UInt16) : Nat := (groups.takeWhile (· == 0)).length

/-- Start and length of the longest run of zero groups, the first of equals. -/
def longestZeroRun : List UInt16 → Nat × Nat
  | [] => (0, 0)
  | g :: gs =>
    let later := longestZeroRun gs
    if later.2 ≤ zerosInFront (g :: gs) then (0, zerosInFront (g :: gs)) else (later.1 + 1, later.2)

/-- The octets of the IPv4 address that the groups map, if they do: ten zero bytes and two of ones
stand before them. -/
def mappedOctets? (groups : List UInt16) : Option (List UInt8) :=
  if groups.take 6 = [0, 0, 0, 0, 0, 0xffff] then some ((groups.drop 6).flatMap groupBytes)
  else none

/-- Octets in decimal, or groups in hexadecimal without leading zeros, where the longest run of two
or more zero groups is written `::`. An address that maps an IPv4 one shows it in decimal. -/
def toChars : Address → List Char
  | v4 octets => octetsText octets.toList
  | v6 groups =>
    let gs := groups.toList
    match mappedOctets? gs with
    | some octets => "::ffff:".toList ++ octetsText octets
    | none =>
      let (start, length) := longestZeroRun gs
      if 2 ≤ length then
        groupsText (gs.take start) ++ ':' :: ':' :: groupsText (gs.drop (start + length))
      else groupsText gs

instance : ToString Address := ⟨fun a => String.ofList a.toChars⟩

example : (v6 #v[0, 0, 1, 0, 0, 0, 0xab, 0]).toChars = "0:0:1::ab:0".toList := by decide +kernel

example : (v6 #v[0, 0, 0, 0, 0, 0xffff, 0x0a00, 1]).toChars = "::ffff:10.0.0.1".toList := by
  decide +kernel

end Polling.Address
