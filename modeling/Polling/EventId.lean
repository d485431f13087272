import Polling.Text

namespace Polling

/-- The identity of a notification, most significant digit first. -/
structure EventId where
  digits : Vector (Fin 16) 32
deriving DecidableEq, Repr

namespace EventId

def ofDigits? (digits : List (Fin 16)) : Option EventId :=
  if h : digits.length = 32 then some ⟨⟨digits.toArray, by simpa using h⟩⟩ else none

def ofHex? (cs : List Char) : Option EventId := do
  ofDigits? (← cs.mapM fun c => do
    let d ← Text.hexDigit? c
    if h : d < 16 then some ⟨d, h⟩ else none)

/-- The text without its hyphens, which stand after 8, 12, 16 and 20 digits. -/
def ungrouped? (cs : List Char) : Option (List Char) :=
  if [8, 13, 18, 23].all fun i => cs[i]? = some '-' then
    some (cs.take 8 ++ (cs.drop 9).take 4 ++ (cs.drop 14).take 4 ++ (cs.drop 19).take 4 ++
      cs.drop 24)
  else none

def ofGrouped? (cs : List Char) : Option EventId := do ofHex? (← ungrouped? cs)

def inBraces? : List Char → Option (List Char)
  | '\x7b' :: cs => if cs.getLast? = some '\x7d' then some cs.dropLast else none
  | _ => none

def afterScheme? (cs : List Char) : Option (List Char) :=
  if (cs.take 9).map Char.toLower = "urn:uuid:".toList then some (cs.drop 9) else none

/-- Reads the groups, the bare digits, the groups in braces and the groups after `urn:uuid:`, with
letters of either case. -/
def ofString? (s : String) : Option EventId :=
  let cs := s.toList
  match inBraces? cs, afterScheme? cs with
  | some inner, _ => ofGrouped? inner
  | none, some inner => ofGrouped? inner
  | none, none => if cs.length = 32 then ofHex? cs else ofGrouped? cs

def toChars (id : EventId) : List Char :=
  let hex := id.digits.toList.map fun d : Fin 16 => Nat.digitChar d.val
  hex.take 8 ++ '-' :: (hex.drop 8).take 4 ++ '-' :: (hex.drop 12).take 4 ++
    '-' :: (hex.drop 16).take 4 ++ '-' :: hex.drop 20

instance : ToString EventId := ⟨fun id => String.ofList id.toChars⟩

end EventId

end Polling
