import Polling.Json.Basic

namespace Polling.Json

/-- How a value is laid out: on one line, or in lines at a given depth. -/
inductive Layout where
  | line
  | lines (depth : Nat)

namespace Layout

def inner : Layout → Layout
  | line => line
  | lines depth => lines (depth + 1)

/-- What stands in front of an item, a member or a closing bracket. -/
def start : Layout → List Char
  | line => []
  | lines depth => '\n' :: List.replicate (2 * depth) ' '

def colon : Layout → List Char
  | line => [':']
  | lines _ => [':', ' ']

end Layout

def escapeChar (c : Char) : List Char :=
  if c = '"' then ['\\', '"']
  else if c = '\\' then ['\\', '\\']
  else if c = '\x08' then ['\\', 'b']
  else if c = '\t' then ['\\', 't']
  else if c = '\n' then ['\\', 'n']
  else if c = '\x0c' then ['\\', 'f']
  else if c = '\r' then ['\\', 'r']
  else if c < ' ' then
    ['\\', 'u', '0', '0', Nat.digitChar (c.toNat / 16), Nat.digitChar (c.toNat % 16)]
  else [c]

/-- A string in quotes. One that is no text is written as a lone surrogate. -/
def quote : Option String → List Char
  | some s => '"' :: s.toList.flatMap escapeChar ++ ['"']
  | none => "\"\\ud800\"".toList

def intText (n : Int) : List Char :=
  if n < 0 then '-' :: Nat.toDigits 10 n.natAbs else Nat.toDigits 10 n.natAbs

mutual

def write (l : Layout) : Json → List Char
  | .null => "null".toList
  | .bool b => if b then "true".toList else "false".toList
  | .int n => intText n
  | .real => "0.0".toList
  | .string s => quote s
  | .array [] => ['[', ']']
  | .array (v :: vs) =>
    '[' :: l.inner.start ++ write l.inner v ++ writeItems l.inner vs ++ l.start ++ [']']
  | .object [] => ['\x7b', '\x7d']
  | .object (m :: ms) =>
    '\x7b' :: l.inner.start ++ writeMember l.inner m ++ writeMembers l.inner ms ++ l.start ++
      ['\x7d']

def writeItems (l : Layout) : List Json → List Char
  | [] => []
  | v :: vs => ',' :: l.start ++ write l v ++ writeItems l vs

def writeMember (l : Layout) : Option String × Json → List Char
  | (name, v) => quote name ++ l.colon ++ write l v

def writeMembers (l : Layout) : List (Option String × Json) → List Char
  | [] => []
  | m :: ms => ',' :: l.start ++ writeMember l m ++ writeMembers l ms

end

def compact (v : Json) : String := String.ofList (v.write .line)

def pretty (v : Json) : String := String.ofList (v.write (.lines 0))

end Polling.Json
