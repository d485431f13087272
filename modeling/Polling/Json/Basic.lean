namespace Polling

/-- A JSON value. Members keep their order, repeated names included, because a record decides for
itself which repetitions it refuses. -/
inductive Json where
  | null
  | bool (b : Bool)
  | int (n : Int)
  /-- Any other number: one with a fraction or an exponent, or minus zero. No record field takes
  one, so its digits are not kept. -/
  | real
  /-- A string, or `none` if its escapes leave half of a surrogate pair alone, so that it is no
  text. -/
  | string (text : Option String)
  | array (items : List Json)
  | object (members : List (Option String × Json))
deriving Inhabited

namespace Json

def text (s : String) : Json := .string (some s)

def record (members : List (String × Json)) : Json :=
  .object (members.map fun m => (some m.1, m.2))

def text? : Json → Option String
  | .string s => s
  | _ => none

def bool? : Json → Option Bool
  | .bool b => some b
  | _ => none

def int? (lo hi : Int) : Json → Option Int
  | .int n => if lo ≤ n ∧ n ≤ hi then some n else none
  | _ => none

def natBelow? (bound : Nat) : Json → Option Nat
  | .int n => if 0 ≤ n ∧ n < bound then some n.toNat else none
  | _ => none

def list? {α : Type} (read : Json → Option α) : Json → Option (List α)
  | .array items => items.mapM read
  | _ => none

def nullable? {α : Type} (read : Json → Option α) : Json → Option (Option α)
  | .null => some none
  | v => (read v).map some

abbrev Fields := List (String × Json)

def declared? (names : List String) (members : List (Option String × Json)) : Option Fields := do
  let named ← members.mapM fun m => m.1.map (·, m.2)
  let given := named.filter (·.1 ∈ names)
  if (given.map Prod.fst).Nodup then some given else none

/-- A record is written as an object, or as an array of its fields in the order of their
declaration, where the last may be left out. In an object other members are passed over, however
often they occur. -/
def fields? (names : List String) : Json → Option Fields
  | .object members => declared? names members
  | .array items => if items.length ≤ names.length then some (names.zip items) else none
  | _ => none

namespace Fields

def required {α : Type} (fields : Fields) (name : String) (read : Json → Option α) : Option α := do
  read (← fields.lookup name)

def withDefault {α : Type} (fields : Fields) (name : String) (default : α)
    (read : Json → Option α) : Option α :=
  match fields.lookup name with
  | some v => read v
  | none => some default

end Fields

/-- The name of a choice among names, written as a string or as the only member of an object whose
value is `null`. -/
def choice? : Json → Option String
  | .string s => s
  | .object [(name, .null)] => name
  | _ => none

end Json

end Polling
