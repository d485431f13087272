import Polling.Json.Lexer

namespace Polling.Json

namespace Reader

/-- An array or object that is still open: its contents so far, latest first, and for an object the
name of the member whose value comes next. -/
inductive Frame where
  | items (before : List Json)
  | members (before : List (Option String × Json)) (name : Option String)

/-- What the reader waits for. -/
inductive State where
  | value (outer : List Frame)
  | firstItem (outer : List Frame)
  | firstName (outer : List Frame)
  | name (before : List (Option String × Json)) (outer : List Frame)
  | colon (before : List (Option String × Json)) (name : Option String) (outer : List Frame)
  | done (v : Json) (outer : List Frame)

def open? (outer : List Frame) : Token → Option State
  | .scalar v => some (.done v outer)
  | .text s => some (.done (.string s) outer)
  | .openBracket => some (.firstItem outer)
  | .openBrace => some (.firstName outer)
  | _ => none

def step? : State → Token → Option State
  | .value outer, t => open? outer t
  | .firstItem outer, .closeBracket => some (.done (.array []) outer)
  | .firstItem outer, t => open? (.items [] :: outer) t
  | .firstName outer, .closeBrace => some (.done (.object []) outer)
  | .firstName outer, .text s => some (.colon [] s outer)
  | .name before outer, .text s => some (.colon before s outer)
  | .colon before name outer, .colon => some (.value (.members before name :: outer))
  | .done v (.items before :: outer), .comma => some (.value (.items (v :: before) :: outer))
  | .done v (.items before :: outer), .closeBracket =>
    some (.done (.array (v :: before).reverse) outer)
  | .done v (.members before name :: outer), .comma => some (.name ((name, v) :: before) outer)
  | .done v (.members before name :: outer), .closeBrace =>
    some (.done (.object ((name, v) :: before).reverse) outer)
  | _, _ => none

end Reader

def ofTokens? (tokens : List Token) : Option Json := do
  let .done v [] ← tokens.foldlM Reader.step? (.value []) | none
  return v

def ofChars? (cs : List Char) : Option Json := do ofTokens? (← tokens? cs)

def ofString? (s : String) : Option Json := ofChars? s.toList

end Polling.Json
