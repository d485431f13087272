import Polling.Json.Basic
import Polling.Text

namespace Polling.Json

inductive Token where
  | openBrace
  | closeBrace
  | openBracket
  | closeBracket
  | comma
  | colon
  | scalar (v : Json)
  | text (s : Option String)

namespace Lexer

/-- Where the lexer stands. What it has read of an unfinished token is kept latest first, but for
the digits of a `\u` escape; the contents of strings are code points, surrogates included. -/
inductive Mode where
  | between
  | number (seen : List Char)
  | word (seen : List Char)
  | string (seen : List Nat)
  | escape (seen : List Nat)
  | unicode (seen : List Nat) (digits : List Nat)

/-- A lexer in the middle of a text, with the tokens it has finished, latest first. -/
structure State where
  mode : Mode := .between
  tokens : List Token := []

def fraction? : List Char → Option (List Char)
  | '.' :: cs =>
    if (cs.takeWhile Char.isDigit).isEmpty then none else some (cs.dropWhile Char.isDigit)
  | cs => some cs

def unsigned : List Char → List Char
  | '+' :: cs => cs
  | '-' :: cs => cs
  | cs => cs

def exponent? : List Char → Option (List Char)
  | c :: cs =>
    if c = 'e' ∨ c = 'E' then
      let digits := unsigned cs
      if (digits.takeWhile Char.isDigit).isEmpty then none
      else some (digits.dropWhile Char.isDigit)
    else some (c :: cs)
  | [] => some []

def unsigned? (negative : Bool) (cs : List Char) : Option Json :=
  let whole := cs.takeWhile Char.isDigit
  let rest := cs.dropWhile Char.isDigit
  if whole = [] ∨ (whole.head? = some '0' ∧ whole.length ≠ 1) then none
  else if rest = [] then
    let n := Nat.ofDigitChars 10 whole 0
    if negative then some (if n = 0 then .real else .int (-n)) else some (.int n)
  else do
    let [] ← exponent? (← fraction? rest) | none
    return .real

def number? : List Char → Option Json
  | '-' :: cs => unsigned? true cs
  | cs => unsigned? false cs

def word? (cs : List Char) : Option Json :=
  if cs = "null".toList then some .null
  else if cs = "true".toList then some (.bool true)
  else if cs = "false".toList then some (.bool false)
  else none

def isHighSurrogate (n : Nat) : Bool := 0xd800 ≤ n && n < 0xdc00

def isLowSurrogate (n : Nat) : Bool := 0xdc00 ≤ n && n < 0xe000

/-- Adds the code point of a `\u` escape: a low surrogate right after a high one makes a pair. -/
def pushEscaped (seen : List Nat) (n : Nat) : List Nat :=
  match seen with
  | h :: rest =>
    if isHighSurrogate h && isLowSurrogate n then
      (0x10000 + (h - 0xd800) * 0x400 + (n - 0xdc00)) :: rest
    else n :: h :: rest
  | [] => [n]

def char? (n : Nat) : Option Char := if n.isValidChar then some (Char.ofNat n) else none

/-- The text of a finished string, unless a surrogate is left alone in it. -/
def textOf (seen : List Nat) : Option String := (seen.reverse.mapM char?).map String.ofList

def escaped? : Char → Option Char
  | '"' => some '"'
  | '\\' => some '\\'
  | '/' => some '/'
  | 'b' => some '\x08'
  | 'f' => some '\x0c'
  | 'n' => some '\n'
  | 'r' => some '\r'
  | 't' => some '\t'
  | _ => none

def isSpace (c : Char) : Bool := c == ' ' || c == '\n' || c == '\t' || c == '\r'

def isNumberChar (c : Char) : Bool :=
  c.isDigit || c == '.' || c == '-' || c == '+' || c == 'e' || c == 'E'

def start? (tokens : List Token) (c : Char) : Option State :=
  match c with
  | '\x7b' => some ⟨.between, .openBrace :: tokens⟩
  | '\x7d' => some ⟨.between, .closeBrace :: tokens⟩
  | '[' => some ⟨.between, .openBracket :: tokens⟩
  | ']' => some ⟨.between, .closeBracket :: tokens⟩
  | ',' => some ⟨.between, .comma :: tokens⟩
  | ':' => some ⟨.between, .colon :: tokens⟩
  | '"' => some ⟨.string [], tokens⟩
  | c =>
    if isSpace c then some ⟨.between, tokens⟩
    else if c.isDigit || c == '-' then some ⟨.number [c], tokens⟩
    else if c.isLower then some ⟨.word [c], tokens⟩
    else none

/-- The tokens so far and the number or word that ends here, if one does. -/
def finish? (s : State) : Option (List Token) :=
  match s.mode with
  | .between => some s.tokens
  | .number seen => (number? seen.reverse).map (.scalar · :: s.tokens)
  | .word seen => (word? seen.reverse).map (.scalar · :: s.tokens)
  | _ => none

def step? (s : State) (c : Char) : Option State :=
  match s.mode with
  | .between => start? s.tokens c
  | .number seen =>
    if isNumberChar c then some { s with mode := .number (c :: seen) }
    else do start? (← finish? s) c
  | .word seen =>
    if c.isLower then some { s with mode := .word (c :: seen) }
    else do start? (← finish? s) c
  | .string seen =>
    if c = '"' then some ⟨.between, .text (textOf seen) :: s.tokens⟩
    else if c = '\\' then some { s with mode := .escape seen }
    else if c < ' ' then none
    else some { s with mode := .string (c.toNat :: seen) }
  | .escape seen =>
    if c = 'u' then some { s with mode := .unicode seen [] }
    else do return { s with mode := .string ((← escaped? c).toNat :: seen) }
  | .unicode seen digits => do
    let digits := digits ++ [← Text.hexDigit? c]
    if digits.length = 4 then
      return { s with mode := .string (pushEscaped seen (Text.ofHexDigits digits)) }
    return { s with mode := .unicode seen digits }

end Lexer

def tokens? (cs : List Char) : Option (List Token) := do
  let s ← cs.foldlM Lexer.step? {}
  return (← Lexer.finish? s).reverse

end Polling.Json
