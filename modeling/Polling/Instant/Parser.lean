import Polling.Instant.Basic
import Polling.Text

namespace Polling.Instant

def digits? (most : Nat) (cs : List Char) : Option (List Char × List Char) :=
  let digits := (cs.take most).takeWhile Char.isDigit
  if digits = [] then none else some (digits, cs.drop digits.length)

def number? (cs : List Char) : Option (Nat × List Char) := do
  let (digits, cs) ← digits? 2 (Text.trimLeft cs)
  return (Nat.ofDigitChars 10 digits 0, cs)

/-- Reads a year after any blanks: up to four digits, or a sign and any number of digits. -/
def year? (cs : List Char) : Option (Int × List Char) :=
  match Text.trimLeft cs with
  | '-' :: cs => do
    let (digits, cs) ← digits? cs.length cs
    return (-(Nat.ofDigitChars 10 digits 0 : Int), cs)
  | '+' :: cs => do
    let (digits, cs) ← digits? cs.length cs
    return (Nat.ofDigitChars 10 digits 0, cs)
  | cs => do
    let (digits, cs) ← digits? 4 cs
    return (Nat.ofDigitChars 10 digits 0, cs)

def separator? (c : Char) (cs : List Char) : Option (List Char) :=
  match Text.trimLeft cs with
  | d :: cs => if d = c then some cs else none
  | [] => none

def timeMark? : List Char → Option (List Char)
  | c :: cs => if c = 'T' ∨ c = 't' ∨ c = ' ' then some cs else none
  | [] => none

/-- Reads a fraction of a second, if there is one, as nanoseconds. Digits after the ninth are passed
over. -/
def nanoseconds? : List Char → Option (Nat × List Char)
  | '.' :: cs => do
    let (digits, cs) ← digits? 9 cs
    let nine := digits ++ List.replicate (9 - digits.length) '0'
    return (Nat.ofDigitChars 10 nine 0, cs.dropWhile Char.isDigit)
  | cs => some (0, cs)

def twoDigits? : List Char → Option (Nat × List Char)
  | a :: b :: cs =>
    if a.isDigit ∧ b.isDigit then some (Nat.ofDigitChars 10 [a, b] 0, cs) else none
  | _ => none

def offsetMinutes? (cs : List Char) : Option (Nat × List Char) := do
  let (hours, cs) ← twoDigits? cs
  let (minutes, cs) ← twoDigits? (cs.dropWhile fun c => c = ':' ∨ Text.isBlank c)
  if minutes < 60 ∧ 60 * hours + minutes < 1440 then some (60 * hours + minutes, cs) else none

/-- Reads an offset from UTC, in minutes. The minus may be the hyphen or the sign U+2212. -/
def offset? (cs : List Char) : Option (Int × List Char) :=
  if (cs.take 3).map Char.toUpper = "UTC".toList then some (0, cs.drop 3)
  else
    match cs with
    | 'Z' :: cs => some (0, cs)
    | 'z' :: cs => some (0, cs)
    | '+' :: cs => do
      let (minutes, cs) ← offsetMinutes? cs
      return (minutes, cs)
    | c :: cs =>
      if c = '-' ∨ c = '\u2212' then do
        let (minutes, cs) ← offsetMinutes? cs
        return (-minutes, cs)
      else none
    | [] => none

/-- RFC 3339 with some latitude: blanks may stand in front of every number and separator and behind
the whole, numbers may have fewer digits than usual, and a space may separate date and time. -/
def ofChars? (cs : List Char) : Option Instant := do
  let (year, cs) ← year? cs
  let (month, cs) ← number? (← separator? '-' cs)
  let (day, cs) ← number? (← separator? '-' cs)
  let (hour, cs) ← number? (← timeMark? cs)
  let (minute, cs) ← number? (← separator? ':' cs)
  let (second, cs) ← number? (← separator? ':' cs)
  let (nanos, cs) ← nanoseconds? cs
  let (offset, cs) ← offset? (Text.trimLeft cs)
  if Text.trimLeft cs = [] ∧ hour < 24 ∧ minute < 60 then
    let date ← Date.ofParts? year month day
    if second = 60 then ofLocal? date hour minute 59 (nanos + 1000000000) offset
    else ofLocal? date hour minute second nanos offset
  else none

def ofString? (s : String) : Option Instant := ofChars? s.toList

end Polling.Instant
