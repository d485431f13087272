import Mathlib.Data.List.TakeWhile
import Polling.Json.Printer
import Polling.Json.Reader
import Polling.Proofs.Text.Digits

namespace Polling.Json

mutual

def tokens : Json → List Token
  | .string s => [.text s]
  | .array [] => [.openBracket, .closeBracket]
  | .array (v :: vs) => .openBracket :: (v.tokens ++ itemTokens vs ++ [.closeBracket])
  | .object [] => [.openBrace, .closeBrace]
  | .object (m :: ms) => .openBrace :: (memberTokens m ++ laterTokens ms ++ [.closeBrace])
  | v => [.scalar v]

def itemTokens : List Json → List Token
  | [] => []
  | v :: vs => .comma :: (v.tokens ++ itemTokens vs)

def memberTokens : Option String × Json → List Token
  | (name, v) => .text name :: .colon :: v.tokens

def laterTokens : List (Option String × Json) → List Token
  | [] => []
  | m :: ms => .comma :: (memberTokens m ++ laterTokens ms)

end

namespace Lexer

/-- What the lexer makes of the rest of a text. -/
def finish (s : State) (cs : List Char) : Option (List Token) := do
  finish? (← cs.foldlM step? s)

theorem finish_cons (s : State) (c : Char) (cs : List Char) :
    finish s (c :: cs) = (step? s c).bind (finish · cs) := by
  rw [finish, List.foldlM_cons, bind_assoc]
  rfl

theorem finish_of_step? {s t : State} {c : Char} (h : step? s c = some t) (cs : List Char) :
    finish s (c :: cs) = finish t cs := by
  rw [finish_cons, h, Option.bind_some]

def Delimits (c : Char) : Prop := isNumberChar c = false ∧ c.isLower = false

instance (c : Char) : Decidable (Delimits c) := inferInstanceAs (Decidable (_ ∧ _))

/-- A number or a word that stands in front of the text is complete. -/
def Delimited (cs : List Char) : Prop := ∀ c ∈ cs.head?, Delimits c

theorem delimited_nil : Delimited [] := by simp [Delimited]

theorem delimited_cons {c : Char} (h : Delimits c) (cs : List Char) : Delimited (c :: cs) := by
  intro d hd
  cases hd
  exact h

/-- A token that ends where the text goes on is finished first. -/
theorem finish_of_finish? {s : State} {ts : List Token} {cs : List Char}
    (h : finish? s = some ts) (hd : Delimited cs) : finish s cs = finish ⟨.between, ts⟩ cs := by
  cases cs with
  | nil => exact h
  | cons c cs =>
    obtain ⟨hn, hl⟩ := hd c rfl
    -- Nothing is finished inside a string, and a number or a word goes on no further.
    have same : step? s c = step? ⟨.between, ts⟩ c := by
      obtain ⟨mode, tokens⟩ := s
      cases mode with
      | between =>
        cases h
        rfl
      | number seen =>
        simp only [step?, hn, Bool.false_eq_true, if_false, h]
        rfl
      | word seen =>
        simp only [step?, hl, Bool.false_eq_true, if_false, h]
        rfl
      | string seen => cases h
      | escape seen => cases h
      | unicode seen digits => cases h
    rw [finish_cons, finish_cons, same]

theorem pushEscaped_of_lt (seen : List Nat) {n : Nat} (h : n < 0xdc00) :
    pushEscaped seen n = n :: seen := by
  have low : isLowSurrogate n = false := by
    simp only [isLowSurrogate, Bool.and_eq_false_iff, decide_eq_false_iff_not]
    omega
  cases seen with
  | nil => rfl
  | cons m seen => simp [pushEscaped, low]

/-- What an escape stands for is read back, and so is a character that is not escaped. -/
theorem finish_escapeChar (seen : List Nat) (ts : List Token) (c : Char) (cs : List Char) :
    finish ⟨.string seen, ts⟩ (escapeChar c ++ cs) = finish ⟨.string (c.toNat :: seen), ts⟩ cs := by
  unfold escapeChar
  -- The characters that have a letter of their own come first.
  iterate 7
    split
    · next h =>
      subst h
      rfl
  split
  · next h =>
    -- A control character is written with two zeros and its own two digits.
    have hc : c.toNat < 32 := h
    have upper := Text.hexDigit?_digitChar (c.toNat / 16) (by omega)
    have lower := Text.hexDigit?_digitChar (c.toNat % 16) (by omega)
    have code : Text.ofHexDigits [0, 0, c.toNat / 16, c.toNat % 16] = c.toNat := by
      simp only [Text.ofHexDigits, List.foldl_cons, List.foldl_nil]
      omega
    have last : step? ⟨.unicode seen [0, 0, c.toNat / 16], ts⟩ (Nat.digitChar (c.toNat % 16)) =
        some ⟨.string (c.toNat :: seen), ts⟩ := by
      simp [step?, lower, code, pushEscaped_of_lt seen (n := c.toNat) (by omega)]
    have third : step? ⟨.unicode seen [0, 0], ts⟩ (Nat.digitChar (c.toNat / 16)) =
        some ⟨.unicode seen [0, 0, c.toNat / 16], ts⟩ := by
      simp [step?, upper]
    exact (finish_of_step? third _).trans (finish_of_step? last _)
  · next hq hs _ _ _ _ _ hc =>
    rw [List.singleton_append, finish_cons, step?]
    simp only [hq, hs, hc, if_false, Option.bind_some]

theorem finish_escaped (seen : List Nat) (ts : List Token) (text cs : List Char) :
    finish ⟨.string seen, ts⟩ (text.flatMap escapeChar ++ cs) =
      finish ⟨.string ((text.map Char.toNat).reverse ++ seen), ts⟩ cs := by
  induction text generalizing seen with
  | nil => rfl
  | cons c text ih =>
    rw [List.flatMap_cons, List.append_assoc, finish_escapeChar, ih, List.map_cons,
      List.reverse_cons, List.append_assoc, List.singleton_append]

theorem char?_toNat (c : Char) : char? c.toNat = some c := by
  have hc : c.toNat.isValidChar := c.valid
  rw [char?, if_pos hc, Char.ofNat_toNat]

/-- The code points of a text are the text. -/
theorem textOf_toNat (s : String) :
    textOf ((s.toList.map Char.toNat).reverse) = some s := by
  have each (text : List Char) : (text.map Char.toNat).mapM char? = some text := by
    induction text with
    | nil => rfl
    | cons c text ih => simp [char?_toNat, ih]
  rw [textOf, List.reverse_reverse, each, Option.map_some, String.ofList_toList]

theorem quote_some (s : String) :
    quote (some s) = '"' :: (s.toList.flatMap escapeChar ++ ['"']) := rfl

theorem finish_quote (ts : List Token) (s : Option String) (cs : List Char) :
    finish ⟨.between, ts⟩ (quote s ++ cs) = finish ⟨.between, .text s :: ts⟩ cs := by
  cases s with
  | none => rfl
  | some s =>
    have opened : step? ⟨.between, ts⟩ '"' = some ⟨.string [], ts⟩ := rfl
    have closed (seen : List Nat) :
        step? ⟨.string seen, ts⟩ '"' = some ⟨.between, .text (textOf seen) :: ts⟩ := rfl
    rw [quote_some, List.cons_append, finish_of_step? opened, List.append_assoc, finish_escaped,
      List.append_nil, List.singleton_append, finish_of_step? (closed _), textOf_toNat]

theorem finish_number (seen : List Char) (ts : List Token) {digits : List Char}
    (h : ∀ c ∈ digits, isNumberChar c = true) (cs : List Char) :
    finish ⟨.number seen, ts⟩ (digits ++ cs) =
      finish ⟨.number (digits.reverse ++ seen), ts⟩ cs := by
  induction digits generalizing seen with
  | nil => rfl
  | cons c digits ih =>
    obtain ⟨hc, h⟩ := List.forall_mem_cons.1 h
    have next : step? ⟨.number seen, ts⟩ c = some ⟨.number (c :: seen), ts⟩ := by
      simp only [step?, hc, if_true]
    rw [List.cons_append, finish_of_step? next, ih _ h, List.reverse_cons, List.append_assoc,
      List.singleton_append]

theorem start?_of_isDigit (ts : List Token) {c : Char} (h : c.isDigit = true) :
    start? ts c = some ⟨.number [c], ts⟩ := by
  have space : isSpace c = false := by
    rw [Bool.eq_false_iff]
    intro hs
    simp only [isSpace, Bool.or_eq_true, beq_iff_eq] at hs
    rcases hs with ((rfl | rfl) | rfl) | rfl <;> exact absurd h (by decide)
  unfold start?
  split
  iterate 7 · exact absurd h (by decide)
  · simp [space, h]

/-- A number is complete where the text goes on with something else. -/
theorem finish_numberText {c : Char} (rest : List Char) {v : Json} (ts : List Token)
    (hc : c.isDigit = true ∨ c = '-') (h : ∀ d ∈ rest, isNumberChar d = true)
    (hv : number? (c :: rest) = some v) {cs : List Char} (hd : Delimited cs) :
    finish ⟨.between, ts⟩ (c :: rest ++ cs) = finish ⟨.between, .scalar v :: ts⟩ cs := by
  have opened : step? ⟨.between, ts⟩ c = some ⟨.number [c], ts⟩ := by
    rcases hc with hc | rfl
    · exact start?_of_isDigit ts hc
    · rfl
  rw [List.cons_append, finish_of_step? opened, finish_number _ _ h]
  apply finish_of_finish? _ hd
  simp [finish?, hv]

theorem isNumberChar_of_isDigit {c : Char} (h : c.isDigit = true) : isNumberChar c = true := by
  simp [isNumberChar, h]

/-- A written number is read back; zero has no sign. -/
theorem unsigned?_toDigits (negative : Bool) (n : Nat) :
    unsigned? negative (Nat.toDigits 10 n) =
      if negative then some (if n = 0 then .real else .int (-n)) else some (.int n) := by
  have whole : (Nat.toDigits 10 n).takeWhile Char.isDigit = Nat.toDigits 10 n :=
    List.takeWhile_eq_self_iff.2 fun c hc => Text.isDigit_of_mem hc
  have rest : (Nat.toDigits 10 n).dropWhile Char.isDigit = [] :=
    List.dropWhile_eq_nil_iff.2 fun c hc => Text.isDigit_of_mem hc
  have proper : ¬ (Nat.toDigits 10 n = [] ∨
      (Nat.toDigits 10 n).head? = some '0' ∧ (Nat.toDigits 10 n).length ≠ 1) := by
    rintro (h | ⟨h, hl⟩)
    · exact Nat.toDigits_ne_nil h
    · rw [Text.eq_zero_of_head?_toDigits (by decide) h] at hl
      exact hl rfl
  rw [unsigned?, whole, rest, if_neg proper, if_pos rfl, Nat.ofDigitChars_ten_toDigits]

theorem finish_intText (ts : List Token) (n : Int) {cs : List Char} (hd : Delimited cs) :
    finish ⟨.between, ts⟩ (intText n ++ cs) = finish ⟨.between, .scalar (.int n) :: ts⟩ cs := by
  have digits (m : Nat) : ∀ d ∈ Nat.toDigits 10 m, isNumberChar d = true :=
    fun d hm => isNumberChar_of_isDigit (Text.isDigit_of_mem hm)
  unfold intText
  split
  · next hn =>
    apply finish_numberText _ ts (.inr rfl) (digits _) _ hd
    have hm : n.natAbs ≠ 0 := by omega
    have back : -(n.natAbs : Int) = n := by omega
    rw [number?, unsigned?_toDigits, if_pos rfl, if_neg hm, back]
  · next hn =>
    have back : (n.natAbs : Int) = n := by omega
    have read := unsigned?_toDigits false n.natAbs
    have all := digits n.natAbs
    cases hw : Nat.toDigits 10 n.natAbs with
    | nil => exact absurd hw Nat.toDigits_ne_nil
    | cons c rest =>
      rw [hw] at read all
      have first : c.isDigit = true := Text.isDigit_of_mem (hw ▸ List.mem_cons_self)
      apply finish_numberText _ ts (.inl first) (fun d hm => all d (List.mem_cons_of_mem c hm)) _ hd
      -- A digit is no sign, so the number is read as it stands.
      have sign : c ≠ '-' := by
        rintro rfl
        exact absurd first (by decide)
      rw [number?, read, if_neg (by decide), back]
      rintro _ h
      cases h
      exact sign rfl

/-- A word is complete where the text goes on with something else. -/
theorem finish_word (seen : List Char) {v : Json} (ts : List Token)
    (hv : word? seen.reverse = some v) {cs : List Char} (hd : Delimited cs) :
    finish ⟨.word seen, ts⟩ cs = finish ⟨.between, .scalar v :: ts⟩ cs := by
  apply finish_of_finish? _ hd
  simp [finish?, hv]

theorem finish_start (l : Layout) (ts : List Token) (cs : List Char) :
    finish ⟨.between, ts⟩ (l.start ++ cs) = finish ⟨.between, ts⟩ cs := by
  have spaces (n : Nat) :
      finish ⟨.between, ts⟩ (List.replicate n ' ' ++ cs) = finish ⟨.between, ts⟩ cs := by
    induction n with
    | zero => rfl
    | succ n ih => exact ih
  cases l with
  | line => rfl
  | lines depth => exact spaces (2 * depth)

theorem finish_colon (l : Layout) (ts : List Token) (cs : List Char) :
    finish ⟨.between, ts⟩ (l.colon ++ cs) = finish ⟨.between, .colon :: ts⟩ cs := by
  cases l <;> rfl

theorem delimited_start (l : Layout) {cs : List Char} (h : Delimited cs) :
    Delimited (l.start ++ cs) := by
  cases l with
  | line => exact h
  | lines depth => exact delimited_cons (by decide) _

theorem delimited_writeItems (l : Layout) (vs : List Json) {cs : List Char} (h : Delimited cs) :
    Delimited (writeItems l vs ++ cs) := by
  cases vs with
  | nil => exact h
  | cons v vs => exact delimited_cons (by decide) _

theorem delimited_writeMembers (l : Layout) (ms : List (Option String × Json)) {cs : List Char}
    (h : Delimited cs) : Delimited (writeMembers l ms ++ cs) := by
  cases ms with
  | nil => exact h
  | cons m ms => exact delimited_cons (by decide) _

-- The induction is on the value. What follows it varies: an item is followed by a comma or by the
-- closing bracket, with the space of the layout in front, and each of these ends a number.
mutual

theorem finish_write (l : Layout) (ts : List Token) (v : Json) {cs : List Char}
    (h : Delimited cs) :
    finish ⟨.between, ts⟩ (v.write l ++ cs) = finish ⟨.between, v.tokens.reverse ++ ts⟩ cs := by
  match v with
  | .null => exact finish_word ['l', 'l', 'u', 'n'] ts rfl h
  | .bool true => exact finish_word ['e', 'u', 'r', 't'] ts rfl h
  | .bool false => exact finish_word ['e', 's', 'l', 'a', 'f'] ts rfl h
  | .int n => exact finish_intText ts n h
  | .real => exact finish_numberText ['.', '0'] ts (.inl rfl) (by simp [isNumberChar]) rfl h
  | .string s => exact finish_quote ts s cs
  | .array [] => rfl
  | .array (v :: vs) =>
    have after : Delimited (l.start ++ ']' :: cs) :=
      delimited_start l (delimited_cons (by decide) cs)
    have opened : step? ⟨.between, ts⟩ '[' = some ⟨.between, .openBracket :: ts⟩ := rfl
    have closed (ts : List Token) :
        step? ⟨.between, ts⟩ ']' = some ⟨.between, .closeBracket :: ts⟩ := rfl
    simp only [write, tokens, List.cons_append, List.append_assoc, List.nil_append]
    rw [finish_of_step? opened, finish_start, finish_write _ _ v (delimited_writeItems _ vs after),
      finish_writeItems _ _ vs after, finish_start, finish_of_step? (closed _)]
    simp
  | .object [] => rfl
  | .object (m :: ms) =>
    have after : Delimited (l.start ++ '\x7d' :: cs) :=
      delimited_start l (delimited_cons (by decide) cs)
    have opened : step? ⟨.between, ts⟩ '\x7b' = some ⟨.between, .openBrace :: ts⟩ := rfl
    have closed (ts : List Token) :
        step? ⟨.between, ts⟩ '\x7d' = some ⟨.between, .closeBrace :: ts⟩ := rfl
    simp only [write, tokens, List.cons_append, List.append_assoc, List.nil_append]
    rw [finish_of_step? opened, finish_start,
      finish_writeMember _ _ m (delimited_writeMembers _ ms after),
      finish_writeMembers _ _ ms after, finish_start, finish_of_step? (closed _)]
    simp

theorem finish_writeItems (l : Layout) (ts : List Token) (vs : List Json) {cs : List Char}
    (h : Delimited cs) :
    finish ⟨.between, ts⟩ (writeItems l vs ++ cs) =
      finish ⟨.between, (itemTokens vs).reverse ++ ts⟩ cs := by
  match vs with
  | [] => rfl
  | v :: vs =>
    have comma : step? ⟨.between, ts⟩ ',' = some ⟨.between, .comma :: ts⟩ := rfl
    simp only [writeItems, itemTokens, List.cons_append, List.append_assoc]
    rw [finish_of_step? comma, finish_start, finish_write _ _ v (delimited_writeItems _ vs h),
      finish_writeItems _ _ vs h]
    simp

theorem finish_writeMember (l : Layout) (ts : List Token) (m : Option String × Json)
    {cs : List Char} (h : Delimited cs) :
    finish ⟨.between, ts⟩ (writeMember l m ++ cs) =
      finish ⟨.between, (memberTokens m).reverse ++ ts⟩ cs := by
  match m with
  | (name, v) =>
    simp only [writeMember, memberTokens, List.append_assoc]
    rw [finish_quote, finish_colon, finish_write _ _ v h]
    simp

theorem finish_writeMembers (l : Layout) (ts : List Token) (ms : List (Option String × Json))
    {cs : List Char} (h : Delimited cs) :
    finish ⟨.between, ts⟩ (writeMembers l ms ++ cs) =
      finish ⟨.between, (laterTokens ms).reverse ++ ts⟩ cs := by
  match ms with
  | [] => rfl
  | m :: ms =>
    have comma : step? ⟨.between, ts⟩ ',' = some ⟨.between, .comma :: ts⟩ := rfl
    simp only [writeMembers, laterTokens, List.cons_append, List.append_assoc]
    rw [finish_of_step? comma, finish_start,
      finish_writeMember _ _ m (delimited_writeMembers _ ms h), finish_writeMembers _ _ ms h]
    simp

end

end Lexer

/-- The text of a value is split into the tokens of the value. -/
theorem tokens?_write (l : Layout) (v : Json) : tokens? (v.write l) = some v.tokens := by
  have read := Lexer.finish_write l [] v Lexer.delimited_nil
  rw [List.append_nil, List.append_nil] at read
  have split : tokens? (v.write l) =
      (Lexer.finish ⟨.between, []⟩ (v.write l)).map List.reverse := by
    rw [tokens?, Lexer.finish]
    cases (v.write l).foldlM Lexer.step? ⟨.between, []⟩ with
    | none => rfl
    | some s =>
      change (Lexer.finish? s).bind _ = (Lexer.finish? s).map List.reverse
      cases Lexer.finish? s <;> rfl
  rw [split, read]
  change some v.tokens.reverse.reverse = _
  rw [List.reverse_reverse]

end Polling.Json
