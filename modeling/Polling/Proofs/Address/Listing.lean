import Polling.Matching.Sources
import Polling.Proofs.Address.RoundTrip
import Polling.Proofs.Text.Lines

namespace Polling.Address

section Characters

variable {c : Char}

theorem mem_separated {sep : Char} {ts : List (List Char)} (h : c ∈ separated sep ts) :
    c = sep ∨ ∃ t ∈ ts, c ∈ t := by
  induction ts with
  | nil => cases h
  | cons t ts ih =>
    cases ts with
    | nil => exact .inr ⟨t, List.mem_cons_self, h⟩
    | cons u ts =>
      rw [separated, List.mem_append, List.mem_cons] at h
      rcases h with h | h | h
      · exact .inr ⟨t, List.mem_cons_self, h⟩
      · exact .inl h
      · obtain rest | ⟨t, ht, hc⟩ := ih h
        · exact .inl rest
        · exact .inr ⟨t, List.mem_cons_of_mem _ ht, hc⟩

def InAddress (c : Char) : Prop := '.' ≤ c ∧ c ≤ 'f'

instance (c : Char) : Decidable (InAddress c) := inferInstanceAs (Decidable ('.' ≤ c ∧ c ≤ 'f'))

theorem InAddress.not_blank (h : InAddress c) : Text.isBlank c = false := by
  have low : '.'.toNat ≤ c.toNat := h.1
  have high : c.toNat ≤ 'f'.toNat := h.2
  simp only [Char.reduceToNat] at low high
  exact Text.isBlank_of_printed (by omega) (by omega)

theorem InAddress.ne_hash (h : InAddress c) : c ≠ '#' := by
  rintro rfl
  exact absurd h.1 (by decide)

theorem inAddress_groupsText {groups : List UInt16} (h : c ∈ groupsText groups) :
    InAddress c := by
  obtain rfl | ⟨t, ht, hc⟩ := mem_separated h
  · decide
  · obtain ⟨g, -, rfl⟩ := List.mem_map.1 ht
    obtain ⟨low, high⟩ := Text.bounds_of_hexDigit? (Text.isSome_hexDigit?_of_mem hc)
    exact ⟨Char.le_trans (by decide) low, high⟩

theorem inAddress_octetsText {octets : List UInt8} (h : c ∈ octetsText octets) :
    InAddress c := by
  obtain rfl | ⟨t, ht, hc⟩ := mem_separated h
  · decide
  · obtain ⟨o, -, rfl⟩ := List.mem_map.1 ht
    have digit := Text.isDigit_of_mem hc
    rw [Char.isDigit, Bool.and_eq_true, decide_eq_true_eq, decide_eq_true_eq] at digit
    exact ⟨Char.le_trans (by decide) digit.1, Char.le_trans digit.2 (by decide)⟩

theorem inAddress_of_mem {a : Address} (h : c ∈ a.toChars) : InAddress c := by
  match a with
  | v4 octets => exact inAddress_octetsText h
  | v6 groups =>
    rw [toChars] at h
    dsimp only at h
    split at h
    · rcases List.mem_append.1 h with h | h
      · have mark : c = ':' ∨ c = 'f' ∨ c = ':' := by simpa using h
        rcases mark with rfl | rfl | rfl <;> decide
      · exact inAddress_octetsText h
    · split at h
      · simp only [List.mem_append, List.mem_cons] at h
        rcases h with h | rfl | rfl | h
        · exact inAddress_groupsText h
        · decide
        · decide
        · exact inAddress_groupsText h
      · exact inAddress_groupsText h

end Characters

section Line

variable {cs blanks : List Char}

def uncommented (line : List Char) : List Char := line.takeWhile (· ≠ '#')

theorem uncommented_eq_self (h : '#' ∉ cs) : uncommented cs = cs := by
  have plain : ∀ c ∈ cs, decide (c ≠ '#') = true := by
    intro c hc
    exact decide_eq_true fun e => h (e ▸ hc)
  have kept : uncommented (cs ++ []) = cs := Text.takeWhile_of_stops plain (by simp)
  rwa [List.append_nil] at kept

theorem uncommented_comment (cs comment : List Char) :
    uncommented (cs ++ '#' :: comment) = uncommented cs := by
  induction cs with
  | nil => rfl
  | cons c cs ih =>
    unfold uncommented at ih ⊢
    rw [List.cons_append, List.takeWhile_cons, List.takeWhile_cons, ih]

theorem hash_not_mem_blanks (h : ∀ c ∈ blanks, Text.isBlank c = true) : '#' ∉ blanks := by
  intro hash
  exact absurd (h '#' hash) (by decide)

theorem ofLine?_comment (cs comment : List Char) : ofLine? (cs ++ '#' :: comment) = ofLine? cs :=
  congrArg (fun t => ofChars? (Text.trim t)) (uncommented_comment cs comment)

theorem ofLine?_blanks_append (h : ∀ c ∈ blanks, Text.isBlank c = true) (cs : List Char) :
    ofLine? (blanks ++ cs) = ofLine? cs := by
  have cut : uncommented (blanks ++ cs) = blanks ++ uncommented cs := by
    apply List.takeWhile_append_of_pos
    intro c hc
    exact decide_eq_true fun e => hash_not_mem_blanks h (e ▸ hc)
  change ofChars? (Text.trim (uncommented (blanks ++ cs))) = _
  rw [cut, Text.trim_blanks_append h]
  rfl

theorem ofLine?_append_blanks (h : ∀ c ∈ blanks, Text.isBlank c = true) (cs : List Char) :
    ofLine? (cs ++ blanks) = ofLine? cs := by
  by_cases hash : '#' ∈ cs
  · -- The blanks belong to the comment.
    obtain ⟨before, comment, rfl⟩ := List.append_of_mem hash
    rw [List.append_assoc, List.cons_append, ofLine?_comment, ofLine?_comment]
  · have none_added : '#' ∉ cs ++ blanks := by
      rw [List.mem_append, not_or]
      exact ⟨hash, hash_not_mem_blanks h⟩
    change ofChars? (Text.trim (uncommented (cs ++ blanks))) =
      ofChars? (Text.trim (uncommented cs))
    rw [uncommented_eq_self none_added, uncommented_eq_self hash, Text.trim_append_blanks h]

theorem ofLine?_blanks (h : ∀ c ∈ blanks, Text.isBlank c = true) : ofLine? blanks = none :=
  ofLine?_append_blanks h []

theorem ofLine?_toChars (a : Address) : ofLine? a.toChars = some a := by
  have no_comment : '#' ∉ a.toChars := fun h => (inAddress_of_mem h).ne_hash rfl
  have no_blank : ∀ c ∈ a.toChars, Text.isBlank c = false :=
    fun _ hc => (inAddress_of_mem hc).not_blank
  change ofChars? (Text.trim (uncommented a.toChars)) = some a
  rw [uncommented_eq_self no_comment, Text.trim_eq_self no_blank, ofChars?_toChars]

end Line

theorem listing_append (a b : List Char) : listing (a ++ '\n' :: b) = listing a ++ listing b := by
  rw [listing, Text.lines_append, List.filterMap_append]
  rfl

theorem listing_of_unbroken {line : List Char} (h : '\n' ∉ line) :
    listing line = (ofLine? line).toList := by
  rw [listing, Text.lines_of_unbroken h]
  cases hl : ofLine? line <;> simp [hl]

structure Piece where
  chars : List Char
  unbroken : '\n' ∉ chars

structure Blanks extends Piece where
  blank : ∀ c ∈ chars, Text.isBlank c = true

def Piece.asComment (p : Piece) : List Char := '#' :: p.chars

/-- A line as someone may write it. -/
inductive ListLine where
  /-- An address with blanks around it, and then maybe a comment. -/
  | entry (before : Blanks) (address : Address) (after : Blanks) (comment : Option Piece)
  | blank (blanks : Blanks)
  | commentOnly (before : Blanks) (text : Piece)
  /-- Anything else: what stands before the comment is not an address with blanks around it. -/
  | unparsable (text : Piece) (unread : ofChars? (Text.trim (uncommented text.chars)) = none)

namespace ListLine

def chars : ListLine → List Char
  | entry before address after comment =>
    before.chars ++ (address.toChars ++ (after.chars ++ comment.elim [] Piece.asComment))
  | blank blanks => blanks.chars
  | commentOnly before text => before.chars ++ text.asComment
  | unparsable text _ => text.chars

def address? : ListLine → Option Address
  | entry _ address _ _ => some address
  | _ => none

theorem ofLine?_chars (l : ListLine) : ofLine? l.chars = l.address? := by
  match l with
  | entry before address after comment =>
    have entry_read : ofLine? (address.toChars ++ after.chars) = some address := by
      rw [ofLine?_append_blanks after.blank, ofLine?_toChars]
    rw [chars, ofLine?_blanks_append before.blank, ← List.append_assoc]
    cases comment with
    | none => rwa [Option.elim_none, List.append_nil]
    | some text => exact (ofLine?_comment _ _).trans entry_read
  | blank blanks => exact ofLine?_blanks blanks.blank
  | commentOnly before text => exact (ofLine?_comment _ _).trans (ofLine?_blanks before.blank)
  | unparsable text unread => exact unread

theorem unbroken (l : ListLine) : '\n' ∉ l.chars := by
  have address_unbroken (a : Address) : '\n' ∉ a.toChars := by
    intro h
    exact absurd (inAddress_of_mem h) (by decide)
  have comment_unbroken (text : Piece) : '\n' ∉ text.asComment := by
    rw [Piece.asComment, List.mem_cons, not_or]
    exact ⟨by decide, text.unbroken⟩
  match l with
  | entry before address after none =>
    simp [chars, before.unbroken, address_unbroken, after.unbroken]
  | entry before address after (some text) =>
    simp [chars, before.unbroken, address_unbroken, after.unbroken, comment_unbroken]
  | blank blanks => exact blanks.unbroken
  | commentOnly before text => simp [chars, before.unbroken, comment_unbroken]
  | unparsable text _ => exact text.unbroken

end ListLine

inductive LineEnding where
  | lf
  | crlf

def LineEnding.chars : LineEnding → List Char
  | lf => []
  | crlf => ['\r']

/-- The text of lines that end in a line feed, and of a last one that the text ends with. -/
def written : List (ListLine × LineEnding) → ListLine → List Char
  | [], last => last.chars
  | (l, e) :: ls, last => (l.chars ++ e.chars) ++ '\n' :: written ls last

/-- A line is read alike with either ending. -/
theorem listing_line (l : ListLine) (e : LineEnding) :
    listing (l.chars ++ e.chars) = l.address?.toList := by
  have ending_blank : ∀ c ∈ e.chars, Text.isBlank c = true := by
    cases e with
    | lf => exact List.forall_mem_nil _
    | crlf => exact List.forall_mem_singleton.2 (by decide)
  have ending_unbroken : '\n' ∉ e.chars := by cases e <;> decide
  have unbroken : '\n' ∉ l.chars ++ e.chars := by
    rw [List.mem_append, not_or]
    exact ⟨l.unbroken, ending_unbroken⟩
  rw [listing_of_unbroken unbroken, ofLine?_append_blanks ending_blank, l.ofLine?_chars]

theorem listing_of_written (ls : List (ListLine × LineEnding)) (last : ListLine) :
    listing (written ls last) = (ls.map Prod.fst ++ [last]).filterMap ListLine.address? := by
  induction ls with
  | nil =>
    rw [written, listing_of_unbroken last.unbroken, last.ofLine?_chars]
    cases h : last.address? <;> simp [h]
  | cons entry ls ih =>
    obtain ⟨l, e⟩ := entry
    rw [written, listing_append, listing_line, ih]
    cases h : l.address? <;> simp [h]

/-- Lists put one after the other are read one after the other, and the addresses written on the
lines of a list are what is read from it, in order and with repetitions. -/
theorem listing_written :
    (∀ a b : List Char, listing (a ++ '\n' :: b) = listing a ++ listing b) ∧
      ∀ (ls : List (ListLine × LineEnding)) (last : ListLine),
        listing (written ls last) = (ls.map Prod.fst ++ [last]).filterMap ListLine.address? :=
  ⟨listing_append, listing_of_written⟩

example : listing "10.0.0.1\r\n\u2003::1 # ::2\n\n# 10.0.0.2\n10.0.0.256\n10.0.0.1".toList =
    [v4 #v[10, 0, 0, 1], v6 #v[0, 0, 0, 0, 0, 0, 0, 1], v4 #v[10, 0, 0, 1]] := by decide +kernel

end Polling.Address
