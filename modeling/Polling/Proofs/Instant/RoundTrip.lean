import Mathlib.Algebra.Group.Nat.Defs
import Polling.Instant.Basic
import Polling.Instant.Parser
import Polling.Proofs.Text.Digits
import Polling.Proofs.Text.Lines

namespace Polling.Instant

section Numbers

variable {width n most : Nat} {cs rest : List Char}

theorem isDigit_of_mem_padded {c : Char} (h : c ∈ padded width n) : c.isDigit = true := by
  rcases List.mem_append.1 h with h | h
  · rw [List.eq_of_mem_replicate h]
    rfl
  · exact Text.isDigit_of_mem h

theorem padded_ne_nil : padded width n ≠ [] :=
  List.append_ne_nil_of_right_ne_nil _ Nat.toDigits_ne_nil

theorem exists_padded (width n : Nat) :
    ∃ c cs, padded width n = c :: cs ∧ c.isDigit = true := by
  obtain ⟨c, cs, h⟩ := List.exists_cons_of_ne_nil (@padded_ne_nil width n)
  exact ⟨c, cs, h, isDigit_of_mem_padded (h ▸ List.mem_cons_self)⟩

theorem length_padded (hw : 0 < width) (hn : n < 10 ^ width) : (padded width n).length = width := by
  have short : (Nat.toDigits 10 n).length ≤ width :=
    (Nat.length_toDigits_le_iff (by decide) hw).2 hn
  rw [padded, List.length_append, List.length_replicate]
  omega

theorem ofDigitChars_padded : Nat.ofDigitChars 10 (padded width n) 0 = n := by
  rw [padded, Nat.ofDigitChars_append, Nat.ofDigitChars_replicate_zero, Nat.mul_zero,
    Nat.ofDigitChars_ten_toDigits]

/-- Zeros behind the digits multiply the number. -/
theorem ofDigitChars_append_zeros (k : Nat) :
    Nat.ofDigitChars 10 (cs ++ List.replicate k '0') 0 = 10 ^ k * Nat.ofDigitChars 10 cs 0 := by
  rw [Nat.ofDigitChars_append, Nat.ofDigitChars_replicate_zero]

def Stops (rest : List Char) : Prop := ∀ c ∈ rest.head?, c.isDigit = false

theorem stops_cons {c : Char} (h : c.isDigit = false) : Stops (c :: rest) := by
  intro d hd
  cases hd
  exact h

theorem digits?_append (hd : ∀ c ∈ cs, c.isDigit = true) (hc : cs ≠ []) (hl : cs.length ≤ most)
    (hr : Stops rest) : digits? most (cs ++ rest) = some (cs, rest) := by
  have stops : Stops (rest.take (most - cs.length)) := by
    intro c hc
    rw [List.head?_take] at hc
    split at hc
    · simp at hc
    · exact hr c hc
  have front : ((cs ++ rest).take most).takeWhile Char.isDigit = cs := by
    rw [List.take_append, List.take_of_length_le hl]
    exact Text.takeWhile_of_stops hd stops
  unfold digits?
  dsimp only
  rw [front, if_neg hc, List.drop_left]

theorem digits?_padded (hw : 0 < width) (hn : n < 10 ^ width) (hm : width ≤ most)
    (hr : Stops rest) : digits? most (padded width n ++ rest) = some (padded width n, rest) :=
  digits?_append (fun _ => isDigit_of_mem_padded) padded_ne_nil
    (by rw [length_padded hw hn]; exact hm) hr

end Numbers

section Blanks

variable {width n : Nat} {c : Char} {cs rest : List Char}

theorem trimLeft_cons (h : Text.isBlank c = false) : Text.trimLeft (c :: cs) = c :: cs :=
  List.dropWhile_cons_of_neg (by simp [h])

theorem isBlank_of_isDigit (h : c.isDigit = true) : Text.isBlank c = false := by
  have bounds : 48 ≤ c.toNat ∧ c.toNat ≤ 57 := by
    simpa [Char.isDigit, UInt32.le_iff_toNat_le] using h
  exact Text.isBlank_of_printed (by omega) (by omega)

theorem trimLeft_padded : Text.trimLeft (padded width n ++ rest) = padded width n ++ rest := by
  obtain ⟨c, cs, h, digit⟩ := exists_padded width n
  rw [h]
  exact trimLeft_cons (isBlank_of_isDigit digit)

theorem separator?_cons (h : Text.isBlank c = false) : separator? c (c :: cs) = some cs := by
  rw [separator?, trimLeft_cons h]
  exact if_pos rfl

end Blanks

section Parts

variable {n : Nat} {rest : List Char}

theorem number?_padded (hn : n < 100) (hr : Stops rest) :
    number? (padded 2 n ++ rest) = some (n, rest) := by
  rw [number?, trimLeft_padded, digits?_padded (by decide) hn (by decide) hr]
  simp [ofDigitChars_padded]

/-- A text that starts with a digit is read as a year without sign. -/
theorem year?_of_digit {c : Char} {cs : List Char} (h : c.isDigit = true) :
    year? (c :: cs) =
      (digits? 4 (c :: cs)).map fun p => ((Nat.ofDigitChars 10 p.1 0 : Int), p.2) := by
  rw [year?, trimLeft_cons (isBlank_of_isDigit h)]
  split
  · next heq =>
    rw [(List.cons.inj heq).1] at h
    exact absurd h (by decide)
  · next heq =>
    rw [(List.cons.inj heq).1] at h
    exact absurd h (by decide)
  · cases digits? 4 (c :: cs) <;> rfl

theorem year?_padded (hn : n < 10000) (hr : Stops rest) :
    year? (padded 4 n ++ rest) = some ((n : Int), rest) := by
  have read : digits? 4 (padded 4 n ++ rest) = some (padded 4 n, rest) :=
    digits?_padded (by decide) hn (Nat.le_refl 4) hr
  obtain ⟨c, cs, h, digit⟩ := exists_padded 4 n
  rw [h, List.cons_append] at read ⊢
  rw [year?_of_digit digit, read, ← h, Option.map_some, ofDigitChars_padded]

/-- After a sign, a year has as many digits as there are. -/
theorem year?_signed (hr : Stops rest) :
    year? ('-' :: padded 4 n ++ rest) = some (-(n : Int), rest) ∧
      year? ('+' :: padded 4 n ++ rest) = some ((n : Int), rest) := by
  have read : digits? (padded 4 n ++ rest).length (padded 4 n ++ rest) =
      some (padded 4 n, rest) :=
    digits?_append (fun _ => isDigit_of_mem_padded) padded_ne_nil (by simp) hr
  constructor
  · rw [List.cons_append, year?, trimLeft_cons (by decide)]
    simp only [read, Option.bind_eq_bind, Option.bind_some, ofDigitChars_padded]
    rfl
  · rw [List.cons_append, year?, trimLeft_cons (by decide)]
    simp only [read, Option.bind_eq_bind, Option.bind_some, ofDigitChars_padded]
    rfl

theorem year?_yearText (year : Int) (hr : Stops rest) :
    year? (yearText year ++ rest) = some (year, rest) := by
  rw [yearText]
  split
  · next h =>
    rw [year?_padded (by omega) hr, Int.natAbs_of_nonneg h.1]
  split
  · next h =>
    rw [(year?_signed hr).1, Int.ofNat_natAbs_of_nonpos (by omega), Int.neg_neg]
  · next h =>
    rw [(year?_signed hr).2, Int.natAbs_of_nonneg (by omega)]

/-- A fraction of `width` digits counts the nanoseconds in units of that size. -/
theorem nanoseconds?_padded {width : Nat} (hw : 0 < width ∧ width ≤ 9) (hn : n < 10 ^ width)
    (hr : Stops rest) :
    nanoseconds? ('.' :: padded width n ++ rest) = some (10 ^ (9 - width) * n, rest) := by
  have rest_kept : rest.dropWhile Char.isDigit = rest :=
    @Text.dropWhile_of_stops Char.isDigit [] rest (by simp) hr
  rw [List.cons_append, nanoseconds?]
  simp only [digits?_padded hw.1 hn hw.2 hr, Option.bind_eq_bind, Option.bind_some, rest_kept,
    length_padded hw.1 hn, ofDigitChars_append_zeros, ofDigitChars_padded]
  rfl

theorem nanoseconds?_fractionText (hn : n < 1000000000) :
    nanoseconds? (fractionText n ++ ['Z']) = some (n, ['Z']) := by
  -- A fraction of fewer than nine digits is filled up with the zeros that were left out.
  have stops : Stops ['Z'] := stops_cons rfl
  rw [fractionText]
  split
  · next h =>
    rw [h]
    rfl
  split
  · next h =>
    rw [nanoseconds?_padded (by decide) (by omega) stops]
    have exact_division : 10 ^ 6 * (n / 1000000) = n := by omega
    rw [exact_division]
  split
  · next h =>
    rw [nanoseconds?_padded (by decide) (by omega) stops]
    have exact_division : 10 ^ 3 * (n / 1000) = n := by omega
    rw [exact_division]
  · rw [nanoseconds?_padded (by decide) hn stops, Nat.sub_self, Nat.pow_zero, Nat.one_mul]

end Parts

/-- Clocks in UTC show the parts of the instant. -/
theorem ofLocal?_utc (t : Instant) :
    ofLocal? t.date t.hour t.minute t.second t.nanosecond 0 = some t := by
  have hh := t.hour.isLt
  have hm := t.minute.isLt
  have hour : (60 * (t.hour.val : Int) + t.minute.val - 0).toNat / 60 = t.hour.val := by omega
  have minute : (60 * (t.hour.val : Int) + t.minute.val - 0).toNat % 60 = t.minute.val := by omega
  rw [ofLocal?, if_neg (by omega), if_pos (by omega)]
  dsimp only
  rw [hour, minute, ofParts?, dif_pos]
  exact ⟨hh, hm, t.second.isLt, t.nanosecond.isLt, t.second_of_leap⟩

/-- The seconds and the fraction that a clock shows tell whether the instant is in a leap second. -/
theorem second_of_clockSecond (t : Instant) :
    (t.clockSecond = 60 → t.second.val = 59 ∧
      t.nanosecond.val % 1000000000 + 1000000000 = t.nanosecond.val) ∧
    (t.clockSecond ≠ 60 → t.clockSecond = t.second.val ∧
      t.nanosecond.val % 1000000000 = t.nanosecond.val) := by
  have hs := t.second.isLt
  have hn := t.nanosecond.isLt
  have leap := t.second_of_leap
  unfold clockSecond
  split <;> omega

/-- The instant is told by what a clock shows. -/
theorem ofLocal?_clockSecond (t : Instant) :
    (if t.clockSecond = 60 then
        ofLocal? t.date t.hour t.minute 59 (t.nanosecond.val % 1000000000 + 1000000000) 0
      else ofLocal? t.date t.hour t.minute t.clockSecond (t.nanosecond.val % 1000000000) 0) =
      some t := by
  obtain ⟨leap, regular⟩ := t.second_of_clockSecond
  split
  · next h =>
    obtain ⟨second, nanosecond⟩ := leap h
    rw [nanosecond, ← second, ofLocal?_utc]
  · next h =>
    obtain ⟨second, nanosecond⟩ := regular h
    rw [nanosecond, second, ofLocal?_utc]

theorem clockSecond_lt (t : Instant) : t.clockSecond < 100 := by
  have hs := t.second.isLt
  unfold clockSecond
  split <;> omega

theorem day_lt (d : Date) : d.day < 100 := by
  have days : daysInMonth d.year d.month ≤ 31 := by
    unfold daysInMonth
    split <;> split <;> omega
  have := d.day_mem
  omega

theorem stops_fraction (n : Nat) : Stops (fractionText n ++ ['Z']) := by
  unfold fractionText
  split
  · exact stops_cons rfl
  split
  · exact stops_cons rfl
  split <;> exact stops_cons rfl

/-- The text part by part, each in front of all that follows. -/
theorem toChars_eq (t : Instant) :
    t.toChars = yearText t.date.year ++ '-' :: (padded 2 t.date.month ++ '-' ::
      (padded 2 t.date.day ++ 'T' :: (padded 2 t.hour.val ++ ':' :: (padded 2 t.minute.val ++ ':' ::
        (padded 2 t.clockSecond ++
          (fractionText (t.nanosecond.val % 1000000000) ++ ['Z'])))))) := by
  simp only [toChars, List.append_assoc, List.cons_append]

theorem ofChars?_toChars (t : Instant) : ofChars? t.toChars = some t := by
  have month : t.date.month < 100 := by
    have := t.date.month_mem
    omega
  have hour : t.hour.val < 100 := Nat.lt_trans t.hour.isLt (by decide)
  have minute : t.minute.val < 100 := Nat.lt_trans t.minute.isLt (by decide)
  have nanosecond : t.nanosecond.val % 1000000000 < 1000000000 := Nat.mod_lt _ (by decide)
  have bounds : Text.trimLeft [] = [] ∧ t.hour.val < 24 ∧ t.minute.val < 60 :=
    ⟨rfl, t.hour.isLt, t.minute.isLt⟩
  -- Each part is read in turn, and reading a number stops at the separator that follows it.
  rw [toChars_eq, ofChars?]
  refine Option.bind_eq_some_iff.2 ⟨_, year?_yearText _ (stops_cons rfl), ?_⟩
  refine Option.bind_eq_some_iff.2 ⟨_, separator?_cons (by decide), ?_⟩
  refine Option.bind_eq_some_iff.2 ⟨_, number?_padded month (stops_cons rfl), ?_⟩
  refine Option.bind_eq_some_iff.2 ⟨_, separator?_cons (by decide), ?_⟩
  refine Option.bind_eq_some_iff.2 ⟨_, number?_padded (day_lt _) (stops_cons rfl), ?_⟩
  refine Option.bind_eq_some_iff.2 ⟨_, rfl, ?_⟩
  refine Option.bind_eq_some_iff.2 ⟨_, number?_padded hour (stops_cons rfl), ?_⟩
  refine Option.bind_eq_some_iff.2 ⟨_, separator?_cons (by decide), ?_⟩
  refine Option.bind_eq_some_iff.2 ⟨_, number?_padded minute (stops_cons rfl), ?_⟩
  refine Option.bind_eq_some_iff.2 ⟨_, separator?_cons (by decide), ?_⟩
  refine Option.bind_eq_some_iff.2 ⟨_, number?_padded t.clockSecond_lt (stops_fraction _), ?_⟩
  refine Option.bind_eq_some_iff.2 ⟨_, nanoseconds?_fractionText nanosecond, ?_⟩
  refine Option.bind_eq_some_iff.2 ⟨(0, []), by decide, ?_⟩
  dsimp only
  rw [if_pos bounds]
  refine Option.bind_eq_some_iff.2 ⟨_, Date.ofParts?_self _, ?_⟩
  exact t.ofLocal?_clockSecond

/-- An instant is read back from its text, leap seconds and years of any sign included. -/
theorem ofString?_toString (t : Instant) : ofString? (toString t) = some t := by
  rw [ofString?]
  exact (congrArg ofChars? String.toList_ofList).trans (ofChars?_toChars t)

end Polling.Instant
