import Polling.Text

namespace Polling.Text

variable {cs blanks : List Char}

theorem lines_ne_nil (cs : List Char) : lines cs ≠ [] := by
  cases cs with
  | nil => simp [lines]
  | cons c cs =>
    rw [lines]
    split
    · simp
    · split <;> simp

theorem lines_feed (cs : List Char) : lines ('\n' :: cs) = [] :: lines cs := by
  rw [lines, if_pos rfl]

/-- A character that is no line feed goes into the first line. -/
theorem lines_cons {c : Char} (hc : c ≠ '\n') {l : List Char} {ls : List (List Char)}
    (h : lines cs = l :: ls) : lines (c :: cs) = (c :: l) :: ls := by
  rw [lines, if_neg hc, h]

theorem lines_append (a b : List Char) : lines (a ++ '\n' :: b) = lines a ++ lines b := by
  induction a with
  | nil => exact lines_feed b
  | cons c a ih =>
    by_cases hc : c = '\n'
    · rw [hc, List.cons_append, lines_feed, lines_feed, ih, List.cons_append]
    · obtain ⟨l, ls, first⟩ := List.exists_cons_of_ne_nil (lines_ne_nil a)
      rw [first] at ih
      rw [List.cons_append] at ih
      rw [lines_cons hc first, List.cons_append, List.cons_append, lines_cons hc ih]

theorem lines_of_unbroken (h : '\n' ∉ cs) : lines cs = [cs] := by
  induction cs with
  | nil => rfl
  | cons c cs ih =>
    rw [List.mem_cons, not_or] at h
    exact lines_cons (Ne.symm h.1) (ih h.2)

/-- What ASCII prints is not blank. -/
theorem isBlank_of_printed {c : Char} (h : 0x21 ≤ c.toNat) (h' : c.toNat < 0x7f) :
    isBlank c = false := by
  rw [Bool.eq_false_iff]
  intro hb
  simp only [isBlank, Bool.or_eq_true, Bool.and_eq_true, decide_eq_true_eq, beq_iff_eq,
    Char.ext_iff, Char.le_def, ← UInt32.toNat_inj, UInt32.le_iff_toNat_le, Char.reduceVal,
    UInt32.reduceToNat] at hb
  rw [Char.toNat] at h h'
  omega

theorem trimLeft_blanks_append (h : ∀ c ∈ blanks, isBlank c = true) (cs : List Char) :
    trimLeft (blanks ++ cs) = trimLeft cs :=
  List.dropWhile_append_of_pos h

theorem trimLeft_eq_nil (h : ∀ c ∈ blanks, isBlank c = true) : trimLeft blanks = [] := by
  have := trimLeft_blanks_append h []
  rwa [List.append_nil] at this

theorem trimLeft_append (cs rest : List Char) :
    trimLeft (cs ++ rest) = if trimLeft cs = [] then trimLeft rest else trimLeft cs ++ rest := by
  unfold trimLeft
  rw [List.dropWhile_append]
  by_cases h : cs.dropWhile isBlank = []
  · rw [if_pos h, if_pos (List.isEmpty_iff.2 h)]
  · rw [if_neg h, if_neg (mt List.isEmpty_iff.1 h)]

theorem trimLeft_eq_self (h : ∀ c ∈ cs, isBlank c = false) : trimLeft cs = cs := by
  cases cs with
  | nil => rfl
  | cons c cs => exact List.dropWhile_cons_of_neg (by simp [h c List.mem_cons_self])

theorem trim_blanks_append (h : ∀ c ∈ blanks, isBlank c = true) (cs : List Char) :
    trim (blanks ++ cs) = trim cs := by
  rw [trim, trimLeft_blanks_append h, trim]

theorem trim_append_blanks (h : ∀ c ∈ blanks, isBlank c = true) (cs : List Char) :
    trim (cs ++ blanks) = trim cs := by
  have backwards : ∀ c ∈ blanks.reverse, isBlank c = true := fun c hc => h c (List.mem_reverse.1 hc)
  rw [trim, trimLeft_append]
  split
  · next hcs => rw [trimLeft_eq_nil h, trim, hcs]
  · rw [List.reverse_append, trimLeft_blanks_append backwards, trim]

theorem trim_eq_self (h : ∀ c ∈ cs, isBlank c = false) : trim cs = cs := by
  have backwards : ∀ c ∈ cs.reverse, isBlank c = false := fun c hc => h c (List.mem_reverse.1 hc)
  rw [trim, trimLeft_eq_self h, trimLeft_eq_self backwards, List.reverse_reverse]

end Polling.Text
