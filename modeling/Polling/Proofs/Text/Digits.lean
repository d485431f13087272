import Polling.Text

namespace Polling.Text

section Prefix

variable {p : Char → Bool} {cs rest : List Char}

/-- A text of characters of one class ends where it goes on with another. -/
theorem takeWhile_of_stops (h : ∀ c ∈ cs, p c = true) (hr : ∀ c ∈ rest.head?, p c = false) :
    (cs ++ rest).takeWhile p = cs := by
  rw [List.takeWhile_append_of_pos h]
  cases rest with
  | nil => exact List.append_nil cs
  | cons c rest => rw [List.takeWhile_cons_of_neg (by simp [hr c rfl]), List.append_nil]

theorem dropWhile_of_stops (h : ∀ c ∈ cs, p c = true) (hr : ∀ c ∈ rest.head?, p c = false) :
    (cs ++ rest).dropWhile p = rest := by
  rw [List.dropWhile_append_of_pos h]
  cases rest with
  | nil => rfl
  | cons c rest => exact List.dropWhile_cons_of_neg (by simp [hr c rfl])

end Prefix

variable {b n : Nat}

theorem isDigit_of_mem {c : Char} (h : c ∈ Nat.toDigits 10 n) : c.isDigit = true :=
  Nat.isDigit_of_mem_toDigits (by decide) (by decide) h

/-- Only zero is written with a zero in front. -/
theorem eq_zero_of_head?_toDigits (hb : 1 < b) (h : (Nat.toDigits b n).head? = some '0') :
    n = 0 := by
  induction n using Nat.strongRecOn with
  | ind n ih =>
    rw [Nat.toDigits_eq_if hb] at h
    split at h
    · rw [List.head?_cons, Option.some_inj, Nat.digitChar_eq_zero] at h
      exact h
    · next hn =>
      -- The first digit is that of the quotient, which is zero only if there is no other digit.
      have hpos : 0 < n := by omega
      rw [List.head?_append, List.head?_eq_some_head Nat.toDigits_ne_nil, Option.some_or,
        ← List.head?_eq_some_head] at h
      have hq := ih (n / b) (Nat.div_lt_self hpos hb) h
      rw [Nat.div_eq_zero_iff] at hq
      omega

theorem hexDigit?_digitChar : ∀ d < 16, hexDigit? (Nat.digitChar d) = some d := by decide

theorem isSome_hexDigit?_of_mem {c : Char} (h : c ∈ Nat.toDigits 16 n) :
    (hexDigit? c).isSome := by
  induction n using Nat.strongRecOn with
  | ind n ih =>
    rw [Nat.toDigits_eq_if (by decide)] at h
    split at h
    · next hn =>
      rw [List.mem_singleton] at h
      rw [h, hexDigit?_digitChar n hn, Option.isSome_some]
    · next hn =>
      rcases List.mem_append.1 h with h | h
      · exact ih (n / 16) (by omega) h
      · rw [List.mem_singleton] at h
        rw [h, hexDigit?_digitChar _ (Nat.mod_lt n (by decide)), Option.isSome_some]

theorem bounds_of_hexDigit? {c : Char} (h : (hexDigit? c).isSome) : '0' ≤ c ∧ c ≤ 'f' := by
  unfold hexDigit? at h
  split at h
  · next hc => exact ⟨hc.1, Char.le_trans hc.2 (by decide)⟩
  split at h
  · next hc => exact ⟨Char.le_trans (by decide) hc.1, hc.2⟩
  split at h
  · next hc => exact ⟨Char.le_trans (by decide) hc.1, Char.le_trans hc.2 (by decide)⟩
  · cases h

theorem ofHexDigits_toDigits (n : Nat) :
    ofHexDigits ((Nat.toDigits 16 n).filterMap hexDigit?) = n := by
  induction n using Nat.strongRecOn with
  | ind n ih =>
    rw [Nat.toDigits_eq_if (by decide)]
    split
    · next hn => simp [hexDigit?_digitChar n hn, ofHexDigits]
    · next hn =>
      have last : hexDigit? (Nat.digitChar (n % 16)) = some (n % 16) :=
        hexDigit?_digitChar _ (Nat.mod_lt n (by decide))
      have front := ih (n / 16) (by omega)
      rw [ofHexDigits] at front
      rw [List.filterMap_append, ofHexDigits, List.foldl_append, front]
      simp only [List.filterMap_cons, last, List.filterMap_nil, List.foldl_cons, List.foldl_nil]
      omega

end Polling.Text
