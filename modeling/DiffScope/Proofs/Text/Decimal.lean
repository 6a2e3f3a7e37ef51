import DiffScope.Proofs.Text.Spans
import DiffScope.Text.Decimal

/-! # Numbers in a text

A count is read from a text as far as its digits go: from the digits of any numeral, and so from the
decimal digits that the count is written with.
-/

namespace DiffScope.Text

/-! ## Numerals -/

/-- A run of ASCII digits and the count that it stands for. Leading zeros may stand in it. -/
structure Numeral (digits : List Char) (n : Nat) : Prop where
  filled : digits ≠ []
  digit : ∀ c ∈ digits, c.isDigit = true
  value : Nat.ofDigitChars 10 digits 0 = n
  bound : n < countBound

theorem digitsValue_eq (digits : List Char) :
    digitsValue digits = Nat.ofDigitChars 10 digits 0 :=
  (Nat.ofDigitChars_eq_foldl).symm

theorem count?_eq_some_iff {digits : List Char} {n : Nat} :
    count? digits = some n ↔ Numeral digits n := by
  unfold count?
  rw [digitsValue_eq]
  dsimp only
  constructor
  · intro read
    split at read
    next => cases read
    next digital =>
      split at read
      next bound =>
        obtain rfl := Option.some.inj read
        rw [Bool.or_eq_true, not_or, List.isEmpty_iff, Bool.not_eq_true, Bool.not_eq_false',
          List.all_eq_true] at digital
        exact ⟨digital.1, digital.2, rfl, bound⟩
      next => cases read
  · rintro ⟨filled, digit, rfl, bound⟩
    have digital : ¬(digits.isEmpty || !digits.all Char.isDigit) = true := by
      simp [filled, List.all_eq_true.mpr digit]
    rw [if_neg digital, if_pos bound]

/-- A numeral is read from a text up to the first character that is no digit. -/
theorem leadingCount?_append {digits rest : List Char} {n : Nat} (numeral : Numeral digits n)
    (ends : ∀ c ∈ rest.head?, c.isDigit = false) :
    leadingCount? (digits ++ rest) = some (n, rest) := by
  obtain ⟨front, behind⟩ := span_append numeral.digit ends
  rw [leadingCount?, front, behind, count?_eq_some_iff.mpr numeral]
  rfl

/-- What is read from a text is a numeral that the text begins with. -/
theorem exists_numeral_of_leadingCount? {text rest : List Char} {n : Nat}
    (read : leadingCount? text = some (n, rest)) :
    ∃ digits, Numeral digits n ∧ text = digits ++ rest := by
  obtain ⟨m, counted, same⟩ := Option.map_eq_some_iff.mp read
  obtain ⟨rfl, rfl⟩ := Prod.mk.inj same
  exact ⟨_, count?_eq_some_iff.mp counted, List.takeWhile_append_dropWhile.symm⟩

/-! ## Written numbers -/

theorem digitsValue_toDigits (n : Nat) : digitsValue (Nat.toDigits 10 n) = n := by
  rw [digitsValue_eq]
  exact Nat.ofDigitChars_ten_toDigits

theorem isDigit_toDigits (n : Nat) : ∀ c ∈ Nat.toDigits 10 n, c.isDigit = true :=
  fun _ member => Nat.isDigit_of_mem_toDigits (by decide) (by decide) member

theorem numeral_toDigits {n : Nat} (bound : n < countBound) : Numeral (Nat.toDigits 10 n) n where
  filled := Nat.toDigits_ne_nil
  digit := isDigit_toDigits n
  value := Nat.ofDigitChars_ten_toDigits
  bound := bound

/-- The digits of a number end where no digit follows. -/
theorem span_toDigits (n : Nat) {rest : List Char}
    (ends : ∀ c ∈ rest.head?, c.isDigit = false) :
    (Nat.toDigits 10 n ++ rest).takeWhile Char.isDigit = Nat.toDigits 10 n ∧
      (Nat.toDigits 10 n ++ rest).dropWhile Char.isDigit = rest :=
  span_append (isDigit_toDigits n) ends

/-- A number of several digits does not begin with a zero. -/
theorem head?_toDigits {n : Nat} (large : 10 ≤ n) : (Nat.toDigits 10 n).head? ≠ some '0' := by
  induction n using Nat.strongRecOn with
  | ind n ih =>
      rw [Nat.toDigits_of_base_le (by decide) large, List.head?_append]
      intro zero
      by_cases more : 10 ≤ n / 10
      · have first := ih (n / 10) (by omega) more
        cases found : (Nat.toDigits 10 (n / 10)).head? with
        | none => exact Nat.toDigits_ne_nil (List.head?_eq_none_iff.mp found)
        | some d =>
            rw [found] at zero first
            exact first zero
      · rw [Nat.toDigits_of_lt_base (by omega)] at zero
        have digit : ∀ d < 10, 0 < d → some (Nat.digitChar d) ≠ some '0' := by decide
        exact digit (n / 10) (by omega) (by omega) zero

theorem eq_nil_of_toDigits_eq_zero_cons {n : Nat} {digits : List Char}
    (zero : Nat.toDigits 10 n = '0' :: digits) : digits = [] := by
  by_cases large : 10 ≤ n
  · exact absurd (by rw [zero]; rfl) (head?_toDigits large)
  · rw [Nat.toDigits_of_lt_base (by omega)] at zero
    exact (List.cons.inj zero).2.symm

end DiffScope.Text
