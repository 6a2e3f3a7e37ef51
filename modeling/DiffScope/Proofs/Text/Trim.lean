import Mathlib.Data.List.DropRight
import DiffScope.Proofs.Text.Decimal
import DiffScope.Text.Blank

/-! # Counts with blanks around them

A trimmed text is what stands between the blanks at its ends. So a count is read from a trimmed text
just when the text is a numeral, perhaps behind a plus sign, and blanks on either side.
-/

namespace DiffScope.Text

/-! ## Ends -/

section Ends

variable {p : Char → Bool} {lead core trail text : List Char}

/-- Characters of a kind are dropped from the end of a text as far as they go. -/
theorem rdropWhile_append (all : ∀ c ∈ trail, p c = true)
    (stops : ∀ c ∈ core.getLast?, p c = false) : (core ++ trail).rdropWhile p = core := by
  have turned : ((trail.reverse ++ core.reverse).dropWhile p) = core.reverse := by
    refine (span_append ?_ ?_).2
    · simpa using all
    · simpa using stops
  rw [List.rdropWhile, List.reverse_append, turned, List.reverse_reverse]

/-- What stands between characters of a kind is left when these are dropped from either end. -/
theorem rdropWhile_dropWhile_append (before : ∀ c ∈ lead, p c = true)
    (behind : ∀ c ∈ trail, p c = true) (starts : ∀ c ∈ core.head?, p c = false)
    (stops : ∀ c ∈ core.getLast?, p c = false) :
    ((lead ++ core ++ trail).dropWhile p).rdropWhile p = core := by
  cases core with
  | nil =>
      have none : (lead ++ [] ++ trail).dropWhile p = [] := by
        simpa [List.dropWhile_eq_nil_iff, or_imp, forall_and] using ⟨before, behind⟩
      rw [none, List.rdropWhile_nil]
  | cons c cs =>
      have first : ∀ d ∈ (c :: cs ++ trail).head?, p d = false := starts
      have shortened : (lead ++ c :: cs ++ trail).dropWhile p = c :: cs ++ trail := by
        rw [List.append_assoc]
        exact (span_append before first).2
      rw [shortened]
      exact rdropWhile_append behind stops

theorem exists_ends_around (p : Char → Bool) (text : List Char) :
    ∃ lead trail, text = lead ++ (text.dropWhile p).rdropWhile p ++ trail ∧
      (∀ c ∈ lead, p c = true) ∧ ∀ c ∈ trail, p c = true := by
  refine ⟨text.takeWhile p, (text.dropWhile p).rtakeWhile p, ?_, ?_, ?_⟩
  · rw [List.append_assoc, List.rdropWhile_append_rtakeWhile]
    exact List.takeWhile_append_dropWhile.symm
  · exact fun c member => List.mem_takeWhile_imp member
  · exact fun c member => List.mem_rtakeWhile_imp member

/-- What is left begins and ends with no character of the kind. -/
theorem ends_rdropWhile_dropWhile (p : Char → Bool) (text : List Char) :
    (∀ c ∈ ((text.dropWhile p).rdropWhile p).head?, p c = false) ∧
      ∀ c ∈ ((text.dropWhile p).rdropWhile p).getLast?, p c = false := by
  constructor
  · intro c first
    obtain ⟨rest, whole⟩ := List.rdropWhile_prefix p (text.dropWhile p)
    have kept := List.head?_dropWhile_not p text
    rwa [← whole, List.head?_append, first] at kept
  · intro c last
    obtain ⟨filled, rfl⟩ := List.mem_getLast?_eq_getLast last
    simpa using List.rdropWhile_last_not p _ filled

end Ends

/-! ## Counts -/

theorem isBlank_eq_false_of_isDigit {c : Char} (digit : c.isDigit = true) : isBlank c = false := by
  have range : 48 ≤ c.toNat ∧ c.toNat ≤ 57 := by
    simp only [Char.isDigit, ge_iff_le, UInt32.le_iff_toNat_le, Bool.and_eq_true,
      decide_eq_true_eq] at digit
    exact digit
  simp only [isBlank, Bool.or_eq_false_iff, Bool.and_eq_false_iff, decide_eq_false_iff_not]
  omega

variable {text sign digits : List Char} {n : Nat}

/-- What may stand before the digits of a count. -/
def IsSign (sign : List Char) : Prop :=
  sign = [] ∨ sign = ['+']

theorem signedCount?_eq_some_iff :
    signedCount? text = some n ↔
      ∃ sign digits, text = sign ++ digits ∧ IsSign sign ∧ Numeral digits n := by
  constructor
  · intro read
    unfold signedCount? at read
    split at read
    next digits => exact ⟨['+'], digits, rfl, .inr rfl, count?_eq_some_iff.mp read⟩
    next => exact ⟨[], text, rfl, .inl rfl, count?_eq_some_iff.mp read⟩
  · rintro ⟨sign, digits, rfl, rfl | rfl, numeral⟩
    · -- A numeral begins with a digit, so its text is not taken for one with a sign.
      unfold signedCount?
      split
      next rest same =>
        obtain rfl : digits = '+' :: rest := same
        exact absurd (numeral.digit '+' List.mem_cons_self) (by decide)
      next => exact count?_eq_some_iff.mpr numeral
    · exact count?_eq_some_iff.mpr numeral

/-- A count, perhaps with a plus sign before it, and blanks around it. -/
def Spells (text : List Char) (n : Nat) : Prop :=
  ∃ lead sign digits trail, text = lead ++ (sign ++ digits) ++ trail ∧
    (∀ c ∈ lead, isBlank c = true) ∧ (∀ c ∈ trail, isBlank c = true) ∧
    IsSign sign ∧ Numeral digits n

/-- No blank stands in a count. -/
theorem not_blank_of_numeral (signed : IsSign sign) (numeral : Numeral digits n) :
    ∀ c ∈ sign ++ digits, isBlank c = false := by
  intro c member
  rcases List.mem_append.mp member with inSign | inDigits
  · rcases signed with rfl | rfl
    · cases inSign
    · obtain rfl := List.mem_singleton.mp inSign
      decide
  · exact isBlank_eq_false_of_isDigit (numeral.digit c inDigits)

theorem spells_iff : Spells text n ↔ signedCount? (trim text) = some n := by
  rw [signedCount?_eq_some_iff]
  constructor
  · rintro ⟨lead, sign, digits, trail, rfl, before, behind, signed, numeral⟩
    have solid := not_blank_of_numeral signed numeral
    refine ⟨sign, digits, ?_, signed, numeral⟩
    apply rdropWhile_dropWhile_append before behind
    · exact fun c first => solid c (List.mem_of_mem_head? first)
    · exact fun c last => solid c (List.mem_of_getLast? last)
  · rintro ⟨sign, digits, core, signed, numeral⟩
    obtain ⟨lead, trail, whole, before, behind⟩ := exists_ends_around isBlank text
    exact ⟨lead, sign, digits, trail, core ▸ whole, before, behind, signed, numeral⟩

end DiffScope.Text
