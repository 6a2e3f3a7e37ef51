import Mathlib.Tactic.SplitIfs
import DiffScope.Json.Printer
import DiffScope.Json.Reader
import DiffScope.Proofs.Text.Decimal

/-! # Written strings and numbers are read back

A string is read back whatever its characters are: those that are escaped stand for themselves, and
no character is one half of another. A count is read back where no number goes on behind it.
-/

namespace DiffScope.Json

open DiffScope.Text

/-! ## Strings -/

theorem unit?_control : ∀ n < 32,
    unit? '0' '0' (hexDigit (n / 16)) (hexDigit (n % 16)) = some n := by
  decide

theorem readUnits_plain {c : Char} (noQuote : c ≠ '"') (noSlash : c ≠ '\\')
    (noControl : ¬c.toNat < 32) (units : List Nat) (rest : List Char) :
    readUnits units (c :: rest) = readUnits (c.toNat :: units) rest := by
  rw [readUnits, if_neg noControl]
  · exact noQuote
  · intro _ _ _ _ _ same _
    exact noSlash same
  · intro _ _ same _
    exact noSlash same

/-- However a character stands in a string, it is read as itself. -/
theorem readUnits_escapeChar (units : List Nat) (c : Char) (rest : List Char) :
    readUnits units (escapeChar c ++ rest) = readUnits (c.toNat :: units) rest := by
  unfold escapeChar
  split_ifs with quote slash newline carriage tab back page control
  · rw [quote]; rfl
  · rw [slash]; rfl
  · rw [newline]; rfl
  · rw [carriage]; rfl
  · rw [tab]; rfl
  · rw [back]; rfl
  · rw [page]; rfl
  · simp only [List.cons_append, List.nil_append, readUnits, unit?_control _ control]
  · exact readUnits_plain quote slash control units rest

theorem readUnits_flatMap (units : List Nat) (chars rest : List Char) :
    readUnits units (chars.flatMap escapeChar ++ '"' :: rest) =
      some (units.reverse ++ chars.map Char.toNat, rest) := by
  induction chars generalizing units with
  | nil => simp [readUnits]
  | cons c cs ih =>
      rw [List.flatMap_cons, List.append_assoc, readUnits_escapeChar, ih]
      simp

theorem not_isHalf (c : Char) : ¬(0xD800 ≤ c.toNat ∧ c.toNat < 0xE000) := by
  have valid := c.valid
  simp only [UInt32.isValidChar, Nat.isValidChar] at valid
  change ¬(0xD800 ≤ c.val.toNat ∧ c.val.toNat < 0xE000)
  omega

theorem joinUnits_map_toNat (front chars : List Char) :
    joinUnits front (chars.map Char.toNat) = some (front.reverse ++ chars) := by
  induction chars generalizing front with
  | nil => simp [joinUnits]
  | cons c cs ih =>
      have whole := not_isHalf c
      cases cs with
      | nil => simp [joinUnits, whole]
      | cons d ds =>
          have rest := ih (c :: front)
          rw [List.map_cons] at rest
          rw [List.map_cons, List.map_cons, joinUnits, if_neg (by omega), if_neg (by omega),
            Char.ofNat_toNat, rest, List.reverse_cons, List.append_assoc]
          rfl

theorem readString_flatMap (s : String) (rest : List Char) :
    readString (s.toList.flatMap escapeChar ++ '"' :: rest) = some (s, rest) := by
  simp [readString, readUnits_flatMap, joinUnits_map_toNat]

/-! ## Numbers -/

/-- No number goes on where the text begins. -/
def EndsNumber (text : List Char) : Prop :=
  ∀ c ∈ text.head?, c.isDigit = false ∧ c ≠ '.' ∧ c ≠ 'e' ∧ c ≠ 'E'

theorem EndsNumber.cons {c : Char} (other : c.isDigit = false ∧ c ≠ '.' ∧ c ≠ 'e' ∧ c ≠ 'E')
    (text : List Char) : EndsNumber (c :: text) := by
  intro d first
  cases first
  exact other

theorem readPart_of_head {marks text : List Char} (signed : Bool)
    (none : ∀ c ∈ text.head?, marks.contains c = false) :
    readPart marks signed text = some ([], text) := by
  cases text with
  | nil => rfl
  | cons c cs => simp only [readPart, none c rfl, Bool.false_eq_true, if_false]

theorem readNumber_toDigits (n : Nat) {rest : List Char} (ends : EndsNumber rest) :
    readNumber (Nat.toDigits 10 n ++ rest) = some (.natural n, rest) := by
  obtain ⟨front, behind⟩ := span_toDigits n fun c first => (ends c first).1
  have plain : ¬((Nat.toDigits 10 n).length > 1 ∧ (Nat.toDigits 10 n).head? = some '0') := by
    rintro ⟨long, zero⟩
    by_cases large : 10 ≤ n
    · exact head?_toDigits large zero
    · rw [Nat.toDigits_of_lt_base (by omega)] at long
      exact Nat.lt_irrefl 1 long
  have fraction : readPart ['.'] false rest = some ([], rest) :=
    readPart_of_head false fun c first => by simpa using (ends c first).2.1
  have exponent : readPart ['e', 'E'] true rest = some ([], rest) :=
    readPart_of_head true fun c first => by simpa using (ends c first).2.2
  cases found : Nat.toDigits 10 n with
  | nil => exact absurd found Nat.toDigits_ne_nil
  | cons d ds =>
      have unsigned : d ≠ '-' := ne_of_kind (isDigit_toDigits n d (found ▸ List.mem_cons_self)) rfl
      have value := digitsValue_toDigits n
      rw [found] at front behind plain value
      rw [List.cons_append] at front behind ⊢
      simpa [readNumber, unsigned, front, behind, fraction, exponent, value] using plain

end DiffScope.Json
