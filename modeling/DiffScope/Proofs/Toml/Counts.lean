import DiffScope.Proofs.Text.Decimal
import DiffScope.Toml.Reader

/-! # Written counts are read back

Decimal digits up to the end of a line are read as the whole number that they stand for, if that lies
within 64 bits with sign: they begin no string, date, fraction or number in another base.
-/

namespace DiffScope.Toml

open DiffScope.Text

/-! ## Digits -/

/-- No digits go on where the text begins. -/
def EndsDigits (text : List Char) : Prop :=
  ∀ c ∈ text.head?, c.isDigit = false ∧ c ≠ '_'

theorem endsDigits_newline (rest : List Char) : EndsDigits ('\n' :: rest) := by
  rintro c ⟨⟩
  decide

theorem readDigits_append {digits rest : List Char} (all : ∀ c ∈ digits, c.isDigit = true)
    (ends : EndsDigits rest) : readDigits Char.isDigit (digits ++ rest) = (digits, rest) := by
  induction digits with
  | nil =>
      match rest with
      | [] => rfl
      | [c] => simp [readDigits, (ends c rfl).1]
      | c :: d :: rest => simp [readDigits, (ends c rfl).1]
  | cons c cs ih =>
      obtain ⟨first, others⟩ := List.forall_mem_cons.mp all
      replace ih := ih others
      cases behind : cs ++ rest with
      | nil =>
          obtain ⟨rfl, rfl⟩ := List.append_eq_nil_iff.mp behind
          simp [readDigits, first]
      | cons d more =>
          have solid : d ≠ '_' := by
            cases cs with
            | nil => exact (ends d (by rw [← List.nil_append rest, behind]; rfl)).2
            | cons e es =>
                obtain ⟨rfl, -⟩ := List.cons.inj behind
                exact ne_of_kind (others e List.mem_cons_self) rfl
          rw [behind] at ih
          rw [List.cons_append, behind, readDigits, if_pos first, if_neg solid, ih]

/-! ## Numbers -/

section Numbers

variable {c : Char} {rest : List Char}

theorem readSign_of_isDigit (digit : c.isDigit = true) : readSign (c :: rest) = ([], c :: rest) := by
  unfold readSign
  split
  next same => exact absurd (List.cons.inj same).1 (ne_of_kind digit rfl)
  next same => exact absurd (List.cons.inj same).1 (ne_of_kind digit rfl)
  next => rfl

theorem after?_of_isDigit (digit : c.isDigit = true) {p : Char} {ps : List Char}
    (other : p.isDigit = false) : after? (p :: ps) (c :: rest) = none := by
  rw [after?, if_neg (ne_of_kind digit other).symm]

variable (n : Nat) (rest : List Char)

/-- The digits of a count up to the end of the line, and the text from there on. -/
def countLine : List Char := Nat.toDigits 10 n ++ '\n' :: rest

theorem exists_countLine_eq : ∃ d ds, d.isDigit = true ∧ (d = '0' → ds = []) ∧
    Nat.toDigits 10 n = d :: ds ∧ countLine n rest = d :: (ds ++ '\n' :: rest) := by
  cases found : Nat.toDigits 10 n with
  | nil => exact absurd found Nat.toDigits_ne_nil
  | cons d ds =>
      refine ⟨d, ds, isDigit_toDigits n d (found ▸ List.mem_cons_self), ?_, rfl, ?_⟩
      · rintro rfl
        exact eq_nil_of_toDigits_eq_zero_cons found
      · rw [countLine, found, List.cons_append]

theorem after?_countLine {p : Char} (ps : List Char) (other : p.isDigit = false) :
    after? (p :: ps) (countLine n rest) = none := by
  obtain ⟨d, ds, digit, -, -, line⟩ := exists_countLine_eq n rest
  rw [line]
  exact after?_of_isDigit digit other

theorem readWhole_countLine :
    readWhole (countLine n rest) = some ([], Nat.toDigits 10 n, '\n' :: rest) := by
  have digits := readDigits_append (isDigit_toDigits n) (endsDigits_newline rest)
  obtain ⟨d, ds, digit, zero, written, line⟩ := exists_countLine_eq n rest
  rw [← countLine, line, written] at digits
  rw [line, written, readWhole, readSign_of_isDigit digit]
  dsimp only
  split
  next same =>
    obtain ⟨rfl, behind⟩ := List.cons.inj same
    obtain rfl := zero rfl
    rw [← behind, List.nil_append]
  next => rw [digits]

theorem readInteger_countLine (bound : n ≤ 9223372036854775807) :
    readInteger (countLine n rest) = some (integer n, '\n' :: rest) := by
  have whole := readWhole_countLine n rest
  have fits : bounded? (n : Int) = some (integer n) := by
    rw [bounded?, if_pos (by omega)]
  obtain ⟨d, ds, digit, zero, -, line⟩ := exists_countLine_eq n rest
  -- a zero that begins the number is all of it, so no mark of another base follows
  have plain : ∀ mark text, mark ≠ '\n' → countLine n rest ≠ '0' :: mark :: text := by
    intro mark text other same
    rw [line] at same
    obtain ⟨rfl, behind⟩ := List.cons.inj same
    rw [zero rfl] at behind
    exact other (List.cons.inj behind).1.symm
  unfold readInteger
  split
  next same => exact absurd same (plain 'x' _ (by decide))
  next same => exact absurd same (plain 'o' _ (by decide))
  next same => exact absurd same (plain 'b' _ (by decide))
  next =>
    rw [whole]
    simp [digitsValue_toDigits, fits]

theorem readFloat_countLine : readFloat (countLine n rest) = none := by
  have whole := readWhole_countLine n rest
  obtain ⟨d, ds, digit, -, -, line⟩ := exists_countLine_eq n rest
  have sign : readSign (countLine n rest) = ([], countLine n rest) := by
    rw [line, readSign_of_isDigit digit]
  have infinite : after? "inf".toList (countLine n rest) = none := after?_countLine n rest _ rfl
  have noNumber : after? "nan".toList (countLine n rest) = none := after?_countLine n rest _ rfl
  simp only [readFloat, sign, infinite, noNumber, whole]
  rfl

/-! ## Dates -/

/-- Behind a fixed count of digits more digits follow, or the line ends. -/
theorem after?_of_readFixed {digits low high m : Nat} {behind : List Char}
    (read : readFixed digits low high (countLine n rest) = some (m, behind)) {mark : Char}
    (noDigit : mark.isDigit = false) (noBreak : mark ≠ '\n') : after? [mark] behind = none := by
  unfold readFixed at read
  dsimp only at read
  split at read
  next fixed =>
    obtain ⟨-, rfl⟩ := Prod.mk.inj (Option.some.inj read)
    obtain ⟨-, digital, -, -⟩ := fixed
    have short : digits ≤ (Nat.toDigits 10 n).length := by
      by_contra long
      obtain ⟨more, count⟩ := Nat.exists_eq_add_of_lt (Nat.lt_of_not_le long)
      have broken : '\n' ∈ (countLine n rest).take digits := by
        rw [countLine, count, Nat.add_assoc, List.take_length_add_append, List.take_succ_cons]
        exact List.mem_append_right _ List.mem_cons_self
      exact absurd (List.all_eq_true.mp digital _ broken) (by decide)
    rw [countLine, List.drop_append_of_le_length short]
    cases left : (Nat.toDigits 10 n).drop digits with
    | nil => rw [List.nil_append, after?, if_neg noBreak]
    | cons c cs =>
        have member : c ∈ Nat.toDigits 10 n :=
          List.mem_of_mem_drop (left ▸ List.mem_cons_self)
        exact after?_of_isDigit (isDigit_toDigits n c member) noDigit
  next => cases read

theorem readDate_countLine : readDate (countLine n rest) = none := by
  have noDay : afterDay? (countLine n rest) = none := by
    cases read : readFixed 4 0 9999 (countLine n rest) with
    | none => simp [afterDay?, read]
    | some year =>
        have stops : after? ['-'] year.2 = none := after?_of_readFixed n rest read rfl (by decide)
        simp [afterDay?, read, stops]
  have noTime : afterTime? (countLine n rest) = none := by
    cases read : readFixed 2 0 23 (countLine n rest) with
    | none => simp [afterTime?, read]
    | some hour =>
        have stops : after? [':'] hour.2 = none := after?_of_readFixed n rest read rfl (by decide)
        simp [afterTime?, read, stops]
  rw [readDate, afterDate?, noDay]
  simp [noTime]

/-! ## Values -/

theorem readScalar_countLine (bound : n ≤ 9223372036854775807) :
    readScalar (countLine n rest) = some (integer n, '\n' :: rest) := by
  obtain ⟨d, ds, digit, -, -, line⟩ := exists_countLine_eq n rest
  have noTruth : after? "true".toList (countLine n rest) = none := after?_countLine n rest _ rfl
  have noFalsehood : after? "false".toList (countLine n rest) = none :=
    after?_countLine n rest _ rfl
  have noString : readString (countLine n rest) = none := by
    rw [readString, line]
    dsimp only [List.head?_cons]
    split
    next same => exact absurd (Option.some.inj same) (ne_of_kind digit rfl)
    next same => exact absurd (Option.some.inj same) (ne_of_kind digit rfl)
    next => rfl
  rw [readScalar, noTruth, noFalsehood, noString, readDate_countLine, readFloat_countLine,
    readInteger_countLine n rest bound]
  rfl

theorem readValue_countLine (fuel depth : Nat) (bound : n ≤ 9223372036854775807) :
    readValue (fuel + 1) depth (countLine n rest) = some (integer n, '\n' :: rest) := by
  have scalar := readScalar_countLine n rest bound
  obtain ⟨d, ds, digit, -, -, line⟩ := exists_countLine_eq n rest
  rw [line] at scalar ⊢
  unfold readValue
  split
  next same => exact absurd (List.cons.inj same).1 (ne_of_kind digit rfl)
  next same => exact absurd (List.cons.inj same).1 (ne_of_kind digit rfl)
  next => exact scalar

end Numbers

end DiffScope.Toml
