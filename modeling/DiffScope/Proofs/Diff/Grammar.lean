import DiffScope.Proofs.Diff.Header

/-! # Headers are read by their grammar

Every line is read as the header that it begins with, or refused as a whole. To take digits of any
script for numbers of a header, and to refuse those that are no ASCII numerals within the bound, comes
to the same, as the marks of a header leave only one way to read a line.
-/

namespace DiffScope.Diff

open DiffScope.Text

namespace Header

theorem ofLine_eq_ok_iff {line : List Char} {h : Header} :
    ofLine line = .ok h ↔ h.Begins line := by
  rw [← ofLine?_eq_some_iff, ofLine]
  cases ofLine? line <;> simp

theorem ofLine_eq_error_iff {line : List Char} {e : DiffError} :
    ofLine line = .error e ↔ (¬∃ h : Header, h.Begins line) ∧ e = .invalidHeader (.ofList line) := by
  simp only [← ofLine?_eq_some_iff, ofLine]
  cases ofLine? line <;> simp [eq_comm]

/-! ## Digits of other scripts -/

/-- Characters that count as digits: the ASCII digits and others, but none that ends a run of
digits in a header. -/
structure DigitClass where
  holds : Char → Bool
  ascii : ∀ c, c.isDigit = true → holds c = true
  blank : holds ' ' = false
  comma : holds ',' = false

namespace DigitClass

variable {k : DigitClass}

def IsRun (k : DigitClass) (run : List Char) : Prop := run ≠ [] ∧ ∀ c ∈ run, k.holds c = true

/-- The line begins with a header in which the runs stand, whatever they may stand for. -/
structure Matches (k : DigitClass) (line : List Char) (r : Runs) : Prop where
  oldStart : k.IsRun r.oldStart
  oldLen : ∀ run ∈ r.oldLen, k.IsRun run
  newStart : k.IsRun r.newStart
  newLen : ∀ run ∈ r.newLen, k.IsRun run
  text : r.text <+: line

theorem isRun_of_numeral {digits : List Char} {n : Nat} (numeral : Numeral digits n) :
    k.IsRun digits :=
  ⟨numeral.filled, fun c member => k.ascii c (numeral.digit c member)⟩

theorem isRun_of_isLength {length : Option (List Char)} {n : Nat} (stands : IsLength length n) :
    ∀ run ∈ length, k.IsRun run := by
  rintro run rfl
  exact isRun_of_numeral stands

theorem matches_of_standFor {line : List Char} {r : Runs} {h : Header} (stand : r.StandFor h)
    (text : r.text <+: line) : k.Matches line r where
  oldStart := isRun_of_numeral stand.oldStart
  oldLen := isRun_of_isLength stand.oldLen
  newStart := isRun_of_numeral stand.newStart
  newLen := isRun_of_isLength stand.newLen
  text := text

theorem start_unique {run run' : List Char} {length length' : Option (List Char)}
    {rest rest' : List Char} (isRun : k.IsRun run) (isRun' : k.IsRun run')
    (same : run ++ (lengthText length ++ ' ' :: rest) =
      run' ++ (lengthText length' ++ ' ' :: rest')) :
    run = run' ∧ lengthText length ++ ' ' :: rest = lengthText length' ++ ' ' :: rest' :=
  eq_of_run_append_eq isRun.2 (head?_lengthText_append k.comma k.blank _ _) isRun'.2
    (head?_lengthText_append k.comma k.blank _ _) same

theorem length_unique {length length' : Option (List Char)} {rest rest' : List Char}
    (isRun : ∀ run ∈ length, k.IsRun run) (isRun' : ∀ run ∈ length', k.IsRun run)
    (same : lengthText length ++ ' ' :: rest = lengthText length' ++ ' ' :: rest') :
    length = length' ∧ rest = rest' := by
  cases length with
  | none =>
      cases length' with
      | none => exact ⟨rfl, (List.cons.inj same).2⟩
      | some run' => cases (List.cons.inj same).1
  | some run =>
      cases length' with
      | none => cases (List.cons.inj same).1
      | some run' =>
          obtain ⟨rfl, behind⟩ := @start_unique k _ _ none none _ _ (isRun run rfl) (isRun' run' rfl)
            (List.cons.inj same).2
          exact ⟨rfl, (List.cons.inj behind).2⟩

/-- A line has at most one reading. -/
theorem Matches.unique {line : List Char} {r r' : Runs} (m : k.Matches line r)
    (m' : k.Matches line r') : r = r' := by
  obtain ⟨rest, rfl⟩ := m.text
  obtain ⟨rest', same⟩ := m'.text
  simp only [Runs.text, List.append_assoc] at same
  have behind := List.append_cancel_left same
  obtain ⟨oldStart, behind⟩ := start_unique m'.oldStart m.oldStart behind
  obtain ⟨oldLen, behind⟩ := length_unique m'.oldLen m.oldLen behind
  obtain ⟨newStart, behind⟩ := start_unique m'.newStart m.newStart (List.cons.inj behind).2
  obtain ⟨newLen, -⟩ := length_unique m'.newLen m.newLen behind
  cases r
  cases r'
  simp_all

end DigitClass

/-- A line is read as the header that it begins with, and refused with its own text if it begins with
none. If it has the marks of a header around runs of digits of whatever script, these are the only
ones, and they alone decide: the line is read exactly if they are ASCII numerals within the bound. So
any header that is written is read back, whatever follows it. -/
theorem headers_are_read_by_their_grammar :
    (∀ line : List Char,
      (∀ h : Header, ofLine line = .ok h ↔ h.Begins line) ∧
      (∀ e, ofLine line = .error e ↔
        (¬∃ h : Header, h.Begins line) ∧ e = .invalidHeader (.ofList line)) ∧
      ∀ (k : DigitClass) (r : Runs), k.Matches line r →
        (∀ r', k.Matches line r' → r' = r) ∧ ∀ h : Header, ofLine line = .ok h ↔ r.StandFor h) ∧
    ∀ (oldStart oldLen newStart newLen : Fin countBound) (rest : List Char),
      let h : Header := ⟨oldStart, oldLen, newStart, newLen⟩
      ofLine (h.line ++ rest) = .ok h := by
  constructor
  · intro line
    refine ⟨fun h => ofLine_eq_ok_iff, fun e => ofLine_eq_error_iff, fun k r found => ?_⟩
    refine ⟨fun r' other => other.unique found, fun h => ?_⟩
    rw [ofLine_eq_ok_iff]
    constructor
    · rintro ⟨r', stand, text⟩
      obtain rfl := (DigitClass.matches_of_standFor stand text).unique found
      exact stand
    · exact fun stand => ⟨r, stand, found.text⟩
  · intro oldStart oldLen newStart newLen rest
    refine ofLine_eq_ok_iff.mpr (begins_line_append ?_ rest)
    exact ⟨oldStart.isLt, oldLen.isLt, newStart.isLt, newLen.isLt⟩

/-- Digits as they are written in Europe and in Egypt. -/
def mixedDigits : DigitClass where
  holds c := c.isDigit || ('\u0660' ≤ c && c ≤ '\u0669')
  ascii c digit := by simp [digit]
  blank := by decide
  comma := by decide

/-- A header whose old start ends with an Arabic three. -/
def mixedLine : List Char := "@@ -1\u0663 +7,2 @@ main".toList

theorem mixedLine_is_refused :
    mixedDigits.Matches mixedLine ⟨['1', '\u0663'], none, ['7'], some ['2']⟩ ∧
    ofLine mixedLine = .error (.invalidHeader "@@ -1\u0663 +7,2 @@ main") := by
  have found : mixedDigits.Matches mixedLine ⟨['1', '\u0663'], none, ['7'], some ['2']⟩ := by
    refine ⟨⟨nofun, by simp [mixedDigits]⟩, nofun, ⟨nofun, by simp [mixedDigits]⟩, ?_,
      " main".toList, rfl⟩
    intro run length
    obtain rfl := Option.some.inj length
    exact ⟨nofun, by simp [mixedDigits]⟩
  refine ⟨found, ?_⟩
  obtain ⟨ok, error, decided⟩ := headers_are_read_by_their_grammar.1 mixedLine
  refine (error _).mpr ⟨?_, rfl⟩
  rintro ⟨h, begins⟩
  -- The runs are told by the line, and the three is no ASCII digit.
  have stand := ((decided mixedDigits _ found).2 h).mp ((ok h).mpr begins)
  cases stand.oldStart.digit '\u0663' (by decide)

example : ofLine "@@ -007 +3,0 @@ main".toList = .ok ⟨7, 1, 3, 0⟩ := rfl

end Header

end DiffScope.Diff
