import DiffScope.Diff.Header
import DiffScope.Proofs.Text.Decimal

/-! # What a header looks like

A line is read as a header exactly if it begins with the marks of a header around ASCII numerals that
are within the bound. So a header that is written with both lengths is read back.
-/

namespace DiffScope.Diff

open DiffScope.Text

namespace Header

/-- What stands in the places of the numbers of a header. A length may be left out. -/
structure Runs where
  oldStart : List Char
  oldLen : Option (List Char)
  newStart : List Char
  newLen : Option (List Char)

/-- A length as it stands behind a start. -/
def lengthText : Option (List Char) → List Char
  | none => []
  | some run => ',' :: run

/-- A header in which these runs stand. -/
def Runs.text (r : Runs) : List Char :=
  "@@ -".toList ++ (r.oldStart ++ (lengthText r.oldLen ++
    (" +".toList ++ (r.newStart ++ (lengthText r.newLen ++ " @@".toList)))))

/-- A length that is left out is one line. -/
def IsLength : Option (List Char) → Nat → Prop
  | none, n => n = 1
  | some run, n => Numeral run n

/-- The runs are the numerals of a header's numbers. -/
structure Runs.StandFor (r : Runs) (h : Header) : Prop where
  oldStart : Numeral r.oldStart h.oldStart
  oldLen : IsLength r.oldLen h.oldLen
  newStart : Numeral r.newStart h.newStart
  newLen : IsLength r.newLen h.newLen

/-- The line begins with the header; anything may follow. -/
def Begins (h : Header) (line : List Char) : Prop :=
  ∃ r : Runs, r.StandFor h ∧ r.text <+: line

/-! ## Reading a header -/

/-- No digit goes on behind a start. -/
theorem head?_lengthText_append {p : Char → Bool} (comma : p ',' = false) (blank : p ' ' = false)
    (length : Option (List Char)) (rest : List Char) :
    ∀ c ∈ (lengthText length ++ ' ' :: rest).head?, p c = false := by
  intro c first
  cases length with
  | none =>
      obtain rfl := Option.some.inj first
      exact blank
  | some run =>
      obtain rfl := Option.some.inj first
      exact comma

theorem length?_append {length : Option (List Char)} {n : Nat} (stands : IsLength length n)
    (rest : List Char) : length? (lengthText length ++ ' ' :: rest) = some (n, ' ' :: rest) := by
  cases length with
  | none =>
      obtain rfl : n = 1 := stands
      rfl
  | some run =>
      refine leadingCount?_append stands fun c first => ?_
      obtain rfl := Option.some.inj first
      rfl

theorem exists_isLength_of_length? {text rest : List Char} {n : Nat}
    (read : length? text = some (n, rest)) :
    ∃ length, IsLength length n ∧ text = lengthText length ++ rest := by
  unfold length? at read
  split at read
  next text =>
    obtain ⟨digits, numeral, rfl⟩ := exists_numeral_of_leadingCount? read
    exact ⟨some digits, numeral, rfl⟩
  next =>
    obtain ⟨rfl, rfl⟩ := Prod.mk.inj (Option.some.inj read)
    exact ⟨none, rfl, rfl⟩

theorem begins_of_ofLine? {line : List Char} {h : Header} (read : ofLine? line = some h) :
    h.Begins line := by
  unfold ofLine? at read
  obtain ⟨line₁, opens, read⟩ := Option.bind_eq_some_iff.mp read
  obtain ⟨⟨oldStart, line₂⟩, first, read⟩ := Option.bind_eq_some_iff.mp read
  obtain ⟨⟨oldLen, line₃⟩, second, read⟩ := Option.bind_eq_some_iff.mp read
  obtain ⟨line₄, parts, read⟩ := Option.bind_eq_some_iff.mp read
  obtain ⟨⟨newStart, line₅⟩, third, read⟩ := Option.bind_eq_some_iff.mp read
  obtain ⟨⟨newLen, line₆⟩, fourth, read⟩ := Option.bind_eq_some_iff.mp read
  obtain ⟨rest, closes, read⟩ := Option.bind_eq_some_iff.mp read
  obtain rfl := Option.some.inj read
  obtain rfl := after?_eq_some_iff.mp opens
  obtain ⟨a, isOldStart, rfl⟩ := exists_numeral_of_leadingCount? first
  obtain ⟨b, isOldLen, rfl⟩ := exists_isLength_of_length? second
  obtain rfl := after?_eq_some_iff.mp parts
  obtain ⟨c, isNewStart, rfl⟩ := exists_numeral_of_leadingCount? third
  obtain ⟨d, isNewLen, rfl⟩ := exists_isLength_of_length? fourth
  obtain rfl := after?_eq_some_iff.mp closes
  refine ⟨⟨a, b, c, d⟩, ⟨isOldStart, isOldLen, isNewStart, isNewLen⟩, rest, ?_⟩
  simp only [Runs.text, List.append_assoc]

theorem ofLine?_of_begins {line : List Char} {h : Header} (begins : h.Begins line) :
    ofLine? line = some h := by
  obtain ⟨r, ⟨oldStart, oldLen, newStart, newLen⟩, rest, rfl⟩ := begins
  have start (text rest : List Char) : after? text (text ++ rest) = some rest :=
    after?_eq_some_iff.mpr rfl
  have ends (length : Option (List Char)) (rest : List Char) :=
    head?_lengthText_append (p := Char.isDigit) rfl rfl length rest
  have plus (rest : List Char) : " +".toList ++ rest = ' ' :: ("+".toList ++ rest) := rfl
  have ats (rest : List Char) : " @@".toList ++ rest = ' ' :: ("@@".toList ++ rest) := rfl
  have text : r.text ++ rest = "@@ -".toList ++ (r.oldStart ++ (lengthText r.oldLen ++
      (" +".toList ++ (r.newStart ++ (lengthText r.newLen ++ (" @@".toList ++ rest)))))) := by
    simp only [Runs.text, List.append_assoc]
  have first := leadingCount?_append oldStart (ends r.oldLen ("+".toList ++ (r.newStart ++
    (lengthText r.newLen ++ (" @@".toList ++ rest)))))
  have second := length?_append oldLen ("+".toList ++ (r.newStart ++
    (lengthText r.newLen ++ (" @@".toList ++ rest))))
  have third := leadingCount?_append newStart (ends r.newLen ("@@".toList ++ rest))
  have fourth := length?_append newLen ("@@".toList ++ rest)
  rw [← plus] at first second
  rw [← ats] at third fourth
  simp only [ofLine?, text, start, first, second, third, fourth, bind, Option.bind_some, pure]

theorem ofLine?_eq_some_iff {line : List Char} {h : Header} :
    ofLine? line = some h ↔ h.Begins line :=
  ⟨begins_of_ofLine?, ofLine?_of_begins⟩

/-! ## Written headers -/

/-- Every number of a header stays below the bound. -/
structure Bounded (h : Header) : Prop where
  oldStart : h.oldStart < countBound
  oldLen : h.oldLen < countBound
  newStart : h.newStart < countBound
  newLen : h.newLen < countBound

/-- The line that a header is written as. -/
def line (h : Header) : List Char :=
  "@@ -".toList ++ (Nat.toDigits 10 h.oldStart ++ (',' :: Nat.toDigits 10 h.oldLen ++
    (" +".toList ++ (Nat.toDigits 10 h.newStart ++ (',' :: Nat.toDigits 10 h.newLen ++
      " @@".toList)))))

theorem begins_line_append {h : Header} (bounded : h.Bounded) (rest : List Char) :
    h.Begins (h.line ++ rest) :=
  ⟨⟨_, some _, _, some _⟩,
    ⟨numeral_toDigits bounded.oldStart, numeral_toDigits bounded.oldLen,
      numeral_toDigits bounded.newStart, numeral_toDigits bounded.newLen⟩,
    List.prefix_append h.line rest⟩

theorem ofLine?_line {h : Header} (bounded : h.Bounded) : ofLine? h.line = some h := by
  have begins := begins_line_append bounded []
  rw [List.append_nil] at begins
  exact ofLine?_of_begins begins

theorem opensHunk_line (h : Header) : opensHunk h.line = true := rfl

end Header

end DiffScope.Diff
