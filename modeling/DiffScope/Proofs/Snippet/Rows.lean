import DiffScope.Proofs.Snippet.Windows
import DiffScope.Proofs.Text.Decimal
import DiffScope.Proofs.Text.Pieces

/-! # Rows of numbered lines

A unit that is shown in windows is a text of rows: lines with their numbers in the file, and marks
where lines are left out. Each row can be read in one way only.
-/

namespace DiffScope.Snippet

open DiffScope.Checked DiffScope.Text

/-- A line with its number in the file. -/
structure NumberedLine where
  isAdded : Bool
  label : Nat
  body : List Char

/-- A row of a text in windows. -/
inductive Row where
  /-- Lines are left out here. -/
  | gap
  | line (l : NumberedLine)

def Row.isGap : Row → Bool
  | gap => true
  | line _ => false

def Row.text : Row → List Char
  | gap => gapMark
  | line l => numbered l.isAdded l.label l.body

/-- The rows of lines: a gap stands between lines that are not next to one another in the file. -/
def spaced : List NumberedLine → List Row
  | [] => []
  | [l] => [.line l]
  | l :: m :: rest =>
    if m.label = l.label + 1 then .line l :: spaced (m :: rest)
    else .line l :: .gap :: spaced (m :: rest)

/-! ## Reading rows -/

/-- A row without its first character and the blanks behind that. -/
def stem (row : List Char) : List Char := row.tail.dropWhile (· = ' ')

theorem stem_numbered (isAdded : Bool) (label : Nat) (body : List Char) :
    stem (numbered isAdded label body) = Nat.toDigits 10 label ++ (" | ".toList ++ body) := by
  have digits : Nat.toDigits 10 label ≠ [] := Nat.toDigits_ne_nil
  cases found : Nat.toDigits 10 label with
  | nil => exact absurd found digits
  | cons d ds =>
      have isDigit : d.isDigit = true := isDigit_toDigits label d (found ▸ List.mem_cons_self)
      have other : d ≠ ' ' := fun same => by
        rw [same] at isDigit
        cases isDigit
      simp [stem, numbered, alignRight, found, other]

/-- The digits of a row's number end where the mark behind them begins. -/
theorem span_stem_numbered (isAdded : Bool) (label : Nat) (body : List Char) :
    (stem (numbered isAdded label body)).takeWhile Char.isDigit = Nat.toDigits 10 label ∧
      (stem (numbered isAdded label body)).dropWhile Char.isDigit = " | ".toList ++ body := by
  rw [stem_numbered]
  exact span_toDigits label (by simp)

theorem numbered_injective {l m : NumberedLine}
    (h : numbered l.isAdded l.label l.body = numbered m.isAdded m.label m.body) : l = m := by
  have marks := congrArg List.head? h
  have labels := congrArg (fun row => digitsValue ((stem row).takeWhile Char.isDigit)) h
  have bodies := congrArg (fun row => (stem row).dropWhile Char.isDigit) h
  simp only [(span_stem_numbered _ _ _).1, digitsValue_toDigits] at labels
  simp only [(span_stem_numbered _ _ _).2, List.append_cancel_left_eq] at bodies
  have added : l.isAdded = m.isAdded := by
    cases left : l.isAdded <;> cases right : m.isAdded <;> simp [numbered, left, right] at marks ⊢
  cases l
  cases m
  simp_all

theorem gapMark_ne_numbered (isAdded : Bool) (label : Nat) (body : List Char) :
    gapMark ≠ numbered isAdded label body := by
  intro same
  have digits := (span_stem_numbered isAdded label body).1
  rw [← same] at digits
  exact Nat.toDigits_ne_nil digits.symm

/-- A row is read in one way only. -/
theorem Row.text_injective : Function.Injective Row.text := by
  intro a b same
  cases a with
  | gap =>
      cases b with
      | gap => rfl
      | line m => exact absurd same (gapMark_ne_numbered _ _ _)
  | line l =>
      cases b with
      | gap => exact absurd same.symm (gapMark_ne_numbered _ _ _)
      | line m => exact congrArg Row.line (numbered_injective same)

theorem Row.unbroken_text {row : Row} (body : ∀ l, row = .line l → '\n' ∉ l.body) :
    '\n' ∉ row.text := by
  cases row with
  | gap => decide
  | line l =>
      have digits : '\n' ∉ Nat.toDigits 10 l.label := fun member => by
        cases isDigit_toDigits l.label _ member
      have rest := body l rfl
      cases added : l.isAdded <;> simp [text, numbered, alignRight, digits, rest, added]

/-! ## Gaps -/

/-- The rows of windows: the lines of each, and a gap between any two. -/
def windowRows (f : Nat → NumberedLine) (ws : List Window) : List Row :=
  [Row.gap].intercalate (ws.map fun w => w.lines.map (.line ∘ f))

section Gaps

variable {f : Nat → NumberedLine} {shift : Nat}

theorem windowRows_cons (w v : Window) (vs : List Window) :
    windowRows f (w :: v :: vs) = w.lines.map (.line ∘ f) ++ .gap :: windowRows f (v :: vs) := by
  simp [windowRows, List.intercalate_cons_cons]

theorem windowRows_singleton (w : Window) : windowRows f [w] = w.lines.map (.line ∘ f) :=
  List.intercalate_singleton

/-- Lines that follow one another have no gaps. -/
theorem spaced_range' (labels : ∀ n, (f n).label = n + shift) (first count : Nat) :
    spaced ((List.range' first count).map f) = (List.range' first count).map (.line ∘ f) := by
  induction count generalizing first with
  | zero => rfl
  | succ count ih =>
      cases count with
      | zero => rfl
      | succ count =>
          have rest := ih (first + 1)
          have next : (f (first + 1)).label = (f first).label + 1 := by
            rw [labels, labels, Nat.add_right_comm]
          rw [List.range'_succ, List.map_cons] at rest
          rw [List.range'_succ, List.map_cons, List.range'_succ, List.map_cons, spaced,
            if_pos next, rest]
          rfl

/-- A gap stands behind lines that follow one another, before a line that does not. -/
theorem spaced_range'_append (labels : ∀ n, (f n).label = n + shift) {m : NumberedLine}
    {rest : List NumberedLine} (first count : Nat)
    (apart : m.label ≠ (f (first + count)).label + 1) :
    spaced ((List.range' first (count + 1)).map f ++ m :: rest) =
      (List.range' first (count + 1)).map (.line ∘ f) ++ .gap :: spaced (m :: rest) := by
  induction count generalizing first with
  | zero =>
      change spaced (f first :: m :: rest) = _
      exact if_neg apart
  | succ count ih =>
      have later := ih (first + 1) (by rwa [Nat.add_assoc, Nat.add_comm 1])
      have next : (f (first + 1)).label = (f first).label + 1 := by
        rw [labels, labels, Nat.add_right_comm]
      rw [List.range'_succ, List.map_cons, List.cons_append] at later
      rw [List.range'_succ, List.map_cons, List.range'_succ, List.map_cons, List.cons_append,
        List.cons_append, spaced, if_pos next, later]
      rfl

/-- The windows hold lines, and none of them ends right before a later one starts. -/
structure Separate (ws : List Window) : Prop where
  filled : ∀ w ∈ ws, w.first ≤ w.last
  apart : ws.Pairwise fun v w => v.last + 1 < w.first

theorem lines_of_filled {w : Window} (filled : w.first ≤ w.last) :
    w.lines = List.range' w.first (w.last - w.first + 1) := by
  rw [Window.lines, Nat.sub_add_comm filled]

theorem spaced_windows (labels : ∀ n, (f n).label = n + shift) {ws : List Window}
    (separate : Separate ws) :
    spaced ((ws.flatMap Window.lines).map f) = windowRows f ws := by
  induction ws with
  | nil => rfl
  | cons w ws ih =>
      obtain ⟨filled, rest⟩ := List.forall_mem_cons.mp separate.filled
      obtain ⟨before, others⟩ := List.pairwise_cons.mp separate.apart
      have later := ih ⟨rest, others⟩
      cases ws with
      | nil =>
          rw [windowRows_singleton, List.flatMap_cons, List.flatMap_nil, List.append_nil,
            Window.lines]
          exact spaced_range' labels _ _
      | cons v vs =>
          have opens := lines_of_filled (List.forall_mem_cons.mp rest).1
          rw [List.range'_succ] at opens
          have apart : (f v.first).label ≠ (f (w.first + (w.last - w.first))).label + 1 := by
            rw [labels, labels]
            have behind := before v List.mem_cons_self
            omega
          rw [windowRows_cons, ← later, lines_of_filled filled, List.flatMap_cons, List.map_append,
            List.flatMap_cons, opens, List.cons_append, List.map_cons, lines_of_filled filled]
          exact spaced_range'_append labels _ _ apart

theorem pairwise_lines {ws : List Window} (separate : Separate ws) :
    (ws.flatMap Window.lines).Pairwise (· < ·) := by
  refine List.pairwise_flatMap.mpr ⟨fun w _ => List.pairwise_lt_range', ?_⟩
  refine separate.apart.imp fun {v w} apart a inV b inW => ?_
  obtain ⟨-, below⟩ := Window.mem_lines.mp inV
  obtain ⟨above, -⟩ := Window.mem_lines.mp inW
  omega

theorem exists_of_line_mem_windowRows {ws : List Window} {l : NumberedLine}
    (member : .line l ∈ windowRows f ws) : ∃ n, l = f n := by
  induction ws with
  | nil => cases member
  | cons w ws ih =>
      cases ws with
      | nil =>
          rw [windowRows_singleton] at member
          obtain ⟨n, -, same⟩ := List.mem_map.mp member
          exact ⟨n, (Row.line.inj same).symm⟩
      | cons v vs =>
          rw [windowRows_cons] at member
          rcases List.mem_append.mp member with here | later
          · obtain ⟨n, -, same⟩ := List.mem_map.mp here
            exact ⟨n, (Row.line.inj same).symm⟩
          · cases later with
            | tail _ later => exact ih later

/-- There is one gap less than there are windows. -/
theorem countP_windowRows {ws : List Window} (some : ws ≠ []) :
    (windowRows f ws).countP Row.isGap + 1 = ws.length := by
  induction ws with
  | nil => exact absurd rfl some
  | cons w ws ih =>
      have lines : (w.lines.map (Row.line ∘ f)).countP Row.isGap = 0 := by
        simp [List.countP_eq_zero, Row.isGap]
      cases ws with
      | nil => rw [windowRows_singleton, lines, List.length_singleton]
      | cons v vs =>
          have rest := ih (List.cons_ne_nil v vs)
          rw [windowRows_cons, List.countP_append, lines, List.countP_cons_of_pos rfl, Nat.zero_add,
            rest]
          rfl

theorem windowRows_ne_nil {ws : List Window} (separate : Separate ws) (some : ws ≠ []) :
    windowRows f ws ≠ [] := by
  cases ws with
  | nil => exact absurd rfl some
  | cons w ws =>
      have filled := separate.filled w List.mem_cons_self
      have lines : w.lines.map (Row.line ∘ f) ≠ [] := by
        rw [lines_of_filled filled, List.range'_succ]
        exact List.cons_ne_nil _ _
      cases ws with
      | nil => rwa [windowRows_singleton]
      | cons v vs =>
          rw [windowRows_cons]
          exact List.append_ne_nil_of_left_ne_nil lines _

end Gaps

end DiffScope.Snippet
