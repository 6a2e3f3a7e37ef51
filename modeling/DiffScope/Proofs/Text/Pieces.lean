import Mathlib.Data.List.Induction
import Mathlib.Data.List.TakeWhile
import DiffScope.Text.Lines

/-! # Pieces of joined texts

Where two texts meet, the last piece of the one and the first piece of the other are one piece, and
all other pieces stay. So the pieces of a stretch of a text are those of the text, but for what its
first and its last piece lose at the ends of the stretch.
-/

namespace DiffScope.Text

/-- The text before the first line feed. -/
def firstPiece (text : List Char) : List Char := text.takeWhile (· ≠ '\n')

/-- The text behind the last line feed. -/
def lastPiece (text : List Char) : List Char := (text.reverse.takeWhile (· ≠ '\n')).reverse

theorem newlines_append (a b : List Char) : newlines (a ++ b) = newlines a + newlines b :=
  List.count_append

theorem newlines_eq_zero_iff {text : List Char} : newlines text = 0 ↔ '\n' ∉ text :=
  List.count_eq_zero

theorem length_pieces (text : List Char) : (pieces text).length = newlines text + 1 :=
  length_split '\n' text

theorem firstPiece_newline (text : List Char) : firstPiece ('\n' :: text) = [] := by
  simp [firstPiece]

theorem firstPiece_cons {c : Char} (other : c ≠ '\n') (text : List Char) :
    firstPiece (c :: text) = c :: firstPiece text := by
  simp [firstPiece, other]

theorem lastPiece_newline (text : List Char) : lastPiece (text ++ ['\n']) = [] := by
  simp [lastPiece]

theorem lastPiece_concat {c : Char} (other : c ≠ '\n') (text : List Char) :
    lastPiece (text ++ [c]) = lastPiece text ++ [c] := by
  simp [lastPiece, other]

theorem firstPiece_of_unbroken {text : List Char} (unbroken : '\n' ∉ text) :
    firstPiece text = text := by
  refine List.takeWhile_eq_self_iff.mpr fun c member => ?_
  have other : c ≠ '\n' := fun same => unbroken (same ▸ member)
  exact decide_eq_true other

theorem lastPiece_of_unbroken {text : List Char} (unbroken : '\n' ∉ text) :
    lastPiece text = text := by
  have mirrored : '\n' ∉ text.reverse := by rwa [List.mem_reverse]
  have whole := firstPiece_of_unbroken mirrored
  rw [lastPiece, ← firstPiece, whole, List.reverse_reverse]

theorem unbroken_firstPiece (text : List Char) : '\n' ∉ firstPiece text := by
  intro member
  have passed := List.mem_takeWhile_imp (p := fun c => decide (c ≠ '\n')) member
  exact of_decide_eq_true passed rfl

theorem unbroken_lastPiece (text : List Char) : '\n' ∉ lastPiece text := by
  intro member
  exact unbroken_firstPiece text.reverse (List.mem_reverse.mp member)

theorem lastPiece_append (a b : List Char) :
    lastPiece (a ++ b) = (if newlines b = 0 then lastPiece a else []) ++ lastPiece b := by
  induction b using List.reverseRecOn with
  | nil => simp [lastPiece, newlines]
  | append_singleton b c ih =>
      rw [← List.append_assoc]
      by_cases newline : c = '\n'
      · subst newline
        rw [lastPiece_newline, lastPiece_newline]
        simp [newlines]
      · have same : newlines (b ++ [c]) = newlines b := by simp [newlines, newline]
        rw [lastPiece_concat newline, lastPiece_concat newline, ih, same, List.append_assoc]

theorem pieces_newline (text : List Char) : pieces ('\n' :: text) = [] :: pieces text :=
  split_cons_separator '\n' text

/-- The first piece of a text, and the others. -/
theorem pieces_eq_cons (text : List Char) : pieces text = firstPiece text :: (pieces text).tail := by
  induction text with
  | nil => rfl
  | cons c cs ih =>
      by_cases newline : c = '\n'
      · subst newline
        rw [pieces_newline, firstPiece_newline, List.tail_cons]
      · rw [firstPiece_cons newline, pieces, split_cons, ← pieces, ih, consPiece,
          if_neg newline, List.tail_cons]

theorem tail_pieces_cons {c : Char} (other : c ≠ '\n') (text : List Char) :
    (pieces (c :: text)).tail = (pieces text).tail := by
  rw [pieces, split_cons, ← pieces, pieces_eq_cons text, consPiece, if_neg other, List.tail_cons,
    List.tail_cons]

/-- Where two texts meet, two pieces become one. -/
theorem pieces_append (a b : List Char) : pieces (a ++ b) =
    (pieces a).dropLast ++ (lastPiece a ++ firstPiece b) :: (pieces b).tail := by
  induction a using List.reverseRecOn generalizing b with
  | nil => exact pieces_eq_cons b
  | append_singleton a c ih =>
      by_cases newline : c = '\n'
      · subst newline
        have alone := ih ['\n']
        rw [firstPiece_newline, List.append_nil] at alone
        rw [List.append_assoc, List.singleton_append, ih, alone, firstPiece_newline,
          lastPiece_newline, pieces_newline, pieces_newline, List.tail_cons, List.tail_cons,
          pieces_eq_cons b]
        simp [pieces, split]
      · have alone := ih [c]
        rw [firstPiece_cons newline, tail_pieces_cons newline] at alone
        rw [List.append_assoc, List.singleton_append, ih, alone, firstPiece_cons newline,
          lastPiece_concat newline, tail_pieces_cons newline]
        simp [pieces, split, firstPiece]

theorem pieces_eq_concat (text : List Char) :
    pieces text = (pieces text).dropLast ++ [lastPiece text] := by
  have alone := pieces_append text []
  simpa [pieces, split, firstPiece] using alone

theorem length_dropLast_pieces (text : List Char) :
    (pieces text).dropLast.length = newlines text := by
  rw [List.length_dropLast, length_pieces, Nat.add_sub_cancel]

theorem dropLast_pieces_of_unbroken {text : List Char} (unbroken : '\n' ∉ text) :
    (pieces text).dropLast = [] := by
  rw [← List.length_eq_zero_iff, length_dropLast_pieces, newlines_eq_zero_iff.mpr unbroken]

/-- The pieces from the place on where two texts meet are those of the later text, but for what
stands before it in its first line. -/
theorem getElem?_pieces_behind (a b : List Char) (k : Nat) :
    (pieces (a ++ b))[newlines a + k]? =
      (pieces b)[k]?.map ((if k = 0 then lastPiece a else []) ++ ·) := by
  rw [pieces_append, List.getElem?_append_right (by rw [length_dropLast_pieces]; omega),
    length_dropLast_pieces, Nat.add_sub_cancel_left]
  cases k with
  | zero =>
      rw [pieces_eq_cons b]
      rfl
  | succ k =>
      rw [pieces_eq_cons b]
      simp

/-- The pieces up to the place where two texts meet are those of the earlier text, but for what
stands behind it in its last line. -/
theorem getElem?_pieces_before {a : List Char} (b : List Char) {k : Nat} (early : k ≤ newlines a) :
    (pieces (a ++ b))[k]? =
      (pieces a)[k]?.map (· ++ if k = newlines a then firstPiece b else []) := by
  have length := length_dropLast_pieces a
  rw [pieces_append, pieces_eq_concat a, List.dropLast_concat]
  rcases Nat.eq_or_lt_of_le early with rfl | earlier
  · simp [length]
  · have other : k ≠ newlines a := Nat.ne_of_lt earlier
    have inside : k < (pieces a).dropLast.length := by omega
    rw [if_neg other, List.getElem?_append_left inside, List.getElem?_append_left inside]
    simp

/-- A piece of a stretch of a text is one of the text, but for what stands before the stretch in its
first line and behind the stretch in its last. -/
theorem getElem?_pieces_between (a b : List Char) {m : List Char} {k : Nat}
    (inside : k ≤ newlines m) {l : List Char} (piece : (pieces m)[k]? = some l) :
    (pieces (a ++ (m ++ b)))[newlines a + k]? = some ((if k = 0 then lastPiece a else []) ++
      (l ++ if k = newlines m then firstPiece b else [])) := by
  rw [getElem?_pieces_behind, getElem?_pieces_before b inside, piece]
  rfl

/-! ## Joining pieces -/

theorem unbroken_of_mem_pieces {text piece : List Char} (member : piece ∈ pieces text) :
    '\n' ∉ piece := by
  induction text generalizing piece with
  | nil =>
      obtain rfl := List.mem_singleton.mp member
      exact List.not_mem_nil
  | cons c cs ih =>
      by_cases newline : c = '\n'
      · subst newline
        rw [pieces_newline] at member
        rcases List.mem_cons.mp member with rfl | member
        · exact List.not_mem_nil
        · exact ih member
      · rw [pieces_eq_cons, tail_pieces_cons newline] at member
        rcases List.mem_cons.mp member with rfl | member
        · exact unbroken_firstPiece _
        · exact ih (List.mem_of_mem_tail member)

/-- Lines that are joined by line feeds are the pieces of what they make. -/
theorem pieces_intercalate {lines : List (List Char)} (some : lines ≠ [])
    (unbroken : ∀ l ∈ lines, '\n' ∉ l) : pieces (['\n'].intercalate lines) = lines := by
  induction lines with
  | nil => exact absurd rfl some
  | cons l ls ih =>
      obtain ⟨first, rest⟩ := List.forall_mem_cons.mp unbroken
      cases ls with
      | nil =>
          rw [List.intercalate_singleton, pieces_eq_concat, dropLast_pieces_of_unbroken first,
            lastPiece_of_unbroken first, List.nil_append]
      | cons l' ls =>
          rw [List.intercalate_cons_cons, List.append_assoc, List.singleton_append, pieces,
            split_append_separator '\n' l _ first, ← pieces, ih (List.cons_ne_nil l' ls) rest]

/-- Between its line feeds there is nothing but the text. -/
theorem flatten_pieces_sublist (text : List Char) : (pieces text).flatten.Sublist text := by
  induction text with
  | nil => exact List.Sublist.refl []
  | cons c cs ih =>
      by_cases newline : c = '\n'
      · subst newline
        rw [pieces_newline]
        exact ih.cons '\n'
      · rw [pieces_eq_cons] at ih
        rw [pieces_eq_cons, firstPiece_cons newline, tail_pieces_cons newline]
        exact ih.cons_cons c

/-! ## Lines of joined texts -/

/-- A line feed between two texts keeps their pieces apart. -/
theorem pieces_append_newline (a b : List Char) :
    pieces (a ++ '\n' :: b) = pieces a ++ pieces b := by
  rw [pieces_append, firstPiece_newline, List.append_nil, pieces_newline, List.tail_cons,
    pieces_eq_concat a, List.dropLast_concat, List.append_assoc, List.singleton_append]

theorem linesOfPieces_append (ps : List (List Char)) {qs : List (List Char)} (some : qs ≠ []) :
    linesOfPieces (ps ++ qs) = ps.map dropReturn ++ linesOfPieces qs := by
  induction ps with
  | nil => rfl
  | cons p ps ih =>
      rw [List.cons_append, List.map_cons, List.cons_append, ← ih]
      cases rest : ps ++ qs with
      | nil => exact absurd (List.append_eq_nil_iff.mp rest).2 some
      | cons q rest => rfl

/-- The text has no last line that goes on. -/
def IsEnded (text : List Char) : Prop := text = [] ∨ text.getLast? = some '\n'

/-- Behind a text that is ended the lines of another begin. -/
theorem lines_append {a : List Char} (ended : IsEnded a) (b : List Char) :
    lines (a ++ b) = lines a ++ lines b := by
  rcases ended with rfl | last
  · rfl
  · obtain ⟨front, rfl⟩ := List.getLast?_eq_some_iff.mp last
    have opened (rest : List Char) :
        lines (front ++ '\n' :: rest) = (pieces front).map dropReturn ++ lines rest := by
      rw [lines, pieces_append_newline]
      exact linesOfPieces_append _ (split_ne_nil '\n' rest)
    have alone : lines (front ++ ['\n']) = (pieces front).map dropReturn := by
      rw [opened []]
      exact List.append_nil _
    rw [List.append_assoc, List.singleton_append, opened, alone]

end DiffScope.Text
