/-!
# Lines

A text falls into pieces at its line feeds. Its lines are those pieces without the empty one behind
a last line feed, and a carriage return before a line feed is part of the line end.
-/

namespace DiffScope.Text

/-- Puts a character in front of the first piece, or opens a new piece at a separator. -/
def consPiece (separator c : Char) : List (List Char) → List (List Char)
  | [] => if c = separator then [[], []] else [[c]]
  | p :: ps => if c = separator then [] :: p :: ps else (c :: p) :: ps

/-- The pieces of a text between separators: one more than there are separators. -/
def split (separator : Char) (text : List Char) : List (List Char) :=
  text.foldr (consPiece separator) [[]]

/-- The pieces of a text between its line feeds. -/
def pieces (text : List Char) : List (List Char) :=
  split '\n' text

/-- A piece without one carriage return at its end. -/
def dropReturn (piece : List Char) : List Char :=
  if piece.getLast? = some '\r' then piece.dropLast else piece

/-- The lines among the pieces of a text. -/
def linesOfPieces : List (List Char) → List (List Char)
  | [] => []
  | [last] => if last.isEmpty then [] else [last]
  | p :: ps => dropReturn p :: linesOfPieces ps

/-- The lines of a text, without their ends. -/
def lines (text : List Char) : List (List Char) :=
  linesOfPieces (pieces text)

def newlines (text : List Char) : Nat :=
  text.count '\n'

/-- A text without the carriage returns at its end. -/
def trimReturns (text : List Char) : List Char :=
  (text.reverse.dropWhile (· = '\r')).reverse

/-- What stands behind a given beginning of a text. -/
def after? : List Char → List Char → Option (List Char)
  | [], rest => some rest
  | _ :: _, [] => none
  | p :: ps, c :: cs => if p = c then after? ps cs else none

theorem split_cons (separator c : Char) (cs : List Char) :
    split separator (c :: cs) = consPiece separator c (split separator cs) := rfl

theorem split_ne_nil (separator : Char) (text : List Char) : split separator text ≠ [] := by
  cases text with
  | nil => simp [split]
  | cons c cs =>
    rw [split_cons]
    cases split separator cs <;> simp only [consPiece] <;> split <;> simp

/-- There is one piece more than there are separators. -/
theorem length_split (separator : Char) (text : List Char) :
    (split separator text).length = text.count separator + 1 := by
  induction text with
  | nil => rfl
  | cons c cs ih =>
    rw [split_cons]
    cases h : split separator cs with
    | nil => exact absurd h (split_ne_nil separator cs)
    | cons p ps =>
      rw [h] at ih
      by_cases hc : c = separator <;> simp_all [consPiece]

theorem split_cons_separator (separator : Char) (cs : List Char) :
    split separator (separator :: cs) = [] :: split separator cs := by
  rw [split_cons]
  cases h : split separator cs with
  | nil => exact absurd h (split_ne_nil separator cs)
  | cons p ps => simp [consPiece]

/-- A piece ends at the first separator. -/
theorem split_append_separator (separator : Char) (piece rest : List Char)
    (h : separator ∉ piece) :
    split separator (piece ++ separator :: rest) = piece :: split separator rest := by
  induction piece with
  | nil => exact split_cons_separator separator rest
  | cons c cs ih =>
    rw [List.mem_cons, not_or] at h
    rw [List.cons_append, split_cons, ih h.2]
    simp [consPiece, Ne.symm h.1]

/-- A line ends at the first line feed. -/
theorem lines_append_newline (line rest : List Char) (h : '\n' ∉ line) :
    lines (line ++ '\n' :: rest) = dropReturn line :: lines rest := by
  rw [lines, pieces, split_append_separator '\n' line rest h, lines, pieces]
  cases hp : split '\n' rest with
  | nil => exact absurd hp (split_ne_nil '\n' rest)
  | cons p ps => rfl

/-- What is found behind a beginning is the rest of the text. -/
theorem after?_eq_some_iff {start text rest : List Char} :
    after? start text = some rest ↔ text = start ++ rest := by
  induction start generalizing text with
  | nil => simp [after?, eq_comm]
  | cons p ps ih =>
    cases text with
    | nil => simp [after?]
    | cons c cs =>
      by_cases h : p = c
      · subst h; simp [after?, ih]
      · simp [after?, h, Ne.symm h]

end DiffScope.Text
