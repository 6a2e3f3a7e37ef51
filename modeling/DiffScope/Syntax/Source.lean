import DiffScope.Text.Lines

/-!
# Places in a text

Where a character of a text stands: its row, counted by line feeds, and the bytes before it. The
counts for every place are kept beside the text, and are what counting in the text gives.
-/

namespace DiffScope.Syntax

open DiffScope.Text

/-- Bytes of a text. -/
def byteSize : List Char → Nat
  | [] => 0
  | c :: cs => c.utf8Size + byteSize cs

/-- Line feeds and bytes before each place of a text, on top of those before the text. -/
def counts (rows bytes : Nat) : List Char → List (Nat × Nat)
  | [] => [(rows, bytes)]
  | c :: cs => (rows, bytes) :: counts (if c = '\n' then rows + 1 else rows) (bytes + c.utf8Size) cs

/-- The same counts, gathered from the front. -/
def countsInto (acc : Array (Nat × Nat)) (rows bytes : Nat) : List Char → Array (Nat × Nat)
  | [] => acc.push (rows, bytes)
  | c :: cs =>
    countsInto (acc.push (rows, bytes)) (if c = '\n' then rows + 1 else rows)
      (bytes + c.utf8Size) cs

theorem toList_countsInto (acc : Array (Nat × Nat)) (rows bytes : Nat) (text : List Char) :
    (countsInto acc rows bytes text).toList = acc.toList ++ counts rows bytes text := by
  induction text generalizing acc rows bytes with
  | nil => simp [countsInto, counts]
  | cons c cs ih => simp [countsInto, counts, ih]

theorem getElem?_counts (rows bytes : Nat) (text : List Char) (n : Nat) (h : n ≤ text.length) :
    (counts rows bytes text)[n]? =
      some (rows + newlines (text.take n), bytes + byteSize (text.take n)) := by
  induction text generalizing rows bytes n with
  | nil => simp_all [counts, newlines, byteSize]
  | cons c cs ih =>
    cases n with
    | zero => simp [counts, newlines, byteSize]
    | succ n =>
      simp only [counts, List.getElem?_cons_succ]
      rw [ih _ _ n (by simpa using h)]
      by_cases hc : c = '\n' <;> simp [hc, newlines, byteSize] <;> omega

/-- A text with the counts for its places. -/
structure Source where
  text : List Char
  /-- Line feeds and bytes before each place. -/
  marks : Array (Nat × Nat)
  exact : marks = countsInto #[] 0 0 text

namespace Source

def ofText (text : List Char) : Source := ⟨text, countsInto #[] 0 0 text, rfl⟩

instance : Inhabited Source := ⟨ofText []⟩

/-- The counts at a place; behind the text they stay what they are at its end. -/
def mark (s : Source) (place : Nat) : Nat × Nat :=
  match s.marks[place]? with
  | some m => m
  | none => s.marks.back?.getD (0, 0)

/-- Row of a place, counted from zero. -/
def row (s : Source) (place : Nat) : Nat := (s.mark place).1

/-- Line of a place, counted from one. -/
def line (s : Source) (place : Nat) : Nat := s.row place + 1

/-- Bytes before a place. -/
def bytes (s : Source) (place : Nat) : Nat := (s.mark place).2

/-- The text between two places. -/
def slice (s : Source) (start stop : Nat) : List Char :=
  (s.text.take stop).drop start

/-- The text between two places, if there is such a text. -/
def get? (s : Source) (start stop : Nat) : Option (List Char) :=
  if start ≤ stop ∧ stop ≤ s.text.length then some (s.slice start stop) else none

/-- Bytes before a place that may be behind the text, where each place counts for one more. -/
def offset (s : Source) (place : Nat) : Nat :=
  s.bytes place + (place - s.text.length)

/-- The text between the last line feed before a place and the place. -/
def lead (s : Source) (place : Nat) : List Char :=
  ((s.text.take place).reverse.takeWhile (· ≠ '\n')).reverse

/-- Bytes between the last line feed before a place and the place. -/
def column (s : Source) (place : Nat) : Nat :=
  byteSize (s.lead place)

theorem marks_toList (s : Source) : s.marks.toList = counts 0 0 s.text := by
  rw [s.exact, toList_countsInto]; rfl

theorem mark_eq (s : Source) {place : Nat} (h : place ≤ s.text.length) :
    s.mark place = (newlines (s.text.take place), byteSize (s.text.take place)) := by
  have hm : s.marks[place]? = (counts 0 0 s.text)[place]? := by
    rw [← marks_toList, Array.getElem?_toList]
  rw [mark, hm, getElem?_counts 0 0 s.text place h]
  simp

/-- The row of a place is the number of line feeds before it. -/
theorem row_eq (s : Source) {place : Nat} (h : place ≤ s.text.length) :
    s.row place = newlines (s.text.take place) := by
  rw [row, mark_eq s h]

/-- The bytes before a place are those of the text before it. -/
theorem bytes_eq (s : Source) {place : Nat} (h : place ≤ s.text.length) :
    s.bytes place = byteSize (s.text.take place) := by
  rw [bytes, mark_eq s h]

end Source

end DiffScope.Syntax
