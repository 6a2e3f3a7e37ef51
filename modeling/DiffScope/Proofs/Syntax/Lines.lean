import Mathlib.Data.List.Basic
import DiffScope.Syntax.Source

/-! # Lines of places

The line of a place is one more than the line feeds before it, wherever the place lies; so lines
grow with places, and the text between two places has as many line feeds as their lines differ by.
-/

namespace DiffScope.Syntax.Source

open DiffScope.Text

theorem length_counts (rows bytes : Nat) (text : List Char) :
    (counts rows bytes text).length = text.length + 1 := by
  induction text generalizing rows bytes with
  | nil => rfl
  | cons c cs ih => simp only [counts, List.length_cons, ih]

theorem size_marks (s : Source) : s.marks.size = s.text.length + 1 := by
  rw [← Array.length_toList, marks_toList, length_counts]

/-- Behind the text the counts stay what they are at its end. -/
theorem mark_of_length_lt (s : Source) {place : Nat} (h : s.text.length < place) :
    s.mark place = s.mark s.text.length := by
  have size := s.size_marks
  have outside : s.marks[place]? = none := Array.getElem?_eq_none (by omega)
  have last : s.marks[s.text.length]? = s.marks.back? := by
    rw [Array.back?_eq_getElem?, size, Nat.add_sub_cancel]
  have within : s.text.length < s.marks.size := by omega
  rw [mark, mark, outside, ← last, Array.getElem?_eq_getElem within]
  rfl

theorem line_eq (s : Source) (place : Nat) :
    s.line place = newlines (s.text.take place) + 1 := by
  by_cases h : place ≤ s.text.length
  · rw [line, row_eq s h]
  · have beyond : s.text.length < place := Nat.lt_of_not_le h
    rw [line, row, mark_of_length_lt s beyond, ← row, row_eq s (Nat.le_refl _),
      List.take_of_length_le (Nat.le_of_lt beyond), List.take_of_length_le (Nat.le_refl _)]

theorem line_mono (s : Source) {a b : Nat} (h : a ≤ b) : s.line a ≤ s.line b := by
  rw [line_eq, line_eq]
  have sub : s.text.take a <+: s.text.take b := List.take_prefix_take_left h
  exact Nat.add_le_add_right (sub.sublist.count_le '\n') 1

theorem line_le (s : Source) (place : Nat) : s.line place ≤ newlines s.text + 1 := by
  rw [line_eq]
  exact Nat.add_le_add_right ((List.take_sublist place s.text).count_le '\n') 1

/-- A text falls apart at two places. -/
theorem take_eq_slice (s : Source) {start stop : Nat} (h : start ≤ stop) :
    s.text.take stop = s.text.take start ++ s.slice start stop := by
  have parts := List.take_append_drop start (s.text.take stop)
  rw [List.take_take, Nat.min_eq_left h] at parts
  exact parts.symm

theorem text_eq_slice (s : Source) {start stop : Nat} (h : start ≤ stop) :
    s.text = s.text.take start ++ s.slice start stop ++ s.text.drop stop := by
  rw [← take_eq_slice s h, List.take_append_drop]

theorem line_stop (s : Source) {start stop : Nat} (h : start ≤ stop) :
    s.line stop = s.line start + newlines (s.slice start stop) := by
  rw [line_eq, line_eq, take_eq_slice s h, newlines, newlines, newlines, List.count_append]
  omega

end DiffScope.Syntax.Source
