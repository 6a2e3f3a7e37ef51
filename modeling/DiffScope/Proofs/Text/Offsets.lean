import Mathlib.Data.String.Basic
import DiffScope.Proofs.Text.Lower

/-! # Places told by bytes

A place in a text is told by what is left of the text there, or by the bytes before it. A byte is such
a place only if a character begins at it or the text ends there.
-/

namespace DiffScope.Text

open String (utf8Len)

/-- The bytes of a text before one of its rests. -/
def offsetOf (text rest : List Char) : Nat := utf8Len text - utf8Len rest

/-- What is left of a text behind so many bytes. There is nothing to answer if they end inside a
character, or the text ends before. -/
def from? : List Char → Nat → Option (List Char)
  | text, 0 => some text
  | [], _ + 1 => none
  | c :: cs, n + 1 => if c.utf8Size ≤ n + 1 then from? cs (n + 1 - c.utf8Size) else none

/-- The bytes before the first place of a text at which a beginning stands. -/
def find? (start : List Char) : List Char → Option Nat
  | [] => if start = [] then some 0 else none
  | c :: cs =>
    if start.isPrefixOf (c :: cs) then some 0 else (find? start cs).map (· + c.utf8Size)

/-- A character of the text begins behind so many bytes, or the text ends there. -/
def IsBoundary (text : List Char) (n : Nat) : Prop := String.Pos.Raw.IsValid (.ofList text) ⟨n⟩

section Offsets

variable {text front rest : List Char}

theorem offsetOf_append (front rest : List Char) : offsetOf (front ++ rest) rest = utf8Len front := by
  rw [offsetOf, String.utf8Len_append, Nat.add_sub_cancel]

/-- Bytes are counted up to a place and on from there. -/
theorem offsetOf_add_offsetOf {inner : List Char} (left : rest <:+ text) (behind : inner <:+ rest) :
    offsetOf text rest + offsetOf rest inner = offsetOf text inner := by
  have outer := String.utf8Len_le_of_suffix left
  have within := String.utf8Len_le_of_suffix behind
  unfold offsetOf
  omega

theorem offsetOf_add_utf8Len (left : front ++ rest <:+ text) :
    offsetOf text (front ++ rest) + utf8Len front = offsetOf text rest := by
  rw [← offsetOf_append front rest]
  exact offsetOf_add_offsetOf left (List.suffix_append front rest)

theorem from?_append (front rest : List Char) : from? (front ++ rest) (utf8Len front) = some rest := by
  induction front with
  | nil => rw [List.nil_append, String.utf8Len_nil, from?]
  | cons c cs ih =>
      obtain ⟨size, pos⟩ := Nat.exists_eq_add_one.mpr c.utf8Size_pos
      rw [List.cons_append, String.utf8Len_cons, pos, ← Nat.add_assoc, from?, pos,
        if_pos (by omega), Nat.add_assoc, Nat.add_sub_cancel]
      exact ih

theorem from?_eq_some_iff {n : Nat} :
    from? text n = some rest ↔ ∃ front, text = front ++ rest ∧ utf8Len front = n := by
  constructor
  · intro found
    fun_induction from? text n with
    | case1 text =>
        obtain rfl := Option.some.inj found
        exact ⟨[], rfl, rfl⟩
    | case2 => cases found
    | case3 c cs n fits ih =>
        obtain ⟨front, rfl, size⟩ := ih found
        refine ⟨c :: front, rfl, ?_⟩
        rw [String.utf8Len_cons, size]
        omega
    | case4 => cases found
  · rintro ⟨front, rfl, rfl⟩
    exact from?_append front rest

theorem from?_offsetOf (left : rest <:+ text) : from? text (offsetOf text rest) = some rest := by
  obtain ⟨front, rfl⟩ := left
  rw [offsetOf_append, from?_append]

theorem from?_lower (text : List Char) (n : Nat) : from? (lower text) n = (from? text n).map lower := by
  fun_induction from? text n with
  | case1 text => rw [from?, Option.map_some]
  | case2 => rfl
  | case3 c cs n fits ih =>
      rw [lower, List.map_cons, from?, utf8Size_toLower, if_pos fits]
      exact ih
  | case4 c cs n beyond =>
      rw [lower, List.map_cons, from?, utf8Size_toLower, if_neg beyond]
      rfl

/-- Something is left behind bytes exactly if they end at the boundary of a character. -/
theorem isSome_from?_iff {n : Nat} : (from? text n).isSome ↔ IsBoundary text n := by
  rw [IsBoundary, Option.isSome_iff_exists, String.Pos.Raw.isValid_iff_exists_append]
  constructor
  · rintro ⟨rest, found⟩
    obtain ⟨front, rfl, rfl⟩ := from?_eq_some_iff.mp found
    exact ⟨.ofList front, .ofList rest, String.ofList_append, (String.rawEndPos_ofList front).symm⟩
  · rintro ⟨front, rest, whole, place⟩
    have parts : text = front.toList ++ rest.toList := by
      rw [← String.toList_append, ← whole, String.toList_ofList]
    have size : utf8Len front.toList = n := by
      rw [String.utf8Len_toList]
      exact (congrArg String.Pos.Raw.byteIdx place).symm
    exact ⟨rest.toList, from?_eq_some_iff.mpr ⟨_, parts, size⟩⟩

theorem isBoundary_offsetOf (left : rest <:+ text) : IsBoundary text (offsetOf text rest) := by
  rw [← isSome_from?_iff, from?_offsetOf left]
  rfl

theorem isBoundary_lower_iff {n : Nat} : IsBoundary (lower text) n ↔ IsBoundary text n := by
  rw [← isSome_from?_iff, ← isSome_from?_iff, from?_lower, Option.isSome_map]

end Offsets

/-! ## The first place of a beginning -/

section Find

variable {start text : List Char}

/-- What is found stands there, and at no place before. -/
theorem exists_front_of_find? {n : Nat} (found : find? start text = some n) :
    ∃ front rest, text = front ++ (start ++ rest) ∧ utf8Len front = n ∧
      ∀ here, here ≠ [] → here <:+ front → ¬start <+: here ++ (start ++ rest) := by
  induction text generalizing n with
  | nil =>
      rw [find?] at found
      split at found
      next empty =>
        obtain rfl := Option.some.inj found
        exact ⟨[], [], by simp [empty], rfl, fun here filled inside =>
          absurd (List.suffix_nil.mp inside) filled⟩
      next => cases found
  | cons c cs ih =>
      rw [find?] at found
      split at found
      next begins =>
        obtain rfl := Option.some.inj found
        obtain ⟨rest, whole⟩ := List.isPrefixOf_iff_prefix.mp begins
        exact ⟨[], rest, whole.symm, rfl, fun here filled inside =>
          absurd (List.suffix_nil.mp inside) filled⟩
      next none =>
        obtain ⟨m, later, rfl⟩ := Option.map_eq_some_iff.mp found
        obtain ⟨front, rest, rfl, rfl, first⟩ := ih later
        refine ⟨c :: front, rest, rfl, rfl, fun here filled inside => ?_⟩
        rcases List.suffix_cons_iff.mp inside with rfl | inside
        · rwa [List.isPrefixOf_iff_prefix] at none
        · exact first here filled inside

theorem not_infix_of_find? (failed : find? start text = none) : ¬start <:+: text := by
  induction text with
  | nil =>
      rw [find?] at failed
      split at failed
      next => cases failed
      next filled => exact fun inside => filled (List.infix_nil.mp inside)
  | cons c cs ih =>
      rw [find?] at failed
      split at failed
      next => cases failed
      next none =>
        rw [List.infix_cons_iff, not_or]
        exact ⟨fun begins => none (List.isPrefixOf_iff_prefix.mpr begins),
          ih (Option.map_eq_none_iff.mp failed)⟩

end Find

end DiffScope.Text
