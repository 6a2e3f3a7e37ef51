import Mathlib.Data.String.Basic
import DiffScope.Text.Blank

/-! # Small letters

A text with its ASCII capitals made small has its blanks where they were, and every character in as
many bytes as before, so that places in the one are places in the other.
-/

namespace DiffScope.Text

open String (utf8Len)

/-- Only the capitals from A to Z change. -/
theorem toLower_eq_or (c : Char) :
    c.toLower = c ∨ 65 ≤ c.toNat ∧ c.toNat ≤ 90 ∧ c.toLower.toNat = c.toNat + 32 := by
  unfold Char.toLower
  split
  next capital =>
    obtain ⟨low, high⟩ := capital
    rw [ge_iff_le, UInt32.le_iff_toNat_le] at low
    rw [UInt32.le_iff_toNat_le] at high
    have top : 'Z'.val.toNat = 90 := by decide
    have bottom : 'A'.val.toNat = 65 := by decide
    have value : (c.val + ('a'.val - 'A'.val)).toNat = c.val.toNat + 32 := by
      have small : ('a'.val - 'A'.val).toNat = 32 := by decide
      rw [UInt32.toNat_add]
      omega
    change _ ∨ 65 ≤ c.val.toNat ∧ c.val.toNat ≤ 90 ∧
      (c.val + ('a'.val - 'A'.val)).toNat = c.val.toNat + 32
    omega
  next => exact .inl rfl

theorem eq_of_toLower_eq {c d : Char} (h : c.toLower = d) (other : d.toNat < 97) : c = d := by
  rcases toLower_eq_or c with same | ⟨low, -, value⟩
  · exact same.symm.trans h
  · rw [h] at value
    omega

theorem isBlank_eq_false {c : Char} (low : 65 ≤ c.toNat) (high : c.toNat ≤ 122) :
    isBlank c = false := by
  simp only [isBlank, Bool.or_eq_false_iff, Bool.and_eq_false_iff, decide_eq_false_iff_not]
  omega

theorem isBlank_toLower (c : Char) : isBlank c.toLower = isBlank c := by
  rcases toLower_eq_or c with same | ⟨low, high, value⟩
  · rw [same]
  · rw [isBlank_eq_false (by omega) (by omega), isBlank_eq_false low (by omega)]

theorem trimStart_lower (text : List Char) : trimStart (lower text) = lower (trimStart text) := by
  have same : isBlank ∘ Char.toLower = isBlank := funext isBlank_toLower
  rw [trimStart, lower, List.dropWhile_map, same]
  rfl

theorem utf8Size_toLower (c : Char) : c.toLower.utf8Size = c.utf8Size := by
  rcases toLower_eq_or c with same | ⟨low, high, value⟩
  · rw [same]
  · have small : ∀ d : Char, d.toNat ≤ 122 → d.utf8Size = 1 := by
      intro d bound
      rw [Char.utf8Size_eq_one_iff, UInt32.le_iff_toNat_le]
      exact bound.trans (by decide)
    rw [small c (by omega), small c.toLower (by omega)]

theorem utf8Len_lower (text : List Char) : utf8Len (lower text) = utf8Len text := by
  induction text with
  | nil => rfl
  | cons c cs ih => rw [lower, List.map_cons, ← lower, String.utf8Len_cons, ih, utf8Size_toLower]; rfl

end DiffScope.Text
