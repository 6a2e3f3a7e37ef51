/-!
# Blank characters

The characters with the Unicode property White_Space, and texts without those at their ends.
-/

namespace DiffScope.Text

/-- A character with the property White_Space. -/
def isBlank (c : Char) : Bool :=
  let n := c.toNat
  (9 ≤ n && n ≤ 13) || n = 32 || n = 0x85 || n = 0xA0 || n = 0x1680 || (0x2000 ≤ n && n ≤ 0x200A) ||
    n = 0x2028 || n = 0x2029 || n = 0x202F || n = 0x205F || n = 0x3000

def trimStart (text : List Char) : List Char :=
  text.dropWhile isBlank

/-- A text without the blanks around it. -/
def trim (text : List Char) : List Char :=
  ((trimStart text).reverse.dropWhile isBlank).reverse

/-- Every character that core counts as white space is blank. -/
theorem isBlank_of_isWhitespace {c : Char} (h : c.isWhitespace = true) : isBlank c = true := by
  simp only [Char.isWhitespace, Bool.or_eq_true, decide_eq_true_eq] at h
  rcases h with ((h | h) | h) | h <;> subst h <;> decide

/-- The text with ASCII capitals made small. -/
def lower (text : List Char) : List Char :=
  text.map Char.toLower

end DiffScope.Text
