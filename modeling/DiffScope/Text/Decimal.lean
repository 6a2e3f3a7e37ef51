import DiffScope.Overflow

/-!
# Decimal numbers

A run of ASCII digits and the count that it stands for, if the count is within the bound.
-/

namespace DiffScope.Text

/-- The number that digits stand for, behind digits already read. -/
def digitsValue (digits : List Char) : Nat :=
  digits.foldl (fun n c => 10 * n + (c.toNat - 48)) 0

/-- The count that a text of digits stands for. -/
def count? (digits : List Char) : Option Nat :=
  if digits.isEmpty || !digits.all Char.isDigit then none else
    let n := digitsValue digits
    if n < countBound then some n else none

/-- The count that a text begins with, and the rest of the text. -/
def leadingCount? (text : List Char) : Option (Nat × List Char) :=
  (count? (text.takeWhile Char.isDigit)).map (·, text.dropWhile Char.isDigit)

/-- The count that a text stands for; a plus sign may precede it. -/
def signedCount? : List Char → Option Nat
  | '+' :: digits => count? digits
  | digits => count? digits

def alignRight (width n : Nat) : List Char :=
  let digits := Nat.toDigits 10 n
  List.replicate (width - digits.length) ' ' ++ digits

end DiffScope.Text
