/-!
# Bounded counts

Line numbers and sizes are kept below a fixed bound. A sum or difference that leaves the bound is
an error with a cause of its own.
-/

namespace DiffScope

/-- Every count stays below this, two to the power of 64. -/
def countBound : Nat := 18446744073709551616

/-- Which operation left the bound. -/
inductive Overflow where
  /-- A sum reached the bound. -/
  | sum
  /-- A difference fell below zero. -/
  | difference
  deriving DecidableEq, Repr

namespace Overflow

def message : Overflow → String
  | sum => "attempt to add with overflow"
  | difference => "attempt to subtract with overflow"

/-- The sum of two counts. -/
def plus (a b : Nat) : Except Overflow Nat :=
  if a + b < countBound then .ok (a + b) else .error .sum

/-- The difference of two counts. -/
def minus (a b : Nat) : Except Overflow Nat :=
  if b ≤ a then .ok (a - b) else .error .difference

theorem plus_eq_ok {a b : Nat} (h : a + b < countBound) : plus a b = .ok (a + b) := by
  simp [plus, h]

theorem minus_eq_ok {a b : Nat} (h : b ≤ a) : minus a b = .ok (a - b) := by
  simp [minus, h]

end Overflow

/-- Lines from one to another, both counted. -/
def lineSpan (start stop : Nat) : Except Overflow Nat :=
  Overflow.plus (stop - start) 1

end DiffScope
