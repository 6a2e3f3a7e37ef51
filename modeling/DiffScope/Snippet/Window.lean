import DiffScope.Overflow

/-!
# Windows

Stretches of lines around the added lines of a unit. Windows that overlap or touch are one window.
-/

namespace DiffScope.Snippet

/-- A stretch of lines, the first and the last included. -/
structure Window where
  first : Nat
  last : Nat
  deriving DecidableEq, Repr

namespace Window

def lines (w : Window) : List Nat :=
  List.range' w.first (w.last + 1 - w.first)

def around (startLine endLine radius center : Nat) : Window :=
  ⟨max (center - radius) startLine, min (min (center + radius) (countBound - 1)) endLine⟩

/-- Adds a window behind others, from the last of them to the first. -/
def append (earlier : List Window) (w : Window) : Except Overflow (List Window) :=
  match earlier with
  | [] => .ok [w]
  | last :: rest => do
    let next ← Overflow.plus last.last 1
    return if w.first ≤ next then ⟨last.first, max last.last w.last⟩ :: rest else w :: last :: rest

end Window

/-- Each number once, in ascending order. -/
def ascending (lines : List Nat) : List Nat :=
  (lines.mergeSort (· ≤ ·)).eraseReps

/-- The windows around the lines of a unit. -/
def windows (added : List Nat) (startLine endLine radius : Nat) :
    Except Overflow (List Window) := do
  let centers := ascending (added.filter fun l => startLine ≤ l && l ≤ endLine)
  let found ← centers.foldlM (fun ws c => Window.append ws (.around startLine endLine radius c)) []
  return found.reverse

end DiffScope.Snippet
