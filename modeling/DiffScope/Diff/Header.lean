import DiffScope.Text.Decimal
import DiffScope.Text.Lines

/-!
# Hunk headers

The line that opens a hunk: where the hunk starts in either file and how many lines of it follow.
An omitted length is one line.
-/

namespace DiffScope.Diff

open DiffScope.Text

/-- What the opening line of a hunk says. -/
structure Header where
  oldStart : Nat
  oldLen : Nat
  newStart : Nat
  newLen : Nat
  deriving DecidableEq, Repr, Inhabited

/-- Why a diff is refused. -/
inductive DiffError where
  /-- A line that should open a hunk does not. -/
  | invalidHeader (line : String)
  | noHunk
  deriving DecidableEq, Repr

namespace DiffError

def message : DiffError → String
  | invalidHeader line => "Invalid hunk header: " ++ line
  | noHunk => "Diff contains no hunks"

end DiffError

namespace Header

/-- The length behind a comma, one if there is none, and the rest of the line. -/
def length? : List Char → Option (Nat × List Char)
  | ',' :: rest => leadingCount? rest
  | rest => some (1, rest)

/-- The header that a line begins with. -/
def ofLine? (line : List Char) : Option Header := do
  let (oldStart, line) ← leadingCount? (← after? "@@ -".toList line)
  let (oldLen, line) ← length? line
  let (newStart, line) ← leadingCount? (← after? " +".toList line)
  let (newLen, line) ← length? line
  let _ ← after? " @@".toList line
  return { oldStart, oldLen, newStart, newLen }

/-- The header that a line begins with, or the reason why there is none. -/
def ofLine (line : List Char) : Except DiffError Header :=
  match ofLine? line with
  | some h => .ok h
  | none => .error (.invalidHeader (String.ofList line))

end Header

/-- Whether a line is meant to open a hunk. -/
def opensHunk (line : List Char) : Bool :=
  (after? "@@".toList line).isSome

end DiffScope.Diff
