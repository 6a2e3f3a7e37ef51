import DiffScope.Syntax.Cursor
import DiffScope.Syntax.Diagnosis

/-!
# Looking for syntax errors

A cursor goes through a tree in search of faults, down only below nodes that are flagged. The first
faults that it meets are described, and all of them are counted.
-/

namespace DiffScope.Syntax

/-- The faults that were met. -/
structure Tally where
  /-- The first of them. -/
  faults : List Fault
  /-- How many there were in all. -/
  count : Nat
  deriving DecidableEq, Repr

namespace Tally

def empty : Tally := ⟨[], 0⟩

/-- The faults that were met when one more node was looked at. -/
def record (s : Source) (tally : Tally) (f : Face) : Tally :=
  match faultOf? s f with
  | none => tally
  | some fault =>
    ⟨if tally.faults.length < describedFaults then tally.faults ++ [fault] else tally.faults,
      tally.count + 1⟩

end Tally

/-- What the search for faults has come to. -/
inductive Inspection where
  /-- At a node that was not looked at. -/
  | arriving (cursor : Cursor) (tally : Tally)
  /-- At a node that is through with, as are all nodes below it. -/
  | leaving (cursor : Cursor) (tally : Tally)
  | ended (tally : Tally)

namespace Inspection

/-- A tree whose root is not flagged is not gone through at all. -/
def start (flagged : Tree → Bool) (t : Tree) : Inspection :=
  if flagged t then .arriving (.root t) .empty else .ended .empty

def step (s : Source) (flagged : Tree → Bool) : Inspection → Inspection
  | .arriving cursor tally =>
    let tally := tally.record s cursor.tree.face
    if flagged cursor.tree then
      match cursor.firstChild? with
      | some child => .arriving child tally
      | none => .leaving cursor tally
    else .leaving cursor tally
  | .leaving cursor tally =>
    match cursor.nextSibling? with
    | some sibling => .arriving sibling tally
    | none =>
      match cursor.parent? with
      | some parent => .leaving parent tally
      | none => .ended tally
  | .ended tally => .ended tally

end Inspection

end DiffScope.Syntax
