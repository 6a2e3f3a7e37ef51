import DiffScope.Diff.AddedLines
import DiffScope.Scope.Selection
import DiffScope.Snippet.Basic

/-!
# Sections

What is told of one unit: what it is called, where it is, the added lines it accounts for and as much
of its text as is shown.
-/

namespace DiffScope.Report

open DiffScope.Diff DiffScope.Scope DiffScope.Snippet DiffScope.Syntax

/-- What is told of one unit. -/
structure Section where
  kind : Kind
  name : String
  startLine : Nat
  endLine : Nat
  /-- The added lines it accounts for. -/
  addedLines : List Nat
  snippet : String
  /-- Whether the text differs from that of the unit. -/
  truncated : Bool
  reason : Truncation
  summary : Option String
  /-- The option of a component that the unit is declared in. -/
  option : Option String
  deriving DecidableEq, Repr, Inhabited

namespace Section

def lineCount (s : Section) : Except Overflow Nat :=
  lineSpan s.startLine s.endLine

/-- The section in the lines of the file, when its lines are those of a region whose first line is
a line of the file. -/
def shifted (s : Section) (offset : Nat) : Except Overflow Section := do
  let startLine ← toFile s.startLine offset
  let endLine ← toFile s.endLine offset
  let addedLines ← s.addedLines.mapM (toFile · offset)
  return { s with startLine, endLine, addedLines }

/-- The section of a kept candidate. -/
def ofSelected (source : Source) (p : Policy) (sel : Selected) : Except Overflow Section := do
  let c := sel.candidate
  let shown ← p.apply (source.lead c.start) (source.slice c.start c.stop) c.startLine c.endLine
    sel.accountsFor
  return {
    kind := c.kind
    name := c.name
    startLine := c.startLine
    endLine := c.endLine
    addedLines := sel.accountsFor
    snippet := String.ofList shown.text
    truncated := shown.isTruncated
    reason := shown.reason
    summary := shown.summary
    option := c.option }

/-- Whether a section comes before another in the file, or in the same place. -/
def precedes (a b : Section) : Bool :=
  a.startLine < b.startLine || (a.startLine = b.startLine && a.endLine ≤ b.endLine)

/-- Sections in the order of the file; sections in the same place stay as they are. -/
def sort (sections : List Section) : List Section :=
  sections.mergeSort precedes

end Section

end DiffScope.Report
