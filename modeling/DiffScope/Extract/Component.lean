import DiffScope.Extract.Script

/-!
# Components

The sections of a component file: each script block is looked at on its own, in lines of its own, and
its sections are moved back to the lines of the file.
-/

namespace DiffScope.Extract

open DiffScope.Component DiffScope.Diff DiffScope.Report DiffScope.Scope DiffScope.Syntax

/-- Sections and issues of a component, and which blocks it has. -/
structure ComponentOutcome where
  /-- The sections in the order of the file. -/
  sections : List Section
  issues : List Issue
  /-- Which blocks there are, if they can be told apart. -/
  metadata : Option Metadata
  deriving DecidableEq, Repr

/-- How the units of a block are named: a plain script has the options of the component. -/
def namingOf (kind : BlockKind) : Naming :=
  if kind = .script then .options else .plain

/-- The sections of a block, in the lines of the file. A block in another language, or without added
lines, has none. -/
def extractRegion (m : Means) (added : AddedLines) (r : Region) : Except Overflow Outcome :=
  match Language.ofAttribute? r.lang with
  | none => .ok ⟨[], []⟩
  | some language => do
    let view := ScriptView.ofMeans m r.kind language (namingOf r.kind) r.startLine
    let outcome := view.extract r.content (added.localize r.startLine)
    let sections ← outcome.sections.mapM fun s => s.shifted r.startLine
    return ⟨sections, outcome.issues⟩

def extractComponent (m : Means) (source : List Char) (added : AddedLines) :
    Except Overflow ComponentOutcome :=
  match (m.course .layout).await m.config.timeoutMs "component descriptor"
      (.ok (regions source)) with
  | .error issue => .ok ⟨[], [issue], none⟩
  | .ok (.error e) => .ok ⟨[], [.ofLayout e], none⟩
  | .ok (.ok rs) => do
    let outcomes ← (rs.filter (·.kind.isScript)).mapM (extractRegion m added)
    return ⟨Section.sort (outcomes.flatMap Outcome.sections), outcomes.flatMap Outcome.issues,
      some (metadataOf rs)⟩

end DiffScope.Extract
