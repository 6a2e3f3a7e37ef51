import DiffScope.Extract.Stage
import DiffScope.Report.Section
import DiffScope.Syntax.Diagnosis

/-!
# Scripts

The sections of one script text: the text is read, its tree is searched for units that hold added
lines, and of those the smallest ones are kept. Lines are those of the text, but shown lines are
numbered as in the file.
-/

namespace DiffScope.Extract

open DiffScope.Component DiffScope.Diff DiffScope.Report DiffScope.Scope DiffScope.Snippet
open DiffScope.Syntax

/-- Sections, and what went wrong on the way. -/
structure Outcome where
  /-- The sections, in the order in which their units were found. -/
  sections : List Section
  issues : List Issue
  deriving DecidableEq, Repr, Inhabited

/-- How a script is looked at. -/
structure ScriptView where
  parser : Parser
  /-- How the work on it goes. -/
  course : Course
  language : Language
  naming : Naming
  maxDepth : Nat
  timeoutMs : Nat
  policy : Policy

/-- How a script block of a kind is looked at; its line 1 is a line of the file. -/
def ScriptView.ofMeans (m : Means) (kind : BlockKind) (language : Language) (naming : Naming)
    (firstLine : Nat) : ScriptView :=
  ⟨m.parser, m.course (.script kind), language, naming, m.config.maxDepth, m.config.timeoutMs,
    .ofConfig m.config firstLine⟩

namespace ScriptView

def search (v : ScriptView) (source : Source) (added : AddedLines) : Search :=
  ⟨source, added, v.naming⟩

/-- The units of a script that are searched for. -/
def find (v : ScriptView) (p : Parsed) (added : AddedLines) : Search.Found :=
  (v.search p.source added).run v.maxDepth p.tree

/-- What is told of the units that were found. -/
def tell (v : ScriptView) (p : Parsed) (added : AddedLines) (found : Search.Found) :
    Except Overflow Outcome := do
  let selected ← select found.candidates added
  let sections ← selected.mapM (Section.ofSelected p.source v.policy)
  let recovered := if p.isClean then [] else [Issue.syntaxRecovered p.faultCount]
  let cut := if found.isCut then [Issue.depthExceeded v.maxDepth] else []
  return ⟨sections, recovered ++ cut⟩

/-- The sections of a script that was read. If its tree cannot be searched, nothing else is told. -/
def analyze (v : ScriptView) (p : Parsed) (added : AddedLines) :
    Except Overflow (Except Issue Outcome) :=
  let found := v.find p added
  match found.failure? with
  | some reason => .ok (.error (.traverse reason))
  | none => (v.tell p added found).map .ok

/-- Reads a script text and tells its sections. -/
def work (v : ScriptView) (text : List Char) (added : AddedLines) :
    Except Overflow (Except Issue Outcome) :=
  match Parsed.ofText v.parser v.language text with
  | .error reason => .ok (.error (.parse reason))
  | .ok p => v.analyze p added

/-- The sections of a script text. Without added lines there is nothing to do. -/
def extract (v : ScriptView) (text : List Char) (added : AddedLines) : Outcome :=
  if added.isEmpty then ⟨[], []⟩ else
    match v.course.await v.timeoutMs "parse" (v.work text added) with
    | .ok (.ok outcome) => outcome
    | .ok (.error issue) | .error issue => ⟨[], [issue]⟩

end ScriptView

end DiffScope.Extract
