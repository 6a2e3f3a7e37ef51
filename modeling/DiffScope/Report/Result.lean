import DiffScope.Report.Issue
import DiffScope.Report.Section

/-!
# Results

Everything that is told of one file. Issues and sections may stand side by side: what was found
before something went wrong is kept.
-/

namespace DiffScope.Report

/-- Which blocks a component has. -/
structure Metadata where
  hasTemplate : Bool
  hasScript : Bool
  hasScriptSetup : Bool
  styleCount : Nat
  customBlockCount : Nat
  deriving DecidableEq, Repr, Inhabited

/-- Everything that is told of one file. -/
structure Result where
  filePath : String
  /-- The sections, in the order of the file. -/
  sections : List Section
  /-- Tags of issues. -/
  errors : List String
  /-- Tags of issues that are only warnings. -/
  warnings : List String
  durationMs : Nat
  /-- Which blocks the file has, if it is a component. -/
  component : Option Metadata
  deriving DecidableEq, Repr, Inhabited

namespace Result

/-- Nothing to tell of a file. -/
def empty (filePath : String) : Result :=
  { filePath, sections := [], errors := [], warnings := [], durationMs := 0, component := none }

def record (r : Result) (issue : Issue) : Result :=
  if issue.isWarning then { r with warnings := r.warnings ++ [issue.tag] }
  else { r with errors := r.errors ++ [issue.tag] }

/-- Nothing but one issue. -/
def failed (filePath : String) (issue : Issue) : Result :=
  (empty filePath).record issue

/-- Whether an issue is more than a warning. -/
def hasErrors (r : Result) : Bool := !r.errors.isEmpty

def sortSections (r : Result) : Result :=
  { r with sections := Section.sort r.sections }

/-- A section as a block of text: a heading, a note if there is one, and what is shown. -/
def renderSection (filePath : String) (s : Section) : String :=
  let option := match s.option with
    | some o => " in " ++ o
    | none => ""
  let added := ", ".intercalate (s.addedLines.map toString)
  let heading := "// " ++ filePath ++ ":" ++ toString s.startLine ++ "-" ++ toString s.endLine
    ++ " " ++ s.kind.name ++ " " ++ s.name ++ option ++ " (added: " ++ added ++ ")\n"
  let note := match s.summary with
    | some n => "// " ++ n ++ "\n"
    | none => ""
  let ending := if s.snippet.toList.getLast? = some '\n' then "\n" else "\n\n"
  heading ++ note ++ s.snippet ++ ending

def render (r : Result) : String :=
  String.join (r.sections.map (renderSection r.filePath))

end Result

end DiffScope.Report
