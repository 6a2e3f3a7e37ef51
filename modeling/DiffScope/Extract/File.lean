import DiffScope.Config.Load
import DiffScope.Diff.LineMap
import DiffScope.Extract.Component
import DiffScope.Project.FileKind

/-!
# Files

The result for one changed file of a project, and for several. Whatever goes wrong with a file is
recorded in its own result.
-/

namespace DiffScope.Extract

open DiffScope.Diff DiffScope.Project DiffScope.Report DiffScope.Scope DiffScope.Syntax

/-- Where files are and how they are looked at. -/
structure Workspace where
  files : Files
  /-- The directory that paths start from. -/
  root : Path
  config : Config
  parser : Parser
  /-- How the work on each file goes. -/
  course : Path → Stage → Course

namespace Workspace

/-- The means by which a file is looked at. -/
def means (w : Workspace) (path : Path) : Means := ⟨w.config, w.parser, w.course path⟩

def extractText (w : Workspace) (path : Path) (kind : FileKind) (text : List Char)
    (added : AddedLines) : Except Overflow Result :=
  let result := Result.empty (String.ofList path)
  match kind with
  | .script language =>
    let view := ScriptView.ofMeans (w.means path) .script language .plain 1
    let outcome := view.extract text added
    .ok (outcome.issues.foldl Result.record
      { result with sections := Section.sort outcome.sections })
  | .component => do
    let outcome ← extractComponent (w.means path) text added
    return outcome.issues.foldl Result.record
      { result with sections := outcome.sections, component := outcome.metadata }
  | .unsupported => .ok result

/-- The result for a file, as far as no count leaves its bound. -/
def route (w : Workspace) (path : Path) (added : AddedLines) : Except Overflow Result :=
  let name := String.ofList path
  match FileKind.ofPath path with
  | .unsupported =>
    let extension := String.ofList (path.extension?.getD [])
    .ok (.failed name (.unsupportedFileType extension))
  | kind =>
    if added.isEmpty then .ok (.empty name)
    else match w.files.readLenient (Path.resolve w.root path) with
      | .ok text => w.extractText path kind text added
      | .error _ => .ok (.failed name .fileNotReadable)

def extractFile (w : Workspace) (path : Path) (added : AddedLines) : Result :=
  match w.route path added with
  | .ok result => result
  | .error e => .failed (String.ofList path) (.unexpected e.message)

def extractDiff (w : Workspace) (path : Path) (diff : List Char) : Except Overflow Result := do
  return w.extractFile path (← AddedLines.ofDiff diff)

end Workspace

/-! ## Several files -/

/-- Results by path, in the order of the paths' bytes. -/
abbrev Results := List (String × Result)

/-- Puts a result under its path, in place of one that is there. -/
def Results.insert (path : String) (result : Result) : Results → Results
  | [] => [(path, result)]
  | (p, r) :: rest =>
    if path < p then (path, result) :: (p, r) :: rest
    else if path = p then (path, result) :: rest
    else (p, r) :: Results.insert path result rest

/-- The results for several files, each given by its path and its diff. -/
def Workspace.extractMany (w : Workspace) (changes : List (Path × List Char)) :
    Except Overflow Results :=
  changes.foldlM (fun results change => do
    let result ← w.extractDiff change.1 change.2
    return results.insert (String.ofList change.1) result) []

end DiffScope.Extract
