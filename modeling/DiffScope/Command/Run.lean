import DiffScope.Command.Arguments
import DiffScope.Diff.Encoding
import DiffScope.Extract.Extractor
import DiffScope.Json.Printer
import DiffScope.Report.Encoding
import DiffScope.Report.Schema

/-!
# The program

What the program prints and how it ends, given its arguments, the environment, its input and the
files that can be looked at.
-/

namespace DiffScope.Command

open DiffScope.Diff DiffScope.Extract DiffScope.Project DiffScope.Report DiffScope.Syntax
open DiffScope.Text

/-- What is left of a run. -/
structure Outcome where
  /-- How the program ends; zero if all went well. -/
  code : Nat
  stdout : String
  stderr : String
  deriving DecidableEq, Repr

/-- Where a run takes place. -/
structure Setting where
  env : Environment
  stdin : List UInt8
  files : Files
  parser : Parser
  /-- How the work on each file goes. -/
  course : Path → Stage → Course

/-- Why a run ends early. -/
inductive Failure where
  /-- What was to be done, and why it could not be. -/
  | refused (task cause : String)
  | overflow (e : Overflow)
  deriving DecidableEq, Repr

/-- A text whose lines but the first are set in. -/
def indented (text : String) : String :=
  String.ofList (text.toList.flatMap fun c => if c = '\n' then "\n    ".toList else [c])

/-- How a run ends that ends early. -/
def Failure.outcome : Failure → Outcome
  | refused task cause => ⟨1, "", "Error: " ++ task ++ "\n\nCaused by:\n    " ++ indented cause ++ "\n"⟩
  | overflow e => ⟨101, "", e.message ++ "\n"⟩

/-- A run that may end early. -/
abbrev Run := Except Failure

/-- A result whose counts stay within their bound. -/
def checked {α : Type} (value : Except Overflow α) : Run α :=
  value.mapError .overflow

/-- The diff that is asked for; a hyphen is the input. -/
def readDiff (s : Setting) (path : Path) : Run (List Char) :=
  if path = ['-'] then
    match strictText? s.stdin with
    | some text => .ok text
    | none => .error (.refused "Failed to read diff from stdin" ReadError.notText.message)
  else
    (s.files.readStrict path).mapError fun e =>
      .refused ("Failed to read diff file " ++ String.ofList path) e.message

/-- Something that settings are needed for, if they can be used. -/
def withSettings {α : Type} (value : Except Config.Error α) : Run α :=
  value.mapError fun e => .refused e.message e.cause

def readConfig (s : Setting) (path : Option Path) : Run Config :=
  withSettings (match path with
    | some path => Config.load s.files s.env path
    | none => Config.loadUsual s.files s.env)

def printLines (s : Setting) (path : Path) (strict : Bool) : Run Outcome := do
  let diff ← readDiff s path
  let map ←
    if strict then
      (← checked (LineMap.ofStrictDiff diff)).mapError fun e =>
        .refused ("Rejected diff " ++ String.ofList path) e.message
    else checked (LineMap.ofDiff diff)
  return ⟨0, map.toJson.pretty ++ "\n", ""⟩

def printResult (r : Result) : Format → Outcome
  | .json => ⟨0, r.toJson.pretty ++ "\n", ""⟩
  | .text =>
    ⟨0, r.render, String.join ((r.errors ++ r.warnings).map fun tag =>
      r.filePath ++ ": " ++ tag ++ "\n")⟩

def Request.perform (s : Setting) : Request → Run Outcome
  | .lines diff strict => printLines s diff strict
  | .extract diff path root config format => do
    let config ← readConfig s config
    let extractor ← withSettings (Extractor.ofConfig config)
    let text ← readDiff s diff
    let result ← checked ((extractor.workspace s.files root s.parser s.course).extractDiff path text)
    return printResult result format
  | .schema => .ok ⟨0, resultSchema.pretty ++ "\n", ""⟩
  | .help => .ok ⟨0, "Usage: diff-context [--verbose] <lines|extract|schema> [OPTIONS]\n", ""⟩

def run (s : Setting) (args : List String) : Outcome :=
  match requestOfArgs? s.env args with
  | none => ⟨2, "", "error: the arguments are not understood\n"⟩
  | some request =>
    match request.perform s with
    | .ok outcome => outcome
    | .error failure => failure.outcome

/-- The paths that a run may look at. -/
def pathsOf (env : Environment) (args : List String) : List Path :=
  match requestOfArgs? env args with
  | some (.lines diff _) => [diff]
  | some (.extract diff path root config _) =>
    [diff, Path.resolve root path, config.getD (Config.usualPath env)]
  | _ => []

end DiffScope.Command
