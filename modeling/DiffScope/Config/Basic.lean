import DiffScope.Overflow

/-!
# Settings

The six settings with their names, defaults and the values they may have. Five of them are limits
that have to be positive.
-/

namespace DiffScope.Config

/-- The tables that settings are grouped in. -/
inductive Group where
  /-- Limits on the context of one file. -/
  | analysis
  /-- How several files are handled. -/
  | runtime
  deriving DecidableEq, Repr

/-- What can be set. -/
inductive Setting where
  /-- Characters of a snippet. -/
  | maxSnippetChars
  /-- Lines of a unit that is shown whole. -/
  | maxBlockLines
  /-- Depth of the syntax tree that is searched. -/
  | maxDepth
  /-- Milliseconds for reading one text. -/
  | timeoutMs
  /-- Lines shown on either side of an added line. -/
  | windowRadius
  /-- Files handled at a time. -/
  | concurrency
  deriving DecidableEq, Repr

namespace Group

def all : List Group := [analysis, runtime]

def name : Group → String
  | analysis => "analysis"
  | runtime => "runtime"

end Group

namespace Setting

def all : List Setting :=
  [maxSnippetChars, maxBlockLines, maxDepth, timeoutMs, windowRadius, concurrency]

def group : Setting → Group
  | concurrency => .runtime
  | _ => .analysis

def name : Setting → String
  | maxSnippetChars => "max_snippet_chars"
  | maxBlockLines => "max_block_lines"
  | maxDepth => "max_depth"
  | timeoutMs => "timeout_ms"
  | windowRadius => "window_radius"
  | concurrency => "concurrency"

def key (s : Setting) : String :=
  s.group.name ++ "." ++ s.name

def environmentName : Setting → String
  | maxSnippetChars => "DIFF_CONTEXT_MAX_SNIPPET_CHARS"
  | maxBlockLines => "DIFF_CONTEXT_MAX_BLOCK_LINES"
  | maxDepth => "DIFF_CONTEXT_MAX_DEPTH"
  | timeoutMs => "DIFF_CONTEXT_TIMEOUT_MS"
  | windowRadius => "DIFF_CONTEXT_WINDOW_RADIUS"
  | concurrency => "DIFF_CONTEXT_CONCURRENCY"

def default : Setting → Nat
  | maxSnippetChars => 6000
  | maxBlockLines => 120
  | maxDepth => 512
  | timeoutMs => 5000
  | windowRadius => 8
  | concurrency => 4

/-- Whether the value has to be positive; a radius of zero shows only the added lines. -/
def isLimit : Setting → Bool
  | windowRadius => false
  | _ => true

end Setting

end Config

open Config

/-- A value for each setting. -/
structure Config where
  maxSnippetChars : Nat
  maxBlockLines : Nat
  maxDepth : Nat
  timeoutMs : Nat
  windowRadius : Nat
  concurrency : Nat
  deriving DecidableEq, Repr, Inhabited

namespace Config

def get (c : Config) : Setting → Nat
  | .maxSnippetChars => c.maxSnippetChars
  | .maxBlockLines => c.maxBlockLines
  | .maxDepth => c.maxDepth
  | .timeoutMs => c.timeoutMs
  | .windowRadius => c.windowRadius
  | .concurrency => c.concurrency

def set (c : Config) (s : Setting) (value : Nat) : Config :=
  match s with
  | .maxSnippetChars => { c with maxSnippetChars := value }
  | .maxBlockLines => { c with maxBlockLines := value }
  | .maxDepth => { c with maxDepth := value }
  | .timeoutMs => { c with timeoutMs := value }
  | .windowRadius => { c with windowRadius := value }
  | .concurrency => { c with concurrency := value }

def default : Config :=
  { maxSnippetChars := Setting.maxSnippetChars.default
    maxBlockLines := Setting.maxBlockLines.default
    maxDepth := Setting.maxDepth.default
    timeoutMs := Setting.timeoutMs.default
    windowRadius := Setting.windowRadius.default
    concurrency := Setting.concurrency.default }

theorem get_set (c : Config) (s t : Setting) (value : Nat) :
    (c.set s value).get t = if t = s then value else c.get t := by
  cases s <;> cases t <;> rfl

/-! ## Validity -/

/-- Why settings cannot be used. -/
inductive Error where
  /-- The file cannot be read. -/
  | loadFailed (reason : String)
  /-- The file is no document of settings. -/
  | parseFailed
  /-- A limit is zero. -/
  | invalidValue (setting : Setting)
  | saveFailed
  | fileNotFound (path : String)
  deriving DecidableEq, Repr

def Error.cause : Error → String
  | loadFailed reason =>
    "Failed to load configuration file: Failed to read config file: " ++ reason
  | parseFailed => "Failed to parse configuration: Invalid TOML"
  | invalidValue s =>
    "Invalid configuration value for '" ++ s.key ++ "': must be greater than 0"
  | saveFailed => "Failed to save configuration: Failed to serialize config"
  | fileNotFound path => "Configuration file not found: " ++ path

def Error.message (e : Error) : String :=
  "Configuration error: " ++ e.cause

/-- The settings if every limit is positive, and else the first that is not. -/
def validate (c : Config) : Except Error Config :=
  match Setting.all.find? fun s => s.isLimit && c.get s = 0 with
  | some s => .error (.invalidValue s)
  | none => .ok c

theorem eq_of_validate {c d : Config} (passes : c.validate = .ok d) : d = c := by
  unfold validate at passes
  split at passes
  · cases passes
  · exact (Except.ok.inj passes).symm

end Config

end DiffScope
