import DiffScope.Config.Load

/-!
# Arguments

What the program is asked to do. Options are long names, with a value of their own or behind an
equals sign; an option comes at most once. A value that looks like an option is none.
-/

namespace DiffScope.Command

open DiffScope.Project DiffScope.Text

/-- How a result is printed. -/
inductive Format where
  | json
  /-- As text, with the tags of issues beside it. -/
  | text
  deriving DecidableEq, Repr

/-- What the program is asked to do. -/
inductive Request where
  | lines (diff : Path) (strict : Bool)
  | extract (diff path root : Path) (config : Option Path) (format : Format)
  | schema
  | help
  deriving DecidableEq, Repr

/-- An option that a command knows. -/
structure Known where
  name : String
  hasValue : Bool

/-- Options that were given, with their values. -/
abbrev Given := List (String × String)

def Given.get? (given : Given) (name : String) : Option String :=
  (given.find? fun g => g.1 = name).map Prod.snd

def looksLikeOption (arg : String) : Bool :=
  match arg.toList with
  | '-' :: _ :: _ => true
  | _ => false

/-- What stands in a row of arguments. -/
inductive Row where
  /-- Options, and the arguments from the first that is none on. -/
  | options (given : Given) (rest : List String)
  | help
  | mistaken
  deriving Repr

def addOnce (given : Given) (name value : String) : Option Given :=
  if (given.get? name).isSome then none else some (given ++ [(name, value)])

/-- Options spelt with single letters. -/
def readLetters (given : Given) : List Char → Row
  | [] => .options given []
  | 'h' :: _ => .help
  | 'v' :: letters =>
    match addOnce given "verbose" "" with
    | some given => readLetters given letters
    | none => .mistaken
  | _ => .mistaken

/-- An option spelt with its name, and the value behind an equals sign. -/
def splitOption (text : List Char) : String × Option String :=
  let name := text.takeWhile (· ≠ '=')
  match text.dropWhile (· ≠ '=') with
  | [] => (String.ofList name, none)
  | _ :: value => (String.ofList name, some (String.ofList value))

/-- The options at the start of a row of arguments. -/
def readRow (known : List Known) (given : Given) : List String → Row
  | [] => .options given []
  | arg :: args =>
    match arg.toList with
    | ['-', '-'] => if args.isEmpty then .options given [] else .mistaken
    | '-' :: '-' :: text =>
      match splitOption text with
      | ("help", none) => .help
      | (name, value) =>
        match known.find? (·.name = name), value with
        | none, _ => .mistaken
        | some k, some v =>
          if k.hasValue then
            match addOnce given name v with
            | some given => readRow known given args
            | none => .mistaken
          else .mistaken
        | some k, none =>
          if k.hasValue then
            match args with
            | [] => .mistaken
            | v :: args =>
              if looksLikeOption v then .mistaken else
                match addOnce given name v with
                | some given => readRow known given args
                | none => .mistaken
          else
            match addOnce given name "" with
            | some given => readRow known given args
            | none => .mistaken
    | '-' :: c :: letters =>
      match readLetters given (c :: letters) with
      | .options given _ => readRow known given args
      | row => row
    | _ => .options given (arg :: args)

/-- The option that every command knows. -/
def verbose : Known := ⟨"verbose", false⟩

/-- A path that an option gives; it cannot be empty. -/
def pathOf? (value : String) : Option Path :=
  if value.isEmpty then none else some value.toList

def Format.ofName? : String → Option Format
  | "json" => some json
  | "text" => some text
  | _ => none

/-- A request to print the lines of a diff. -/
def linesOf? (given : Given) : Option Request := do
  let diff ← pathOf? (← given.get? "diff")
  return .lines diff (given.get? "strict").isSome

/-- A request for the context of a file. A variable may name the settings. -/
def extractOf? (env : Environment) (given : Given) : Option Request := do
  let diff ← pathOf? (← given.get? "diff")
  let path ← given.get? "path"
  let root ← pathOf? ((given.get? "root").getD ".")
  let format ← Format.ofName? ((given.get? "format").getD "json")
  let config ← match (given.get? "config").or (env.get? "DIFF_CONTEXT_CONFIG") with
    | none => some none
    | some value => (pathOf? value).map some
  return .extract diff path.toList root config format

/-- A request whose arguments are all options. -/
def requestOf? (known : List Known) (make : Given → Option Request) (args : List String) :
    Option Request :=
  match readRow (verbose :: known) [] args with
  | .options given [] => make given
  | .help => some .help
  | _ => none

def commandOf? (env : Environment) (name : String) (args : List String) : Option Request :=
  match name with
  | "lines" => requestOf? [⟨"diff", true⟩, ⟨"strict", false⟩] linesOf? args
  | "extract" =>
    requestOf? [⟨"diff", true⟩, ⟨"path", true⟩, ⟨"root", true⟩, ⟨"config", true⟩,
      ⟨"format", true⟩] (extractOf? env) args
  | "schema" => requestOf? [] (fun _ => some .schema) args
  | "help" => if args.all ["lines", "extract", "schema", "help"].contains then some .help else none
  | _ => none

/-- What the program is asked to do, if it is understood. -/
def requestOfArgs? (env : Environment) (args : List String) : Option Request :=
  match args with
  | ["--version"] | ["-V"] => some .help
  | _ =>
    match readRow [verbose] [] args with
    | .options _ (name :: args) => commandOf? env name args
    | .help => some .help
    | _ => none

end DiffScope.Command
