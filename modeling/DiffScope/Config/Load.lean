import DiffScope.Config.Document
import DiffScope.Project.Files
import DiffScope.Text.Blank

/-!
# Where settings come from

Settings come from a document, and environment variables override them one by one. Values of
variables that are no counts are passed over. A document of settings can be saved as a file.
-/

namespace DiffScope

open Project

/-- Values of environment variables. -/
abbrev Environment := List (String × String)

def Environment.get? (env : Environment) (name : String) : Option String :=
  (env.find? fun v => v.1 = name).map Prod.snd

namespace Config

open DiffScope.Text

def variableCount? (env : Environment) (name : String) : Option Nat :=
  (env.get? name).bind fun value => signedCount? (trim value.toList)

/-- Settings as far as variables do not override them. -/
def override (env : Environment) (c : Config) : Config :=
  Setting.all.foldl (fun c s =>
    match variableCount? env s.environmentName with
    | some value => c.set s value
    | none => c) c

/-! ## Documents -/

def ofDocument (text : List Char) : Except Error Config :=
  match ofToml? text with
  | some c => c.validate
  | none => .error .parseFailed

def ofFile (fs : Files) (path : Path) : Except Error Config :=
  if fs.contains path then
    match fs.readStrict path with
    | .ok text => ofDocument text
    | .error e => .error (.loadFailed e.message)
  else .error (.fileNotFound (String.ofList path))

/-- The files with settings saved under a path that can be written. They are not checked before. -/
def save (fs : Files) (path : Path) (c : Config) : Except Error Files :=
  c.toToml.map (fs.write path)

/-- The settings of a file that is asked for. -/
def load (fs : Files) (env : Environment) (path : Path) : Except Error Config := do
  ((← ofFile fs path).override env).validate

/-! ## The usual place -/

/-- The directory that holds the settings of all programs. -/
def configDir (env : Environment) : Path :=
  match env.get? "XDG_CONFIG_HOME", env.get? "HOME" with
  | some dir, _ => dir.toList
  | none, some home => Path.join home.toList ".config".toList
  | none, none => ['.']

/-- The directory that holds the settings of this program. -/
def ownConfigDir (env : Environment) : Path :=
  (configDir env).join "diff-context".toList

/-- The file that is looked for when none is asked for. -/
def usualPath (env : Environment) : Path :=
  (ownConfigDir env).join "config.toml".toList

/-- The settings of the usual file, or the defaults without one. -/
def loadUsual (fs : Files) (env : Environment) : Except Error Config := do
  let c ← if fs.contains (usualPath env) then ofFile fs (usualPath env) else .ok default
  (c.override env).validate

end Config

end DiffScope
