import DiffScope.Config.Basic
import DiffScope.Json.Value
import DiffScope.Toml.Reader

/-!
# Settings in documents

Settings are read from values of a notation that has records and counts, and written as two tables.
A setting that a document does not give has its default.
-/

namespace DiffScope.Config

/-- How records and counts are read in a notation. -/
structure Reading (α : Type) where
  /-- The count that a value is. -/
  count? : α → Option Nat
  /-- The fields of a record with these names. -/
  fields? : List String → α → Option (String → Option α)

def Reading.json : Reading Json := ⟨Json.count?, Json.fields?⟩

def Reading.toml : Reading Toml := ⟨Toml.count?, Toml.fields?⟩

def Group.settings (g : Group) : List Setting :=
  Setting.all.filter fun s => s.group = g

/-- Settings with the values that a table of a group gives. -/
def readGroup {α : Type} (r : Reading α) (g : Group) (table : α) (c : Config) : Option Config := do
  let field ← r.fields? (g.settings.map Setting.name) table
  g.settings.foldlM (fun c s =>
    match field s.name with
    | some value => (r.count? value).map (c.set s)
    | none => some c) c

def read {α : Type} (r : Reading α) (document : α) : Option Config := do
  let field ← r.fields? (Group.all.map Group.name) document
  Group.all.foldlM (fun c g =>
    match field g.name with
    | some table => readGroup r g table c
    | none => some c) default

def ofJson? (j : Json) : Option Config := read .json j

/-- The limits of a JSON value that holds only those. -/
def limitsOfJson? (j : Json) : Option Config := readGroup .json .analysis j default

def ofToml? (text : List Char) : Option Config :=
  (Toml.ofText? text).bind (read .toml)

def toJson (c : Config) : Json :=
  .object (Group.all.map fun g =>
    (g.name, .object (g.settings.map fun s => (s.name, .natural (c.get s)))))

/-- The greatest number that a TOML text can hold, one less than two to the power of 63. -/
def tomlBound : Nat := 9223372036854775807

def tableText (c : Config) (g : Group) : List Char :=
  '[' :: g.name.toList ++ ']' :: '\n' ::
    g.settings.flatMap fun s =>
      s.name.toList ++ " = ".toList ++ Nat.toDigits 10 (c.get s) ++ ['\n']

def toToml (c : Config) : Except Error (List Char) :=
  if Setting.all.all fun s => c.get s ≤ tomlBound then
    .ok (['\n'].intercalate (Group.all.map c.tableText))
  else .error .saveFailed

end DiffScope.Config
