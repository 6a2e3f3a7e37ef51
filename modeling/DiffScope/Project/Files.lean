import DiffScope.Project.Path
import DiffScope.Text.Utf8

/-!
# Files of a project

What paths lead to, and what is read from there. Below a directory a path is followed part by part:
every part but the last has to lead to a directory. Of what lies elsewhere nothing is known.
-/

namespace DiffScope.Project

open DiffScope.Text

/-- What a name in a project leads to. -/
inductive Item where
  | file (bytes : List UInt8)
  | directory
  deriving Repr

/-- Why a file cannot be read. -/
inductive ReadError where
  | notFound
  /-- A file stands where a directory should. -/
  | notDirectory
  | isDirectory
  | notText
  deriving DecidableEq, Repr

def ReadError.message : ReadError → String
  | notFound => "No such file or directory (os error 2)"
  | notDirectory => "Not a directory (os error 20)"
  | isDirectory => "Is a directory (os error 21)"
  | notText => "stream did not contain valid UTF-8"

/-- The files that can be looked at. -/
structure Files where
  lookup : Path → Except ReadError Item

namespace Files

def contains (fs : Files) (p : Path) : Bool :=
  match fs.lookup p with
  | .ok _ => true
  | .error _ => false

def readBytes (fs : Files) (p : Path) : Except ReadError (List UInt8) := do
  match ← fs.lookup p with
  | .file bytes => .ok bytes
  | .directory => .error .isDirectory

/-- The text of a file; broken stretches are replaced. -/
def readLenient (fs : Files) (p : Path) : Except ReadError (List Char) :=
  (fs.readBytes p).map lenientText

/-- The text of a file without broken stretches. -/
def readStrict (fs : Files) (p : Path) : Except ReadError (List Char) := do
  match strictText? (← fs.readBytes p) with
  | some text => .ok text
  | none => .error .notText

/-- The files after a text has been written under a path that can be written. Paths that are spelt
otherwise are taken to lead elsewhere. -/
def write (fs : Files) (p : Path) (text : List Char) : Files where
  lookup q := if q = p then .ok (.file (String.ofList text).toUTF8.data.toList) else fs.lookup q

end Files

/-! ## Directories -/

/-- A directory: what lies below it, each item under the parts of its path. Directories above an
item need not be listed. -/
structure Directory where
  /-- Paths with what they lead to. -/
  items : List (List (List Char) × Item)
  deriving Repr

namespace Directory

/-- What lies under the parts of a path. -/
def at? (d : Directory) (parts : List (List Char)) : Option Item :=
  match d.items.find? fun i => i.1 = parts with
  | some i => some i.2
  | none =>
    if parts.isEmpty || d.items.any (fun i => parts.isPrefixOf i.1) then some .directory
    else none

/-- Follows parts of a path from a place below the directory. -/
def follow (d : Directory) (place : List (List Char)) :
    List (List Char) → Except ReadError Item
  | [] =>
    match d.at? place with
    | some item => .ok item
    | none => .error .notFound
  | part :: rest =>
    match d.at? place with
    | none => .error .notFound
    | some (.file _) => .error .notDirectory
    | some .directory =>
      if part.isEmpty ∨ part = ['.'] then follow d place rest
      else if part = ['.', '.'] then
        if place.isEmpty then .error .notFound else follow d place.dropLast rest
      else follow d (place ++ [part]) rest

def lookup (d : Directory) (p : Path) : Except ReadError Item :=
  if p.isEmpty then .error .notFound
  else if p.isAbsolute then
    if p.parts.isEmpty then .ok .directory else .error .notFound
  else d.follow [] (split '/' p)

def files (d : Directory) : Files := ⟨d.lookup⟩

def ofFile (name : List Char) (item : Item) : Directory := ⟨[([name], item)]⟩

end Directory

end DiffScope.Project
