import DiffScope.Text.Blank
import DiffScope.Text.Lines

/-!
# File paths

Paths are texts whose parts stand between slashes. Empty parts and single points say nothing about
where a path leads.
-/

namespace DiffScope.Project

open DiffScope.Text

/-- A path, as it is spelt. -/
abbrev Path := List Char

namespace Path

/-- Whether a path begins at the root of the file system. -/
def isAbsolute (p : Path) : Bool :=
  p.head? = some '/'

/-- The parts that say where a path leads. -/
def parts (p : Path) : List (List Char) :=
  (split '/' p).filter fun part => !part.isEmpty && part ≠ ['.']

/-- A path and a path below it. -/
def join (p : Path) (below : Path) : Path :=
  if below.isAbsolute then below
  else if p.isEmpty || p.getLast? = some '/' then p ++ below
  else p ++ '/' :: below

/-- Where a path leads from a directory. -/
def resolve (root p : Path) : Path :=
  if p.isAbsolute then p else p.parts.foldl join root

/-- The name of what a path leads to, unless that is a step up. -/
def fileName? (p : Path) : Option (List Char) :=
  match p.parts.getLast? with
  | some name => if name = ['.', '.'] then none else some name
  | none => none

/-- What stands behind the last point of a file name; a point at the start of the name does not
count. -/
def extensionOf? (name : List Char) : Option (List Char) :=
  let behind := name.reverse.takeWhile (· ≠ '.')
  let before := (name.reverse.dropWhile (· ≠ '.')).drop 1
  if before.isEmpty then none else some behind.reverse

/-- The extension of a path in small letters. -/
def extension? (p : Path) : Option (List Char) :=
  (p.fileName?.bind extensionOf?).map lower

end Path

end DiffScope.Project
