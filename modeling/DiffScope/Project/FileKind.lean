import DiffScope.Project.Path
import DiffScope.Syntax.Language

/-!
# Kinds of files

How a changed file is looked at, which its extension alone decides.
-/

namespace DiffScope.Project

open DiffScope.Syntax

/-- How a file is looked at. -/
inductive FileKind where
  | script (language : Language)
  /-- As a component made up of blocks. -/
  | component
  /-- Not at all. -/
  | unsupported
  deriving DecidableEq, Repr

namespace FileKind

def ofPath (p : Path) : FileKind :=
  match p.extension? with
  | none => unsupported
  | some extension =>
    if extension = "vue".toList then component
    else match Language.ofExtension? extension with
      | some language => script language
      | none => unsupported

def name : FileKind → String
  | script language => language.name
  | component => "component"
  | unsupported => "unsupported"

end FileKind

end DiffScope.Project
