import DiffScope.Syntax.Language
import DiffScope.Syntax.Tree

/-!
# Parsers

A parser reads the tree of a script. What is told of a script is told by any parser; the one at hand
reads by the automaton of the language.
-/

namespace DiffScope.Syntax

/-- Why no tree is read. -/
inductive ReadFailure where
  /-- The grammar of the language cannot be used. -/
  | noGrammar (reason : String)
  /-- There is no tree of the text. -/
  | noTree
  deriving DecidableEq, Repr

def ReadFailure.message (language : Language) : ReadFailure → String
  | noGrammar reason => "failed to load " ++ language.name ++ " grammar: " ++ reason
  | noTree => language.name ++ " parser produced no tree"

/-- What reads scripts. -/
structure Parser where
  /-- The tree of a script in a language. -/
  read : Language → List Char → Except ReadFailure Tree

/-- The parser that reads by the automaton of the language. What goes on behind the text is no tree
of it. -/
def Parser.builtIn : Parser where
  read language text :=
    match Tree.ofText language.automaton text with
    | some t => if t.stop ≤ text.length then .ok t else .error .noTree
    | none => .error .noTree

end DiffScope.Syntax
