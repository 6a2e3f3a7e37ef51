import DiffScope.Grammar.Automaton
import DiffScope.Grammar.Script
import DiffScope.Grammar.Typed
import DiffScope.Text.Blank

/-!
# Script languages

The languages that scripts are written in, how each is recognised, and the automaton that reads it.
-/

namespace DiffScope.Syntax

open DiffScope.Text

/-- A language of scripts. -/
inductive Language where
  | javaScript
  /-- JavaScript with markup in it. -/
  | jsx
  | typeScript
  /-- TypeScript with markup in it. -/
  | tsx
  deriving DecidableEq, Repr

def scriptAutomaton : Thunk Grammar.Automaton :=
  Thunk.mk fun _ => .ofTable Grammar.Script.grammar.table

def typedAutomaton : Thunk Grammar.Automaton :=
  Thunk.mk fun _ => .ofTable (Grammar.Typed.grammar .bare).table

def typedMarkupAutomaton : Thunk Grammar.Automaton :=
  Thunk.mk fun _ => .ofTable (Grammar.Typed.grammar .markup).table

namespace Language

def name : Language → String
  | javaScript => "JavaScript"
  | jsx => "JavaScript (JSX)"
  | typeScript => "TypeScript"
  | tsx => "TypeScript (TSX)"

/-- The automaton that reads the language; the one of plain scripts knows markup anyway. -/
def automaton : Language → Grammar.Automaton
  | javaScript | jsx => scriptAutomaton.get
  | typeScript => typedAutomaton.get
  | tsx => typedMarkupAutomaton.get

def ofExtension? (extension : List Char) : Option Language :=
  match String.ofList (lower extension) with
  | "js" | "mjs" | "cjs" => some javaScript
  | "jsx" => some jsx
  | "ts" | "mts" | "cts" => some typeScript
  | "tsx" => some tsx
  | _ => none

/-- The language that a script block of a component names; without a name it is JavaScript. -/
def ofAttribute? : Option (List Char) → Option Language
  | none => some javaScript
  | some name =>
    match String.ofList (lower (trim name)) with
    | "" | "js" | "javascript" => some javaScript
    | "jsx" => some jsx
    | "ts" | "typescript" => some typeScript
    | "tsx" => some tsx
    | _ => none

end Language

end DiffScope.Syntax
