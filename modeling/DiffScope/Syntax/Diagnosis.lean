import DiffScope.Syntax.Focus
import DiffScope.Syntax.Parser
import DiffScope.Syntax.Source

/-!
# Syntax errors

What is wrong in a script that was read: the nodes that hold skipped text and the nodes that were
put in. A tree of nothing but broken nodes is of no use.
-/

namespace DiffScope.Syntax

/-- What is wrong with a node. -/
inductive FaultKind where
  /-- It holds skipped text. -/
  | broken
  /-- The text lacks it. -/
  | missing
  deriving DecidableEq, Repr

def FaultKind.name : FaultKind → String
  | broken => "error"
  | missing => "missing"

/-- A syntax error and where it is. -/
structure Fault where
  kind : FaultKind
  /-- Line, counted from one. -/
  line : Nat
  /-- Bytes before it in its line. -/
  column : Nat
  nodeKind : String
  deriving DecidableEq, Repr

/-- What is wrong with a node, if anything is. -/
def faultOf? (s : Source) (f : Face) : Option Fault :=
  if f.isMissing then some ⟨.missing, s.line f.start, s.column f.start, f.kind⟩
  else if f.isBroken then some ⟨.broken, s.line f.start, s.column f.start, f.kind⟩
  else none

mutual

/-- What is wrong in a tree, from the front. -/
def faultsOf (s : Source) : Tree → List Fault
  | .node face children => (faultOf? s face).toList ++ faultsOfAll s children

/-- What is wrong in trees beside one another, from the front. -/
def faultsOfAll (s : Source) : List Tree → List Fault
  | [] => []
  | t :: ts => faultsOf s t ++ faultsOfAll s ts

end

/-- Faults that are described one by one; more are only counted. -/
def describedFaults : Nat := 20

/-- Whether a tree is of no use: its root is broken, or all named nodes below the root are and
there are some. -/
def isUseless (t : Tree) : Bool :=
  let named := t.children.filter fun c => c.face.isNamed
  t.face.isBroken || (!named.isEmpty && named.all fun c => c.face.isBroken)

/-- A script that was read. -/
structure Parsed where
  source : Source
  tree : Tree
  /-- The first faults. -/
  faults : List Fault
  /-- How many faults there are in all. -/
  faultCount : Nat

namespace Parsed

def isClean (p : Parsed) : Bool := p.faultCount = 0

/-- A tree with what is wrong in it. -/
def ofTree (s : Source) (t : Tree) : Parsed :=
  let faults := faultsOf s t
  ⟨s, t, faults.take describedFaults, faults.length⟩

/-- The wording for a tree that is of no use. -/
def refusal (language : Language) (p : Parsed) : String :=
  let place := match p.faults.head? with
    | some f => " (first at " ++ toString f.line ++ ":" ++ toString f.column ++ ")"
    | none => ""
  "no usable " ++ language.name ++ " syntax tree, " ++ toString p.faultCount
    ++ " syntax error(s)" ++ place

/-- Reads a script with a parser; answers why if there is no tree of it or its tree is of no use. -/
def ofText (parser : Parser) (language : Language) (text : List Char) : Except String Parsed :=
  match parser.read language text with
  | .error failure => .error (failure.message language)
  | .ok t =>
    let p := ofTree (.ofText text) t
    if isUseless t then .error (p.refusal language) else .ok p

end Parsed

end DiffScope.Syntax
