import DiffScope.Diff.AddedLines
import DiffScope.Scope.DepthGuard
import DiffScope.Scope.Name

/-!
# Candidates

The units of a syntax tree whose lines meet a set of added lines. The search goes down only where
the lines of a node meet the set, and ends where it would go deeper than allowed or where a unit does
not lie in the text; what was found until then stands beside why it ended.
-/

namespace DiffScope.Scope

open DiffScope.Diff DiffScope.Syntax

/-- A unit that holds added lines. -/
structure Candidate where
  kind : Kind
  name : String
  startLine : Nat
  endLine : Nat
  /-- Characters before the unit. -/
  start : Nat
  /-- Characters before its end. -/
  stop : Nat
  /-- The added lines from the first line to the last, ascending. -/
  addedLines : List Nat
  option : Option String
  deriving DecidableEq, Repr, Inhabited

def Candidate.size (c : Candidate) : Except Overflow Nat :=
  lineSpan c.startLine c.endLine

/-- Whether units are also given the option of a component that they are declared in. -/
inductive Naming where
  /-- They are not. -/
  | plain
  /-- They are. -/
  | options
  deriving DecidableEq, Repr

/-- The option that a unit is given; one whose key does not lie in the text is left out. -/
def Naming.option? (naming : Naming) (s : Source) (f : Focus) : Option String :=
  match naming with
  | .plain => none
  | .options => (optionOf s f).toOption.join

/-- What a search needs to know. -/
structure Search where
  source : Source
  /-- The lines that units have to meet. -/
  added : AddedLines
  naming : Naming

namespace Search

/-- Whether the lines of a node meet the set. -/
def meets (s : Search) (t : Tree) : Bool :=
  s.added.intersects (s.source.line t.start) (s.source.line t.stop)

/-- Whether a node covers text that is there. -/
def isTangible (t : Tree) : Bool :=
  !t.face.isMissing && t.start < t.stop

/-- The candidate that a node is, if any, unless the node or its name does not lie in the text. -/
def candidate? (s : Search) (f : Focus) : Except String (Option Candidate) :=
  match kind? f with
  | none => .ok none
  | some kind =>
    if isTangible f.tree then
      let startLine := s.source.line f.tree.start
      let endLine := s.source.line f.tree.stop
      match s.source.get? f.tree.start f.tree.stop with
      | none => .error (f.tree.kind ++ " at line " ++ toString startLine
          ++ " has a span outside the source")
      | some _ => do
        let name ← nameOf s.source f
        return some {
          kind
          name
          startLine
          endLine
          start := f.tree.start
          stop := f.tree.stop
          addedLines := s.added.within startLine endLine
          option := s.naming.option? s.source f }
    else .ok none

/-- Why a search ended before it went as far as there was anything to find. -/
inductive Halt where
  /-- It would have gone deeper than allowed. -/
  | depth
  /-- A unit or its name does not lie in the text. -/
  | outside (reason : String)
  deriving DecidableEq, Repr

/-- What a search found until it ended, and why it ended early if it did. -/
structure Found where
  candidates : List Candidate
  halt : Option Halt
  deriving Repr

namespace Found

/-- The search would have gone deeper than allowed. What it found until then is kept. -/
def isCut (a : Found) : Bool := a.halt = some .depth

/-- Why nothing of what the search found is kept. -/
def failure? (a : Found) : Option String :=
  match a.halt with
  | some (.outside reason) => some reason
  | _ => none

/-- The finds of one search and of the next, which does not take place if the first ended early. -/
def andThen (a : Found) (b : Unit → Found) : Found :=
  if a.halt.isSome then a else
    let b := b ()
    ⟨a.candidates ++ b.candidates, b.halt⟩

end Found

mutual

/-- Searches a node and what is below it. -/
def visit (s : Search) (guard : DepthGuard) (index : Nat) (above : List Tree) : Tree → Found
  | .node face children =>
    if s.meets (.node face children) then
      match s.candidate? ⟨.node face children, index, above⟩ with
      | .error reason => ⟨[], some (.outside reason)⟩
      | .ok here =>
        if children.isEmpty then ⟨here.toList, none⟩
        else match guard.enter? with
          | none => ⟨here.toList, some .depth⟩
          | some guard =>
            let below := visitAll s guard 0 (.node face children :: above) children
            ⟨here.toList ++ below.candidates, below.halt⟩
    else ⟨[], none⟩

/-- Searches nodes beside one another and what is below them. -/
def visitAll (s : Search) (guard : DepthGuard) (index : Nat) (above : List Tree) :
    List Tree → Found
  | [] => ⟨[], none⟩
  | t :: ts =>
    (visit s guard index above t).andThen fun _ => visitAll s guard (index + 1) above ts

end

/-- The candidates of a tree, down to a depth. -/
def run (s : Search) (maxDepth : Nat) (t : Tree) : Found := visit s (.start maxDepth) 0 [] t

end Search

end DiffScope.Scope
