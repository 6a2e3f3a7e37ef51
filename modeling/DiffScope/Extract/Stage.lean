import DiffScope.Component.Layout
import DiffScope.Config.Basic
import DiffScope.Report.Issue
import DiffScope.Syntax.Parser

/-!
# Stages of work

The work on a file is done in stages, and each is waited for up to a deadline. How long a stage takes
is not decided by the file, nor whether it comes to an end at all.
-/

namespace DiffScope.Extract

open DiffScope.Component DiffScope.Report DiffScope.Syntax

/-- A stage of the work on a file. -/
inductive Stage where
  /-- Telling the blocks of a component apart. -/
  | layout
  /-- Reading a script block of a kind and telling its sections. A script file is one plain block. -/
  | script (kind : BlockKind)
  deriving DecidableEq, Repr

/-- How a stage goes. -/
inductive Course where
  /-- It comes to its end after a time. -/
  | ends (milliseconds : Nat)
  /-- It does not come to an end. -/
  | endless
  /-- It breaks off. -/
  | breaks (reason : String)
  deriving DecidableEq, Repr

namespace Course

/-- The issue with a stage that broke off. -/
def broken (stage reason : String) : Issue :=
  .unexpected (stage ++ " task failed: " ++ reason)

/-- What goes wrong with a stage that is waited for so many milliseconds, whatever its work is. -/
def issue? (milliseconds : Nat) (stage : String) : Course → Option Issue
  | ends time => if time ≤ milliseconds then none else some (.timeout stage milliseconds)
  | endless => some (.timeout stage milliseconds)
  | breaks reason => some (broken stage reason)

/-- Waits so many milliseconds for the work of a stage, which breaks off if a count leaves its bound.
Work that is done by the deadline counts. -/
def await {α : Type} (milliseconds : Nat) (stage : String) (work : Except Overflow α)
    (course : Course) : Except Issue α :=
  match course.issue? milliseconds stage with
  | some issue => .error issue
  | none => work.mapError fun e => broken stage e.message

end Course

/-- What decides, besides a text and its added lines, what is told of the text. -/
structure Means where
  config : Config
  parser : Parser
  /-- How each stage goes. -/
  course : Stage → Course

end DiffScope.Extract
