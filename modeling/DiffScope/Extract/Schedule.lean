import DiffScope.Extract.File

/-!
# Several files at a time

The files of a batch are started one after another, no more at a time than the settings allow, and
come to an end in any order. The result of a file is put under its path when the file comes to an end.
-/

namespace DiffScope.Extract

open DiffScope.Project

/-- How many files are handled at a time, which is never none. -/
def Workspace.limit (w : Workspace) : Nat := max w.config.concurrency 1

/-- What a batch has come to. -/
structure Batch where
  /-- Files that are still to be started. -/
  waiting : List (Path × List Char)
  /-- Files that were started and have not come to an end, in the order of their start. -/
  inFlight : List (Path × List Char)
  results : Results

namespace Batch

def start (changes : List (Path × List Char)) : Batch := ⟨changes, [], []⟩

/-- Every file came to an end. -/
def IsDone (b : Batch) : Prop := b.waiting = [] ∧ b.inFlight = []

/-- What may happen next: the next file is started, or one of those in flight comes to an end. -/
inductive Step (w : Workspace) : Batch → Batch → Prop
  | start {change : Path × List Char} {waiting inFlight : List (Path × List Char)}
      {results : Results} (room : inFlight.length < w.limit) :
      Step w ⟨change :: waiting, inFlight, results⟩ ⟨waiting, inFlight ++ [change], results⟩
  | finish {change : Path × List Char} (before after : List (Path × List Char))
      {waiting : List (Path × List Char)} {results : Results} {r : Report.Result}
      (extracts : w.extractDiff change.1 change.2 = .ok r) :
      Step w ⟨waiting, before ++ change :: after, results⟩
        ⟨waiting, before ++ after, results.insert (String.ofList change.1) r⟩

/-- A file in flight whose diff cannot be read breaks the batch off. -/
def Breaks (w : Workspace) (b : Batch) : Prop :=
  ∃ change ∈ b.inFlight, ∃ e, w.extractDiff change.1 change.2 = .error e

/-- What a batch may come to in so many steps. -/
inductive Runs (w : Workspace) : Nat → Batch → Batch → Prop
  | none {b : Batch} : Runs w 0 b b
  | next {n : Nat} {a b c : Batch} (run : Runs w n a b) (step : Step w b c) : Runs w (n + 1) a c

end Batch

end DiffScope.Extract
