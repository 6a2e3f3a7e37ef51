import DiffScope.Scope.Candidate

/-!
# Selection

Of the candidates those are kept that account for an added line: each line goes to the smallest
candidate that holds it, of equally small ones to the one that starts first, and then to the one that
was found first.
-/

namespace DiffScope.Scope

open DiffScope.Diff

/-- A kept candidate and the lines it accounts for. -/
structure Selected where
  candidate : Candidate
  /-- The lines, ascending. -/
  accountsFor : List Nat
  deriving DecidableEq, Repr

/-- A candidate with what decides its turn. -/
structure Ranked where
  size : Nat
  index : Nat
  candidate : Candidate
  deriving Repr

/-- Whether a candidate comes before another: by size, then by first line, then as found. -/
def Ranked.precedes (a b : Ranked) : Bool :=
  a.size < b.size || (a.size = b.size &&
    (a.candidate.startLine < b.candidate.startLine ||
      (a.candidate.startLine = b.candidate.startLine && a.index ≤ b.index)))

/-- The candidates with what decides their turn, numbered from a number on. -/
def rankFrom (index : Nat) : List Candidate → Except Overflow (List Ranked)
  | [] => .ok []
  | c :: cs => do
    let size ← c.size
    return ⟨size, index, c⟩ :: (← rankFrom (index + 1) cs)

/-- Gives lines to candidates in their turn; lines already given are passed over. -/
def assign (added : AddedLines) : List Nat → List Ranked → List (Ranked × List Nat)
  | _, [] => []
  | covered, r :: rs =>
    let fresh := r.candidate.addedLines.filter fun l => added.contains l && !covered.contains l
    if fresh.isEmpty then assign added covered rs
    else (r, fresh) :: assign added (fresh ++ covered) rs

/-- The candidates that account for added lines, in the order in which they were found. -/
def select (candidates : List Candidate) (added : AddedLines) :
    Except Overflow (List Selected) :=
  match candidates with
  | [] => .ok []
  | [c] => .ok [⟨c, c.addedLines⟩]
  | cs => do
    let ranked ← rankFrom 0 cs
    let picks := assign added [] (ranked.mergeSort Ranked.precedes)
    let ordered := picks.mergeSort fun a b => a.1.index ≤ b.1.index
    return ordered.map fun p => ⟨p.1.candidate, p.2⟩

end DiffScope.Scope
