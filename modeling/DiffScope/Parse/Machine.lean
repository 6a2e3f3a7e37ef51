import DiffScope.Parse.Reader
import DiffScope.Parse.Stack

/-!
# Readings of a text

All readings of a text are followed at once. Costs decide between readings that were mended, and
weights between faultless ones.
-/

namespace DiffScope.Parse

open DiffScope.Grammar

/-- How many readings are kept after a round. -/
def maxReadings : Nat := 6

/-- How many more there may be during a round. -/
def maxExcess : Nat := 4

/-- How far back an earlier state is looked for. -/
def maxLandingDepth : Nat := 16

/-- From which difference of costs on the worse reading is dropped. -/
def maxCostDifference : Nat := 18 * skippedNodeCost

/-- What is known of the text so far. -/
structure Machine where
  stack : Stack
  /-- The best finished tree. -/
  finished : Option Green
  accepted : Nat
  deriving Inhabited


/-- What the parser reads: its automaton and the text, as all that is left of it at each place. -/
structure Task where
  automaton : Automaton
  /-- The text from each place on. -/
  rests : Array (List Char)

/-- A step of the parser. -/
abbrev Run := StateM Machine

namespace Run

def stack : Run Stack := do return (← get).stack

def modifyStack (f : Stack → Stack) : Run Unit := modify fun m => { m with stack := f m.stack }

def withStack (f : Stack → α × Stack) : Run α := modifyGet fun m =>
  let (a, s) := f m.stack
  (a, { m with stack := s })

end Run

open Run

/-! ## Comparing readings -/

/-- What decides between two readings. -/
structure Standing where
  cost : Nat
  /-- Progress since the last error. -/
  progress : Nat
  weight : Int
  isBroken : Bool
  deriving Inhabited

/-- How two readings compare. -/
inductive Verdict where
  /-- Only the left one is kept. -/
  | takeLeft
  /-- The left one is better. -/
  | preferLeft
  /-- Neither is better. -/
  | even
  /-- The right one is better. -/
  | preferRight
  /-- Only the right one is kept. -/
  | takeRight
  deriving DecidableEq, Repr

/-- Compares two readings. -/
def Standing.compare (a b : Standing) : Verdict :=
  if !a.isBroken && b.isBroken then (if a.cost < b.cost then .takeLeft else .preferLeft)
  else if a.isBroken && !b.isBroken then (if b.cost < a.cost then .takeRight else .preferRight)
  else if a.cost < b.cost then
    if (b.cost - a.cost) * (1 + a.progress) > maxCostDifference then .takeLeft else .preferLeft
  else if b.cost < a.cost then
    if (a.cost - b.cost) * (1 + b.progress) > maxCostDifference then .takeRight else .preferRight
  else if b.weight < a.weight then .preferLeft
  else if a.weight < b.weight then .preferRight
  else .even

def standing (v : Nat) : Run Standing := do
  let s ← stack
  let progress ← withStack (·.progressSince v)
  let paused := s.isPaused v
  return {
    cost := s.cost v + (if paused then skippedNodeCost else 0)
    progress
    weight := (s.top v).weight
    isBroken := paused || s.state v = brokenState }

/-- Whether a reading that would come to cost this much is clearly worse than another. -/
def isHopeless (v : Nat) (isBroken : Bool) (cost : Nat) : Run Bool := do
  let m ← get
  match m.finished with
  | some g => if g.cost ≤ cost then return true
  | none => pure ()
  let s ← stack
  let progress ← withStack (·.progressSince v)
  let mine : Standing := ⟨cost, progress, (s.top v).weight, isBroken⟩
  for w in List.range s.size do
    if w = v || !s.isActive w || (s.position w).bytes < (s.position v).bytes then continue
    match mine.compare (← standing w) with
    | .takeRight => return true
    | .preferRight => if s.canMerge w v then return true
    | _ => pure ()
  return false

end DiffScope.Parse
