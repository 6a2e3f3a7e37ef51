import DiffScope.Grammar.Vocabulary

/-!
# Points in productions

How far a production has been read. Points of one rule that differ only in what cannot matter any
more are one point, so that readings that began differently can go on together.
-/

namespace DiffScope.Grammar

/-- A production of a numbered grammar. -/
structure Production where
  /-- The rule it belongs to. -/
  head : Nat
  /-- Its steps. -/
  steps : Array (Step Nat)
  /-- Its weight. -/
  weight : Int
  /-- Whether none of its steps carries a display name or a field. -/
  isPlain : Bool
  deriving Inhabited

/-- A point inside a production. -/
structure Point where
  /-- A production that goes through the point. -/
  production : Nat
  /-- Steps passed. -/
  dot : Nat
  /-- The point behind the next step, if there is one. -/
  next : Nat
  deriving Inhabited

/-- A step passed: its display name, its field, and its symbol where some symbol passed hides
fields. -/
abbrev Trace := Option Label × Option String × Option Nat

/-- What decides whether two points are one. -/
structure PointKey where
  /-- Steps passed. -/
  dot : Nat
  /-- The rule. -/
  head : Nat
  /-- Weight of the production. -/
  weight : Int
  /-- Length of the production. -/
  length : Nat
  /-- Level behind the last step passed. -/
  level : Level
  /-- Side behind the last step passed. -/
  side : Option Side
  /-- What the steps passed leave. -/
  passed : List Trace
  /-- The steps ahead. -/
  ahead : List (Step Nat)
  deriving DecidableEq, Hashable

namespace PointKey

def levelKey : Level → Nat × Int × String
  | .unset => (0, 0, "")
  | .number n => (1, n, "")
  | .named s => (2, 0, s)

def sideKey : Option Side → Nat
  | none => 0
  | some .left => 1
  | some .right => 2

/-- Whether one point comes before another among readings. -/
def before (a b : PointKey) : Bool :=
  if a.dot ≠ b.dot then a.dot < b.dot
  else if a.head ≠ b.head then a.head < b.head
  else if a.weight ≠ b.weight then a.weight < b.weight
  else if a.length ≠ b.length then a.length < b.length
  else
    let (x, y, z) := levelKey a.level
    let (x', y', z') := levelKey b.level
    if x ≠ x' then x < x'
    else if y ≠ y' then y < y'
    else if z ≠ z' then z < z'
    else sideKey a.side < sideKey b.side

/-- The key of a point. `hides` tells which symbols leave no node and hide fields. -/
def ofProduction (hides : Array Bool) (p : Production) (dot : Nat) : PointKey :=
  let passed := p.steps.toList.take dot
  let inherits := passed.any fun x => hides[x.symbol]!
  let last := passed.getLast?
  { dot, head := p.head, weight := p.weight, length := p.steps.size
    level := (last.map (·.level)).getD .unset
    side := last.bind (·.side)
    passed := passed.map fun x => (x.label, x.field, if inherits then some x.symbol else none)
    ahead := p.steps.toList.drop dot }

end PointKey

/-- The points of some productions. -/
structure Points where
  /-- All points, in the order in which readings are tried. -/
  points : Array Point
  /-- The points of each production from its start on. -/
  ofProduction : Array (Array Nat)

def Points.at (ps : Points) (production dot : Nat) : Nat := (ps.ofProduction[production]!)[dot]!

def Points.of (hides : Array Bool) (productions : Array Production) : Points :=
  let (_, found, ids) := productions.foldl (fun acc p =>
    let (known, found, ids) := acc
    let production := ids.size
    let (known, found, row) := (List.range (p.steps.size + 1)).foldl (fun acc dot =>
      let (known, found, row) := acc
      let key := PointKey.ofProduction hides p dot
      match known[key]? with
      | some id => (known, found, row.push id)
      | none => (known.insert key found.size, found.push (key, production), row.push found.size))
      (known, found, #[])
    (known, found, ids.push row))
    ((∅ : Std.HashMap PointKey Nat), (#[] : Array (PointKey × Nat)), (#[] : Array (Array Nat)))
  let sorted := found.zipIdx.qsort fun ((a, _), i) ((b, _), j) =>
    a.before b || (!b.before a && i < j)
  let ranks := sorted.zipIdx.foldl (fun acc ((_, id), rank) => acc.set! id rank)
    (Array.replicate found.size 0)
  let rows := ids.map fun row => row.map fun id => ranks[id]!
  { points := sorted.map fun ((key, production), _) =>
      ⟨production, key.dot, ((rows[production]!)[key.dot + 1]?).getD 0⟩
    ofProduction := rows }

end DiffScope.Grammar
