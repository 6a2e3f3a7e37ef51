import DiffScope.Grammar.Table

/-!
# Trees without places

What the parser builds: tokens with the blanks before them, and nodes of rules over them. A tree
knows how much text it covers and not where, and how costly the broken text in it is.
-/

namespace DiffScope.Parse

open DiffScope.Grammar

/-- How much text something covers. -/
structure Extent where
  chars : Nat
  /-- Bytes of their encoding. -/
  bytes : Nat
  /-- Line feeds among them. -/
  rows : Nat
  deriving DecidableEq, Repr, Inhabited

namespace Extent

def zero : Extent := ⟨0, 0, 0⟩

/-- The text of both. -/
def add (a b : Extent) : Extent := ⟨a.chars + b.chars, a.bytes + b.bytes, a.rows + b.rows⟩

instance : Add Extent := ⟨add⟩

def ofChars : List Char → Extent
  | [] => zero
  | c :: cs => ⟨1, c.utf8Size, if c = '\n' then 1 else 0⟩ + ofChars cs

/-- The extent of the first characters of a text. -/
def ofTake (n : Nat) (cs : List Char) : Extent := go n cs zero
where
  /-- The extent of the first characters on top of another. -/
  go : Nat → List Char → Extent → Extent
    | 0, _, e => e
    | _, [], e => e
    | n + 1, c :: cs, e => go n cs (e + ⟨1, c.utf8Size, if c = '\n' then 1 else 0⟩)

end Extent

/-- What is known of a tree as a whole. -/
structure Measure where
  /-- Blanks before the first token. -/
  padding : Extent
  size : Extent
  /-- How bad the broken text inside is. -/
  cost : Nat
  weight : Int
  /-- Nodes inside that will show. -/
  shownInside : Nat
  /-- Nodes that will show as children. -/
  shownChildren : Nat
  deriving Repr, Inhabited

/-- How a token came about. -/
inductive Origin where
  | read
  /-- It was put in where the text lacks it. -/
  | missing
  deriving DecidableEq, Repr, Inhabited

/-- A tree without places. -/
inductive Green where
  | token (symbol : Nat) (padding size : Extent) (origin : Origin) (isExtra : Bool)
  /-- A node of a rule, or of broken text when it has no production. -/
  | node (symbol : Nat) (production : Option Nat) (measure : Measure) (isExtra : Bool) (children : List Green)
  deriving Inhabited

/-- What an ended reading of broken text costs. -/
def recoveryCost : Nat := 500

/-- What a token costs that the text lacks. -/
def missingCost : Nat := 110

def skippedNodeCost : Nat := 100

def skippedRowCost : Nat := 30

namespace Green

def symbol : Green → Nat
  | token s .. => s
  | node s .. => s

/-- Blanks before the first token. -/
def padding : Green → Extent
  | token _ p .. => p
  | node _ _ m .. => m.padding

/-- Text from the first token on. -/
def size : Green → Extent
  | token _ _ s .. => s
  | node _ _ m .. => m.size

/-- Blanks and text together. -/
def total (g : Green) : Extent := g.padding + g.size

/-- Whether it stands between the parts of its parent without being one. -/
def isExtra : Green → Bool
  | token _ _ _ _ x => x
  | node _ _ _ x _ => x

/-- The same tree, standing between the parts of its parent or not. -/
def withExtra (x : Bool) : Green → Green
  | token s p z o _ => token s p z o x
  | node s p m _ c => node s p m x c

def children : Green → List Green
  | token .. => []
  | node _ _ _ _ c => c

/-- How bad the broken text inside is. -/
def cost : Green → Nat
  | token _ _ _ .missing _ => missingCost + recoveryCost
  | token .. => 0
  | node _ _ m .. => m.cost

def weight : Green → Int
  | token .. => 0
  | node _ _ m .. => m.weight

/-- Nodes inside that will show. -/
def shownInside : Green → Nat
  | token .. => 0
  | node _ _ m .. => m.shownInside

/-- Nodes that will show as children. -/
def shownChildren : Green → Nat
  | token .. => 0
  | node _ _ m .. => m.shownChildren

/-- Whether the tree shows as a node under its own name. -/
def isShown (t : Table) (g : Green) : Bool :=
  if g.symbol = t.broken then true
  else match t.labels[g.symbol]? with
    | some l => l.isSome
    | none => false

/-- The symbol of the first token. -/
def leafSymbol : Green → Nat
  | token s .. => s
  | node s _ _ _ [] => s
  | node _ _ _ _ (c :: _) => c.leafSymbol

/-- The display names of a production's steps. -/
def stepLabels (t : Table) : Option Nat → List (Option Label)
  | none => []
  | some p => (t.productions[p]!).steps.toList.map (·.label)

/-- The measure of a node with given children. -/
def measureOf (t : Table) (symbol : Nat) (production : Option Nat) (children : List Green) : Measure :=
  let isBroken := symbol = t.broken || symbol = t.brokenRun
  let m := go isBroken children (stepLabels t production) true
    ⟨Extent.zero, Extent.zero, 0, 0, 0, 0⟩
  if isBroken then
    { m with cost := m.cost + recoveryCost + m.size.bytes + skippedRowCost * m.size.rows }
  else m
where
  /-- Adds the children one by one. -/
  go (isBroken : Bool) : List Green → List (Option Label) → Bool → Measure → Measure
    | [], _, _, m => m
    | c :: cs, labels, first, m =>
      let (label, labels) := if c.isExtra then (none, labels) else
        match labels with
        | l :: ls => (l, ls)
        | [] => (none, [])
      let (padding, size) := if first then (c.padding, c.size) else (m.padding, m.size + c.total)
      let inner := if c.symbol = t.brokenRun then 0 else c.cost
      let skipped :=
        if !isBroken || c.isExtra || (c.symbol = t.broken && c.children.isEmpty) then 0
        else if c.isShown t then skippedNodeCost
        else if !c.children.isEmpty then skippedNodeCost * c.shownChildren
        else 0
      let shown := label.isSome || c.isShown t
      let m : Measure := {
        padding, size
        cost := m.cost + inner + skipped
        weight := m.weight + c.weight
        shownInside := m.shownInside + c.shownInside + (if shown then 1 else 0)
        shownChildren := m.shownChildren +
          (if shown then 1 else if !c.children.isEmpty then c.shownChildren else 0) }
      go isBroken cs labels false m

def phrase (t : Table) (symbol production : Nat) (children : List Green) : Green :=
  node symbol (some production) (measureOf t symbol (some production) children) false children

def brokenNode (t : Table) (isExtra : Bool) (children : List Green) : Green :=
  node t.broken none (measureOf t t.broken none children) isExtra children

/-- A growing run of broken text. -/
def brokenRunNode (t : Table) (children : List Green) : Green :=
  node t.brokenRun none (measureOf t t.brokenRun none children) false children

/-- The same tree with more weight. -/
def addWeight (n : Int) : Green → Green
  | node s p m x c => node s p { m with weight := m.weight + n } x c
  | g => g

/-- How much a tree counts as progress. -/
def progress (t : Table) (g : Green) : Nat :=
  g.shownInside + (if g.isShown t then 1 else 0) + (if g.symbol = t.brokenRun then 1 else 0)

/-- A fixed order of trees, by symbols and numbers of children from the root down. -/
def compareShape : Nat → List (Green × Green) → Ordering
  | 0, _ => .eq
  | _, [] => .eq
  | fuel + 1, (a, b) :: rest =>
    if a.symbol < b.symbol then .lt
    else if b.symbol < a.symbol then .gt
    else if a.children.length < b.children.length then .lt
    else if b.children.length < a.children.length then .gt
    else compareShape fuel (a.children.zip b.children ++ rest)

/-- Whether a second reading of the same text is better than a first. -/
def isBetter (old new : Green) : Bool :=
  if new.cost < old.cost then true
  else if old.cost < new.cost then false
  else if old.weight < new.weight then true
  else if new.weight < old.weight then false
  else if 0 < old.cost then true
  else compareShape (old.total.chars * 64 + 1024) [(old, new)] = .gt

end Green

end DiffScope.Parse
