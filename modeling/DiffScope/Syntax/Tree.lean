import DiffScope.Parse.Parser

/-!
# Syntax trees

The trees that a script is read as: every node has a kind, a stretch of text and children. Nodes of
hidden rules are replaced by their children. A stretch is given by characters from the start of the
text; what lies inside a node lies inside its stretch.
-/

namespace DiffScope.Syntax

open DiffScope.Grammar DiffScope.Parse

/-- What is to be seen of a node apart from its children. -/
structure Face where
  /-- The kind: the name of a rule, or the text of a word or mark. -/
  kind : String
  /-- Whether the kind is the name of a rule. -/
  isNamed : Bool
  /-- Whether the node holds skipped text. -/
  isBroken : Bool
  /-- Whether the node was put in where the text lacks it. -/
  isMissing : Bool
  /-- The fields of the parent that the node belongs to. -/
  fields : List String
  /-- Characters before the node. -/
  start : Nat
  /-- Characters before its end. -/
  stop : Nat
  deriving DecidableEq, Repr, Inhabited

/-- A syntax tree. -/
inductive Tree where
  | node (face : Face) (children : List Tree)
  deriving Repr, Inhabited

namespace Tree

def face : Tree → Face
  | node f _ => f

def children : Tree → List Tree
  | node _ cs => cs

def kind (t : Tree) : String := t.face.kind

/-- Characters before the tree. -/
def start (t : Tree) : Nat := t.face.start

/-- Characters before its end. -/
def stop (t : Tree) : Nat := t.face.stop

/-- The same tree, also in these fields of its parent. -/
def inFields (fields : List String) : Tree → Tree
  | node f cs => node { f with fields := f.fields ++ fields } cs

def child? (t : Tree) (field : String) : Option Tree :=
  t.children.find? fun c => c.face.fields.contains field

end Tree

/-! ## Giving trees their places -/

/-- Characters of blanks before the first token. -/
def leadOf : Green → Nat
  | .token _ p .. => p.chars
  | .node _ _ m _ [] => m.padding.chars
  | .node _ _ _ _ (c :: _) => leadOf c

/-- What a symbol is shown as, if at all. -/
def labelOf (t : Table) (symbol : Nat) (label : Option Label) : Option Label :=
  label.orElse fun _ =>
    if symbol = t.broken then some ⟨"ERROR", true⟩ else
      match t.labels[symbol]? with
      | some l => l
      | none => none

mutual

/-- The nodes that a tree shows at a place, and the place behind it. -/
def place (t : Table) (at_ : Nat) (label : Option Label) (fields : List String) : Green → List Tree × Nat
  | .token symbol padding size origin _ =>
    let start := at_ + padding.chars
    let stop := start + size.chars
    match labelOf t symbol label with
    | some l =>
      ([.node ⟨l.text, l.isNamed, false, origin = .missing, fields, start, stop⟩ []], stop)
    | none => ([], stop)
  | .node symbol production measure _ children =>
    let start := at_ + (match children with
      | [] => measure.padding.chars
      | c :: _ => leadOf c)
    let steps := match production with
      | some p => (t.productions[p]!).steps.toList.map fun s => (s.label, s.field)
      | none => []
    let (inner, stop) := placeAll t at_ steps children
    let stop := if children.isEmpty then start + measure.size.chars else stop
    match labelOf t symbol label with
    | some l =>
      ([.node ⟨l.text, l.isNamed, symbol = t.broken, false, fields, start, stop⟩ inner], stop)
    | none => (inner.map (Tree.inFields fields), stop)

/-- The nodes that trees show one behind another from a place on, and the place behind them. -/
def placeAll (t : Table) (at_ : Nat) (steps : List (Option Label × Option String)) :
    List Green → List Tree × Nat
  | [] => ([], at_)
  | g :: gs =>
    let (label, field, steps) := if g.isExtra then (none, none, steps) else
      match steps with
      | (l, f) :: rest => (l, f, rest)
      | [] => (none, none, [])
    let (here, at_) := place t at_ label field.toList g
    let (rest, stop) := placeAll t at_ steps gs
    (here ++ rest, stop)

end

/-- The syntax tree of a script. -/
def Tree.ofText (a : Automaton) (text : List Char) : Option Tree :=
  match parse a text with
  | some g => (place a.table 0 none [] g).1.head?
  | none => none

end DiffScope.Syntax
