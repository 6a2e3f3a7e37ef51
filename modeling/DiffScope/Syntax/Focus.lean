import DiffScope.Syntax.Tree

/-!
# Nodes in their surroundings

A node of a tree together with the nodes above it, and the nodes of a tree in the order in which
they are met from the front.
-/

namespace DiffScope.Syntax

/-- A node in its surroundings. -/
structure Focus where
  tree : Tree
  /-- Which child of the nearest node above it the node is. -/
  index : Nat
  /-- The nodes above, the nearest first. -/
  above : List Tree
  deriving Inhabited

namespace Focus

def root (t : Tree) : Focus := ⟨t, 0, []⟩

/-- How far below the root the node is. -/
def depth (f : Focus) : Nat := f.above.length

def parent? (f : Focus) : Option Tree := f.above.head?

/-- Whether the node is the one that a field of the node above names. -/
def isIn (f : Focus) (field : String) : Bool :=
  match f.parent? with
  | some p => p.children.findIdx? (fun c => c.face.fields.contains field) = some f.index
  | none => false

/-- The children of the node, numbered from a number on. -/
def childrenFrom (f : Focus) (index : Nat) : List Tree → List Focus
  | [] => []
  | t :: ts => ⟨t, index, f.tree :: f.above⟩ :: childrenFrom f (index + 1) ts

end Focus

mutual

/-- A node and the nodes below it, from the front. -/
def inOrder (index : Nat) (above : List Tree) : Tree → List Focus
  | .node face children =>
    ⟨.node face children, index, above⟩ :: inOrderAll 0 (.node face children :: above) children

/-- Nodes beside one another and the nodes below them, from the front. -/
def inOrderAll (index : Nat) (above : List Tree) : List Tree → List Focus
  | [] => []
  | t :: ts => inOrder index above t ++ inOrderAll (index + 1) above ts

end

/-- The nodes of a tree, each in its surroundings, from the front. -/
def Tree.nodes (t : Tree) : List Focus := inOrder 0 [] t

end DiffScope.Syntax
