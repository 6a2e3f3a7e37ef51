import DiffScope.Syntax.Focus

/-!
# Moving in a tree

A cursor stands at a node of a tree and moves from there to the first child, to the next sibling or
to the node above.
-/

namespace DiffScope.Syntax

/-- A node, and how it was come by from the root. -/
structure Cursor where
  tree : Tree
  /-- Which child of the nearest node above it the node is. -/
  index : Nat
  /-- The nodes above, the nearest first, each with its own index. -/
  above : List (Tree × Nat)
  deriving Inhabited

namespace Cursor

def root (t : Tree) : Cursor := ⟨t, 0, []⟩

/-- The node in its surroundings. -/
def focus (c : Cursor) : Focus := ⟨c.tree, c.index, c.above.map Prod.fst⟩

/-- How far below the root the cursor stands. -/
def depth (c : Cursor) : Nat := c.above.length

def firstChild? (c : Cursor) : Option Cursor :=
  c.tree.children.head?.map fun t => ⟨t, 0, (c.tree, c.index) :: c.above⟩

def nextSibling? (c : Cursor) : Option Cursor :=
  match c.above with
  | [] => none
  | (parent, _) :: _ => parent.children[c.index + 1]?.map fun t => ⟨t, c.index + 1, c.above⟩

def parent? (c : Cursor) : Option Cursor :=
  match c.above with
  | [] => none
  | (parent, index) :: above => some ⟨parent, index, above⟩

@[simp] theorem depth_focus (c : Cursor) : c.focus.depth = c.depth := List.length_map _

theorem depth_of_firstChild? {c d : Cursor} (h : c.firstChild? = some d) :
    d.depth = c.depth + 1 := by
  obtain ⟨t, -, rfl⟩ := Option.map_eq_some_iff.mp h
  rfl

theorem depth_of_nextSibling? {c d : Cursor} (h : c.nextSibling? = some d) :
    d.depth = c.depth := by
  unfold nextSibling? at h
  split at h
  · cases h
  · obtain ⟨t, -, rfl⟩ := Option.map_eq_some_iff.mp h
    rfl

theorem depth_of_parent? {c d : Cursor} (h : c.parent? = some d) : c.depth = d.depth + 1 := by
  obtain ⟨tree, index, above⟩ := c
  cases above with
  | nil => cases h
  | cons a above =>
      obtain rfl := Option.some.inj h
      rfl

end Cursor

end DiffScope.Syntax
