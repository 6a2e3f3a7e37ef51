import DiffScope.Scope.Candidate
import DiffScope.Syntax.Cursor

/-!
# Walks

A search as a cursor makes it, move by move. The cursor goes down where the lines of a node meet the
set, otherwise on to the next sibling of the node or of the nearest node above it that has one, and
the depth guard is entered and left with it.
-/

namespace DiffScope.Scope

open DiffScope.Syntax

/-- What a search has come to. -/
inductive Walk where
  /-- At a node that was not looked at. -/
  | arriving (cursor : Cursor) (guard : DepthGuard) (found : List Candidate)
  /-- At a node that is through with, as are all nodes below it. -/
  | leaving (cursor : Cursor) (guard : DepthGuard) (found : List Candidate)
  | ended (found : Search.Found)

namespace Walk

def start (maxDepth : Nat) (t : Tree) : Walk := .arriving (.root t) (.start maxDepth) []

def step (s : Search) : Walk → Walk
  | .arriving cursor guard found =>
    if s.meets cursor.tree then
      match s.candidate? cursor.focus with
      | .error reason => .ended ⟨found, some (.outside reason)⟩
      | .ok here =>
        let found := found ++ here.toList
        match cursor.firstChild? with
        | none => .leaving cursor guard found
        | some child =>
          match guard.enter? with
          | none => .ended ⟨found, some .depth⟩
          | some guard => .arriving child guard found
    else .leaving cursor guard found
  | .leaving cursor guard found =>
    match cursor.nextSibling? with
    | some sibling => .arriving sibling guard found
    | none =>
      match cursor.parent? with
      | some parent => .leaving parent guard.leave found
      | none => .ended ⟨found, none⟩
  | .ended found => .ended found

end Walk

end DiffScope.Scope
