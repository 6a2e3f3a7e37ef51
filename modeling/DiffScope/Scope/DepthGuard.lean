/-!
# Depth guard

Counts how deep a search is, and refuses to go deeper than allowed.
-/

namespace DiffScope.Scope

/-- How deep a search is and how deep it may go. -/
structure DepthGuard where
  /-- Levels entered and not left. -/
  depth : Nat
  /-- Levels that may be entered. -/
  maxDepth : Nat
  deriving DecidableEq, Repr

namespace DepthGuard

/-- The guard of a search that has not entered anything. -/
def start (maxDepth : Nat) : DepthGuard := ⟨0, maxDepth⟩

/-- One level deeper, if that is allowed. -/
def enter? (g : DepthGuard) : Option DepthGuard :=
  if g.depth < g.maxDepth then some { g with depth := g.depth + 1 } else none

/-- One level up; at the top nothing changes. -/
def leave (g : DepthGuard) : DepthGuard := { g with depth := g.depth - 1 }

theorem enter?_eq_some_iff {g g' : DepthGuard} :
    g.enter? = some g' ↔ g.depth < g.maxDepth ∧ g' = { g with depth := g.depth + 1 } := by
  unfold enter?
  split <;> simp [*, eq_comm]

theorem enter?_eq_none_iff {g : DepthGuard} : g.enter? = none ↔ g.maxDepth ≤ g.depth := by
  unfold enter?
  split <;> simp <;> omega

/-- Entering and leaving a level comes to nothing. -/
theorem leave_of_enter? {g g' : DepthGuard} (h : g.enter? = some g') : g'.leave = g := by
  obtain ⟨-, rfl⟩ := enter?_eq_some_iff.mp h
  rfl

end DepthGuard

end DiffScope.Scope
