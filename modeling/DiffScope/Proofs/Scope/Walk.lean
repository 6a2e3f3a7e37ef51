import Mathlib.Logic.Function.Iterate
import DiffScope.Scope.Walk
import DiffScope.Proofs.Scope.Search

/-! # Walks end with what a search finds

The moves of a cursor come to an end at every tree, and to what the search by recursion finds. All the
way the depth guard is as deep as the cursor. In a tree whose lines nest, that is the candidates among
all nodes up to the first node at which the search ends.
-/

namespace DiffScope.Scope

open DiffScope.Syntax

namespace Walk

/-! ## The guard and the cursor -/

/-- The guard of a walk is as deep as its cursor, and may go down to a depth. -/
def InStep (maxDepth : Nat) : Walk → Prop
  | .arriving cursor guard _ => guard.depth = cursor.depth ∧ guard.maxDepth = maxDepth
  | .leaving cursor guard _ => guard.depth = cursor.depth ∧ guard.maxDepth = maxDepth
  | .ended _ => True

variable {s : Search} {maxDepth : Nat}

theorem InStep.step {w : Walk} (h : w.InStep maxDepth) : (w.step s).InStep maxDepth := by
  cases w with
  | arriving cursor guard found =>
      rw [Walk.step]
      split
      · split
        · trivial
        · cases down : cursor.firstChild? with
          | none => exact h
          | some child =>
              cases entered : guard.enter? with
              | none => trivial
              | some deeper =>
                  obtain ⟨-, rfl⟩ := DepthGuard.enter?_eq_some_iff.mp entered
                  have depth := Cursor.depth_of_firstChild? down
                  exact ⟨(congrArg (· + 1) h.1).trans depth.symm, h.2⟩
      · exact h
  | leaving cursor guard found =>
      rw [Walk.step]
      cases across : cursor.nextSibling? with
      | some sibling =>
          have depth := Cursor.depth_of_nextSibling? across
          exact ⟨h.1.trans depth.symm, h.2⟩
      | none =>
          cases up : cursor.parent? with
          | none => trivial
          | some parent =>
              have depth := Cursor.depth_of_parent? up
              exact ⟨congrArg (· - 1) (h.1.trans depth), h.2⟩
  | ended found => trivial

theorem inStep_iterate (s : Search) (maxDepth : Nat) (t : Tree) (n : Nat) :
    ((step s)^[n] (start maxDepth t)).InStep maxDepth := by
  induction n with
  | zero => exact ⟨rfl, rfl⟩
  | succ n ih =>
      rw [Function.iterate_succ_apply']
      exact ih.step

/-! ## The end of a walk -/

/-- A walk comes from one place to another in at most so many moves. -/
def Reaches (s : Search) (n : Nat) (v w : Walk) : Prop := ∃ m ≤ n, (step s)^[m] v = w

namespace Reaches

variable {m n : Nat} {u v w : Walk}

theorem refl (n : Nat) (w : Walk) : Reaches s n w w := ⟨0, Nat.zero_le n, rfl⟩

theorem next (h : Reaches s n (v.step s) w) : Reaches s (n + 1) v w := by
  obtain ⟨m, le, rfl⟩ := h
  exact ⟨m + 1, Nat.succ_le_succ le, rfl⟩

theorem trans (h : Reaches s m u v) (k : Reaches s n v w) : Reaches s (m + n) u w := by
  obtain ⟨i, le, rfl⟩ := h
  obtain ⟨j, le', rfl⟩ := k
  exact ⟨j + i, by omega, Function.iterate_add_apply _ j i u⟩

theorem mono (h : Reaches s m u v) (le : m ≤ n) : Reaches s n u v := by
  obtain ⟨i, less, same⟩ := h
  exact ⟨i, Nat.le_trans less le, same⟩

end Reaches

/-- Where a walk is when nodes were searched: over if the search of these ended early, otherwise
through with the node at the cursor. -/
def behind (cursor : Cursor) (guard : DepthGuard) (found : List Candidate) (a : Search.Found) :
    Walk :=
  if a.halt.isSome then .ended ⟨found ++ a.candidates, a.halt⟩
  else .leaving cursor guard (found ++ a.candidates)

theorem behind_of_halt {cursor : Cursor} {guard : DepthGuard} {found : List Candidate}
    {a : Search.Found} {h : Search.Halt} (halted : a.halt = some h) :
    behind cursor guard found a = .ended ⟨found ++ a.candidates, some h⟩ := by
  rw [behind, halted, if_pos Option.isSome_some]

theorem behind_of_none {cursor : Cursor} {guard : DepthGuard} {found : List Candidate}
    {a : Search.Found} (goesOn : a.halt = none) :
    behind cursor guard found a = .leaving cursor guard (found ++ a.candidates) := by
  rw [behind, goesOn]
  rfl

theorem behind_nothing (cursor : Cursor) (guard : DepthGuard) (found : List Candidate) :
    behind cursor guard found ⟨[], none⟩ = .leaving cursor guard found := by
  rw [behind_of_none rfl, List.append_nil]

theorem behind_append (cursor : Cursor) (guard : DepthGuard) (found more : List Candidate)
    (a : Search.Found) : behind cursor guard (found ++ more) a =
      behind cursor guard found ⟨more ++ a.candidates, a.halt⟩ := by
  simp only [behind, List.append_assoc]

theorem behind_andThen {cursor : Cursor} {guard : DepthGuard} {found : List Candidate}
    {a : Search.Found} (goesOn : a.halt = none) (b : Unit → Search.Found) :
    behind cursor guard (found ++ a.candidates) (b ()) = behind cursor guard found (a.andThen b) := by
  rw [behind_append, Search.Found.andThen, goesOn]
  rfl

/-- A tree has one node more than there are below its root. -/
theorem length_inOrderAll_cons (index : Nat) (above : List Tree) (t : Tree) (ts : List Tree) :
    (inOrderAll index above (t :: ts)).length =
      (inOrderAll 0 (t :: above) t.children).length + 1 +
        (inOrderAll (index + 1) above ts).length := by
  cases t
  rw [inOrderAll, inOrder, List.length_append, List.length_cons]
  rfl

/-- Where a walk is that came by the siblings before some: at the first of these, or through with the
node above. -/
def along (parent : Tree) (place : Nat) (above : List (Tree × Nat)) (index : Nat)
    (guard : DepthGuard) (found : List Candidate) : List Tree → Walk
  | [] => .leaving ⟨parent, place, above⟩ guard.leave found
  | t :: _ => .arriving ⟨t, index, (parent, place) :: above⟩ guard found

theorem step_leaving {parent : Tree} {index : Nat} {ts : List Tree}
    (siblings : parent.children.drop (index + 1) = ts) (t : Tree) (place : Nat)
    (above : List (Tree × Nat)) (guard : DepthGuard) (found : List Candidate) :
    step s (.leaving ⟨t, index, (parent, place) :: above⟩ guard found) =
      along parent place above (index + 1) guard found ts := by
  have across : (Cursor.mk t index ((parent, place) :: above)).nextSibling? =
      ts.head?.map fun u => ⟨u, index + 1, (parent, place) :: above⟩ := by
    rw [← siblings, List.head?_drop]
    rfl
  rw [step, across]
  cases ts <;> rfl

mutual

/-- A walk that arrives at a node gets behind it, with what a visit of the node finds. -/
theorem reaches_visit (t : Tree) (index : Nat) (above : List (Tree × Nat)) (guard : DepthGuard)
    (found : List Candidate) :
    Reaches s (2 * (inOrderAll 0 (t :: above.map Prod.fst) t.children).length + 1)
      (.arriving ⟨t, index, above⟩ guard found)
      (behind ⟨t, index, above⟩ guard found (s.visit guard index (above.map Prod.fst) t)) := by
  refine .next ?_
  match t with
  | .node face children =>
      rw [step, Search.visit]
      cases meets : s.meets (.node face children) with
      | false =>
          rw [if_neg Bool.false_ne_true, if_neg Bool.false_ne_true, behind_nothing]
          exact .refl _ _
      | true =>
          rw [if_pos rfl, if_pos rfl]
          have focus : (Cursor.mk (.node face children) index above).focus =
            ⟨.node face children, index, above.map Prod.fst⟩ := rfl
          rw [focus]
          cases s.candidate? ⟨.node face children, index, above.map Prod.fst⟩ with
          | error reason =>
              rw [behind_of_halt rfl, List.append_nil]
              exact .refl _ _
          | ok here =>
              have below (deeper : DepthGuard) := reaches_visitAll children (.node face children)
                index above 0 deeper (found ++ here.toList) rfl
              cases children with
              | nil => exact .refl _ _
              | cons c cs =>
                  cases entered : guard.enter? with
                  | none => exact .refl _ _
                  | some deeper =>
                      have below := below deeper
                      rw [DepthGuard.leave_of_enter? entered, behind_append] at below
                      exact below

/-- A walk that arrives at the first of some siblings gets behind the node above them. -/
theorem reaches_visitAll (ts : List Tree) (parent : Tree) (place : Nat)
    (above : List (Tree × Nat)) (index : Nat) (guard : DepthGuard) (found : List Candidate)
    (siblings : parent.children.drop index = ts) :
    Reaches s (2 * (inOrderAll index (((parent, place) :: above).map Prod.fst) ts).length)
      (along parent place above index guard found ts)
      (behind ⟨parent, place, above⟩ guard.leave found
        (s.visitAll guard index (((parent, place) :: above).map Prod.fst) ts)) := by
  match ts with
  | [] =>
      rw [Search.visitAll, behind_nothing]
      exact .refl _ _
  | t :: ts =>
      have later : parent.children.drop (index + 1) = ts := by
        rw [← List.drop_drop, siblings, List.drop_one, List.tail_cons]
      have first := reaches_visit t index ((parent, place) :: above) guard found
      rw [Search.visitAll, length_inOrderAll_cons]
      generalize s.visit guard index (((parent, place) :: above).map Prod.fst) t = visited
        at first ⊢
      have others := reaches_visitAll ts parent place above (index + 1) guard
        (found ++ visited.candidates) later
      cases halted : visited.halt with
      | some h =>
          rw [behind_of_halt halted] at first
          rw [Search.Found.andThen, halted, if_pos Option.isSome_some, behind_of_halt halted]
          exact first.mono (by omega)
      | none =>
          rw [behind_of_none halted] at first
          -- Behind the first node the next move is to its sibling, or up if it is the last.
          rw [← step_leaving later t] at others
          rw [← behind_andThen halted]
          exact (first.trans others.next).mono (by omega)

end

/-- A walk ends at every tree, after at most two moves for each node, with what a search finds. -/
theorem reaches_run (s : Search) (maxDepth : Nat) (t : Tree) :
    Reaches s (2 * t.nodes.length) (start maxDepth t) (.ended (s.run maxDepth t)) := by
  have visited := reaches_visit (s := s) t 0 [] (.start maxDepth) []
  have length : t.nodes.length = (inOrderAll 0 [t] t.children).length + 1 := by
    cases t
    rfl
  rw [length]
  rw [List.map_nil, behind, List.nil_append] at visited
  rw [Search.run]
  generalize s.visit (.start maxDepth) 0 [] t = found at visited ⊢
  obtain ⟨candidates, halt⟩ := found
  cases halt with
  | some h => exact visited.mono (by omega)
  | none => exact (visited.trans (n := 1) (.next (.refl 0 _))).mono (by omega)

end Walk

namespace Search

/-- What a search that may go down to a depth finds among nodes in their order, if it comes by those
at the front: their candidates, none of which is deeper. It ends early exactly if there is a node that
it ends at, and then the first of these is the last that it comes by. Unless that is a node which cannot
be told of, it is cut short exactly if there is a node at that depth that meets the set and has
children. -/
structure ComesBy (s : Search) (maxDepth : Nat) (nodes seen : List Focus) (a : Found) : Prop where
  front : seen <+: nodes
  candidates : a.candidates = seen.filterMap s.find?
  shallow : ∀ f ∈ seen, (s.find? f).isSome → f.depth ≤ maxDepth
  isCut_iff : a.failure? = none → (a.isCut = true ↔
    ∃ f ∈ nodes, f.depth = maxDepth ∧ s.meets f.tree = true ∧ f.tree.children ≠ [])
  last : ∀ h, a.halt = some h → ∃ before f, seen = before ++ [f] ∧ s.HaltsAt maxDepth f h ∧
    ∀ g ∈ before, ∀ h', ¬s.HaltsAt maxDepth g h'
  whole : a.halt = none → seen = nodes ∧ ∀ f ∈ nodes, ∀ h, ¬s.HaltsAt maxDepth f h

theorem meets_of_find? {s : Search} {f : Focus} (h : (s.find? f).isSome) :
    s.meets f.tree = true := by
  rw [find?] at h
  split at h
  next meets => exact meets
  next => cases h

/-- A node whose children are too deep is one that a search ends at, for this reason or another. -/
theorem exists_haltsAt {s : Search} {maxDepth : Nat} {f : Focus} (deepest : f.depth = maxDepth)
    (meets : s.meets f.tree = true) (children : f.tree.children ≠ []) :
    ∃ h, s.HaltsAt maxDepth f h := by
  cases tells : s.candidate? f with
  | error reason => exact ⟨_, .outside meets tells⟩
  | ok here => exact ⟨_, .depth meets tells deepest children⟩

theorem Found.halt_of_isCut {a : Found} (cut : a.isCut = true) : a.halt = some .depth :=
  of_decide_eq_true cut

section Seen

variable {s : Search} {maxDepth : Nat} {nodes : List Focus} {a : Found}

theorem Sees.last (h : s.Sees maxDepth nodes a) {why : Halt} (halted : a.halt = some why) :
    ∃ before f, upTo (s.stopsAt maxDepth) nodes = before ++ [f] ∧ s.HaltsAt maxDepth f why ∧
      ∀ g ∈ before, ∀ h', ¬s.HaltsAt maxDepth g h' := by
  have some : nodes.any (s.stopsAt maxDepth) = true := by
    rw [← h.isSome_halt, halted]
    rfl
  obtain ⟨before, f, split, stops, others⟩ := exists_upTo_eq some
  obtain ⟨why', halts⟩ := stopsAt_iff.mp stops
  have free : ∀ g ∈ before, s.halt? maxDepth g = none :=
    fun g early => stopsAt_eq_false_iff.mp (others g early)
  refine ⟨before, f, split, ?_, fun g early h' halts' => ?_⟩
  · -- No earlier node ends the search, so it ends for the reason that this one gives.
    obtain ⟨behind, whole⟩ : upTo (s.stopsAt maxDepth) nodes <+: nodes := prefix_upTo
    have first := h.halt
    rw [halted, ← whole, split, List.append_assoc, List.findSome?_append,
      List.findSome?_eq_none_iff.mpr free, Option.none_or, List.singleton_append,
      List.findSome?_cons, halt?_eq_some_iff.mpr halts] at first
    exact Option.some.inj first ▸ halts
  · cases (free g early).symm.trans (halt?_eq_some_iff.mpr halts')

theorem Sees.free (h : s.Sees maxDepth nodes a) (goesOn : a.halt = none) :
    ∀ f ∈ nodes, ∀ why, ¬s.HaltsAt maxDepth f why := by
  intro f member why halts
  have none := List.findSome?_eq_none_iff.mp (h.halt.symm.trans goesOn) f member
  cases none.symm.trans (halt?_eq_some_iff.mpr halts)

theorem Sees.comesBy (h : s.Sees maxDepth nodes a) :
    s.ComesBy maxDepth nodes (upTo (s.stopsAt maxDepth) nodes) a where
  front := prefix_upTo
  candidates := h.candidates
  shallow := fun f seen found => h.shallow f seen (meets_of_find? found)
  isCut_iff := by
    intro told
    constructor
    · intro cut
      obtain ⟨before, f, split, halts, -⟩ := h.last (Found.halt_of_isCut cut)
      have seen : f ∈ upTo (s.stopsAt maxDepth) nodes := by simp [split]
      have among := prefix_upTo.subset seen
      cases halts with
      | depth meets _ deepest children => exact ⟨f, among, deepest, meets, children⟩
    · rintro ⟨f, member, deepest, meets, children⟩
      obtain ⟨why, halts⟩ := exists_haltsAt deepest meets children
      cases halted : a.halt with
      | none => exact absurd halts (h.free halted f member why)
      | some why' =>
          cases why' with
          | depth => exact decide_eq_true halted
          | outside reason =>
              rw [Found.failure?, halted] at told
              cases told
  last := fun _ => h.last
  whole := fun goesOn => ⟨upTo_eq_self (h.isSome_halt ▸ by rw [goesOn]; rfl), h.free goesOn⟩

end Seen

/-- A search that may go deeper finds more, behind what it found before. -/
theorem candidates_prefix_of_le {s : Search} {t : Tree} (nests : LinesNest s.source t)
    {maxDepth deeper : Nat} (le : maxDepth ≤ deeper) :
    (s.run maxDepth t).candidates <+: (s.run deeper t).candidates := by
  have sees := sees_run maxDepth nests
  rw [sees.candidates, (sees_run deeper nests).candidates]
  refine (upTo_prefix_upTo fun f seen stops => ?_).filterMap _
  obtain ⟨why, halts⟩ := stopsAt_iff.mp stops
  refine stopsAt_iff.mpr ?_
  cases halts with
  | outside meets fails => exact ⟨_, .outside meets fails⟩
  | depth meets tells deepest children =>
      -- What the deeper search stops at is too deep for the other to come by, unless both stop there.
      have shallow := sees.shallow f seen meets
      exact ⟨_, .depth meets tells (by omega) children⟩

end Search

/-- The walk of a cursor through a tree whose lines nest comes to an end, all the way as deep as its
guard says, and finds what there is among the nodes in their order, up to the first node at which it
ends: one below which it may not go, or one that does not lie in the text. -/
theorem walks_follow_the_order_of_nodes (s : Search) (maxDepth : Nat) (t : Tree)
    (nests : LinesNest s.source t) :
    (∀ n, ((Walk.step s)^[n] (.start maxDepth t)).InStep maxDepth) ∧
    (∃ n ≤ 2 * t.nodes.length,
      (Walk.step s)^[n] (.start maxDepth t) = .ended (s.run maxDepth t)) ∧
    (∃ seen, s.ComesBy maxDepth t.nodes seen (s.run maxDepth t)) ∧
    (s.run maxDepth t).candidates <+: t.nodes.filterMap s.find? ∧
    ∀ deeper, maxDepth ≤ deeper → (s.run maxDepth t).candidates <+: (s.run deeper t).candidates := by
  have comesBy := (Search.sees_run maxDepth nests).comesBy
  refine ⟨Walk.inStep_iterate s maxDepth t, Walk.reaches_run s maxDepth t, ⟨_, comesBy⟩, ?_,
    fun deeper => Search.candidates_prefix_of_le nests⟩
  rw [comesBy.candidates]
  exact comesBy.front.filterMap s.find?

/-- A function on the first line that gives one on the second. -/
def curried : Syntax.Tree :=
  let node kind start stop := Syntax.Tree.node ⟨kind, true, false, false, [], start, stop⟩
  node "arrow_function" 0 13 [node "identifier" 0 1 [],
    node "arrow_function" 7 13 [node "identifier" 7 8 [], node "identifier" 12 13 []]]

/-- The search for the units around its second line. -/
def curriedSearch : Search :=
  ⟨.ofText "x =>\n  y => x".toList, .ofList [2], .plain⟩

theorem walk_of_curried :
    LinesNest curriedSearch.source curried ∧
    (curriedSearch.run 0 curried).isCut = true ∧
    (∃ n ≤ 10, (Walk.step curriedSearch)^[n] (.start 0 curried) =
      .ended (curriedSearch.run 0 curried)) ∧
    (∃ seen, curriedSearch.ComesBy 0 curried.nodes seen (curriedSearch.run 0 curried)) ∧
    (curriedSearch.run 0 curried).candidates <+: (curriedSearch.run 1 curried).candidates := by
  have nests : Nests id curried := by
    simp [curried, Nests.node_iff, Tree.start, Tree.stop, Tree.face]
  have lines : LinesNest curriedSearch.source curried :=
    nests.of_monotone fun a b => curriedSearch.source.line_mono
  obtain ⟨-, ends, comesBy, -, deeper⟩ :=
    walks_follow_the_order_of_nodes curriedSearch 0 curried lines
  exact ⟨lines, by decide, ends, comesBy, deeper 1 (by decide)⟩

end DiffScope.Scope
