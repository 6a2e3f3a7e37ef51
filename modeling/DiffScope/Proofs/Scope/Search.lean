import Mathlib.Data.List.Basic
import DiffScope.Scope.Candidate
import DiffScope.Proofs.Syntax.Nesting

/-! # What a search finds

A search goes down only where the lines of a node meet the set. In a tree whose lines nest, nothing
below a node whose lines do not meet the set meets it either, so that a search finds the candidates
among the nodes of the tree, from the front, up to the first node at which it ends: one below which it
may not go, or a unit outside the text. A search which does not end early finds all of them.
-/

namespace DiffScope.Scope

open DiffScope.Diff DiffScope.Syntax

/-! ## The front of a list -/

section UpTo

variable {α : Type} {p q : α → Bool} {as bs : List α}

/-- A list up to the first element of a kind, which is still taken. -/
def upTo (p : α → Bool) : List α → List α
  | [] => []
  | a :: as => if p a then [a] else a :: upTo p as

theorem upTo_append : upTo p (as ++ bs) = if as.any p then upTo p as else as ++ upTo p bs := by
  induction as with
  | nil => rfl
  | cons a as ih =>
      rw [List.cons_append, upTo, upTo, ih, List.any_cons]
      cases p a <;> cases as.any p <;> rfl

theorem upTo_eq_self (none : as.any p = false) : upTo p as = as := by
  induction as with
  | nil => rfl
  | cons a as ih =>
      rw [List.any_cons, Bool.or_eq_false_iff] at none
      rw [upTo, none.1, if_neg Bool.false_ne_true, ih none.2]

theorem prefix_upTo : upTo p as <+: as := by
  induction as with
  | nil => exact List.prefix_rfl
  | cons a as ih =>
      rw [upTo]
      split
      · exact ⟨as, rfl⟩
      · exact List.cons_prefix_cons.mpr ⟨rfl, ih⟩

theorem exists_upTo_eq (some : as.any p = true) :
    ∃ before a, upTo p as = before ++ [a] ∧ p a = true ∧ ∀ b ∈ before, p b = false := by
  induction as with
  | nil => cases some
  | cons a as ih =>
      rw [upTo]
      cases here : p a with
      | true => exact ⟨[], a, rfl, here, nofun⟩
      | false =>
          rw [List.any_cons, here, Bool.false_or] at some
          obtain ⟨before, b, split, last, others⟩ := ih some
          rw [if_neg Bool.false_ne_true, split]
          exact ⟨a :: before, b, rfl, last, List.forall_mem_cons.mpr ⟨here, others⟩⟩

/-- Where elements of one kind come no earlier than those of another, more of the list is taken. -/
theorem upTo_prefix_upTo (h : ∀ a ∈ upTo p as, q a = true → p a = true) :
    upTo p as <+: upTo q as := by
  induction as with
  | nil => exact List.prefix_rfl
  | cons a as ih =>
      rw [upTo] at h
      rw [upTo, upTo]
      cases first : p a with
      | true => cases q a <;> simp
      | false =>
          rw [first, if_neg Bool.false_ne_true] at h
          obtain ⟨here, others⟩ := List.forall_mem_cons.mp h
          have goesOn : ¬q a = true := fun other => Bool.false_ne_true (first.symm.trans (here other))
          rw [if_neg goesOn, if_neg Bool.false_ne_true, List.cons_prefix_cons]
          exact ⟨rfl, ih others⟩

end UpTo

namespace Search

/-- The candidate that a node is, if its lines meet the set and it can be told of. -/
def find? (s : Search) (f : Focus) : Option Candidate :=
  if s.meets f.tree then (s.candidate? f).toOption.join else none

theorem find?_of_ok {s : Search} {f : Focus} {here : Option Candidate}
    (meets : s.meets f.tree = true) (tells : s.candidate? f = .ok here) : s.find? f = here := by
  rw [find?, if_pos meets, tells]
  rfl

theorem find?_of_error {s : Search} {f : Focus} {reason : String}
    (fails : s.candidate? f = .error reason) : s.find? f = none := by
  rw [find?, fails]
  exact ite_self none

theorem meets_iff {s : Search} {t : Tree} :
    s.meets t = true ↔ ∃ l ∈ s.added, s.source.line t.start ≤ l ∧ l ≤ s.source.line t.stop := by
  simp [meets, AddedLines.intersects, AddedLines.mem_def]

/-- A node whose lines meet the set lies in none whose lines do not. -/
theorem meets_of_inside {s : Search} {inner outer : Tree}
    (first : s.source.line outer.start ≤ s.source.line inner.start)
    (last : s.source.line inner.stop ≤ s.source.line outer.stop)
    (h : s.meets inner = true) : s.meets outer = true := by
  obtain ⟨l, added, above, below⟩ := meets_iff.mp h
  exact meets_iff.mpr ⟨l, added, Nat.le_trans first above, Nat.le_trans below last⟩

mutual

/-- Nothing meets the set in a tree whose root does not. -/
theorem meets_eq_false (s : Search) (index : Nat) (above : List Tree) (t : Tree)
    (nests : LinesNest s.source t) (apart : s.meets t = false) :
    ∀ f ∈ inOrder index above t, s.meets f.tree = false := by
  intro f member
  match t, nests with
  | .node face children, .node inside below =>
      rcases List.mem_cons.mp member with rfl | member
      · exact apart
      · refine meets_eq_false_all s 0 _ children below (fun c among => ?_) f member
        rw [Bool.eq_false_iff]
        intro meets
        rw [meets_of_inside (inside c among).1 (inside c among).2 meets] at apart
        cases apart

/-- Nothing meets the set in trees whose roots do not. -/
theorem meets_eq_false_all (s : Search) (index : Nat) (above : List Tree) (ts : List Tree)
    (nests : ∀ t ∈ ts, LinesNest s.source t) (apart : ∀ t ∈ ts, s.meets t = false) :
    ∀ f ∈ inOrderAll index above ts, s.meets f.tree = false := by
  intro f member
  match ts with
  | [] => cases member
  | t :: ts =>
      rcases List.mem_append.mp member with member | member
      · exact meets_eq_false s index above t (nests t List.mem_cons_self)
          (apart t List.mem_cons_self) f member
      · exact meets_eq_false_all s (index + 1) above ts
          (fun u among => nests u (List.mem_cons_of_mem t among))
          (fun u among => apart u (List.mem_cons_of_mem t among)) f member

end

/-! ## How far a search goes -/

/-- A search that may go down to a depth ends at a node: the node meets the set, and it cannot be told
of or there are nodes below it that are too deep. -/
inductive HaltsAt (s : Search) (maxDepth : Nat) (f : Focus) : Halt → Prop
  | outside {reason : String} (meets : s.meets f.tree = true)
      (fails : s.candidate? f = .error reason) : HaltsAt s maxDepth f (.outside reason)
  | depth {here : Option Candidate} (meets : s.meets f.tree = true)
      (tells : s.candidate? f = .ok here) (deepest : f.depth = maxDepth)
      (children : f.tree.children ≠ []) : HaltsAt s maxDepth f .depth

/-- Why a search that may go down to a depth ends at the node, if it does. -/
def halt? (s : Search) (maxDepth : Nat) (f : Focus) : Option Halt :=
  if s.meets f.tree then
    match s.candidate? f with
    | .error reason => some (.outside reason)
    | .ok _ => if f.depth = maxDepth ∧ f.tree.children ≠ [] then some .depth else none
  else none

theorem halt?_eq_some_iff {s : Search} {maxDepth : Nat} {f : Focus} {h : Halt} :
    s.halt? maxDepth f = some h ↔ s.HaltsAt maxDepth f h := by
  unfold halt?
  constructor
  · intro ends
    split at ends
    next meets =>
      split at ends
      next reason fails =>
        obtain rfl := Option.some.inj ends
        exact .outside meets fails
      next here tells =>
        split at ends
        next deep =>
          obtain rfl := Option.some.inj ends
          exact .depth meets tells deep.1 deep.2
        next => cases ends
    next => cases ends
  · intro ends
    cases ends with
    | outside meets fails => rw [if_pos meets, fails]
    | depth meets tells deepest children => rw [if_pos meets, tells]; exact if_pos ⟨deepest, children⟩

theorem halt?_eq_none {s : Search} {maxDepth : Nat} {f : Focus} (apart : s.meets f.tree = false) :
    s.halt? maxDepth f = none := by
  rw [halt?, apart, if_neg Bool.false_ne_true]

/-- Whether a search that may go down to a depth ends at the node. -/
def stopsAt (s : Search) (maxDepth : Nat) (f : Focus) : Bool := (s.halt? maxDepth f).isSome

theorem stopsAt_iff {s : Search} {maxDepth : Nat} {f : Focus} :
    s.stopsAt maxDepth f = true ↔ ∃ h, s.HaltsAt maxDepth f h := by
  rw [stopsAt, Option.isSome_iff_exists]
  exact exists_congr fun _ => halt?_eq_some_iff

theorem stopsAt_eq_false_iff {s : Search} {maxDepth : Nat} {f : Focus} :
    s.stopsAt maxDepth f = false ↔ s.halt? maxDepth f = none := by
  rw [stopsAt, Option.isSome_eq_false_iff, Option.isNone_iff_eq_none]

theorem any_stopsAt {s : Search} {maxDepth : Nat} {nodes : List Focus} :
    nodes.any (s.stopsAt maxDepth) = (nodes.findSome? (s.halt? maxDepth)).isSome := by
  rw [List.isSome_findSome?]
  rfl

/-- What a search finds among nodes, in their order: the candidates up to the first node that it ends
at, none of which is deeper than it may go. -/
structure Sees (s : Search) (maxDepth : Nat) (nodes : List Focus) (found : Found) : Prop where
  candidates : found.candidates = (upTo (s.stopsAt maxDepth) nodes).filterMap s.find?
  halt : found.halt = nodes.findSome? (s.halt? maxDepth)
  shallow : ∀ f ∈ upTo (s.stopsAt maxDepth) nodes, s.meets f.tree = true → f.depth ≤ maxDepth

namespace Sees

variable {s : Search} {maxDepth : Nat} {f : Focus} {nodes others : List Focus} {a : Found}

/-- A search ends early exactly if there is a node that it ends at. -/
theorem isSome_halt (h : s.Sees maxDepth nodes a) :
    a.halt.isSome = nodes.any (s.stopsAt maxDepth) := by
  rw [h.halt, any_stopsAt]

theorem of_apart (apart : ∀ f ∈ nodes, s.meets f.tree = false) :
    s.Sees maxDepth nodes ⟨[], none⟩ := by
  have free : nodes.findSome? (s.halt? maxDepth) = none :=
    List.findSome?_eq_none_iff.mpr fun f member => halt?_eq_none (apart f member)
  have none : ∀ f ∈ nodes, s.find? f = none := fun f member => by
    rw [find?, apart f member, if_neg Bool.false_ne_true]
  refine ⟨?_, free.symm, fun f member meets => ?_⟩
  · rw [upTo_eq_self (by rw [any_stopsAt, free]; rfl), List.filterMap_eq_nil_iff.mpr none]
  · rw [apart f (prefix_upTo.subset member)] at meets
    cases meets

/-- A search ends at the first node if that makes it end, with what it finds there. -/
theorem stop (nodes : List Focus) {h : Halt} (ends : s.HaltsAt maxDepth f h)
    (depth : f.depth ≤ maxDepth) : s.Sees maxDepth (f :: nodes) ⟨(s.find? f).toList, some h⟩ := by
  have only : upTo (s.stopsAt maxDepth) (f :: nodes) = [f] := if_pos (stopsAt_iff.mpr ⟨h, ends⟩)
  refine ⟨?_, ?_, ?_⟩
  · rw [only, List.filterMap_cons]
    cases s.find? f <;> rfl
  · rw [List.findSome?_cons, halt?_eq_some_iff.mpr ends]
  · rw [only]
    exact List.forall_mem_singleton.mpr fun _ => depth

theorem cons (h : s.Sees maxDepth nodes a) (goesOn : s.halt? maxDepth f = none)
    (depth : f.depth ≤ maxDepth) :
    s.Sees maxDepth (f :: nodes) ⟨(s.find? f).toList ++ a.candidates, a.halt⟩ := by
  have first : upTo (s.stopsAt maxDepth) (f :: nodes) = f :: upTo (s.stopsAt maxDepth) nodes :=
    if_neg (Bool.eq_false_iff.mp (stopsAt_eq_false_iff.mpr goesOn))
  refine ⟨?_, ?_, ?_⟩
  · rw [first, List.filterMap_cons, h.candidates]
    cases s.find? f <;> rfl
  · rw [List.findSome?_cons, goesOn, h.halt]
  · rw [first]
    exact List.forall_mem_cons.mpr ⟨fun _ => depth, h.shallow⟩

theorem andThen {b : Unit → Found} (h : s.Sees maxDepth nodes a)
    (k : s.Sees maxDepth others (b ())) : s.Sees maxDepth (nodes ++ others) (a.andThen b) := by
  have stops := h.isSome_halt
  rw [Found.andThen]
  cases halted : a.halt with
  | some reason =>
      rw [halted] at stops
      have same : upTo (s.stopsAt maxDepth) (nodes ++ others) = upTo (s.stopsAt maxDepth) nodes := by
        rw [upTo_append, ← stops]
        rfl
      rw [if_pos Option.isSome_some]
      refine ⟨same ▸ h.candidates, ?_, same ▸ h.shallow⟩
      rw [List.findSome?_append, ← h.halt, halted]
      rfl
  | none =>
      rw [halted] at stops
      have both : upTo (s.stopsAt maxDepth) (nodes ++ others) =
          nodes ++ upTo (s.stopsAt maxDepth) others := by
        rw [upTo_append, ← stops]
        rfl
      have whole := upTo_eq_self stops.symm
      rw [if_neg (by simp)]
      refine ⟨?_, ?_, ?_⟩
      · rw [both, List.filterMap_append, ← k.candidates, h.candidates, whole]
      · rw [List.findSome?_append, ← h.halt, halted, ← k.halt]
        rfl
      · rw [both]
        exact List.forall_mem_append.mpr ⟨whole ▸ h.shallow, k.shallow⟩

end Sees

mutual

/-- A visit goes through the nodes in their order, however deep it is when it begins. -/
theorem sees_visit (s : Search) (guard : DepthGuard) (index : Nat) (above : List Tree) (t : Tree)
    (nests : LinesNest s.source t) (level : guard.depth = above.length)
    (allowed : guard.depth ≤ guard.maxDepth) :
    s.Sees guard.maxDepth (inOrder index above t) (visit s guard index above t) := by
  match t, nests with
  | .node face children, .node inside below =>
      cases meets : s.meets (.node face children) with
      | false =>
          rw [visit, meets, if_neg Bool.false_ne_true]
          exact .of_apart (meets_eq_false s index above _ (.node inside below) meets)
      | true =>
          let f : Focus := ⟨.node face children, index, above⟩
          have depth : f.depth = guard.depth := level.symm
          have here : f.depth ≤ guard.maxDepth := Nat.le_trans (Nat.le_of_eq depth) allowed
          rw [visit, meets, if_pos rfl, inOrder]
          cases tells : s.candidate? f with
          | error reason =>
              have nothing : s.find? f = none := find?_of_error tells
              have ends := Sees.stop (inOrderAll 0 (.node face children :: above) children)
                (.outside meets tells) here
              rwa [nothing] at ends
          | ok found =>
              have finds : s.find? f = found := find?_of_ok meets tells
              -- A node without children is searched whatever the depth, so the guard is asked only
              -- behind this split.
              cases children with
              | nil =>
                  have goesOn : s.halt? guard.maxDepth f = none := by
                    simp [halt?, f, meets, tells, Tree.children]
                  have nothing : s.Sees guard.maxDepth [] ⟨[], none⟩ := .of_apart (by simp)
                  have whole := nothing.cons goesOn here
                  rwa [finds, List.append_nil] at whole
              | cons c cs =>
                  cases entered : guard.enter? with
                  | none =>
                      have deepest := DepthGuard.enter?_eq_none_iff.mp entered
                      have same := Nat.le_antisymm allowed deepest
                      have ends := Sees.stop (inOrderAll 0 (f.tree :: above) (c :: cs))
                        (.depth meets tells (depth.trans same) (List.cons_ne_nil c cs)) here
                      rwa [finds] at ends
                  | some deeper =>
                      obtain ⟨less, rfl⟩ := DepthGuard.enter?_eq_some_iff.mp entered
                      have rest := sees_visitAll s { guard with depth := guard.depth + 1 } 0
                        (.node face (c :: cs) :: above) (c :: cs) below (congrArg (· + 1) level) less
                      have goesOn : s.halt? guard.maxDepth f = none := by
                        simp [halt?, f, meets, tells, depth, Nat.ne_of_lt less]
                      have whole := rest.cons goesOn here
                      rwa [finds] at whole

/-- Visits beside one another go through the nodes in their order. -/
theorem sees_visitAll (s : Search) (guard : DepthGuard) (index : Nat) (above : List Tree)
    (ts : List Tree) (nests : ∀ t ∈ ts, LinesNest s.source t) (level : guard.depth = above.length)
    (allowed : guard.depth ≤ guard.maxDepth) :
    s.Sees guard.maxDepth (inOrderAll index above ts) (visitAll s guard index above ts) := by
  match ts with
  | [] => exact .of_apart (by simp [inOrderAll])
  | t :: ts =>
      rw [visitAll, inOrderAll]
      obtain ⟨first, others⟩ := List.forall_mem_cons.mp nests
      exact (sees_visit s guard index above t first level allowed).andThen
        (sees_visitAll s guard (index + 1) above ts others level allowed)

end

mutual

/-- Whatever a visit finds is the candidate of a node that it comes by. -/
theorem exists_find?_of_visit {s : Search} {guard : DepthGuard} {index : Nat} {above : List Tree}
    {t : Tree} {c : Candidate} (h : c ∈ (visit s guard index above t).candidates) :
    ∃ f ∈ inOrder index above t, s.find? f = some c := by
  match t with
  | .node face children =>
      rw [visit] at h
      split at h
      next meets =>
        split at h
        next => cases h
        next found tells =>
          have here : c ∈ found.toList →
              ∃ f ∈ inOrder index above (.node face children), s.find? f = some c := by
            intro member
            refine ⟨⟨.node face children, index, above⟩, List.mem_cons_self, ?_⟩
            rw [find?_of_ok meets tells]
            exact Option.mem_toList.mp member
          split at h
          · exact here h
          · split at h
            · exact here h
            · rcases List.mem_append.mp h with h | h
              · exact here h
              · obtain ⟨f, member, finds⟩ := exists_find?_of_visitAll h
                exact ⟨f, List.mem_cons_of_mem _ member, finds⟩
      next => cases h

/-- Whatever visits beside one another find is the candidate of a node that they come by. -/
theorem exists_find?_of_visitAll {s : Search} {guard : DepthGuard} {index : Nat}
    {above : List Tree} {ts : List Tree} {c : Candidate}
    (h : c ∈ (visitAll s guard index above ts).candidates) :
    ∃ f ∈ inOrderAll index above ts, s.find? f = some c := by
  match ts with
  | [] => cases h
  | t :: ts =>
      have first : c ∈ (visit s guard index above t).candidates →
          ∃ f ∈ inOrderAll index above (t :: ts), s.find? f = some c := by
        intro here
        obtain ⟨f, member, found⟩ := exists_find?_of_visit here
        exact ⟨f, List.mem_append_left _ member, found⟩
      rw [visitAll, Found.andThen] at h
      split at h
      · exact first h
      · rcases List.mem_append.mp h with h | h
        · exact first h
        · obtain ⟨f, member, found⟩ := exists_find?_of_visitAll h
          exact ⟨f, List.mem_append_right _ member, found⟩

end

/-- A search goes through the nodes of the tree in their order. -/
theorem sees_run {s : Search} (maxDepth : Nat) {t : Tree} (nests : LinesNest s.source t) :
    s.Sees maxDepth t.nodes (s.run maxDepth t) :=
  sees_visit s (.start maxDepth) 0 [] t nests rfl (Nat.zero_le _)

/-- A search that does not end early finds the candidates of all nodes of the tree. -/
theorem candidates_run {s : Search} {maxDepth : Nat} {t : Tree} (nests : LinesNest s.source t)
    (goesOn : (s.run maxDepth t).halt = none) :
    (s.run maxDepth t).candidates = t.nodes.filterMap s.find? := by
  have sees := sees_run maxDepth nests
  have none : t.nodes.any (s.stopsAt maxDepth) = false := by
    rw [← sees.isSome_halt, goesOn]
    rfl
  rw [sees.candidates, upTo_eq_self none]

end Search

end DiffScope.Scope
