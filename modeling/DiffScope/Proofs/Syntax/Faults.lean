import Mathlib.Data.List.Basic
import Mathlib.Logic.Function.Iterate
import DiffScope.Syntax.Inspection

/-! # Every syntax error is accounted for

Where just the nodes are flagged that are faulty or have a faulty node below them, a cursor that goes
down only below flagged nodes still meets every fault of a tree, from the front. At each of its places
the faults that it met, and those of the nodes still to come, are all faults of the tree.
-/

namespace DiffScope.Syntax

/-! ## Faults of a tree -/

namespace Face

/-- The node holds skipped text, or the text lacks it. -/
def isFaulty (f : Face) : Bool := f.isBroken || f.isMissing

def fault (s : Source) (f : Face) : Fault :=
  ⟨if f.isMissing then .missing else .broken, s.line f.start, s.column f.start, f.kind⟩

end Face

theorem faultOf?_eq (s : Source) (f : Face) :
    faultOf? s f = if f.isFaulty then some (f.fault s) else none := by
  cases missing : f.isMissing <;> cases broken : f.isBroken <;>
    simp [faultOf?, Face.isFaulty, Face.fault, missing, broken]

/-- What is wrong with nodes, in their order. -/
def faultsAmong (s : Source) (nodes : List Focus) : List Fault :=
  nodes.filterMap fun f => faultOf? s f.tree.face

theorem faultsAmong_eq (s : Source) (nodes : List Focus) :
    faultsAmong s nodes =
      (nodes.filter fun f => f.tree.face.isFaulty).map fun f => f.tree.face.fault s := by
  rw [faultsAmong, ← List.filterMap_eq_map, List.filterMap_filter]
  apply List.filterMap_congr
  intro f _
  exact faultOf?_eq s f.tree.face

theorem faultsAmong_append (s : Source) (nodes others : List Focus) :
    faultsAmong s (nodes ++ others) = faultsAmong s nodes ++ faultsAmong s others :=
  List.filterMap_append

theorem faultsAmong_cons (s : Source) (f : Focus) (nodes : List Focus) :
    faultsAmong s (f :: nodes) = (faultOf? s f.tree.face).toList ++ faultsAmong s nodes := by
  rw [faultsAmong, List.filterMap_cons]
  cases faultOf? s f.tree.face <;> rfl

theorem faultsAmong_eq_nil_iff {s : Source} {nodes : List Focus} :
    faultsAmong s nodes = [] ↔ ∀ f ∈ nodes, f.tree.face.isFaulty = false := by
  rw [faultsAmong_eq, List.map_eq_nil_iff, List.filter_eq_nil_iff]
  simp

mutual

/-- The faults of a tree are those of its nodes, wherever the tree stands. -/
theorem faultsAmong_inOrder (s : Source) (index : Nat) (above : List Tree) (t : Tree) :
    faultsAmong s (inOrder index above t) = faultsOf s t := by
  match t with
  | .node face children =>
      rw [inOrder, faultsAmong_cons, faultsOf, faultsAmong_inOrderAll]
      rfl

theorem faultsAmong_inOrderAll (s : Source) (index : Nat) (above : List Tree) (ts : List Tree) :
    faultsAmong s (inOrderAll index above ts) = faultsOfAll s ts := by
  match ts with
  | [] => rfl
  | t :: ts =>
      rw [inOrderAll, faultsAmong_append, faultsOfAll, faultsAmong_inOrder, faultsAmong_inOrderAll]

end

/-! ## Nodes still to come -/

namespace Cursor

/-- The node at the cursor and the nodes below it. -/
def nodes (c : Cursor) : List Focus := inOrder c.index (c.above.map Prod.fst) c.tree

/-- The nodes behind those below a node with an index and nodes above it. -/
def laterThan (index : Nat) : List (Tree × Nat) → List Focus
  | [] => []
  | (parent, place) :: above =>
    inOrderAll (index + 1) (parent :: above.map Prod.fst) (parent.children.drop (index + 1)) ++
      laterThan place above

/-- The nodes behind the node at the cursor and those below it. -/
def later (c : Cursor) : List Focus := laterThan c.index c.above

variable {c d : Cursor}

theorem nodes_of_firstChild? (h : c.firstChild? = some d) :
    c.nodes ++ c.later = c.focus :: (d.nodes ++ d.later) := by
  obtain ⟨⟨face, children⟩, index, above⟩ := c
  cases children with
  | nil => cases h
  | cons child children =>
      obtain rfl := Option.some.inj h
      simp [nodes, later, laterThan, inOrder, inOrderAll, focus, Tree.children]

theorem nodes_of_firstChild?_eq_none (h : c.firstChild? = none) : c.nodes = [c.focus] := by
  obtain ⟨⟨face, children⟩, index, above⟩ := c
  cases children with
  | nil => rfl
  | cons child children => cases h

theorem later_of_nextSibling? (h : c.nextSibling? = some d) : c.later = d.nodes ++ d.later := by
  obtain ⟨tree, index, above⟩ := c
  cases above with
  | nil => cases h
  | cons a above =>
      obtain ⟨sibling, next, rfl⟩ := Option.map_eq_some_iff.mp h
      obtain ⟨bound, rfl⟩ := List.getElem?_eq_some_iff.mp next
      have behind := List.drop_eq_getElem_cons bound
      simp only [nodes, later, laterThan, behind, inOrderAll, List.map_cons, List.append_assoc]

theorem later_of_parent? (last : c.nextSibling? = none) (h : c.parent? = some d) :
    c.later = d.later := by
  obtain ⟨tree, index, above⟩ := c
  cases above with
  | nil => cases h
  | cons a above =>
      obtain rfl := Option.some.inj h
      have behind : a.1.children.drop (index + 1) = [] :=
        List.drop_eq_nil_iff.mpr (List.getElem?_eq_none_iff.mp (Option.map_eq_none_iff.mp last))
      simp [later, laterThan, behind, inOrderAll]

theorem later_of_parent?_eq_none (h : c.parent? = none) : c.later = [] := by
  obtain ⟨tree, index, above⟩ := c
  cases above with
  | nil => rfl
  | cons a above => cases h

theorem exists_nodes_eq (c : Cursor) : ∃ below, c.nodes = c.focus :: below := by
  obtain ⟨⟨face, children⟩, index, above⟩ := c
  exact ⟨_, rfl⟩

end Cursor

/-! ## The search -/

/-- Of the nodes, just those are flagged that are faulty or have a faulty node below them. -/
def Flags (flagged : Tree → Bool) (nodes : List Focus) : Prop :=
  ∀ f ∈ nodes, flagged f.tree = true ↔ ∃ g ∈ f.tree.nodes, g.tree.face.isFaulty = true

namespace Tally

/-- The faults that were met, when these are all of them. -/
def ofFaults (faults : List Fault) : Tally := ⟨faults.take describedFaults, faults.length⟩

theorem record_ofFaults (s : Source) (faults : List Fault) (f : Face) :
    (ofFaults faults).record s f = ofFaults (faults ++ (faultOf? s f).toList) := by
  cases found : faultOf? s f with
  | none => simp [record, found]
  | some fault =>
      simp only [record, found, ofFaults, List.length_take, Option.toList_some, List.length_append,
        List.length_singleton, List.take_append, mk.injEq, and_true]
      split
      next few =>
        have room : [fault].length ≤ describedFaults - faults.length := by
          rw [List.length_singleton]
          omega
        rw [List.take_of_length_le room]
      next many =>
        have full : describedFaults - faults.length = 0 := by omega
        rw [full, List.take_zero, List.append_nil]

end Tally

namespace Inspection

/-- The nodes that were not gone through. -/
def remaining : Inspection → List Focus
  | .arriving cursor _ => cursor.nodes ++ cursor.later
  | .leaving cursor _ => cursor.later
  | .ended _ => []

def tally : Inspection → Tally
  | .arriving _ tally | .leaving _ tally | .ended tally => tally

/-- More than the moves that are left, until the search has ended. -/
def effort : Inspection → Nat
  | .arriving cursor tally => 2 * (arriving cursor tally).remaining.length + cursor.depth
  | .leaving cursor tally => 2 * (leaving cursor tally).remaining.length + cursor.depth + 1
  | .ended _ => 0

/-- The search has met faults, and with those of the nodes that remain they are all there are. -/
def Meets (s : Source) (all : List Fault) (w : Inspection) : Prop :=
  ∃ faults, w.tally = .ofFaults faults ∧ faults ++ faultsAmong s w.remaining = all

variable {s : Source} {flagged : Tree → Bool} {all : List Fault}

/-- What one move of the search comes to. -/
structure Proceeds (s : Source) (v w : Inspection) : Prop where
  meets : ∀ all, v.Meets s all → w.Meets s all
  remaining : w.remaining <:+ v.remaining
  effort : w.effort < v.effort

theorem Meets.of_same {v w : Inspection} (h : v.Meets s all) (tally : w.tally = v.tally)
    (remaining : v.remaining = w.remaining) : w.Meets s all := by
  obtain ⟨faults, met, total⟩ := h
  exact ⟨faults, tally.trans met, remaining ▸ total⟩

/-- A move that looks at a node and passes over nodes without faults. -/
theorem Meets.record {cursor : Cursor} {tally : Tally} {w : Inspection} {passed : List Focus}
    (h : Meets s all (.arriving cursor tally)) (looked : w.tally = tally.record s cursor.tree.face)
    (rest : cursor.nodes ++ cursor.later = cursor.focus :: passed ++ w.remaining)
    (clean : faultsAmong s passed = []) : Meets s all w := by
  obtain ⟨faults, met, total⟩ := h
  refine ⟨faults ++ (faultOf? s cursor.tree.face).toList, ?_, ?_⟩
  · rw [looked, ← Tally.record_ofFaults, ← met]
    rfl
  · rw [← total, Inspection.remaining, rest, List.cons_append, faultsAmong_cons,
      faultsAmong_append, clean, List.nil_append, List.append_assoc]
    rfl

/-- Below a node that is not flagged there is no fault. -/
theorem clean_below {cursor : Cursor} {below nodes : List Focus} (flags : Flags flagged nodes)
    (member : cursor.focus ∈ nodes) (split : cursor.nodes = cursor.focus :: below)
    (unflagged : flagged cursor.tree = false) : faultsAmong s below = [] := by
  have none : faultsAmong s cursor.tree.nodes = [] := by
    rw [faultsAmong_eq_nil_iff]
    intro g among
    rw [Bool.eq_false_iff]
    intro faulty
    have flag := (flags cursor.focus member).mpr ⟨g, among, faulty⟩
    exact Bool.false_ne_true (unflagged.symm.trans flag)
  have same : faultsAmong s cursor.nodes = faultsAmong s cursor.tree.nodes := by
    rw [Cursor.nodes, Tree.nodes, faultsAmong_inOrder, faultsAmong_inOrder]
  rw [none, split, faultsAmong_cons, List.append_eq_nil_iff] at same
  exact same.2

/-- Each move of the search keeps what it comes to and leaves less to do. -/
theorem proceeds_step (s : Source) {w : Inspection} (flags : Flags flagged w.remaining)
    (going : ∀ tally, w ≠ .ended tally) : Proceeds s w (w.step s flagged) := by
  cases w with
  | arriving cursor tally =>
      obtain ⟨below, split⟩ := cursor.exists_nodes_eq
      have here : cursor.focus ∈ (arriving cursor tally).remaining :=
        List.mem_append_left _ (split ▸ List.mem_cons_self)
      have length : cursor.nodes.length = below.length + 1 := congrArg List.length split
      rw [step]
      cases flag : flagged cursor.tree with
      | false =>
          rw [if_neg Bool.false_ne_true]
          refine ⟨fun all h => ?_, List.suffix_append _ _, ?_⟩
          · exact h.record rfl (congrArg (· ++ cursor.later) split)
              (clean_below flags here split flag)
          · simp only [effort, remaining, List.length_append]
            omega
      | true =>
          rw [if_pos rfl]
          cases down : cursor.firstChild? with
          | none =>
              have alone := Cursor.nodes_of_firstChild?_eq_none down
              refine ⟨fun all h => ?_, List.suffix_append _ _, ?_⟩
              · exact h.record rfl (congrArg (· ++ cursor.later) alone) rfl
              · simp only [effort, remaining, List.length_append]
                omega
          | some child =>
              have next := Cursor.nodes_of_firstChild? down
              have depth := Cursor.depth_of_firstChild? down
              refine ⟨fun all h => ?_, ⟨[cursor.focus], next.symm⟩, ?_⟩
              · have rest : cursor.nodes ++ cursor.later =
                    cursor.focus :: [] ++ (child.nodes ++ child.later) := next
                exact h.record rfl rest rfl
              · simp only [effort, remaining, next, List.length_cons]
                omega
  | leaving cursor tally =>
      rw [step]
      cases across : cursor.nextSibling? with
      | some sibling =>
          have next := Cursor.later_of_nextSibling? across
          have depth := Cursor.depth_of_nextSibling? across
          refine ⟨fun all h => h.of_same rfl next, ⟨[], next.symm⟩, ?_⟩
          simp only [effort, remaining, next, depth]
          omega
      | none =>
          cases up : cursor.parent? with
          | some parent =>
              have next := Cursor.later_of_parent? across up
              have depth := Cursor.depth_of_parent? up
              refine ⟨fun all h => h.of_same rfl next, ⟨[], next.symm⟩, ?_⟩
              simp only [effort, remaining, next, depth]
              omega
          | none =>
              have next := Cursor.later_of_parent?_eq_none up
              exact ⟨fun all h => h.of_same rfl next, List.nil_suffix, Nat.succ_pos _⟩
  | ended tally => exact absurd rfl (going tally)

/-- A search comes to an end, in no more moves than its effort, having met all faults. -/
theorem exists_ended (s : Source) {w : Inspection} (flags : Flags flagged w.remaining)
    (meets : w.Meets s all) : ∃ n ≤ w.effort, (step s flagged)^[n] w = .ended (.ofFaults all) := by
  induction effort : w.effort using Nat.strongRecOn generalizing w with
  | ind k ih =>
      by_cases going : ∀ tally, w ≠ .ended tally
      · have proceeds := proceeds_step s flags going
        have flags' : Flags flagged (w.step s flagged).remaining := fun f member =>
          flags f (proceeds.remaining.subset member)
        obtain ⟨n, few, ended⟩ :=
          ih _ (effort ▸ proceeds.effort) flags' (proceeds.meets all meets) rfl
        have less := proceeds.effort
        exact ⟨n + 1, by omega, ended⟩
      · obtain ⟨tally, rfl⟩ := not_forall_not.mp going
        obtain ⟨faults, met, total⟩ := meets
        refine ⟨0, Nat.zero_le _, congrArg Inspection.ended ?_⟩
        rw [← total, remaining, faultsAmong, List.filterMap_nil, List.append_nil]
        exact met

/-- A search through a tree ends, with all of its faults. -/
theorem exists_ended_start (s : Source) {t : Tree} (flags : Flags flagged t.nodes) :
    ∃ n ≤ 2 * t.nodes.length,
      (step s flagged)^[n] (start flagged t) = .ended (.ofFaults (faultsOf s t)) := by
  rw [start]
  cases flag : flagged t with
  | true =>
      have whole : (arriving (.root t) .empty).remaining = t.nodes := List.append_nil _
      have meets : (arriving (.root t) .empty).Meets s (faultsOf s t) :=
        ⟨[], rfl, by rw [whole, List.nil_append, Tree.nodes, faultsAmong_inOrder]⟩
      obtain ⟨n, few, ended⟩ := exists_ended s (whole ▸ flags) meets
      rw [effort, whole] at few
      exact ⟨n, few, ended⟩
  | false =>
      obtain ⟨below, split⟩ := (Cursor.root t).exists_nodes_eq
      have here : (Cursor.root t).focus ∈ (Cursor.root t).nodes := split ▸ List.mem_cons_self
      have none : faultsOf s t = [] := by
        rw [← faultsAmong_inOrder s 0 [] t, faultsAmong_eq_nil_iff]
        intro f member
        rw [Bool.eq_false_iff]
        intro faulty
        have flagged := (flags _ here).mpr ⟨f, member, faulty⟩
        exact Bool.false_ne_true (flag.symm.trans flagged)
      exact ⟨0, Nat.zero_le _, congrArg (fun all => ended (.ofFaults all)) none.symm⟩

end Inspection

/-! ## Scripts that were read -/

namespace Parsed

/-- The faults of a tree are counted, and the first of them are described. -/
structure Accounts (p : Parsed) : Prop where
  count : p.faultCount = p.tree.nodes.countP fun f => f.tree.face.isFaulty
  described : p.faults = ((p.tree.nodes.filter fun f => f.tree.face.isFaulty).take 20).map
    fun f => f.tree.face.fault p.source
  length : p.faults.length = min 20 p.faultCount
  clean : p.isClean = true ↔ ∀ f ∈ p.tree.nodes, f.tree.face.isFaulty = false

theorem accounts_ofTree (s : Source) (t : Tree) : (ofTree s t).Accounts := by
  have faults : faultsOf s t =
      (t.nodes.filter fun f => f.tree.face.isFaulty).map fun f => f.tree.face.fault s := by
    rw [← faultsAmong_eq, Tree.nodes, faultsAmong_inOrder]
  refine ⟨?_, ?_, List.length_take, ?_⟩
  · rw [List.countP_eq_length_filter]
    exact (congrArg List.length faults).trans (List.length_map _)
  · rw [List.map_take]
    exact congrArg (List.take 20) faults
  · rw [isClean, decide_eq_true_iff, ← faultsAmong_eq_nil_iff (s := s), ofTree, Tree.nodes,
      faultsAmong_inOrder, List.length_eq_zero_iff]

end Parsed

/-- The root is broken, or there are named nodes right below it and all of them are. -/
def Tree.IsRejected (t : Tree) : Prop :=
  t.face.isBroken = true ∨
    (∃ c ∈ t.children, c.face.isNamed = true) ∧
      ∀ c ∈ t.children, c.face.isNamed = true → c.face.isBroken = true

theorem isUseless_iff {t : Tree} : isUseless t = true ↔ t.IsRejected := by
  simp [isUseless, Tree.IsRejected, or_iff_not_imp_left]

namespace Parsed

variable {parser : Parser} {language : Language} {text : List Char}

theorem ofText_eq_ok_iff {p : Parsed} : ofText parser language text = .ok p ↔
    ∃ t, parser.read language text = .ok t ∧ ¬t.IsRejected ∧ p = ofTree (.ofText text) t := by
  unfold ofText
  cases parser.read language text with
  | error failure => simp
  | ok t =>
      by_cases rejected : t.IsRejected
      · simp [isUseless_iff.mpr rejected, rejected]
      · have useful := mt isUseless_iff.mp rejected
        simp [useful, rejected, eq_comm]

theorem ofText_eq_error_iff {reason : String} : ofText parser language text = .error reason ↔
    (∃ failure, parser.read language text = .error failure ∧ reason = failure.message language) ∨
    ∃ t, parser.read language text = .ok t ∧ t.IsRejected ∧
      reason = (ofTree (.ofText text) t).refusal language := by
  unfold ofText
  cases parser.read language text with
  | error failure => simp [eq_comm]
  | ok t =>
      by_cases rejected : t.IsRejected
      · simp [isUseless_iff.mpr rejected, rejected, eq_comm]
      · have useful := mt isUseless_iff.mp rejected
        simp [useful, rejected]

end Parsed

/-- A search of a tree for syntax errors that goes down only below flagged nodes comes to an end, with
the first faults of the tree and their number, if just the nodes with faults in them are flagged. The
number is that of all faulty nodes, and the first twenty of these are described, from the front. The
tree is of no use exactly if the root is broken, or there are named nodes right below it and all of them
are, and whatever the parser is, a script is read as its tree exactly if the tree is of use. -/
theorem syntax_errors_are_accounted_for (s : Source) (t : Tree) (flagged : Tree → Bool)
    (flags : Flags flagged t.nodes) :
    (∃ n ≤ 2 * t.nodes.length, (Inspection.step s flagged)^[n] (.start flagged t) =
      .ended ⟨(Parsed.ofTree s t).faults, (Parsed.ofTree s t).faultCount⟩) ∧
    (Parsed.ofTree s t).Accounts ∧
    (isUseless t = true ↔ t.IsRejected) ∧
    (∀ parser language text p, Parsed.ofText parser language text = .ok p ↔
      ∃ u, parser.read language text = .ok u ∧ ¬u.IsRejected ∧ p = .ofTree (.ofText text) u) ∧
    ∀ parser language text reason, Parsed.ofText parser language text = .error reason ↔
      (∃ failure, parser.read language text = .error failure ∧
        reason = failure.message language) ∨
      ∃ u, parser.read language text = .ok u ∧ u.IsRejected ∧
        reason = (Parsed.ofTree (.ofText text) u).refusal language :=
  ⟨Inspection.exists_ended_start s flags, Parsed.accounts_ofTree s t, isUseless_iff,
    fun _ _ _ _ => Parsed.ofText_eq_ok_iff, fun _ _ _ _ => Parsed.ofText_eq_error_iff⟩

/-- A script with skipped text in skipped text, a mark that is missing there, and another one that is
missing at the end. -/
def tatteredScript : Tree :=
  let node kind named broken missing start stop :=
    Tree.node ⟨kind, named, broken, missing, [], start, stop⟩
  node "program" true false false 0 9 [
    node "ERROR" true true false 0 4 [
      node "identifier" true false false 0 1 [],
      node ")" false false true 2 2 [],
      node "ERROR" true true false 3 4 []],
    node "expression_statement" true false false 5 9 [
      node "identifier" true false false 5 6 [],
      node "identifier" true false false 8 9 []],
    node ";" false false true 9 9 []]

def tatteredText : Source := .ofText "a (\n) b\nc".toList

def hasFaults (t : Tree) : Bool := t.nodes.any fun f => f.tree.face.isFaulty

theorem faults_of_tatteredScript :
    Flags hasFaults tatteredScript.nodes ∧
    (∃ n ≤ 2 * tatteredScript.nodes.length,
      (Inspection.step tatteredText hasFaults)^[n] (.start hasFaults tatteredScript) =
        .ended ⟨[⟨.broken, 1, 0, "ERROR"⟩, ⟨.missing, 1, 2, ")"⟩, ⟨.broken, 1, 3, "ERROR"⟩,
          ⟨.missing, 3, 1, ";"⟩], 4⟩) ∧
    (Parsed.ofTree tatteredText tatteredScript).Accounts ∧ ¬tatteredScript.IsRejected := by
  have flags : Flags hasFaults tatteredScript.nodes := by
    intro f _
    rw [hasFaults, List.any_eq_true]
  obtain ⟨ends, accounts, rejection, -, -⟩ :=
    syntax_errors_are_accounted_for tatteredText tatteredScript hasFaults flags
  have useful : ¬isUseless tatteredScript = true := by decide
  exact ⟨flags, ends, accounts, mt rejection.mpr useful⟩

end DiffScope.Syntax
