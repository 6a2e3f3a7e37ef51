import Mathlib.Data.List.Basic
import DiffScope.Syntax.Diagnosis
import DiffScope.Proofs.Syntax.Lines

/-! # Nesting

A tree nests under a reading of places when every node starts and stops, as read, between the start
and the stop of the node above it. It is enough to rely on a parser for trees that nest by lines and
lie in their text. Those that are read by an automaton nest by characters, and so they nest by lines.
-/

namespace DiffScope.Syntax

open DiffScope.Grammar DiffScope.Parse

/-- Every node of the tree lies in the node above it, when places are read in a certain way. -/
inductive Nests (reading : Nat → Nat) : Tree → Prop where
  | node {face : Face} {children : List Tree}
      (inside : ∀ c ∈ children,
        reading face.start ≤ reading c.start ∧ reading c.stop ≤ reading face.stop)
      (below : ∀ c ∈ children, Nests reading c) :
      Nests reading (.node face children)

/-- Every node of the tree has its lines among those of the node above it. -/
abbrev LinesNest (s : Source) (t : Tree) : Prop := Nests s.line t

namespace Nests

theorem node_iff {reading : Nat → Nat} {face : Face} {children : List Tree} :
    Nests reading (.node face children) ↔
      ∀ c ∈ children, (reading face.start ≤ reading c.start ∧ reading c.stop ≤ reading face.stop) ∧
        Nests reading c := by
  constructor
  · intro h c member
    cases h with
    | node inside below => exact ⟨inside c member, below c member⟩
  · intro h
    exact .node (fun c member => (h c member).1) (fun c member => (h c member).2)

theorem of_monotone {reading : Nat → Nat} (mono : ∀ a b, a ≤ b → reading a ≤ reading b) {t : Tree}
    (h : Nests id t) : Nests reading t := by
  induction h with
  | node inside _ ih =>
      refine .node (fun c member => ?_) ih
      exact ⟨mono _ _ (inside c member).1, mono _ _ (inside c member).2⟩

theorem inFields {reading : Nat → Nat} {t : Tree} (fields : List String) (h : Nests reading t) :
    Nests reading (t.inFields fields) := by
  cases h with
  | node inside below => exact .node inside below

end Nests

/-- Every node of the tree stops behind its start and not behind a place. -/
inductive LiesBefore (place : Nat) : Tree → Prop where
  | node {face : Face} {children : List Tree} (ordered : face.start ≤ face.stop)
      (within : face.stop ≤ place) (below : ∀ c ∈ children, LiesBefore place c) :
      LiesBefore place (.node face children)

namespace LiesBefore

variable {place later : Nat} {t : Tree}

theorem node_iff {face : Face} {children : List Tree} : LiesBefore place (.node face children) ↔
    (face.start ≤ face.stop ∧ face.stop ≤ place) ∧ ∀ c ∈ children, LiesBefore place c := by
  constructor
  · rintro ⟨ordered, within, below⟩
    exact ⟨⟨ordered, within⟩, below⟩
  · rintro ⟨⟨ordered, within⟩, below⟩
    exact .node ordered within below

theorem span (h : LiesBefore place t) : t.start ≤ t.stop ∧ t.stop ≤ place := by
  cases h with
  | node ordered within => exact ⟨ordered, within⟩

theorem child (h : LiesBefore place t) {c : Tree} (member : c ∈ t.children) :
    LiesBefore place c := by
  cases h with
  | node _ _ below => exact below c member

theorem widen (h : LiesBefore place t) (le : place ≤ later) : LiesBefore later t := by
  induction h with
  | node ordered within _ ih => exact .node ordered (Nat.le_trans within le) ih

theorem inFields (fields : List String) (h : LiesBefore place t) :
    LiesBefore place (t.inFields fields) := by
  cases h with
  | node ordered within below => exact .node ordered within below

mutual

theorem of_mem_inOrder {index : Nat} {above : List Tree} {t : Tree} {f : Focus}
    (h : LiesBefore place t) (others : ∀ a ∈ above, LiesBefore place a)
    (member : f ∈ inOrder index above t) :
    LiesBefore place f.tree ∧ ∀ a ∈ f.above, LiesBefore place a := by
  match t, h with
  | .node face children, .node ordered within below =>
      rcases List.mem_cons.mp member with rfl | member
      · exact ⟨.node ordered within below, others⟩
      · exact of_mem_inOrderAll below
          (List.forall_mem_cons.mpr ⟨.node ordered within below, others⟩) member

theorem of_mem_inOrderAll {index : Nat} {above ts : List Tree} {f : Focus}
    (h : ∀ t ∈ ts, LiesBefore place t) (others : ∀ a ∈ above, LiesBefore place a)
    (member : f ∈ inOrderAll index above ts) :
    LiesBefore place f.tree ∧ ∀ a ∈ f.above, LiesBefore place a := by
  match ts with
  | [] => cases member
  | t :: ts =>
      obtain ⟨first, later⟩ := List.forall_mem_cons.mp h
      rcases List.mem_append.mp member with member | member
      · exact of_mem_inOrder first others member
      · exact of_mem_inOrderAll later others member

end

/-- The nodes of a tree and the nodes above them lie where the tree does. -/
theorem of_mem_nodes (h : LiesBefore place t) {f : Focus} (member : f ∈ t.nodes) :
    LiesBefore place f.tree ∧ ∀ a ∈ f.above, LiesBefore place a :=
  of_mem_inOrder h (by simp) member

end LiesBefore

/-- What is relied on of a parser: the lines of a node are among those of the node above it, and every
node lies in the text. -/
structure Parser.IsFaithful (parser : Parser) : Prop where
  nests : ∀ language text t, parser.read language text = .ok t → LinesNest (.ofText text) t
  lies : ∀ language text t, parser.read language text = .ok t → LiesBefore text.length t

/-- A sound node that has a kind of its own. -/
def Tree.named (kind : String) (fields : List String) (start stop : Nat) (children : List Tree) :
    Tree :=
  .node ⟨kind, true, false, false, fields, start, stop⟩ children

/-- A node of a word or mark that the text has. -/
def Tree.mark (text : String) (fields : List String) (start stop : Nat) : Tree :=
  .node ⟨text, false, false, false, fields, start, stop⟩ []

/-- The parser that knows the tree of one text. -/
def Parser.ofTree (text : List Char) (t : Tree) : Parser where
  read _ other := if other = text then .ok t else .error .noTree

theorem Parser.isFaithful_ofTree {text : List Char} {t : Tree} (nests : LinesNest (.ofText text) t)
    (lies : LiesBefore text.length t) : (Parser.ofTree text t).IsFaithful := by
  have only : ∀ other u, (if other = text then Except.ok t else .error ReadFailure.noTree) = .ok u →
      other = text ∧ t = u := by
    intro other u read
    split at read
    next same => exact ⟨same, Except.ok.inj read⟩
    next => cases read
  constructor
  · intro _ other u read
    obtain ⟨rfl, rfl⟩ := only other u read
    exact nests
  · intro _ other u read
    obtain ⟨rfl, rfl⟩ := only other u read
    exact lies

/-! ## Trees that are read by an automaton -/

/-- The trees lie between two places, and each of them nests. -/
def Between (start stop : Nat) (ts : List Tree) : Prop :=
  ∀ t ∈ ts, start ≤ t.start ∧ t.stop ≤ stop ∧ Nests id t ∧ LiesBefore t.stop t

namespace Between

theorem nil (start stop : Nat) : Between start stop [] := by
  intro t member
  cases member

theorem widen {start stop start' stop' : Nat} {ts : List Tree} (h : Between start stop ts)
    (earlier : start' ≤ start) (later : stop ≤ stop') : Between start' stop' ts := by
  intro t member
  obtain ⟨first, last, sound⟩ := h t member
  exact ⟨Nat.le_trans earlier first, Nat.le_trans last later, sound⟩

theorem append {start stop : Nat} {ts us : List Tree} (h : Between start stop ts)
    (k : Between start stop us) : Between start stop (ts ++ us) := by
  intro t member
  rcases List.mem_append.mp member with member | member
  · exact h t member
  · exact k t member

theorem inFields {start stop : Nat} {ts : List Tree} (fields : List String)
    (h : Between start stop ts) : Between start stop (ts.map (Tree.inFields fields)) := by
  intro t member
  obtain ⟨u, origin, rfl⟩ := List.mem_map.mp member
  obtain ⟨first, last, nests, lies⟩ := h u origin
  cases u with
  | node face children => exact ⟨first, last, nests.inFields fields, lies.inFields fields⟩

theorem single {face : Face} {children : List Tree} (ordered : face.start ≤ face.stop)
    (h : Between face.start face.stop children) :
    Between face.start face.stop [.node face children] := by
  intro t member
  rw [List.mem_singleton] at member
  subst member
  refine ⟨Nat.le_refl _, Nat.le_refl _, Nests.node_iff.mpr fun c inner => ?_,
    .node ordered (Nat.le_refl _) fun c inner => ?_⟩
  · obtain ⟨first, last, nests, -⟩ := h c inner
    exact ⟨⟨first, last⟩, nests⟩
  · obtain ⟨-, last, -, lies⟩ := h c inner
    exact lies.widen last

end Between

/-- Characters of blanks before the first token of some trees. -/
def leadOfAll : List Green → Nat
  | [] => 0
  | g :: _ => leadOf g

mutual

/-- What a tree shows lies behind its blanks and before the place behind it. -/
theorem place_between (t : Table) (at_ : Nat) (label : Option Label) (fields : List String)
    (g : Green) :
    at_ + leadOf g ≤ (place t at_ label fields g).2 ∧
      Between (at_ + leadOf g) (place t at_ label fields g).2 (place t at_ label fields g).1 := by
  match g with
  | .token symbol padding size origin isExtra =>
      have grows : at_ + padding.chars ≤ at_ + padding.chars + size.chars := Nat.le_add_right _ _
      simp only [place, leadOf]
      split
      · exact ⟨grows, .single grows (.nil _ _)⟩
      · exact ⟨grows, .nil _ _⟩
  | .node symbol production measure isExtra [] =>
      have grows : at_ + measure.padding.chars ≤
        at_ + measure.padding.chars + measure.size.chars := Nat.le_add_right _ _
      simp only [place, placeAll, leadOf, List.isEmpty_nil, if_true]
      split
      · exact ⟨grows, .single grows (.nil _ _)⟩
      · exact ⟨grows, .nil _ _⟩
  | .node symbol production measure isExtra (c :: cs) =>
      simp only [place, leadOf, List.isEmpty_cons, Bool.false_eq_true, if_false]
      obtain ⟨grows, inner⟩ := placeAll_between t at_ (match production with
        | some p => (t.productions[p]!).steps.toList.map fun s => (s.label, s.field)
        | none => []) (c :: cs)
      split
      · exact ⟨grows, .single grows inner⟩
      · exact ⟨grows, inner.inFields fields⟩

/-- What trees beside one another show lies behind the blanks of the first. -/
theorem placeAll_between (t : Table) (at_ : Nat)
    (steps : List (Option Label × Option String)) (gs : List Green) :
    at_ + leadOfAll gs ≤ (placeAll t at_ steps gs).2 ∧
      Between (at_ + leadOfAll gs) (placeAll t at_ steps gs).2 (placeAll t at_ steps gs).1 := by
  match gs with
  | [] => exact ⟨Nat.le_refl _, .nil _ _⟩
  | g :: gs =>
      simp only [placeAll, leadOfAll]
      generalize (if g.isExtra = true then (none, none, steps) else
        match steps with
        | (l, f) :: rest => (l, f, rest)
        | [] => (none, none, [])) = step
      obtain ⟨grows, here⟩ := place_between t at_ step.1 step.2.1.toList g
      obtain ⟨further, rest⟩ :=
        placeAll_between t (place t at_ step.1 step.2.1.toList g).2 step.2.2 gs
      have on := Nat.le_trans (Nat.le_add_right _ _) further
      refine ⟨Nat.le_trans grows on, .append (here.widen (Nat.le_refl _) on) ?_⟩
      exact rest.widen (Nat.le_trans grows (Nat.le_add_right _ _)) (Nat.le_refl _)

end

/-- The tree of a script nests by characters, and none of its nodes stops behind it. -/
theorem Tree.nests_ofText {a : Automaton} {text : List Char} {t : Tree}
    (h : Tree.ofText a text = some t) : Nests id t ∧ LiesBefore t.stop t := by
  unfold Tree.ofText at h
  split at h
  next g _ =>
    exact ((place_between a.table 0 none [] g).2 t (List.mem_of_mem_head? h)).2.2
  next => cases h

theorem Parser.isFaithful_builtIn : Parser.builtIn.IsFaithful := by
  have sound : ∀ language text t, Parser.builtIn.read language text = .ok t →
      Nests id t ∧ LiesBefore text.length t := by
    intro language text t read
    unfold Parser.builtIn at read
    dsimp only at read
    split at read
    next u found =>
      split at read
      next within =>
        obtain rfl := Except.ok.inj read
        obtain ⟨nests, lies⟩ := Tree.nests_ofText found
        exact ⟨nests, lies.widen within⟩
      next => cases read
    next => cases read
  refine ⟨fun language text t read => ?_, fun language text t read => (sound language text t read).2⟩
  exact (sound language text t read).1.of_monotone fun a b => (Source.ofText text).line_mono

/-! ## Scripts that were read -/

namespace Parsed

variable {parser : Parser} {language : Language} {text : List Char} {p : Parsed}

/-- A script that is read is a tree that the parser answers, and its text. -/
theorem exists_read_of_ofText (h : Parsed.ofText parser language text = .ok p) :
    ∃ t, parser.read language text = .ok t ∧ p = ofTree (.ofText text) t ∧ isUseless t = false := by
  unfold Parsed.ofText at h
  split at h
  next => cases h
  next t read =>
    split at h
    next => cases h
    next useful => exact ⟨t, read, (Except.ok.inj h).symm, Bool.eq_false_iff.mpr useful⟩

theorem source_ofText (h : Parsed.ofText parser language text = .ok p) :
    p.source = .ofText text := by
  obtain ⟨t, -, rfl, -⟩ := exists_read_of_ofText h
  rfl

/-- The lines of every node of a script that was read are among those of the node above it. -/
theorem linesNest_ofText (faithful : parser.IsFaithful)
    (h : Parsed.ofText parser language text = .ok p) : LinesNest p.source p.tree := by
  obtain ⟨t, read, rfl, -⟩ := exists_read_of_ofText h
  exact faithful.nests language text t read

theorem liesBefore_ofText (faithful : parser.IsFaithful)
    (h : Parsed.ofText parser language text = .ok p) :
    LiesBefore p.source.text.length p.tree := by
  obtain ⟨t, read, rfl, -⟩ := exists_read_of_ofText h
  exact faithful.lies language text t read

end Parsed

end DiffScope.Syntax
