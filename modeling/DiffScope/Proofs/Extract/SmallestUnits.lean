import DiffScope.Proofs.Extract.Units

/-! # Sections are the smallest units around added lines

From the lines of a diff to the sections of a script: of all units in the tree, the sections are
those that are the smallest around some added line, in the order of the tree, and every added line
that lies in a unit is told by exactly one of them.
-/

namespace DiffScope.Extract

open DiffScope.Checked DiffScope.Component DiffScope.Diff DiffScope.Report DiffScope.Scope
open DiffScope.Syntax DiffScope.Text

/-- A section tells of the node at an index of the tree, which is a unit. -/
def TellsOf (p : Parsed) (naming : Naming) (index : Nat) (s : Section) : Prop :=
  ∃ f, p.tree.nodes[index]? = some f ∧ IsUnit f ∧ kind? f = some s.kind ∧
    nameOf p.source f = .ok s.name ∧ s.startLine = p.source.line f.tree.start ∧
    s.endLine = p.source.line f.tree.stop ∧ s.option = naming.option? p.source f

/-- Sections tell of the units at some indices of the tree, and every line is told by the section
of the smallest unit around it. -/
structure SmallestUnits (p : Parsed) (naming : Naming) (added : AddedLines) (picks : List Nat)
    (sections : List Section) : Prop where
  ascending : picks.Pairwise (· < ·)
  units : List.Forall₂ (TellsOf p naming) picks sections
  filled : ∀ s ∈ sections, s.addedLines ≠ []
  lines : ∀ (k i : Nat) (s : Section), picks[k]? = some i → sections[k]? = some s →
    ∀ l, l ∈ s.addedLines ↔ l ∈ added ∧ IsSmallestAround p.source p.tree.nodes l i
  /-- A line that a unit holds is told by one section, that of the smallest unit around it. -/
  held : ∀ l ∈ added, (∃ f ∈ p.tree.nodes, IsUnit f ∧ Holds p.source f l) →
    ∃ (k i : Nat) (s : Section), picks[k]? = some i ∧ sections[k]? = some s ∧ l ∈ s.addedLines ∧
      IsSmallestAround p.source p.tree.nodes l i ∧
      ∀ (k' : Nat) (s' : Section), sections[k']? = some s' → l ∈ s'.addedLines → k' = k
  /-- A line that no unit holds is told by no section. -/
  bare : ∀ l, (∀ f ∈ p.tree.nodes, IsUnit f → ¬Holds p.source f l) →
    ∀ s ∈ sections, l ∉ s.addedLines

section Analysis

variable {p : Parsed} {naming : Naming} {added : AddedLines}

/-- The search that the sections of a script come from. -/
abbrev searchOf (p : Parsed) (naming : Naming) (added : AddedLines) : Search :=
  ⟨p.source, added, naming⟩

/-- A section that repeats a kept candidate tells of the candidate's node. -/
theorem TellsOf.of_repeats {index : Nat} {sel : Selected} {shown : Snippet.Shown} {s : Section}
    (gives : (searchOf p naming added).Gives p.tree.nodes index sel)
    (repeats : s.Repeats sel shown) : TellsOf p naming index s := by
  obtain ⟨f, found, is⟩ := gives.node
  exact ⟨f, found, is.unit, repeats.kind ▸ is.kind,
    is.name.trans (congrArg _ repeats.name.symm), repeats.startLine.trans is.startLine,
    repeats.endLine.trans is.endLine, repeats.option.trans is.option⟩

/-- Sections that repeat what a selection kept are the smallest units around the added lines. -/
theorem SmallestUnits.of_gives {picks : List Nat} {selected : List Selected}
    {sections : List Section} (ascending : picks.Pairwise (· < ·))
    (given : List.Forall₂ ((searchOf p naming added).Gives p.tree.nodes) picks selected)
    (complete : ∀ l ∈ added, ∀ i, IsSmallestAround p.source p.tree.nodes l i → i ∈ picks)
    (repeated : List.Forall₂ (fun sel s => ∃ shown, Section.Repeats sel shown s) selected
      sections) : SmallestUnits p naming added picks sections := by
  have told := forall₂_comp given repeated
  have lines : ∀ (k i : Nat) (s : Section), picks[k]? = some i → sections[k]? = some s →
      ∀ l, l ∈ s.addedLines ↔ l ∈ added ∧ IsSmallestAround p.source p.tree.nodes l i := by
    intro k i s pick here l
    obtain ⟨s', here', sel, gives, shown, repeats⟩ := exists_getElem?_left told pick
    obtain rfl := Option.some.inj (here.symm.trans here')
    rw [repeats.addedLines]
    exact gives.lines l
  refine ⟨ascending, ?_, ?_, lines, ?_, ?_⟩
  · exact told.imp fun i s ⟨sel, gives, shown, repeats⟩ => .of_repeats gives repeats
  · intro s member
    obtain ⟨i, -, sel, gives, shown, repeats⟩ := exists_of_mem_right told member
    exact repeats.addedLines ▸ gives.nonempty
  · rintro l member ⟨f, node, unit, holds⟩
    obtain ⟨i, smallest⟩ := exists_isSmallestAround node unit holds
    obtain ⟨k, pick⟩ := List.mem_iff_getElem?.mp (complete l member i smallest)
    obtain ⟨s, here, -⟩ := exists_getElem?_left told pick
    refine ⟨k, i, s, pick, here, (lines k i s pick here l).mpr ⟨member, smallest⟩, smallest, ?_⟩
    intro k' s' here' tells
    obtain ⟨i', pick', -⟩ := exists_getElem?_right told here'
    -- Only one node is the smallest unit around the line, and no node is picked twice.
    obtain rfl := ((lines k' i' s' pick' here' l).mp tells).2.unique smallest
    have bound := (List.getElem?_eq_some_iff.mp pick').1
    exact (List.getElem?_inj bound (ascending.imp Nat.ne_of_lt)).mp (pick'.trans pick.symm)
  · intro l apart s member tells
    obtain ⟨k, here⟩ := List.mem_iff_getElem?.mp member
    obtain ⟨i, pick, -⟩ := exists_getElem?_right told here
    obtain ⟨-, f, node, unit, holds, -⟩ := (lines k i s pick here l).mp tells
    exact apart f (List.mem_of_getElem? node) unit holds

end Analysis

/-- A script that lies in its text and of which every line has a number is analyzed to the smallest
units around its added lines, unless the search is cut short. -/
theorem exists_analyze_eq_ok {v : ScriptView} {p : Parsed} {added : AddedLines}
    (nests : LinesNest p.source p.tree) (lies : LiesBefore p.source.text.length p.tree)
    (uncut : (v.find p added).isCut = false) (first : 0 < v.policy.firstLine)
    (fit : newlines p.source.text + 1 + v.policy.firstLine < countBound) :
    ∃ outcome picks, v.analyze p added = .ok (.ok outcome) ∧
      SmallestUnits p v.naming added picks outcome.sections := by
  have tells : (v.search p.source added).TellsAll p.tree.nodes := Search.tellsAll_of_liesBefore lies
  have whole : (v.find p added).failure? = none := Search.failure?_eq_none_of_tellsAll nests tells
  obtain ⟨outcome, told⟩ := exists_tell_of_fit added first fit
  have analyzed := ScriptView.analyze_eq_ok_ok_iff.mpr ⟨whole, told⟩
  obtain ⟨selected, selects, told, -⟩ := tell_eq_ok_iff.mp told
  rw [ScriptView.find, Search.candidates_run nests (Search.halt_eq_none uncut whole)] at selects
  obtain ⟨picks, ascending, given, complete⟩ := Search.gives_of_select tells selects
  have repeated := told.imp fun sel s is => by
    obtain ⟨shown, -, repeats⟩ := Section.repeats_of_ofSelected is
    exact (⟨shown, repeats⟩ : ∃ shown, Section.Repeats sel shown s)
  exact ⟨outcome, picks, analyzed, .of_gives ascending given complete repeated⟩

/-- Without added lines there is nothing to tell. -/
theorem smallestUnits_nil {p : Parsed} {naming : Naming} {added : AddedLines}
    (none : added.isEmpty = true) : SmallestUnits p naming added [] [] := by
  have nothing : ∀ l, l ∉ added := fun l member => by
    rw [AddedLines.isEmpty, List.isEmpty_iff] at none
    rw [AddedLines.mem_def, none] at member
    cases member
  refine ⟨.nil, .nil, ?_, ?_, fun l member => absurd member (nothing l), ?_⟩
  · intro s member
    cases member
  · intro k i s pick
    cases pick
  · intro l _ s member
    cases member

/-- The sections of a script are the smallest units around its added lines, in the order of the
tree, whenever the search is not cut short and the line behind the text has a number in the file.
This holds of every tree that lies in its text and whose lines nest, and so of every text of which a
faithful parser reads a usable tree by the deadline. -/
theorem sections_are_smallest_units (m : Means) (kind : BlockKind) (language : Language)
    (naming : Naming) (firstLine : Nat) (added : AddedLines) :
    (∀ p : Parsed, LinesNest p.source p.tree → LiesBefore p.source.text.length p.tree →
      ((searchOf p naming added).run m.config.maxDepth p.tree).isCut = false →
      newlines p.source.text + 1 + max firstLine 1 < countBound →
      ∃ outcome picks,
        (ScriptView.ofMeans m kind language naming firstLine).analyze p added = .ok (.ok outcome) ∧
        SmallestUnits p naming added picks outcome.sections) ∧
    (m.parser.IsFaithful → m.IsInTime (.script kind) →
      ∀ (text : List Char) (p : Parsed), Parsed.ofText m.parser language text = .ok p →
      ((searchOf p naming added).run m.config.maxDepth p.tree).isCut = false →
      newlines text + 1 + max firstLine 1 < countBound →
      ∃ picks, SmallestUnits p naming added picks
        ((ScriptView.ofMeans m kind language naming firstLine).extract text added).sections) := by
  have first : 0 < max firstLine 1 := Nat.lt_of_lt_of_le Nat.one_pos (Nat.le_max_right _ _)
  constructor
  · intro p nests lies uncut fit
    exact exists_analyze_eq_ok nests lies uncut first fit
  · intro faithful inTime text p read uncut fit
    have same : p.source.text = text := congrArg Source.text (Parsed.source_ofText read)
    let v := ScriptView.ofMeans m kind language naming firstLine
    obtain ⟨outcome, picks, analyzed, smallest⟩ :=
      @exists_analyze_eq_ok v p added (Parsed.linesNest_ofText faithful read)
        (Parsed.liesBefore_ofText faithful read) uncut first (same ▸ fit)
    cases none : added.isEmpty with
    | true =>
        rw [ScriptView.extract, none, if_pos rfl]
        exact ⟨[], smallestUnits_nil none⟩
    | false =>
        have works := (ScriptView.work_eq_ok_ok_iff (v := v)).mpr ⟨p, read, analyzed⟩
        rw [ScriptView.extract_eq_outcome (v := v) none inTime works]
        exact ⟨picks, smallest⟩

/-- A function over two lines, which gives one on the second line. -/
def arrowsText : List Char := "const f = x =>\n  y => x + y;\n".toList

def arrowsTree : Syntax.Tree :=
  .named "program" [] 0 29 [
    .named "lexical_declaration" [] 0 28 [
      .mark "const" ["kind"] 0 5,
      .named "variable_declarator" [] 6 27 [
        .named "identifier" ["name"] 6 7 [],
        .mark "=" [] 8 9,
        .named "arrow_function" ["value"] 10 27 [
          .named "identifier" ["parameter"] 10 11 [],
          .mark "=>" [] 12 14,
          .named "arrow_function" ["body"] 17 27 [
            .named "identifier" ["parameter"] 17 18 [],
            .mark "=>" [] 19 21,
            .named "binary_expression" ["body"] 22 27 [
              .named "identifier" ["left"] 22 23 [],
              .mark "+" ["operator"] 24 25,
              .named "identifier" ["right"] 26 27 []]]]],
      .mark ";" [] 27 28]]

def nestedArrows : Parsed := .ofTree (.ofText arrowsText) arrowsTree

/-- The usual settings, and a parser that knows the two functions and is in time. -/
def arrowsMeans : Means := ⟨.default, .ofTree arrowsText arrowsTree, fun _ => .ends 0⟩

theorem arrowsTree_isFaithful : arrowsMeans.parser.IsFaithful := by
  have nests : Nests id arrowsTree := by
    simp [arrowsTree, Tree.named, Tree.mark, Nests.node_iff, Tree.start, Tree.stop, Tree.face]
  have lies : LiesBefore 29 arrowsTree := by
    simp [arrowsTree, Tree.named, Tree.mark, LiesBefore.node_iff]
  exact Parser.isFaithful_ofTree
    (nests.of_monotone fun a b => (Source.ofText arrowsText).line_mono) lies

theorem read_nestedArrows :
    Parsed.ofText arrowsMeans.parser .javaScript arrowsText = .ok nestedArrows := by
  rfl

theorem sections_of_nestedArrows :
    Parsed.ofText arrowsMeans.parser .javaScript arrowsText = .ok nestedArrows ∧
    ((searchOf nestedArrows .plain (.ofList [2])).run 512 nestedArrows.tree).isCut = false ∧
    (∃ outcome picks,
      (ScriptView.ofMeans arrowsMeans .script .javaScript .plain 1).analyze nestedArrows
        (.ofList [2]) = .ok (.ok outcome) ∧
      SmallestUnits nestedArrows .plain (.ofList [2]) picks outcome.sections) ∧
    ∃ picks, SmallestUnits nestedArrows .plain (.ofList [2]) picks
      ((ScriptView.ofMeans arrowsMeans .script .javaScript .plain 1).extract arrowsText
        (.ofList [2])).sections := by
  have faithful := arrowsTree_isFaithful
  have uncut : ((searchOf nestedArrows .plain (.ofList [2])).run 512
      nestedArrows.tree).isCut = false := by decide
  have fit : newlines nestedArrows.source.text + 1 + max 1 1 < countBound := by decide
  obtain ⟨ofTrees, ofTexts⟩ :=
    sections_are_smallest_units arrowsMeans .script .javaScript .plain 1 (.ofList [2])
  exact ⟨read_nestedArrows, uncut,
    ofTrees nestedArrows (Parsed.linesNest_ofText faithful read_nestedArrows)
      (Parsed.liesBefore_ofText faithful read_nestedArrows) uncut fit,
    ofTexts faithful ⟨0, Nat.zero_le _, rfl⟩ arrowsText nestedArrows read_nestedArrows uncut fit⟩

end DiffScope.Extract
