import DiffScope.Extract.Component
import DiffScope.Proofs.Component.Regions
import DiffScope.Proofs.Diff.Localized
import DiffScope.Proofs.Extract.Script
import DiffScope.Proofs.Report.Section
import DiffScope.Proofs.Scope.Kept

/-! # Sections are about units

Every section of a script is about a unit of the script's tree and accounts for added lines of that
unit, none of which another section accounts for. A section of a script block is one of the block's
script, moved to the lines of the file, and so it stays within the lines of the block.
-/

namespace DiffScope.Extract

open DiffScope.Checked DiffScope.Component DiffScope.Diff DiffScope.Report DiffScope.Scope
open DiffScope.Syntax DiffScope.Text

/-- The section is about a unit of a script, and accounts for added lines that the unit holds. -/
structure IsAbout (p : Parsed) (added : AddedLines) (f : Focus) (s : Section) : Prop where
  node : f ∈ p.tree.nodes
  unit : IsUnit f
  kind : kind? f = some s.kind
  name : nameOf p.source f = .ok s.name
  startLine : s.startLine = p.source.line f.tree.start
  endLine : s.endLine = p.source.line f.tree.stop
  ascending : s.addedLines.Pairwise (· < ·)
  lines : ∀ l ∈ s.addedLines, l ∈ added ∧ s.startLine ≤ l ∧ l ≤ s.endLine
  filled : s.addedLines ≠ []

/-- The section shows of a unit what the limits say. -/
def Displays (policy : Snippet.Policy) (source : Source) (f : Focus) (s : Section) : Prop :=
  ∃ shown, policy.apply (source.lead f.tree.start) (source.slice f.tree.start f.tree.stop)
      s.startLine s.endLine s.addedLines = .ok shown ∧
    s.snippet = String.ofList shown.text ∧ s.reason = shown.reason ∧ s.summary = shown.summary

/-- No line is among those that two of the sections account for. -/
def ToldOnce (sections : List Section) : Prop :=
  sections.Pairwise fun s t => List.Disjoint s.addedLines t.addedLines

/-! ## Scripts -/

section Scripts

variable {v : ScriptView} {p : Parsed} {added : AddedLines} {outcome : Outcome}

/-- What is told of units that were found is told of those that are kept, each by a section. -/
structure TellsKept (v : ScriptView) (p : Parsed) (added : AddedLines) (found : Search.Found)
    (selected : List Selected) (outcome : Outcome) : Prop where
  selects : select found.candidates added = .ok selected
  sections : List.Forall₂ (fun sel s => Section.ofSelected p.source v.policy sel = .ok s) selected
    outcome.sections
  issues : outcome.issues = (if p.isClean then [] else [.syntaxRecovered p.faultCount]) ++
    (if found.isCut then [.depthExceeded v.maxDepth] else [])

theorem tell_eq_ok_iff {found : Search.Found} :
    v.tell p added found = .ok outcome ↔ ∃ selected, TellsKept v p added found selected outcome := by
  constructor
  · intro h
    obtain ⟨selected, selects, h⟩ := bind_eq_ok.mp h
    obtain ⟨sections, told, h⟩ := bind_eq_ok.mp h
    obtain rfl := Except.ok.inj h
    exact ⟨selected, selects, mapM_eq_ok.mp told, rfl⟩
  · rintro ⟨selected, selects, told, issues⟩
    refine bind_eq_ok.mpr ⟨selected, selects, bind_eq_ok.mpr ⟨_, mapM_eq_ok.mpr told, ?_⟩⟩
    cases outcome
    cases issues
    rfl

theorem analyze_eq_ok_iff : v.analyze p added = .ok (.ok outcome) ↔
    (v.find p added).failure? = none ∧
      ∃ selected, TellsKept v p added (v.find p added) selected outcome :=
  ScriptView.analyze_eq_ok_ok_iff.trans (and_congr_right fun _ => tell_eq_ok_iff)

/-- Of a script of which every line has a number the units that are found are told. -/
theorem exists_tell_of_fit (added : AddedLines) (first : 0 < v.policy.firstLine)
    (fit : newlines p.source.text + 1 + v.policy.firstLine < countBound) :
    ∃ outcome, v.tell p added (v.find p added) = .ok outcome := by
  have below : ∀ c ∈ (v.find p added).candidates, c.endLine ≤ newlines p.source.text + 1 := by
    intro c member
    obtain ⟨f, -, found⟩ := Search.exists_find?_of_visit member
    rw [(Search.describes_of_find? found).endLine]
    exact p.source.line_le _
  obtain ⟨selected, selects⟩ := exists_select_eq_ok added fun c member => by
    have last := below c member
    omega
  have shows : ∀ sel ∈ selected, ∃ s, Section.ofSelected p.source v.policy sel = .ok s := by
    intro sel kept
    have last := below sel.candidate (candidate_mem_of_select selects kept)
    exact Section.exists_ofSelected_eq_ok p.source first (by omega)
  obtain ⟨sections, told⟩ := exists_mapM_eq_ok shows
  exact ⟨⟨sections, _⟩, tell_eq_ok_iff.mpr ⟨selected, selects, mapM_eq_ok.mp told, rfl⟩⟩

/-- The work on a script of which every line has a number does not break off. -/
theorem exists_analyze_of_fit (added : AddedLines) (first : 0 < v.policy.firstLine)
    (fit : newlines p.source.text + 1 + v.policy.firstLine < countBound) :
    ∃ result, v.analyze p added = .ok result := by
  obtain ⟨outcome, told⟩ := exists_tell_of_fit added first fit
  unfold ScriptView.analyze
  dsimp only
  rw [told]
  split
  · exact ⟨_, rfl⟩
  · exact ⟨_, rfl⟩

/-- What a section repeats of a kept candidate is about the candidate's unit. -/
theorem isAbout_of_repeats {naming : Naming} {f : Focus} {sel : Selected} {shown : Snippet.Shown}
    {s : Section} (node : f ∈ p.tree.nodes)
    (is : (Search.mk p.source added naming).Describes f sel.candidate)
    (ordered : sel.accountsFor.Sublist sel.candidate.addedLines) (filled : sel.accountsFor ≠ [])
    (repeats : s.Repeats sel shown) : IsAbout p added f s where
  node := node
  unit := is.unit
  kind := repeats.kind ▸ is.kind
  name := is.name.trans (congrArg _ repeats.name.symm)
  startLine := repeats.startLine.trans is.startLine
  endLine := repeats.endLine.trans is.endLine
  ascending := by
    rw [repeats.addedLines]
    refine List.Pairwise.sublist ordered ?_
    rw [is.lines]
    exact added.ascending.filter _
  lines := by
    intro l member
    rw [repeats.addedLines] at member
    rw [repeats.startLine, repeats.endLine]
    have holds := ordered.subset member
    rw [is.lines] at holds
    exact AddedLines.mem_within.mp holds
  filled := repeats.addedLines ▸ filled

/-- A section repeats what is kept of a unit, and shows what the limits leave of its text. -/
theorem exists_repeats_of_analyze (h : v.analyze p added = .ok (.ok outcome)) {s : Section}
    (member : s ∈ outcome.sections) :
    ∃ f sel shown, IsAbout p added f s ∧
      (v.search p.source added).Describes f sel.candidate ∧ s.Repeats sel shown ∧
      v.policy.apply (p.source.lead f.tree.start) (p.source.slice f.tree.start f.tree.stop)
        s.startLine s.endLine s.addedLines = .ok shown := by
  obtain ⟨-, selected, selects, told, -⟩ := analyze_eq_ok_iff.mp h
  obtain ⟨sel, kept, tells⟩ := exists_of_mem_right told member
  have keeps := Search.keeps_of_select (s := v.search p.source added) selects sel kept
  obtain ⟨f, node, is⟩ := keeps.node
  obtain ⟨shown, applied, repeats⟩ := Section.repeats_of_ofSelected tells
  rw [is.start, is.stop, ← repeats.startLine, ← repeats.endLine, ← repeats.addedLines] at applied
  exact ⟨f, sel, shown, isAbout_of_repeats node is keeps.ordered keeps.filled repeats, is, repeats,
    applied⟩

theorem exists_isAbout_of_analyze (h : v.analyze p added = .ok (.ok outcome)) :
    ∀ s ∈ outcome.sections, ∃ f, IsAbout p added f s ∧ Displays v.policy p.source f s := by
  intro s member
  obtain ⟨f, sel, shown, about, -, repeats, applied⟩ := exists_repeats_of_analyze h member
  exact ⟨f, about, shown, applied, repeats.snippet, repeats.reason, repeats.summary⟩

theorem toldOnce_of_analyze (h : v.analyze p added = .ok (.ok outcome)) :
    ToldOnce outcome.sections := by
  obtain ⟨-, selected, selects, told, -⟩ := analyze_eq_ok_iff.mp h
  have apart := Search.disjoint_of_select (s := v.search p.source added) selects
  refine pairwise_of_forall₂ told apart fun a s b t tellsS tellsT disjoint => ?_
  obtain ⟨_, -, repeatsS⟩ := Section.repeats_of_ofSelected tellsS
  obtain ⟨_, -, repeatsT⟩ := Section.repeats_of_ofSelected tellsT
  rw [repeatsS.addedLines, repeatsT.addedLines]
  exact disjoint

end Scripts

theorem exists_isAbout_of_extract {v : ScriptView} {text : List Char} {added : AddedLines}
    {s : Section} (member : s ∈ (v.extract text added).sections) :
    ∃ p f, Parsed.ofText v.parser v.language text = .ok p ∧ IsAbout p added f s ∧
      Displays v.policy p.source f s := by
  rcases v.sections_extract text added with none | ⟨p, read, analyzed⟩
  · rw [none] at member
    cases member
  · obtain ⟨f, about⟩ := exists_isAbout_of_analyze analyzed s member
    exact ⟨p, f, read, about⟩

/-- The lines of a section are among those of its script. -/
theorem endLine_le_of_extract {v : ScriptView} {text : List Char} {added : AddedLines}
    {s : Section} (member : s ∈ (v.extract text added).sections) :
    1 ≤ s.startLine ∧ s.endLine ≤ newlines text + 1 := by
  obtain ⟨p, f, read, about, -⟩ := exists_isAbout_of_extract member
  have source : p.source.text = text := congrArg Source.text (Parsed.source_ofText read)
  rw [about.startLine, about.endLine, ← source]
  exact ⟨Nat.succ_pos _, p.source.line_le _⟩

theorem toldOnce_extract (v : ScriptView) (text : List Char) (added : AddedLines) :
    ToldOnce (v.extract text added).sections := by
  rcases v.sections_extract text added with none | ⟨p, -, analyzed⟩
  · rw [none]
    exact .nil
  · exact toldOnce_of_analyze analyzed

/-! ## Script blocks -/

section Blocks

variable {m : Means} {added : AddedLines} {r : Region} {outcome : Outcome}

/-- How a script block is looked at. -/
abbrev blockView (m : Means) (r : Region) (language : Language) : ScriptView :=
  .ofMeans m r.kind language (namingOf r.kind) r.startLine

/-- A block tells nothing if its language is not known, and else what its script tells, in the lines
of the file. -/
theorem extractRegion_eq_ok_iff : extractRegion m added r = .ok outcome ↔
    match Language.ofAttribute? r.lang with
    | none => outcome = ⟨[], []⟩
    | some language =>
      let told := (blockView m r language).extract r.content (added.localize r.startLine)
      List.Forall₂ (fun s t => s.shifted r.startLine = .ok t) told.sections outcome.sections ∧
        outcome.issues = told.issues := by
  unfold extractRegion
  cases Language.ofAttribute? r.lang with
  | none => exact ⟨fun h => (Except.ok.inj h).symm, fun h => congrArg _ h.symm⟩
  | some language =>
      constructor
      · intro h
        obtain ⟨sections, moved, h⟩ := bind_eq_ok.mp h
        obtain rfl := Except.ok.inj h
        exact ⟨mapM_eq_ok.mp moved, rfl⟩
      · rintro ⟨moved, issues⟩
        refine bind_eq_ok.mpr ⟨_, mapM_eq_ok.mpr moved, ?_⟩
        cases outcome
        cases issues
        rfl

/-- A section of a script block is a section of its script in the lines of the file. -/
theorem exists_shifted_of_extractRegion (h : extractRegion m added r = .ok outcome) {t : Section}
    (member : t ∈ outcome.sections) :
    ∃ language s, Language.ofAttribute? r.lang = some language ∧ s.shifted r.startLine = .ok t ∧
      s ∈ ((blockView m r language).extract r.content (added.localize r.startLine)).sections := by
  have block := extractRegion_eq_ok_iff.mp h
  split at block
  next =>
    rw [block] at member
    cases member
  next language known =>
    obtain ⟨s, among, moved⟩ := exists_of_mem_right block.1 member
    exact ⟨language, s, known, moved, among⟩

theorem toldOnce_of_extractRegion (positive : 0 < r.startLine)
    (h : extractRegion m added r = .ok outcome) : ToldOnce outcome.sections := by
  have block := extractRegion_eq_ok_iff.mp h
  split at block
  next =>
    rw [block]
    exact .nil
  next language _ =>
    have once := toldOnce_extract (blockView m r language) r.content (added.localize r.startLine)
    refine pairwise_of_forall₂ block.1 once fun s s' t t' moved moved' disjoint => ?_
    obtain ⟨-, rfl⟩ := Section.shifted_eq_ok_iff.mp moved
    obtain ⟨-, rfl⟩ := Section.shifted_eq_ok_iff.mp moved'
    intro l inS inT
    obtain ⟨a, memberA, rfl⟩ := List.mem_map.mp inS
    obtain ⟨b, memberB, same⟩ := List.mem_map.mp inT
    obtain rfl : a = b := by omega
    exact disjoint memberA memberB

/-- A section of a script block accounts for added lines of the block. -/
theorem mem_of_extractRegion {source : List Char} (sits : r.SitsIn source)
    (h : extractRegion m added r = .ok outcome) {t : Section} (member : t ∈ outcome.sections) :
    ∀ l ∈ t.addedLines, l ∈ added ∧ r.startLine ≤ l ∧ l ≤ r.endLine := by
  obtain ⟨language, s, -, moved, told⟩ := exists_shifted_of_extractRegion h member
  obtain ⟨p, f, -, about, -⟩ := exists_isAbout_of_extract told
  obtain ⟨-, bottom⟩ := endLine_le_of_extract told
  obtain ⟨-, rfl⟩ := Section.shifted_eq_ok_iff.mp moved
  obtain ⟨pre, post, -, first, last⟩ := sits
  intro l inside
  obtain ⟨a, accounted, rfl⟩ := List.mem_map.mp inside
  obtain ⟨isLocal, -, below⟩ := about.lines a accounted
  obtain ⟨-, g, isAdded, behind, rfl⟩ := AddedLines.mem_localize.mp isLocal
  have same : g - r.startLine + 1 + r.startLine - 1 = g := by omega
  rw [same]
  exact ⟨isAdded, behind, by omega⟩

end Blocks

end DiffScope.Extract
