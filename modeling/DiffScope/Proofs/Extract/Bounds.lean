import DiffScope.Proofs.Component.Stretches
import DiffScope.Proofs.Extract.Coherent
import DiffScope.Proofs.Extract.Files
import DiffScope.Proofs.Extract.Moved

/-! # Script blocks keep to their lines

What is told of a script block stays within the lines of the block, whatever lines are added before
and behind it, and a block without added lines tells nothing. Since the lines of a block are lines of
its file, no count on the way leaves its bound if there is a number for the line behind the file's last.
-/

namespace DiffScope.Extract

open DiffScope.Checked DiffScope.Component DiffScope.Diff DiffScope.Report DiffScope.Scope
open DiffScope.Snippet DiffScope.Syntax DiffScope.Text

/-- A section stays within the lines of a block and accounts for added lines of its own. -/
structure StaysIn (added : AddedLines) (r : Region) (s : Section) : Prop where
  first : r.startLine ≤ s.startLine
  ordered : s.startLine ≤ s.endLine
  last : s.endLine ≤ r.endLine
  lines : ∀ l ∈ s.addedLines, l ∈ added ∧ s.startLine ≤ l ∧ l ≤ s.endLine

section Blocks

variable {m : Means} {added : AddedLines} {source : List Char} {r : Region} {outcome : Outcome}

theorem staysIn_of_extractRegion (sits : r.SitsIn source)
    (h : extractRegion m added r = .ok outcome) : ∀ t ∈ outcome.sections, StaysIn added r t := by
  intro t member
  have coherent := (coherent_of_extractRegion h t member).1
  obtain ⟨language, s, -, moved, told⟩ := exists_shifted_of_extractRegion h member
  obtain ⟨first, last⟩ := endLine_le_of_extract told
  obtain ⟨-, rfl⟩ := Section.shifted_eq_ok_iff.mp moved
  obtain ⟨pre, post, -, start, stop⟩ := sits
  refine ⟨?_, coherent.ordered, ?_, coherent.lines⟩
  · dsimp only
    omega
  · dsimp only
    omega

/-- A block of which no line is added tells nothing. -/
theorem sections_eq_nil_of_extractRegion (sits : r.SitsIn source)
    (h : extractRegion m added r = .ok outcome)
    (outside : ∀ l ∈ added, l < r.startLine ∨ r.endLine < l) : outcome.sections = [] := by
  refine List.eq_nil_iff_forall_not_mem.mpr fun t member => ?_
  have filled := (coherent_of_extractRegion h t member).1.filled
  obtain ⟨l, accounted⟩ := List.exists_mem_of_ne_nil _ filled
  obtain ⟨isAdded, above, below⟩ := mem_of_extractRegion sits h member l accounted
  have apart := outside l isAdded
  omega

end Blocks

/-! ## Counts -/

/-- The windows of a section can be made out, and each of their lines has a place in the unit and a
number in the file, within the lines of the block. -/
def WindowsFit (p : Policy) (r : Region) (s : Section) : Prop :=
  ∃ ws, windows s.addedLines s.startLine s.endLine p.radius = .ok ws ∧
    ∀ w ∈ ws, ∀ l ∈ w.lines, ∃ place label, Overflow.minus l s.startLine = .ok place ∧
      p.label l = .ok label ∧ r.startLine ≤ label ∧ label ≤ r.endLine

/-- No count for a script block leaves its bound: added lines can be counted in the lines of the block,
the work on its script is done, and its sections can be shown in windows and moved to the lines of the
file. -/
structure CountsFit (m : Means) (added : AddedLines) (r : Region) : Prop where
  localized : ∀ g ∈ added, countToRegion g r.startLine = .ok (toRegion? g r.startLine)
  worked : ∀ language, ∃ result,
    (blockView m r language).work r.content (added.localize r.startLine) = .ok result
  windowed : ∀ language,
    ∀ s ∈ ((blockView m r language).extract r.content (added.localize r.startLine)).sections,
      WindowsFit (blockView m r language).policy r s
  shifted : ∀ language,
    ∀ s ∈ ((blockView m r language).extract r.content (added.localize r.startLine)).sections,
      ∃ t, s.shifted r.startLine = .ok t
  told : ∃ o, extractRegion m added r = .ok o

section Scripts

variable {v : ScriptView} {text : List Char} {added : AddedLines}

theorem exists_work_eq_ok (first : 0 < v.policy.firstLine)
    (fit : newlines text + 1 + v.policy.firstLine < countBound) :
    ∃ result, v.work text added = .ok result := by
  unfold ScriptView.work
  split
  next reason _ => exact ⟨_, rfl⟩
  next p read =>
    have source : p.source.text = text := congrArg Source.text (Parsed.source_ofText read)
    exact exists_analyze_of_fit added first (by rw [source]; exact fit)

theorem windowsFit_of_extract {r : Region} {s : Section} (start : v.policy.firstLine = r.startLine)
    (first : 0 < r.startLine) (stop : r.endLine = r.startLine + newlines text)
    (fit : r.endLine + 1 < countBound) (member : s ∈ (v.extract text added).sections) :
    WindowsFit v.policy r s := by
  obtain ⟨top, bottom⟩ := endLine_le_of_extract member
  have room : s.endLine + 1 < countBound := by omega
  obtain ⟨ws, found, inside⟩ := exists_windows_eq_ok s.addedLines s.startLine v.policy.radius room
  refine ⟨ws, found, fun w among l line => ?_⟩
  -- A window stays within its section, whose last line bounds all that is counted for it.
  obtain ⟨lower, upper⟩ := inside w among
  obtain ⟨above, below⟩ := Window.mem_lines.mp line
  have label : v.policy.label l = .ok (l + (v.policy.firstLine - 1)) :=
    (Policy.label_eq_ok_iff (start ▸ first)).mpr ⟨by omega, rfl⟩
  exact ⟨_, _, Overflow.minus_eq_ok (by omega), label, by omega, by omega⟩

end Scripts

section Blocks

variable (m : Means) (added : AddedLines) {source : List Char} {r : Region}

/-- Sections of a block can be moved to the lines of the file if there is a number for the line behind
the file's last. -/
theorem exists_shifted_of_sitsIn (sits : r.SitsIn source) (fit : newlines source + 2 < countBound)
    (language : Language) :
    ∀ s ∈ ((blockView m r language).extract r.content (added.localize r.startLine)).sections,
      ∃ t, s.shifted r.startLine = .ok t := by
  intro s member
  obtain ⟨pre, post, whole, start, -⟩ := sits
  rw [whole, newlines_append, newlines_append] at fit
  have shifted := shifted_of_extract member (n := newlines pre) (by omega)
  rw [← start] at shifted
  exact ⟨_, shifted⟩

theorem exists_extractRegion_eq_ok (sits : r.SitsIn source)
    (fit : newlines source + 2 < countBound) : ∃ o, extractRegion m added r = .ok o := by
  unfold extractRegion
  split
  next => exact ⟨_, rfl⟩
  next language _ =>
    obtain ⟨sections, moved⟩ :=
      exists_mapM_eq_ok (exists_shifted_of_sitsIn m added sits fit language)
    exact ⟨_, bind_eq_ok.mpr ⟨sections, moved, rfl⟩⟩

theorem exists_extractComponent_eq_ok (fit : newlines source + 2 < countBound) :
    ∃ outcome, extractComponent m source added = .ok outcome := by
  cases late : m.layoutIssue? with
  | some issue => exact ⟨_, extractComponent_eq_ok_iff.mpr (.late late)⟩
  | none =>
    have inTime := Means.layoutIssue?_eq_none_iff.mp late
    cases layout : regions source with
    | error e => exact ⟨_, extractComponent_eq_ok_iff.mpr (.unclear inTime layout)⟩
    | ok rs =>
      obtain ⟨outcomes, each⟩ := exists_mapM_eq_ok fun r member =>
        exists_extractRegion_eq_ok m added
          (sitsIn_of_regions layout r (List.mem_of_mem_filter member)) fit
      exact ⟨_, extractComponent_eq_ok_iff.mpr (.told inTime layout (mapM_eq_ok.mp each))⟩

theorem countsFit_of_fit (sits : r.SitsIn source) (numbers : ∀ l ∈ added, l < countBound)
    (fit : newlines source + 2 < countBound) : CountsFit m added r := by
  obtain ⟨pre, post, whole, start, stop⟩ := id sits
  have size : newlines source = newlines pre + newlines r.content + newlines post := by
    rw [whole, newlines_append, newlines_append]
  have first : 0 < r.startLine := by omega
  have labels : ∀ language, (blockView m r language).policy.firstLine = r.startLine :=
    fun _ => Nat.max_eq_left first
  refine ⟨fun g isAdded => countToRegion_eq_ok _ (numbers g isAdded), fun language => ?_,
    fun language s member => ?_, exists_shifted_of_sitsIn m added sits fit,
    exists_extractRegion_eq_ok m added sits fit⟩
  · exact exists_work_eq_ok (labels language ▸ first) (by rw [labels]; omega)
  · exact windowsFit_of_extract (labels language) first stop (by omega) member

end Blocks

/-- Whatever is told of a script block stays within the lines of the block and accounts for added
lines, and a block of which no line is added tells nothing. If there is a number for the line behind the
file's last, no count for any block leaves its bound, and the component is told of. -/
theorem blocks_keep_to_their_lines (m : Means) (added : AddedLines) {source : List Char}
    {rs : List Region} (layout : regions source = .ok rs) :
    (∀ r ∈ rs, ∀ o, extractRegion m added r = .ok o → (∀ s ∈ o.sections, StaysIn added r s) ∧
      ((∀ l ∈ added, l < r.startLine ∨ r.endLine < l) → o.sections = [])) ∧
    (∀ outcome, extractComponent m source added = .ok outcome → ∀ s ∈ outcome.sections,
      ∃ r ∈ rs, r.kind.isScript = true ∧ StaysIn added r s) ∧
    ((∀ l ∈ added, l < countBound) → newlines source + 2 < countBound →
      (∀ r ∈ rs, CountsFit m added r) ∧
      ∃ outcome, extractComponent m source added = .ok outcome) := by
  have sits := sitsIn_of_regions layout
  refine ⟨fun r member o told => ⟨staysIn_of_extractRegion (sits r member) told,
    sections_eq_nil_of_extractRegion (sits r member) told⟩, fun outcome told s among => ?_,
    fun numbers fit => ?_⟩
  · obtain ⟨_, r, o, same, member, script, extracts, inside⟩ :=
      exists_block_of_extractComponent told among
    obtain rfl := Except.ok.inj (layout.symm.trans same)
    exact ⟨r, member, script, staysIn_of_extractRegion (sits r member) extracts s inside⟩
  · exact ⟨fun r member => countsFit_of_fit m added (sits r member) numbers fit,
      exists_extractComponent_eq_ok m added fit⟩

/-- Lines before, in and far behind the blocks of a component. -/
def scatteredLines : AddedLines := .ofList [1, 2, 4, 5, 18446744073709551615]

/-- The usual settings and the built-in parser, with all work done in no time. -/
def promptMeans : Means := ⟨.default, .builtIn, fun _ => .ends 0⟩

theorem cardBlocks_keep_to_their_lines : regions cardText = .ok cardBlocks ∧
    (∀ l ∈ scatteredLines, l < countBound) ∧ newlines cardText + 2 < countBound ∧
    (∀ r ∈ cardBlocks, ∀ o, extractRegion promptMeans scatteredLines r = .ok o →
      ∀ s ∈ o.sections, StaysIn scatteredLines r s) ∧
    (∀ r ∈ cardBlocks, CountsFit promptMeans scatteredLines r) ∧
    ∃ outcome, extractComponent promptMeans cardText scatteredLines = .ok outcome := by
  have numbers : ∀ l ∈ scatteredLines, l < countBound := by decide
  have fit : newlines cardText + 2 < countBound := by decide
  obtain ⟨stays, -, counts⟩ :=
    blocks_keep_to_their_lines promptMeans scatteredLines regions_cardText
  obtain ⟨fits, told⟩ := counts numbers fit
  exact ⟨regions_cardText, numbers, fit, fun r member o extracts => (stays r member o extracts).1,
    fits, told⟩

end DiffScope.Extract
