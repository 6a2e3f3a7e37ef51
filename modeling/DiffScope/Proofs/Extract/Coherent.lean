import DiffScope.Proofs.Extract.Units
import DiffScope.Proofs.Snippet.Limits

/-! # Sections that agree with themselves

The lines of a section are in order, the lines that it accounts for are added lines among its own, and
it says how its text was shortened. That holds of the sections of every script, and it goes along when
those of a script block are moved to the lines of the file.
-/

namespace DiffScope.Extract

open DiffScope.Checked DiffScope.Component DiffScope.Diff DiffScope.Report DiffScope.Scope
open DiffScope.Syntax

/-- What a section says agrees with itself and with the added lines of its file. -/
structure Coherent (added : AddedLines) (s : Section) : Prop where
  ordered : s.startLine ≤ s.endLine
  filled : s.addedLines ≠ []
  ascending : s.addedLines.Pairwise (· < ·)
  lines : ∀ l ∈ s.addedLines, l ∈ added ∧ s.startLine ≤ l ∧ l ≤ s.endLine
  truncated : s.truncated = true ↔ s.reason ≠ .none
  summary : s.summary.isSome = true ↔ s.reason = .lineLimit

/-! ## Scripts -/

section Scripts

variable {v : ScriptView} {p : Parsed} {text : List Char} {added : AddedLines} {s : Section}

theorem coherent_of_repeats {f : Focus} {sel : Selected} {shown : Snippet.Shown}
    {lead raw : List Char} (about : IsAbout p added f s) (repeats : s.Repeats sel shown)
    (applied : v.policy.apply lead raw s.startLine s.endLine s.addedLines = .ok shown) :
    Coherent added s where
  ordered := by
    rw [about.startLine, about.endLine]
    exact p.source.line_mono about.unit.start_le_stop
  filled := about.filled
  ascending := about.ascending
  lines := about.lines
  truncated := by
    rw [repeats.truncated, repeats.reason]
    exact bne_iff_ne
  summary := by
    rw [repeats.summary, repeats.reason]
    exact Snippet.Policy.isSome_summary_of_apply applied

theorem option_eq_none_of_plain {f : Focus} {sel : Selected} {shown : Snippet.Shown}
    (is : (v.search p.source added).Describes f sel.candidate) (repeats : s.Repeats sel shown)
    (plain : v.naming = .plain) : s.option = none := by
  have option := is.option
  rw [ScriptView.search, plain] at option
  exact repeats.option.trans option

theorem coherent_of_analyze {outcome : Outcome} (h : v.analyze p added = .ok (.ok outcome)) :
    ∀ s ∈ outcome.sections, Coherent added s ∧ (v.naming = .plain → s.option = none) := by
  intro s member
  obtain ⟨f, sel, shown, about, is, repeats, applied⟩ := exists_repeats_of_analyze h member
  exact ⟨coherent_of_repeats about repeats applied, option_eq_none_of_plain is repeats⟩

theorem coherent_of_extract (member : s ∈ (v.extract text added).sections) :
    Coherent added s ∧ (v.naming = .plain → s.option = none) := by
  rcases v.sections_extract text added with none | ⟨p, -, analyzed⟩
  · rw [none] at member
    cases member
  · exact coherent_of_analyze analyzed s member

end Scripts

/-! ## Script blocks -/

/-- A section that agrees with the added lines of a region agrees with those of the file, once it is
moved to the lines of the file. -/
theorem Coherent.shifted {added : AddedLines} {offset : Nat} {s t : Section}
    (h : Coherent (added.localize offset) s) (moved : s.shifted offset = .ok t) :
    Coherent added t := by
  obtain ⟨movable, rfl⟩ := Section.shifted_eq_ok_iff.mp moved
  -- Counts were checked, so that none of the differences below is cut off at zero.
  have first := movable.startLine.2
  refine ⟨?_, ?_, ?_, ?_, h.truncated, h.summary⟩
  · have ordered := h.ordered
    dsimp only
    omega
  · exact fun none => h.filled (List.map_eq_nil_iff.mp none)
  · refine List.pairwise_map.mpr (h.ascending.imp_of_mem fun {a b} inA _ before => ?_)
    have counted := movable.addedLines a inA
    omega
  · intro l member
    obtain ⟨a, accounted, rfl⟩ := List.mem_map.mp member
    obtain ⟨isLocal, above, below⟩ := h.lines a accounted
    obtain ⟨-, g, isAdded, behind, rfl⟩ := AddedLines.mem_localize.mp isLocal
    have same : g - offset + 1 + offset - 1 = g := by omega
    rw [same]
    dsimp only
    exact ⟨isAdded, by omega, by omega⟩

theorem coherent_of_extractRegion {m : Means} {added : AddedLines} {r : Region}
    {outcome : Outcome} (h : extractRegion m added r = .ok outcome) :
    ∀ t ∈ outcome.sections, Coherent added t ∧ (r.kind ≠ .script → t.option = none) := by
  intro t member
  obtain ⟨language, s, -, moved, told⟩ := exists_shifted_of_extractRegion h member
  obtain ⟨coherent, plain⟩ := coherent_of_extract told
  refine ⟨coherent.shifted moved, fun other => ?_⟩
  obtain ⟨-, rfl⟩ := Section.shifted_eq_ok_iff.mp moved
  exact plain (if_neg other)

end DiffScope.Extract
