import DiffScope.Proofs.Extract.Files
import DiffScope.Proofs.Extract.Units
import DiffScope.Proofs.Snippet.Limits

/-! # Sections sit where they say

Every section of a file is about a stretch of the file's text, from the line on which it is said to
start to the line on which it is said to end, and shows of the stretch what the settings allow. For
a component that holds across the move from the lines of a block to those of the file.
-/

namespace DiffScope.Extract

open DiffScope.Checked DiffScope.Component DiffScope.Diff DiffScope.Project DiffScope.Report
open DiffScope.Scope DiffScope.Snippet DiffScope.Syntax DiffScope.Text

/-- What a section shows of a text is what the settings allow. -/
structure Shows (c : Config) (raw : List Char) (s : Section) : Prop where
  whole : s.reason = .none → s.snippet = String.ofList raw ∧
    raw.length ≤ c.maxSnippetChars ∧ newlines raw + 1 ≤ c.maxBlockLines
  cut : s.reason = .charLimit → c.maxSnippetChars < raw.length ∧
    s.snippet = String.ofList (raw.take c.maxSnippetChars ++ cutMark raw.length)
  windowed : s.reason = .lineLimit →
    raw.length ≤ c.maxSnippetChars ∧ c.maxBlockLines < newlines raw + 1

/-- A section is about a stretch of a text, on the lines that it says. -/
def Sits (c : Config) (text : List Char) (s : Section) : Prop :=
  ∃ pre raw post, text = pre ++ raw ++ post ∧ s.startLine = 1 + newlines pre ∧
    s.endLine = s.startLine + newlines raw ∧ Shows c raw s

/-! ## Scripts -/

theorem sits_of_isAbout {c : Config} {firstLine : Nat} {p : Parsed} {added : AddedLines} {f : Focus}
    {s : Section} (about : IsAbout p added f s)
    (displays : Displays (.ofConfig c firstLine) p.source f s) : Sits c p.source.text s := by
  obtain ⟨shown, applied, snippet, reason, -⟩ := displays
  have order := about.unit.start_le_stop
  let raw := p.source.slice f.tree.start f.tree.stop
  have last : s.endLine = s.startLine + newlines raw := by
    rw [about.startLine, about.endLine]
    exact p.source.line_stop order
  have count : s.endLine - s.startLine + 1 = newlines raw + 1 := by
    rw [last, Nat.add_sub_cancel_left]
  have allows := Policy.allows_of_apply applied
  rw [count] at allows
  refine ⟨p.source.text.take f.tree.start, raw, p.source.text.drop f.tree.stop,
    p.source.text_eq_slice order, ?_, last, ?_⟩
  · rw [about.startLine, Source.line_eq, Nat.add_comm]
  · refine ⟨fun whole => ?_, fun cut => ?_, fun windowed => ?_⟩
    · obtain ⟨text, chars, lines⟩ := allows.whole (reason ▸ whole)
      exact ⟨snippet.trans (congrArg String.ofList text), chars, lines⟩
    · obtain ⟨long, text⟩ := allows.cut (reason ▸ cut)
      exact ⟨long, snippet.trans (congrArg String.ofList text)⟩
    · exact allows.windowed (reason ▸ windowed)

theorem sits_of_extract (m : Means) (kind : BlockKind) (language : Language) (naming : Naming)
    (firstLine : Nat) (text : List Char) (added : AddedLines) :
    ∀ s ∈ ((ScriptView.ofMeans m kind language naming firstLine).extract text added).sections,
      Sits m.config text s := by
  intro s member
  obtain ⟨p, f, read, about, displays⟩ := exists_isAbout_of_extract member
  have source : p.source.text = text := congrArg Source.text (Parsed.source_ofText read)
  exact source ▸ sits_of_isAbout about displays

/-! ## Components -/

/-- A section that sits in a block sits in the file when it is moved to the lines of the file. -/
theorem Sits.shifted {c : Config} {source : List Char} {r : Region} {s t : Section}
    (sits : r.SitsIn source) (h : Sits c r.content s) (moved : s.shifted r.startLine = .ok t) :
    Sits c source t := by
  obtain ⟨before, after, outer, offset, -⟩ := sits
  obtain ⟨pre, raw, post, inner, first, last, shows⟩ := h
  obtain ⟨-, rfl⟩ := Section.shifted_eq_ok_iff.mp moved
  refine ⟨before ++ pre, raw, post ++ after, ?_, ?_, ?_, shows.whole, shows.cut, shows.windowed⟩
  · rw [outer, inner]
    simp only [List.append_assoc]
  · change s.startLine + r.startLine - 1 = 1 + (before ++ pre).count '\n'
    rw [List.count_append, first, offset, newlines, newlines]
    omega
  · change s.endLine + r.startLine - 1 = s.startLine + r.startLine - 1 + newlines raw
    rw [last, first]
    omega

theorem sits_of_extractRegion {m : Means} {source : List Char} {added : AddedLines} {r : Region}
    {outcome : Outcome} (sits : r.SitsIn source) (h : extractRegion m added r = .ok outcome) :
    ∀ s ∈ outcome.sections, Sits m.config source s := by
  intro t member
  obtain ⟨language, s, -, moved, told⟩ := exists_shifted_of_extractRegion h member
  exact (sits_of_extract m _ language _ _ _ _ s told).shifted sits moved

theorem sits_of_extractComponent {m : Means} {source : List Char} {added : AddedLines}
    {outcome : ComponentOutcome} (h : extractComponent m source added = .ok outcome) :
    ∀ s ∈ outcome.sections, Sits m.config source s := by
  intro s member
  obtain ⟨rs, r, o, layout, among, -, extracts, inside⟩ :=
    exists_block_of_extractComponent h member
  exact sits_of_extractRegion (sitsIn_of_regions layout r among) extracts s inside

/-! ## Files -/

theorem HasSections.sits {m : Means} {added : AddedLines} {text : List Char} {kind : FileKind}
    {sections : List Section} (h : HasSections m added text kind sections) :
    ∀ s ∈ sections, Sits m.config text s := by
  intro s member
  cases h with
  | script language =>
      exact sits_of_extract m .script language .plain 1 text added s (Section.mem_sort.mp member)
  | component told => exact sits_of_extractComponent told s member

/-- Every section of a file sits in the text of the file, and shows what the settings allow. -/
theorem sections_sit_where_they_say (w : Workspace) (path : Path) (added : AddedLines) :
    (w.extractFile path added).sections = [] ∨
    ∃ text, w.files.readLenient (Path.resolve w.root path) = .ok text ∧
      ∀ s ∈ (w.extractFile path added).sections, Sits w.config text s := by
  rcases hasSections_extractFile w path added with none | ⟨text, read, has⟩
  · exact .inl none
  · exact .inr ⟨text, read, has.sits⟩

end DiffScope.Extract
