import DiffScope.Report.Section
import DiffScope.Proofs.Diff.Localized
import DiffScope.Proofs.Snippet.Windows

/-! # Sections of kept candidates

A section repeats what its candidate says and adds what is shown of the text. It exists if the file
has a number for the line behind the unit. Moved to the lines of the file, it has all its lines
numbered anew and is the same in all else.
-/

namespace DiffScope.Report

open DiffScope.Checked DiffScope.Diff DiffScope.Scope DiffScope.Snippet DiffScope.Syntax

namespace Section

/-- A section repeats what a kept candidate says, and shows a text. -/
structure Repeats (sel : Selected) (shown : Shown) (s : Section) : Prop where
  kind : s.kind = sel.candidate.kind
  name : s.name = sel.candidate.name
  option : s.option = sel.candidate.option
  startLine : s.startLine = sel.candidate.startLine
  endLine : s.endLine = sel.candidate.endLine
  addedLines : s.addedLines = sel.accountsFor
  snippet : s.snippet = String.ofList shown.text
  truncated : s.truncated = shown.isTruncated
  reason : s.reason = shown.reason
  summary : s.summary = shown.summary

variable {source : Source} {p : Policy} {sel : Selected}

theorem repeats_of_ofSelected {s : Section} (h : ofSelected source p sel = .ok s) :
    ∃ shown, p.apply (source.lead sel.candidate.start)
        (source.slice sel.candidate.start sel.candidate.stop) sel.candidate.startLine
        sel.candidate.endLine sel.accountsFor = .ok shown ∧
      Repeats sel shown s := by
  obtain ⟨shown, shows, h⟩ := bind_eq_ok.mp h
  obtain rfl := Except.ok.inj h
  exact ⟨shown, shows, rfl, rfl, rfl, rfl, rfl, rfl, rfl, rfl, rfl, rfl⟩

theorem exists_ofSelected_eq_ok (source : Source) (first : 0 < p.firstLine)
    (fit : sel.candidate.endLine + p.firstLine < countBound) :
    ∃ s, ofSelected source p sel = .ok s := by
  obtain ⟨shown, shows⟩ := Policy.exists_apply_eq_ok first (source.lead sel.candidate.start)
    (source.slice sel.candidate.start sel.candidate.stop) sel.accountsFor fit
  exact ⟨_, bind_eq_ok.mpr ⟨shown, shows, rfl⟩⟩

/-! ## Moving -/

/-- The lines of a section and the one behind each have numbers in the file. -/
structure Movable (s : Section) (offset : Nat) : Prop where
  startLine : s.startLine + offset < countBound ∧ 1 ≤ s.startLine + offset
  endLine : s.endLine + offset < countBound ∧ 1 ≤ s.endLine + offset
  addedLines : ∀ l ∈ s.addedLines, l + offset < countBound ∧ 1 ≤ l + offset

theorem shifted_eq_ok_iff {s t : Section} {offset : Nat} :
    s.shifted offset = .ok t ↔ s.Movable offset ∧
      t = { s with
        startLine := s.startLine + offset - 1
        endLine := s.endLine + offset - 1
        addedLines := s.addedLines.map (· + offset - 1) } := by
  unfold shifted
  constructor
  · intro h
    obtain ⟨startLine, start, h⟩ := bind_eq_ok.mp h
    obtain ⟨endLine, stop, h⟩ := bind_eq_ok.mp h
    obtain ⟨addedLines, lines, h⟩ := bind_eq_ok.mp h
    obtain rfl := Except.ok.inj h
    obtain ⟨startFits, rfl⟩ := toFile_eq_ok_iff.mp start
    obtain ⟨stopFits, rfl⟩ := toFile_eq_ok_iff.mp stop
    obtain ⟨linesFit, rfl⟩ := (mapM_eq_ok_iff_map fun _ _ => toFile_eq_ok_iff).mp lines
    exact ⟨⟨startFits, stopFits, linesFit⟩, rfl⟩
  · rintro ⟨movable, rfl⟩
    refine bind_eq_ok.mpr ⟨_, toFile_eq_ok_iff.mpr ⟨movable.startLine, rfl⟩, ?_⟩
    refine bind_eq_ok.mpr ⟨_, toFile_eq_ok_iff.mpr ⟨movable.endLine, rfl⟩, ?_⟩
    exact bind_eq_ok.mpr
      ⟨_, (mapM_eq_ok_iff_map fun _ _ => toFile_eq_ok_iff).mpr ⟨movable.addedLines, rfl⟩, rfl⟩

/-- The section with all its lines further down. -/
def moved (s : Section) (k : Nat) : Section :=
  { s with
    startLine := s.startLine + k
    endLine := s.endLine + k
    addedLines := s.addedLines.map (· + k) }

theorem moved_zero (s : Section) : s.moved 0 = s := by
  cases s
  simp [moved]

theorem shifted_eq_ok {s : Section} {k : Nat} (h : s.Movable (k + 1)) :
    s.shifted (k + 1) = .ok (s.moved k) :=
  shifted_eq_ok_iff.mpr ⟨h, rfl⟩

theorem moved_of_shifted {s t : Section} {k : Nat} (h : s.shifted (k + 1) = .ok t) :
    t = s.moved k :=
  (shifted_eq_ok_iff.mp h).2

end Section

end DiffScope.Report
