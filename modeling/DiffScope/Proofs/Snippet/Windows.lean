import Mathlib.Data.List.Forall2
import DiffScope.Snippet.Basic
import DiffScope.Proofs.Checked

/-! # Windows stay inside the unit

No window reaches out of the lines of its unit. So every number that is computed for a snippet stays
below the number of the unit's last line in the file, and if that is within the bound, the snippet
of the unit exists.
-/

namespace DiffScope.Snippet

open DiffScope.Checked DiffScope.Text

/-- The window is a part of some lines. -/
def Window.Inside (startLine endLine : Nat) (w : Window) : Prop :=
  startLine ≤ w.first ∧ w.last ≤ endLine

namespace Window

theorem inside_around (startLine endLine radius center : Nat) :
    (around startLine endLine radius center).Inside startLine endLine :=
  ⟨Nat.le_max_right _ _, Nat.min_le_right _ _⟩

theorem mem_lines {w : Window} {l : Nat} : l ∈ w.lines ↔ w.first ≤ l ∧ l ≤ w.last := by
  rw [lines, List.mem_range'_1]
  omega

/-- Windows inside a unit stay inside it when one more is added. -/
theorem exists_append_eq_ok {startLine endLine : Nat} (fit : endLine + 1 < countBound)
    {earlier : List Window} {w : Window} (h : ∀ v ∈ earlier, v.Inside startLine endLine)
    (inside : w.Inside startLine endLine) :
    ∃ ws, append earlier w = .ok ws ∧ ∀ v ∈ ws, v.Inside startLine endLine := by
  cases earlier with
  | nil => exact ⟨[w], rfl, by simpa using inside⟩
  | cons last rest =>
      obtain ⟨lastInside, restInside⟩ := List.forall_mem_cons.mp h
      have next : Overflow.plus last.last 1 = .ok (last.last + 1) :=
        Overflow.plus_eq_ok (Nat.lt_of_le_of_lt (Nat.succ_le_succ lastInside.2) fit)
      refine ⟨_, bind_eq_ok.mpr ⟨_, next, rfl⟩, ?_⟩
      split
      · have merged : Inside startLine endLine ⟨last.first, max last.last w.last⟩ :=
          ⟨lastInside.1, Nat.max_le.mpr ⟨lastInside.2, inside.2⟩⟩
        exact List.forall_mem_cons.mpr ⟨merged, restInside⟩
      · exact List.forall_mem_cons.mpr ⟨inside, h⟩

end Window

theorem exists_foldlM_append_eq_ok {startLine endLine : Nat} (radius : Nat)
    (fit : endLine + 1 < countBound) (centers : List Nat) {ws : List Window}
    (h : ∀ w ∈ ws, w.Inside startLine endLine) :
    ∃ found, centers.foldlM
      (fun ws c => Window.append ws (.around startLine endLine radius c)) ws = .ok found ∧
      ∀ w ∈ found, w.Inside startLine endLine := by
  induction centers generalizing ws with
  | nil => exact ⟨ws, rfl, h⟩
  | cons c cs ih =>
      obtain ⟨next, appended, inside⟩ := Window.exists_append_eq_ok fit h
        (Window.inside_around startLine endLine radius c)
      obtain ⟨found, rest, all⟩ := ih inside
      exact ⟨found, by rw [List.foldlM_cons]; exact bind_eq_ok.mpr ⟨next, appended, rest⟩, all⟩

/-- The windows of a unit lie inside the unit. -/
theorem exists_windows_eq_ok (added : List Nat) (startLine : Nat) {endLine : Nat} (radius : Nat)
    (fit : endLine + 1 < countBound) :
    ∃ ws, windows added startLine endLine radius = .ok ws ∧
      ∀ w ∈ ws, w.Inside startLine endLine := by
  have start : ∀ w ∈ ([] : List Window), w.Inside startLine endLine := by simp
  obtain ⟨found, run, inside⟩ := exists_foldlM_append_eq_ok radius fit
    (ascending (added.filter fun l => startLine ≤ l && l ≤ endLine)) start
  exact ⟨found.reverse, bind_eq_ok.mpr ⟨found, run, rfl⟩,
    fun w member => inside w (List.mem_reverse.mp member)⟩

/-- Around one line of the unit there is one window. -/
theorem windows_singleton {startLine endLine line : Nat} (radius : Nat)
    (inside : startLine ≤ line ∧ line ≤ endLine) :
    windows [line] startLine endLine radius = .ok [.around startLine endLine radius line] := by
  have kept : [line].filter (fun l => startLine ≤ l && l ≤ endLine) = [line] := by
    simpa using inside
  rw [windows, ascending, kept, List.mergeSort_singleton]
  rfl

namespace Policy

theorem label_eq_ok_iff {p : Policy} (first : 0 < p.firstLine) {line n : Nat} :
    p.label line = .ok n ↔ line + p.firstLine < countBound ∧ n = line + (p.firstLine - 1) := by
  unfold label
  rw [bind_eq_ok]
  constructor
  · rintro ⟨sum, added, less⟩
    obtain ⟨rfl, bound⟩ := plus_eq_ok_iff.mp added
    obtain ⟨rfl, -⟩ := minus_eq_ok_iff.mp less
    exact ⟨bound, by omega⟩
  · rintro ⟨bound, rfl⟩
    exact ⟨_, plus_eq_ok_iff.mpr ⟨rfl, bound⟩, minus_eq_ok_iff.mpr ⟨by omega, by omega⟩⟩

theorem exists_showWindow_eq_ok {p : Policy} (first : 0 < p.firstLine) {startLine endLine : Nat}
    (fit : endLine + p.firstLine < countBound) (lines : List (List Char)) (added : List Nat)
    {w : Window} (inside : w.Inside startLine endLine) :
    ∃ shown, p.showWindow lines startLine added w = .ok shown := by
  refine exists_mapM_eq_ok fun l member => ?_
  have last := Nat.le_trans (Window.mem_lines.mp member).2 inside.2
  exact ⟨_, bind_eq_ok.mpr ⟨_, (label_eq_ok_iff first).mpr ⟨by omega, rfl⟩, rfl⟩⟩

theorem exists_showWindows_eq_ok {p : Policy} (first : 0 < p.firstLine) (text : List Char)
    (startLine : Nat) {endLine : Nat} (lineCount : Nat) (added : List Nat)
    (fit : endLine + p.firstLine < countBound) :
    ∃ shown, p.showWindows text startLine endLine lineCount added = .ok shown := by
  have near : endLine + 1 < countBound := by omega
  obtain ⟨ws, found, inside⟩ :=
    exists_windows_eq_ok added startLine p.radius near
  obtain ⟨shown, shows⟩ := exists_mapM_eq_ok fun w member =>
    exists_showWindow_eq_ok first fit (pieces text) added (inside w member)
  exact ⟨_, bind_eq_ok.mpr ⟨ws, found, bind_eq_ok.mpr ⟨shown, shows, rfl⟩⟩⟩

/-- What is shown of a unit exists if the file has a number for the line behind the unit. -/
theorem exists_apply_eq_ok {p : Policy} (first : 0 < p.firstLine) (lead raw : List Char)
    {startLine endLine : Nat} (added : List Nat) (fit : endLine + p.firstLine < countBound) :
    ∃ shown, p.apply lead raw startLine endLine added = .ok shown := by
  unfold apply
  split
  · exact ⟨_, rfl⟩
  · have span : lineSpan startLine endLine = .ok (endLine - startLine + 1) :=
      Overflow.plus_eq_ok (by omega)
    obtain ⟨windowed, shows⟩ := exists_showWindows_eq_ok first (lead ++ raw) startLine
      (endLine - startLine + 1) added fit
    by_cases long : p.maxLines < endLine - startLine + 1
    · exact ⟨windowed, bind_eq_ok.mpr ⟨_, span, by rw [if_pos long]; exact shows⟩⟩
    · exact ⟨_, bind_eq_ok.mpr ⟨_, span, by rw [if_neg long]; rfl⟩⟩

end Policy

end DiffScope.Snippet
