import DiffScope.Proofs.Snippet.Around
import DiffScope.Proofs.Snippet.Limits

/-! # Source text in a snippet

What a snippet shows of its file is its text without the numbers and marks of lines, and without
the marks where lines are left out or where the text was cut off. Of the unit it never shows more
characters than the limit allows. Windows hold whole lines, so they may show what stands before the
unit in its first line too, and to that there is no limit.
-/

namespace DiffScope.Snippet

open DiffScope.Checked DiffScope.Text

/-! ## Reading the source text of a snippet -/

/-- The source text in a row of a text in windows. -/
def rowSource (row : List Char) : List Char :=
  if row = gapMark then [] else ((stem row).dropWhile Char.isDigit).drop 3

def withoutLastLine (text : List Char) : List Char :=
  (text.reverse.dropWhile (· ≠ '\n')).tail.reverse

/-- The source text that a snippet shows. -/
def Shown.source (s : Shown) : List Char :=
  match s.reason with
  | .none => s.text
  | .charLimit => withoutLastLine s.text
  | .lineLimit => (pieces s.text).flatMap rowSource

def Row.source : Row → List Char
  | gap => []
  | line l => l.body

theorem rowSource_text (row : Row) : rowSource row.text = row.source := by
  cases row with
  | gap => exact if_pos rfl
  | line l =>
      have other := gapMark_ne_numbered l.isAdded l.label l.body
      rw [Row.text, rowSource, if_neg other.symm, (span_stem_numbered _ _ _).2]
      rfl

theorem withoutLastLine_append (text : List Char) {last : List Char} (unbroken : '\n' ∉ last) :
    withoutLastLine (text ++ '\n' :: last) = text := by
  have passed : ∀ c ∈ last.reverse, decide (c ≠ '\n') = true := by
    intro c member
    have other : c ≠ '\n' := fun same => unbroken (List.mem_reverse.mp (same ▸ member))
    exact decide_eq_true other
  rw [withoutLastLine, List.reverse_append, List.reverse_cons, List.append_assoc,
    List.dropWhile_append_of_pos passed]
  simp

theorem exists_cutMark_eq (length : Nat) : ∃ last, '\n' ∉ last ∧ cutMark length = '\n' :: last := by
  have digits : '\n' ∉ Nat.toDigits 10 length := fun member => by
    cases isDigit_toDigits length _ member
  refine ⟨"/* ... truncated: original length ".toList ++ Nat.toDigits 10 length ++
    " chars */".toList, ?_, rfl⟩
  simp [digits]

/-! ## Source text of windows -/

theorem trimReturns_sublist (text : List Char) : (trimReturns text).Sublist text := by
  have trimmed := (List.dropWhile_sublist (· = '\r') (l := text.reverse)).reverse
  rwa [List.reverse_reverse] at trimmed

/-- Lines behind the first are those of the rest. -/
theorem flatMap_getElem?_cons {line : List Char} {rest : List (List Char)} {start : Nat}
    {ls : List Nat} (behind : ∀ l ∈ ls, start < l) :
    (ls.flatMap fun l => trimReturns ((line :: rest)[l - start]?.getD [])) =
      ls.flatMap fun l => trimReturns (rest[l - (start + 1)]?.getD []) := by
  refine List.flatMap_congr fun l member => ?_
  have place : l - start = l - (start + 1) + 1 := by
    have after := behind l member
    omega
  rw [place, List.getElem?_cons_succ]

/-- Some of the lines of a text, one behind another, are a part of its lines. -/
theorem flatMap_getElem?_sublist (lines : List (List Char)) {start : Nat} {ls : List Nat}
    (ascending : ls.Pairwise (· < ·)) (behind : ∀ l ∈ ls, start ≤ l) :
    (ls.flatMap fun l => trimReturns (lines[l - start]?.getD [])).Sublist lines.flatten := by
  induction lines generalizing start ls with
  | nil => simp [trimReturns]
  | cons line rest ih =>
      cases ls with
      | nil => exact List.nil_sublist _
      | cons l ls =>
          obtain ⟨first, others⟩ := List.pairwise_cons.mp ascending
          rw [List.flatten_cons]
          rcases Nat.eq_or_lt_of_le (behind l List.mem_cons_self) with rfl | after
          · rw [List.flatMap_cons, Nat.sub_self, List.getElem?_cons_zero, Option.getD_some,
              flatMap_getElem?_cons first]
            exact (trimReturns_sublist line).append (ih others first)
          · have all : ∀ k ∈ l :: ls, start < k := List.forall_mem_cons.mpr
              ⟨after, fun k member => Nat.lt_trans after (first k member)⟩
            rw [flatMap_getElem?_cons all]
            exact (ih ascending all).trans (List.sublist_append_right _ _)

theorem flatMap_source_windowRows (f : Nat → NumberedLine) (ws : List Window) :
    (windowRows f ws).flatMap Row.source = (ws.flatMap Window.lines).flatMap fun n => (f n).body := by
  have lines (w : Window) : (w.lines.map (Row.line ∘ f)).flatMap Row.source =
      w.lines.flatMap fun n => (f n).body := by
    rw [List.flatMap_map]
    rfl
  induction ws with
  | nil => rfl
  | cons w ws ih =>
      rw [List.flatMap_cons, List.flatMap_append, ← ih, ← lines w]
      cases ws with
      | nil =>
          rw [windowRows_singleton]
          exact (List.append_nil _).symm
      | cons v vs =>
          rw [windowRows_cons, List.flatMap_append, List.flatMap_cons]
          rfl

namespace Policy

variable {p : Policy} {text lead raw : List Char} {startLine endLine lineCount : Nat}
  {added : List Nat} {s : Shown}

/-- The source text of windows is that of some lines near the added ones, without the carriage
returns at their ends. -/
theorem exists_source_of_showWindows (first : 0 < p.firstLine) (fit : ∀ a ∈ added, a < countBound)
    (h : p.showWindows text startLine endLine lineCount added = .ok s) :
    ∃ ls : List Nat, ls.Pairwise (· < ·) ∧
      (∀ l ∈ ls, startLine ≤ l ∧
        IsNear (added.filter fun a => startLine ≤ a && a ≤ endLine) p.radius l) ∧
      s.source = ls.flatMap fun l => trimReturns ((pieces text)[l - startLine]?.getD []) := by
  obtain ⟨ws, found, -, rfl⟩ := (showWindows_eq_ok_iff first).mp h
  obtain ⟨separate, lines⟩ := separate_windows fit found
  refine ⟨ws.flatMap Window.lines, pairwise_lines separate, ?_, ?_⟩
  · intro l member
    obtain ⟨inUnit, near⟩ := (lines l).mp (List.mem_flatMap.mp member)
    exact ⟨inUnit.1, near⟩
  · refine Eq.trans ?_ (flatMap_source_windowRows (p.numberedLine text startLine added) ws)
    by_cases none : ws = []
    · subst none
      rfl
    · change (pieces (['\n'].intercalate _)).flatMap rowSource = _
      rw [pieces_intercalate]
      · rw [List.flatMap_map]
        exact List.flatMap_congr fun row _ => rowSource_text row
      · rw [Ne, List.map_eq_nil_iff]
        exact windowRows_ne_nil separate none
      · exact List.forall_mem_map.mpr unbroken_windowRows

/-- Of the lead windows show nothing if it is in the first line and they do not show that. -/
theorem source_sublist_raw (first : 0 < p.firstLine) (fit : ∀ a ∈ added, a < countBound)
    (h : p.showWindows (lead ++ raw) startLine endLine lineCount added = .ok s)
    (unbroken : '\n' ∉ lead)
    (far : ¬ IsNear (added.filter fun a => startLine ≤ a && a ≤ endLine) p.radius startLine) :
    s.source.Sublist raw := by
  obtain ⟨ls, ascending, near, source⟩ := exists_source_of_showWindows first fit h
  have behind : ∀ l ∈ ls, startLine < l := by
    intro l member
    obtain ⟨after, close⟩ := near l member
    refine Nat.lt_of_le_of_ne after fun same => far ?_
    exact same ▸ close
  rw [source, pieces_append, dropLast_pieces_of_unbroken unbroken, List.nil_append,
    flatMap_getElem?_cons behind]
  have whole := flatten_pieces_sublist raw
  rw [pieces_eq_cons, List.flatten_cons] at whole
  have lines := flatMap_getElem?_sublist (pieces raw).tail ascending behind
  exact lines.trans ((List.sublist_append_right _ _).trans whole)

theorem source_sublist_of_showWindows (first : 0 < p.firstLine)
    (fit : ∀ a ∈ added, a < countBound)
    (h : p.showWindows text startLine endLine lineCount added = .ok s) :
    s.source.Sublist text := by
  obtain ⟨ls, ascending, near, source⟩ := exists_source_of_showWindows first fit h
  rw [source]
  have behind : ∀ l ∈ ls, startLine ≤ l := fun l member => (near l member).1
  have part := flatMap_getElem?_sublist (pieces text) ascending behind
  exact part.trans (flatten_pieces_sublist text)

end Policy

/-! ## The limit -/

namespace Policy

section Outcomes

variable {p : Policy} {lead raw : List Char} {startLine endLine lineCount : Nat}
  {added : List Nat} {s : Shown}

/-- The source text of a snippet in its two parts: what it shows of the lead, and what it shows of
the unit itself. -/
structure Splits (p : Policy) (lead raw : List Char) (s : Shown) (before own : List Char) : Prop where
  source : s.source = before ++ own
  ofLead : before.Sublist lead
  ofUnit : own.Sublist raw
  limit : own.length ≤ p.maxChars
  /-- Only windows show something of the lead. -/
  windowed : s.reason ≠ .lineLimit → before = []

/-- A part of the unit's text shows nothing of the lead. -/
theorem splits_of_sublist {own : List Char} (source : s.source = own) (part : own.Sublist raw)
    (limit : own.length ≤ p.maxChars) : p.Splits lead raw s [] own :=
  ⟨source, List.nil_sublist _, part, limit, fun _ => rfl⟩

theorem Allows.source_of_whole (allows : p.Allows raw lineCount s) (outcome : s.reason = .none) :
    s.source = raw := by
  rw [Shown.source, outcome, (allows.whole outcome).1]

theorem Allows.source_of_cut (allows : p.Allows raw lineCount s) (outcome : s.reason = .charLimit) :
    s.source = raw.take p.maxChars := by
  obtain ⟨mark, unbroken, is⟩ := exists_cutMark_eq raw.length
  rw [Shown.source, outcome, (allows.cut outcome).2, is]
  exact withoutLastLine_append _ unbroken

theorem exists_splits_of_showWindows (first : 0 < p.firstLine) (fit : ∀ a ∈ added, a < countBound)
    (h : p.showWindows (lead ++ raw) startLine endLine lineCount added = .ok s)
    (short : raw.length ≤ p.maxChars) :
    ∃ before own, p.Splits lead raw s before own ∧ ('\n' ∉ lead →
      ¬ IsNear (added.filter fun a => startLine ≤ a && a ≤ endLine) p.radius startLine →
      before = []) := by
  by_cases none : '\n' ∉ lead ∧
      ¬ IsNear (added.filter fun a => startLine ≤ a && a ≤ endLine) p.radius startLine
  · have part := source_sublist_raw first fit h none.1 none.2
    exact ⟨[], _, splits_of_sublist rfl part (part.length_le.trans short), fun _ _ => rfl⟩
  · have part := source_sublist_of_showWindows first fit h
    obtain ⟨before, own, source, ofLead, ofUnit⟩ := List.sublist_append_iff.mp part
    have windowed := reason_of_showWindows h
    refine ⟨before, own, ⟨source, ofLead, ofUnit, ofUnit.length_le.trans short, ?_⟩, ?_⟩
    · exact fun other => absurd windowed other
    · exact fun unbroken far => absurd ⟨unbroken, far⟩ none

end Outcomes

end Policy

/-- Of a unit no more characters are shown than the limit allows, however it is shown. Of the lead
windows may show more, unless it is in the unit's first line and they do not show that. -/
theorem source_of_the_unit_is_bounded (c : Config) (firstLine : Nat) {lead raw : List Char}
    {startLine endLine : Nat} {added : List Nat} {s : Shown} (fit : ∀ a ∈ added, a < countBound)
    (h : (Policy.ofConfig c firstLine).apply lead raw startLine endLine added = .ok s) :
    ∃ before own, (Policy.ofConfig c firstLine).Splits lead raw s before own ∧ ('\n' ∉ lead →
      ¬ IsNear (added.filter fun a => startLine ≤ a && a ≤ endLine) c.windowRadius startLine →
      before = []) := by
  have allows := Policy.allows_of_apply h
  cases outcome : s.reason with
  | none =>
      have short := (allows.whole outcome).2.1
      exact ⟨[], raw, Policy.splits_of_sublist (allows.source_of_whole outcome)
        (List.Sublist.refl raw) short, fun _ _ => rfl⟩
  | charLimit =>
      exact ⟨[], _, Policy.splits_of_sublist (allows.source_of_cut outcome)
        (List.take_sublist _ raw) (List.length_take_le _ raw), fun _ _ => rfl⟩
  | lineLimit =>
      have first : 0 < max firstLine 1 := by omega
      exact Policy.exists_splits_of_showWindows first fit (Policy.showWindows_of_apply h outcome)
        (allows.windowed outcome).1

/-! ## A unit behind a long lead -/

/-- Settings by which a unit of two lines is shown in windows, and of few characters. -/
def tight : Config :=
  { Config.default with maxSnippetChars := 25, maxBlockLines := 1, windowRadius := 0 }

/-- A function of 25 characters and what stands before it in its first line. -/
def totalLead : List Char := "export const total = ".toList

def totalRaw : List Char := "(items) =>\n  items.length".toList

/-- What is shown of it where its first line was added. -/
def totalShown : Shown where
  text := "+    1 | export const total = (items) =>".toList
  reason := .lineLimit
  summary := some "2 lines, showing 1 window(s) of +/-0 lines around 1 added line(s)"

theorem apply_total : (Policy.ofConfig tight 1).apply totalLead totalRaw 1 2 [1] =
    .ok totalShown := by
  have found : windows [1] 1 2 0 = .ok [⟨1, 1⟩] := windows_singleton 0 (by decide)
  have shows : (Policy.ofConfig tight 1).showWindows (totalLead ++ totalRaw) 1 2 2 [1] =
      .ok totalShown :=
    (Policy.showWindows_eq_ok_iff (by decide)).mpr ⟨_, found, by decide, by decide⟩
  exact shows

theorem splits_of_total : (∀ a ∈ [1], a < countBound) ∧
    (Policy.ofConfig tight 1).apply totalLead totalRaw 1 2 [1] = .ok totalShown ∧
    ∃ before own, (Policy.ofConfig tight 1).Splits totalLead totalRaw totalShown before own := by
  have fit : ∀ a ∈ [1], a < countBound := by decide
  obtain ⟨before, own, splits, -⟩ := source_of_the_unit_is_bounded tight 1 fit apply_total
  exact ⟨fit, apply_total, before, own, splits⟩

/-- With its lead a unit may show more characters than the limit allows. -/
theorem source_behind_a_lead_is_unbounded :
    (Policy.ofConfig tight 1).apply totalLead totalRaw 1 2 [1] = .ok totalShown ∧
      ¬ totalShown.source.length ≤ tight.maxSnippetChars :=
  ⟨apply_total, by decide⟩

end DiffScope.Snippet
