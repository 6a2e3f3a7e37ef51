import DiffScope.Proofs.Extract.Files
import DiffScope.Proofs.Extract.Units

/-! # Added lines are told once

Within a script no line is told by two sections. The script blocks of a component are looked at one
by one, and two of them can have a line in common: the one on which the first ends and the second
starts. Such a line is told twice if each block has a unit on it, and that is the only way in which a
line is told twice.
-/

namespace DiffScope.Extract

open DiffScope.Checked DiffScope.Component DiffScope.Diff DiffScope.Project DiffScope.Report

theorem ToldOnce.sort {sections : List Section} :
    ToldOnce (Section.sort sections) ↔ ToldOnce sections :=
  (List.mergeSort_perm sections Section.precedes).pairwise_iff List.disjoint_symm

/-- Some section of a block accounts for a line. -/
def Tells (m : Means) (added : AddedLines) (r : Region) (l : Nat) : Prop :=
  ∃ o, extractRegion m added r = .ok o ∧ ∃ s ∈ o.sections, l ∈ s.addedLines

/-- A block ends on an added line on which another starts, and both tell of the line. -/
structure Clash (m : Means) (added : AddedLines) (r q : Region) : Prop where
  meets : r.endLine = q.startLine
  isAdded : r.endLine ∈ added
  above : Tells m added r r.endLine
  below : Tells m added q r.endLine

/-- Two blocks can tell of the same line only where one ends and the other starts. -/
theorem Clash.of_tells {m : Means} {added : AddedLines} {source : List Char} {r q : Region}
    {l : Nat} (sitsR : r.SitsIn source) (sitsQ : q.SitsIn source) (apart : r.endLine ≤ q.startLine)
    (above : Tells m added r l) (below : Tells m added q l) : Clash m added r q := by
  obtain ⟨o, told, s, among, accounts⟩ := id above
  obtain ⟨o', told', s', among', accounts'⟩ := id below
  obtain ⟨isAdded, -, last⟩ := mem_of_extractRegion sitsR told among l accounts
  obtain ⟨-, first, -⟩ := mem_of_extractRegion sitsQ told' among' l accounts'
  obtain rfl : l = r.endLine := by omega
  exact ⟨by omega, isAdded, above, below⟩

/-- Whatever is told of one block is told of no other. -/
def ToldApart (o o' : Outcome) : Prop :=
  ∀ s ∈ o.sections, ∀ t ∈ o'.sections, List.Disjoint s.addedLines t.addedLines

theorem toldOnce_flatMap_iff {outcomes : List Outcome}
    (each : ∀ o ∈ outcomes, ToldOnce o.sections) :
    ToldOnce (outcomes.flatMap Outcome.sections) ↔ outcomes.Pairwise ToldApart :=
  List.pairwise_flatMap.trans (and_iff_right each)

/-- The script blocks of a component tell each line once exactly if no two of them clash. -/
theorem pairwise_toldApart_iff {m : Means} {added : AddedLines} {source : List Char}
    {rs : List Region} {outcomes : List Outcome} (layout : regions source = .ok rs)
    (each : List.Forall₂ (fun r o => extractRegion m added r = .ok o)
      (rs.filter (·.kind.isScript)) outcomes) :
    outcomes.Pairwise ToldApart ↔
      (rs.filter (·.kind.isScript)).Pairwise fun r q => ¬Clash m added r q := by
  constructor
  · intro apart
    refine pairwise_of_forall₂ each.flip apart fun o r o' q told told' disjoint clash => ?_
    obtain ⟨_, again, s, among, accounts⟩ := clash.above
    obtain ⟨_, again', t, among', accounts'⟩ := clash.below
    obtain rfl := Except.ok.inj (told.symm.trans again)
    obtain rfl := Except.ok.inj (told'.symm.trans again')
    exact disjoint s among t among' accounts accounts'
  · intro none
    have placed : (rs.filter (·.kind.isScript)).Pairwise fun r q =>
        r.SitsIn source ∧ q.SitsIn source ∧ r.endLine ≤ q.startLine := by
      refine ((pairwise_regions layout).imp_of_mem fun {r q} inR inQ apart => ?_).filter _
      exact ⟨sitsIn_of_regions layout r inR, sitsIn_of_regions layout q inQ, apart⟩
    refine pairwise_of_forall₂ each (none.and placed) fun r o q o' told told' pair => ?_
    obtain ⟨free, sitsR, sitsQ, apart⟩ := pair
    intro s among t among' l accounts accounts'
    exact free (.of_tells sitsR sitsQ apart ⟨o, told, s, among, accounts⟩
      ⟨o', told', t, among', accounts'⟩)

theorem toldOnce_extractComponent_iff {m : Means} {added : AddedLines} {source : List Char}
    {rs : List Region} {outcome : ComponentOutcome} (inTime : m.IsInTime .layout)
    (layout : regions source = .ok rs) (h : extractComponent m source added = .ok outcome) :
    ToldOnce outcome.sections ↔
      (rs.filter (·.kind.isScript)).Pairwise fun r q => ¬Clash m added r q := by
  cases extractComponent_eq_ok_iff.mp h with
  | late late => exact absurd inTime (Means.not_isInTime_of_layoutIssue? late)
  | unclear _ other => cases layout.symm.trans other
  | @told rs' outcomes _ same each =>
      obtain rfl := Except.ok.inj (layout.symm.trans same)
      have inside : ∀ o ∈ outcomes, ToldOnce o.sections := by
        intro o member
        obtain ⟨r, script, told⟩ := exists_of_mem_right each member
        obtain ⟨pre, post, -, first, -⟩ :=
          sitsIn_of_regions layout r (List.mem_of_mem_filter script)
        exact toldOnce_of_extractRegion (by omega) told
      exact ToldOnce.sort.trans ((toldOnce_flatMap_iff inside).trans
        (pairwise_toldApart_iff layout each))

/-- A file tells each added line once exactly if it is no component whose blocks are told apart by the
deadline and of which script blocks clash. -/
theorem toldOnce_extractFile_iff (w : Workspace) (path : Path) (added : AddedLines) :
    ToldOnce (w.extractFile path added).sections ↔
      ∀ text rs outcome, FileKind.ofPath path = .component → (w.means path).IsInTime .layout →
        w.files.readLenient (Path.resolve w.root path) = .ok text → regions text = .ok rs →
        extractComponent (w.means path) text added = .ok outcome →
        (rs.filter (·.kind.isScript)).Pairwise fun r q => ¬Clash (w.means path) added r q := by
  constructor
  · intro once text rs outcome kind inTime read layout told
    cases some : added.isEmpty with
    | true =>
        have none : ∀ r q, ¬Clash (w.means path) added r q := by
          intro r q clash
          have isAdded := AddedLines.mem_def.mp clash.isAdded
          rw [List.isEmpty_iff.mp some] at isAdded
          cases isAdded
        exact List.pairwise_iff_forall_sublist.mpr fun _ => none _ _
    | false =>
        rw [sections_extractFile_component some read kind told] at once
        exact (toldOnce_extractComponent_iff inTime layout told).mp once
  · intro free
    rcases hasSections_extractFile w path added with none | ⟨text, read, has⟩
    · rw [none]
      exact .nil
    · generalize kind : FileKind.ofPath path = k at has
      generalize (w.extractFile path added).sections = sections at has ⊢
      cases has with
      | script language => exact ToldOnce.sort.mpr (toldOnce_extract _ _ _)
      | component told =>
          cases extractComponent_eq_ok_iff.mp told with
          | late => exact .nil
          | unclear => exact .nil
          | told inTime layout _ =>
              exact (toldOnce_extractComponent_iff inTime layout told).mpr
                (free text _ _ kind inTime read layout told)

/-- No added line is told by two sections of a file, unless the file is a component whose blocks are
told apart by the deadline, one of its script blocks ends on the line, another starts there and each
tells of it. So every line is told once where no script block starts on an added line on which an
earlier one ends. -/
theorem added_lines_are_told_once (w : Workspace) (path : Path) (added : AddedLines) :
    (ToldOnce (w.extractFile path added).sections ↔
      ∀ text rs outcome, FileKind.ofPath path = .component → (w.means path).IsInTime .layout →
        w.files.readLenient (Path.resolve w.root path) = .ok text → regions text = .ok rs →
        extractComponent (w.means path) text added = .ok outcome →
        (rs.filter (·.kind.isScript)).Pairwise fun r q => ¬Clash (w.means path) added r q) ∧
    ((∀ text rs, FileKind.ofPath path = .component →
        w.files.readLenient (Path.resolve w.root path) = .ok text → regions text = .ok rs →
        (rs.filter (·.kind.isScript)).Pairwise fun r q =>
          r.endLine = q.startLine → r.endLine ∉ added) →
      ToldOnce (w.extractFile path added).sections) := by
  refine ⟨toldOnce_extractFile_iff w path added, fun apart => ?_⟩
  refine (toldOnce_extractFile_iff w path added).mpr fun text rs outcome kind _ read layout _ => ?_
  refine (apart text rs kind read layout).imp fun {r q} free clash => ?_
  exact free clash.meets clash.isAdded

end DiffScope.Extract
