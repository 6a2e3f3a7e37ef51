import DiffScope.Proofs.Extract.GoodOrder
import DiffScope.Proofs.Extract.SmallestUnits
import DiffScope.Proofs.Extract.WindowedLines
import DiffScope.Proofs.Scope.Coverage

/-! # Which added lines are marked

In the window of a unit the lines are marked that its section accounts for. Where a unit within the
window took an added line from it, the line is shown and not marked. Every line that goes without its
mark is told by another section of the file, of a unit that is no larger.
-/

namespace DiffScope.Extract

open DiffScope.Checked DiffScope.Component DiffScope.Diff DiffScope.Project DiffScope.Report
open DiffScope.Scope DiffScope.Snippet DiffScope.Syntax DiffScope.Text

/-- An added line of a unit that is told of is told, by a section of a unit that is no larger. -/
def ToldWithin (added : AddedLines) (sections : List Section) : Prop :=
  ∀ s ∈ sections, ∀ n ∈ added, s.startLine ≤ n → n ≤ s.endLine →
    ∃ t ∈ sections, n ∈ t.addedLines ∧ t.endLine - t.startLine ≤ s.endLine - s.startLine

section Scripts

variable {v : ScriptView} {p : Parsed} {added : AddedLines} {outcome : Outcome}

theorem toldWithin_of_analyze (h : v.analyze p added = .ok (.ok outcome)) :
    ToldWithin added outcome.sections := by
  intro s member n isAdded above below
  obtain ⟨-, selected, selects, told, -⟩ := analyze_eq_ok_iff.mp h
  obtain ⟨sel, kept, tells⟩ := exists_of_mem_right told member
  obtain ⟨_, -, repeats⟩ := Section.repeats_of_ofSelected tells
  obtain ⟨f, -, is⟩ :=
    (Search.keeps_of_select (s := v.search p.source added) selects sel kept).node
  have holds : n ∈ sel.candidate.addedLines := by
    rw [is.lines, ← repeats.startLine, ← repeats.endLine]
    exact AddedLines.mem_within.mpr ⟨isAdded, above, below⟩
  obtain ⟨picks, shares⟩ := Search.exists_shares_of_select (s := v.search p.source added) selects
  obtain ⟨o, among, accounts, smaller⟩ := shares.exists_accounts kept isAdded holds
  obtain ⟨t, inside, tells'⟩ := exists_of_mem_left told among
  obtain ⟨_, -, repeats'⟩ := Section.repeats_of_ofSelected tells'
  refine ⟨t, inside, repeats'.addedLines ▸ accounts, ?_⟩
  rw [repeats.startLine, repeats.endLine, repeats'.startLine, repeats'.endLine]
  exact smaller

theorem toldWithin_extract (v : ScriptView) (text : List Char) (added : AddedLines) :
    ToldWithin added (v.extract text added).sections := by
  rcases v.sections_extract text added with none | ⟨p, -, analyzed⟩
  · rw [none]
    intro s member
    cases member
  · exact toldWithin_of_analyze analyzed

end Scripts

/-! ## Script blocks and files -/

theorem toldWithin_of_extractRegion {m : Means} {added : AddedLines} {r : Region}
    {outcome : Outcome} (positive : 0 < r.startLine)
    (h : extractRegion m added r = .ok outcome) : ToldWithin added outcome.sections := by
  have block := extractRegion_eq_ok_iff.mp h
  split at block
  next =>
    rw [block]
    intro s member
    cases member
  next language _ =>
    intro t member n isAdded above below
    obtain ⟨s, among, moved⟩ := exists_of_mem_right block.1 member
    obtain ⟨first, -⟩ := endLine_le_of_extract among
    obtain ⟨-, rfl⟩ := Section.shifted_eq_ok_iff.mp moved
    dsimp only at above below
    have isLocal : n - r.startLine + 1 ∈ added.localize r.startLine :=
      AddedLines.mem_localize.mpr ⟨positive, n, isAdded, by omega, rfl⟩
    obtain ⟨s', among', accounts, smaller⟩ := toldWithin_extract (blockView m r language) r.content
      (added.localize r.startLine) s among _ isLocal (by omega) (by omega)
    obtain ⟨t', inside, moved'⟩ := exists_of_mem_left block.1 among'
    obtain ⟨-, rfl⟩ := Section.shifted_eq_ok_iff.mp moved'
    refine ⟨_, inside, List.mem_map.mpr ⟨_, accounts, by omega⟩, ?_⟩
    dsimp only
    omega

theorem HasSections.toldWithin {m : Means} {added : AddedLines} {text : List Char}
    {kind : FileKind} {sections : List Section} (has : HasSections m added text kind sections) :
    ToldWithin added sections := by
  intro s member n isAdded above below
  cases has with
  | script language =>
      obtain ⟨t, among, told⟩ := toldWithin_extract (.ofMeans m .script language .plain 1) text added s
        (Section.mem_sort.mp member) n isAdded above below
      exact ⟨t, Section.mem_sort.mpr among, told⟩
  | component told =>
      cases extractComponent_eq_ok_iff.mp told with
      | late => cases member
      | unclear => cases member
      | @told rs outcomes _ layout each =>
          obtain ⟨o, among, inside⟩ := List.mem_flatMap.mp (Section.mem_sort.mp member)
          obtain ⟨r, block, extracts⟩ := exists_of_mem_right each among
          obtain ⟨_, _, -, first, -⟩ := sitsIn_of_regions layout r (List.mem_of_mem_filter block)
          obtain ⟨t, inside, told⟩ :=
            toldWithin_of_extractRegion (by omega) extracts s inside n isAdded above below
          exact ⟨t, Section.mem_sort.mpr (List.mem_flatMap.mpr ⟨o, among, inside⟩), told⟩

/-- Which of the added lines that a section shows in windows are marked. -/
structure Marks (added : AddedLines) (radius : Nat) (sections : List Section) (s : Section)
    (ls : List NumberedLine) : Prop where
  /-- What goes without a mark is told elsewhere. -/
  elsewhere : ∀ l ∈ ls, l.label ∈ added → l.isAdded = false → l.label ∉ s.addedLines ∧
    ∃ t ∈ sections, l.label ∈ t.addedLines ∧ t.endLine - t.startLine ≤ s.endLine - s.startLine
  /-- Nothing goes without a mark exactly if no other section tells of a line in the windows. -/
  all_iff : (∀ l ∈ ls, l.label ∈ added → l.isAdded = true) ↔
    ∀ t ∈ sections, ∀ n ∈ t.addedLines, s.startLine ≤ n → n ≤ s.endLine →
      IsNear s.addedLines radius n → n ∈ s.addedLines

theorem marks_of_showsLines {text outer post : List Char} {added : AddedLines} {radius : Nat}
    {sections : List Section} {s : Section} {ls : List NumberedLine}
    (shows : ShowsLines text outer post added radius s ls) (within : ToldWithin added sections)
    (coherent : ∀ t ∈ sections, Coherent added t) (member : s ∈ sections) :
    Marks added radius sections s ls := by
  have elsewhere : ∀ l ∈ ls, l.label ∈ added → l.isAdded = false → l.label ∉ s.addedLines ∧
      ∃ t ∈ sections, l.label ∈ t.addedLines ∧
        t.endLine - t.startLine ≤ s.endLine - s.startLine := by
    intro l shown isAdded unmarked
    obtain ⟨⟨above, below⟩, -⟩ := (shows.near l.label).mp (List.mem_map_of_mem shown)
    refine ⟨fun told => ?_, within s member _ isAdded above below⟩
    exact Bool.false_ne_true (unmarked.symm.trans ((shows.marked l shown).mpr told))
  refine ⟨elsewhere, fun all t among n told above below near => ?_, fun none l shown isAdded => ?_⟩
  · obtain ⟨l, shown, rfl⟩ := List.mem_map.mp ((shows.near n).mpr ⟨⟨above, below⟩, near⟩)
    have isAdded := ((coherent t among).lines _ told).1
    exact (shows.marked l shown).mp (all l shown isAdded)
  · obtain ⟨⟨above, below⟩, near⟩ := (shows.near l.label).mp (List.mem_map_of_mem shown)
    obtain ⟨t, among, told, -⟩ := within s member _ isAdded above below
    exact (shows.marked l shown).mpr (none t among _ told above below near)

/-! ## A function around another -/

/-- Settings by which a unit of two lines is shown in windows, with a line on either side. -/
def narrow : Config := { Config.default with maxBlockLines := 1, windowRadius := 1 }

/-- A project with a script of a function around another, and a parser that knows it. -/
def arrowsWorkspace : Workspace where
  files := (Directory.ofFile "a.js".toList (.file (String.ofList arrowsText).toUTF8.toList)).files
  root := []
  config := narrow
  parser := .ofTree arrowsText arrowsTree
  course _ _ := .ends 0

/-- How the script is looked at. -/
abbrev arrowsView : ScriptView := fileView arrowsWorkspace "a.js".toList .javaScript

/-- The candidates for the two functions. -/
def outerArrow : Candidate := ⟨.arrowFunction, "f", 1, 2, 10, 27, [1, 2], none⟩

def innerArrow : Candidate := ⟨.arrowFunction, "<anonymous>", 2, 2, 17, 27, [2], none⟩

theorem select_arrows : select [outerArrow, innerArrow] (.ofList [1, 2]) =
    .ok [⟨outerArrow, [1]⟩, ⟨innerArrow, [2]⟩] := by
  have turns : [outerArrow.ranked 0, innerArrow.ranked 1].mergeSort Ranked.precedes =
      [innerArrow.ranked 1, outerArrow.ranked 0] := mergeSort_pair _ _ _
  have given : assign (.ofList [1, 2]) [] [innerArrow.ranked 1, outerArrow.ranked 0] =
      [(innerArrow.ranked 1, [2]), (outerArrow.ranked 0, [1])] := rfl
  have picks : picked [outerArrow, innerArrow] (.ofList [1, 2]) =
      [(outerArrow.ranked 0, [1]), (innerArrow.ranked 1, [2])] := by
    change (assign _ [] ([outerArrow.ranked 0, innerArrow.ranked 1].mergeSort _)).mergeSort _ = _
    rw [turns, given]
    exact mergeSort_pair _ _ _
  rw [select_cons_cons _ fun _ => by decide, picks]
  rfl

/-- The outer function, in the window of its first line. -/
def outerSection : Section :=
  ⟨.arrowFunction, "f", 1, 2, [1], "+    1 | const f = x =>\n     2 |   y => x + y", true, .lineLimit,
    some "2 lines, showing 1 window(s) of +/-1 lines around 1 added line(s)", none⟩

/-- The inner function, which took the second line. -/
def innerSection : Section :=
  ⟨.arrowFunction, "<anonymous>", 2, 2, [2], "y => x + y", false, .none, none, none⟩

theorem analyze_nestedArrows : arrowsView.analyze nestedArrows (.ofList [1, 2]) =
    .ok (.ok ⟨[outerSection, innerSection], []⟩) := by
  have found : arrowsView.find nestedArrows (.ofList [1, 2]) = ⟨[outerArrow, innerArrow], none⟩ :=
    rfl
  have first : Section.ofSelected nestedArrows.source arrowsView.policy ⟨outerArrow, [1]⟩ =
      .ok outerSection := by decide +kernel
  have second : Section.ofSelected nestedArrows.source arrowsView.policy ⟨innerArrow, [2]⟩ =
      .ok innerSection := by decide +kernel
  refine analyze_eq_ok_iff.mpr ⟨?_, [⟨outerArrow, [1]⟩, ⟨innerArrow, [2]⟩], ?_, ?_, ?_⟩
  · rw [found]
    rfl
  · rw [found]
    exact select_arrows
  · exact .cons first (.cons second .nil)
  · rw [found]
    rfl

theorem read_arrowsWorkspace : arrowsWorkspace.files.readLenient
    (Path.resolve arrowsWorkspace.root "a.js".toList) = .ok arrowsText := by
  decide +kernel

theorem sections_arrowsWorkspace :
    (arrowsWorkspace.extractFile "a.js".toList (.ofList [1, 2])).sections =
      [outerSection, innerSection] := by
  have works : arrowsView.work arrowsText (.ofList [1, 2]) =
      .ok (.ok ⟨[outerSection, innerSection], []⟩) :=
    ScriptView.work_eq_ok_ok_iff.mpr ⟨nestedArrows, rfl, analyze_nestedArrows⟩
  have told : arrowsView.extract arrowsText (.ofList [1, 2]) = ⟨[outerSection, innerSection], []⟩ :=
    ScriptView.extract_eq_outcome rfl ⟨0, Nat.zero_le _, rfl⟩ works
  rw [extractFile_of_extractText rfl read_arrowsWorkspace (by decide) rfl,
    Result.sections_foldl_record]
  exact (congrArg (Section.sort ∘ Outcome.sections) told).trans (mergeSort_pair _ _ _)

/-! ## Every windowed section -/

/-- Of the lines that a unit shows in windows, those are marked that its section accounts for. So all
added lines among them are marked exactly if no other section tells of one, and each that is not marked
is told by another section, of a unit that is no larger. -/
theorem unmarked_lines_are_told_elsewhere (w : Workspace) (path : Path) (added : AddedLines)
    (fit : ∀ l ∈ added, l < countBound) :
    (w.extractFile path added).sections = [] ∨
    ∃ text, w.files.readLenient (Path.resolve w.root path) = .ok text ∧
      ∀ s ∈ (w.extractFile path added).sections, s.reason = .lineLimit →
        ∃ outer post ls, ShowsLines text outer post added w.config.windowRadius s ls ∧
          Marks added w.config.windowRadius (w.extractFile path added).sections s ls := by
  refine (hasSections_extractFile w path added).imp_right fun ⟨text, read, has⟩ =>
    ⟨text, read, fun s member windowed => ?_⟩
  obtain ⟨outer, post, p, ls, -, -, shows⟩ := has.isWindowed fit s member windowed
  have coherent : ∀ t ∈ (w.extractFile path added).sections, Coherent added t :=
    fun t among => (coherent_extractFile w path added t among).1
  exact ⟨outer, post, ls, shows, marks_of_showsLines shows has.toldWithin coherent member⟩

theorem marks_of_arrows :
    (∀ l ∈ AddedLines.ofList [1, 2], l < countBound) ∧
    (arrowsWorkspace.extractFile "a.js".toList (.ofList [1, 2])).sections =
      [outerSection, innerSection] ∧
    outerSection.reason = .lineLimit ∧
    ∃ outer post ls, ShowsLines arrowsText outer post (.ofList [1, 2]) 1 outerSection ls ∧
      Marks (.ofList [1, 2]) 1 [outerSection, innerSection] outerSection ls := by
  have fit : ∀ l ∈ AddedLines.ofList [1, 2], l < countBound := by decide
  refine ⟨fit, sections_arrowsWorkspace, rfl, ?_⟩
  have marks := unmarked_lines_are_told_elsewhere arrowsWorkspace "a.js".toList (.ofList [1, 2]) fit
  rw [sections_arrowsWorkspace] at marks
  rcases marks with none | ⟨text, read, marks⟩
  · cases none
  · obtain rfl := Except.ok.inj (read_arrowsWorkspace.symm.trans read)
    exact marks outerSection List.mem_cons_self rfl

/-- The function around another shows both of its lines, which were added, and marks only the first. -/
theorem line_of_the_inner_arrow_is_not_marked :
    ∃ s ∈ (arrowsWorkspace.extractFile "a.js".toList (.ofList [1, 2])).sections,
      s.reason = .lineLimit ∧ 2 ∈ AddedLines.ofList [1, 2] ∧
      pieces s.snippet.toList = [(Row.line ⟨true, 1, "const f = x =>".toList⟩).text,
        (Row.line ⟨false, 2, "  y => x + y".toList⟩).text] := by
  rw [sections_arrowsWorkspace]
  exact ⟨outerSection, List.mem_cons_self, rfl, AddedLines.mem_ofList.mpr (by decide), by decide⟩

end DiffScope.Extract
