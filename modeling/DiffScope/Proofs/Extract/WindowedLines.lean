import DiffScope.Proofs.Extract.Files
import DiffScope.Proofs.Extract.Units
import DiffScope.Proofs.Snippet.Around
import DiffScope.Proofs.Snippet.Limits

/-! # Units in windows show lines of the file

Where a unit is shown in windows, the rows of its snippet are read in one way only: as the lines of the
file that are near the added lines of the section, under their numbers in the file, with those marked
that the section accounts for. What is missing of a line is the text before a script block in its
first line and the text behind the unit in its last.
-/

namespace DiffScope.Extract

open DiffScope.Checked DiffScope.Component DiffScope.Diff DiffScope.Project DiffScope.Report
open DiffScope.Scope DiffScope.Snippet DiffScope.Syntax DiffScope.Text

/-- A script that stands in a file behind a text, as a parser reads it. -/
inductive ScriptIn (parser : Parser) (text : List Char) :
    FileKind → (outer : List Char) → Parsed → Prop
  | whole {language : Language} {p : Parsed} (read : Parsed.ofText parser language text = .ok p) :
      ScriptIn parser text (.script language) [] p
  | block {rs : List Region} {r : Region} {outer behind : List Char} {language : Language}
      {p : Parsed} (layout : regions text = .ok rs) (member : r ∈ rs) (script : r.kind.isScript)
      (stands : text = outer ++ (r.content ++ behind)) (first : r.startLine = newlines outer + 1)
      (known : Language.ofAttribute? r.lang = some language)
      (read : Parsed.ofText parser language r.content = .ok p) :
      ScriptIn parser text .component outer p

/-- A section is about a unit of a script that stands in a file between two texts. -/
def UnitIn (text outer : List Char) (p : Parsed) (s : Section) (post : List Char) : Prop :=
  ∃ f ∈ p.tree.nodes, IsUnit f ∧ kind? f = some s.kind ∧ nameOf p.source f = .ok s.name ∧
    text = outer ++ (p.source.text.take f.tree.start ++
      (p.source.slice f.tree.start f.tree.stop ++ post)) ∧
    s.startLine = newlines outer + p.source.line f.tree.start ∧
    s.endLine = newlines outer + p.source.line f.tree.stop

/-- The rows of a snippet are lines of the file. The text before the script is lost in the script's
first line, and the text behind the unit is cut off in the unit's last. -/
structure ShowsLines (text outer post : List Char) (added : AddedLines) (radius : Nat)
    (s : Section) (ls : List NumberedLine) : Prop where
  rows : pieces s.snippet.toList = (spaced ls).map Row.text
  only : ∀ rows, pieces s.snippet.toList = rows.map Row.text → rows = spaced ls
  ascending : (ls.map NumberedLine.label).Pairwise (· < ·)
  near : ∀ n, n ∈ ls.map NumberedLine.label ↔
    (s.startLine ≤ n ∧ n ≤ s.endLine) ∧ IsNear s.addedLines radius n
  marked : ∀ l ∈ ls, l.isAdded = true ↔ l.label ∈ s.addedLines
  shown : ∀ n ∈ s.addedLines, n ∈ added ∧ n ∈ ls.map NumberedLine.label
  bodies : ∀ l ∈ ls, ∃ body, l.body = trimReturns body ∧
    (pieces text)[l.label - 1]? = some ((if l.label = newlines outer + 1 then lastPiece outer else [])
      ++ (body ++ if l.label = s.endLine then firstPiece post else []))
  summary : s.summary = some (windowNote (s.endLine - s.startLine + 1)
    ((spaced ls).countP Row.isGap + 1) radius s.addedLines.length)

/-- The shown line of a unit is the line of the file, but for what it loses. -/
theorem getElem?_pieces_of_unit {source : Source} {text outer behind : List Char} {start stop : Nat}
    (order : start ≤ stop) (stands : text = outer ++ (source.text ++ behind)) {l : Nat}
    (within : source.line start ≤ l ∧ l ≤ source.line stop) :
    (pieces text)[l + newlines outer - 1]? = some
      ((if l + newlines outer = newlines outer + 1 then lastPiece outer else []) ++
        ((pieces (source.lead start ++ source.slice start stop))[l - source.line start]?.getD [] ++
          if l = source.line stop then firstPiece (source.text.drop stop ++ behind) else [])) := by
  let inner := source.text.take start
  let raw := source.slice start stop
  obtain ⟨k, rfl⟩ := Nat.exists_eq_add_of_le within.1
  have first : source.line start = newlines inner + 1 := source.line_eq start
  have last : source.line stop = source.line start + newlines raw := source.line_stop order
  have inside : k ≤ newlines raw := by omega
  have bound : k < (pieces raw).length := by
    rw [length_pieces]
    omega
  have piece := List.getElem?_eq_getElem bound
  have parts : text = (outer ++ inner) ++ (raw ++ (source.text.drop stop ++ behind)) := by
    rw [stands]
    conv_lhs => rw [source.text_eq_slice order]
    simp only [List.append_assoc, inner, raw]
  have lead : source.lead start = lastPiece inner := rfl
  have flat : newlines (lastPiece inner) = 0 := newlines_eq_zero_iff.mpr (unbroken_lastPiece inner)
  have shown := getElem?_pieces_behind (lastPiece inner) raw k
  rw [flat, Nat.zero_add, piece, lastPiece_of_unbroken (unbroken_lastPiece inner)] at shown
  have whole := getElem?_pieces_between (outer ++ inner) (source.text.drop stop ++ behind) inside
    piece
  have place : source.line start + k + newlines outer - 1 = newlines (outer ++ inner) + k := by
    rw [newlines_append]
    omega
  have opens : source.line start + k + newlines outer = newlines outer + 1 ↔
      k = 0 ∧ newlines inner = 0 := by omega
  have ends : source.line start + k = source.line stop ↔ k = newlines raw := by omega
  have back : source.line start + k - source.line start = k := by omega
  rw [place, parts, whole, lead, back, shown, lastPiece_append]
  simp only [opens, ends]
  -- The script's first line is the unit's first only if nothing of the script before it ends a line.
  by_cases zero : k = 0 <;> by_cases flat : newlines inner = 0 <;> simp [zero, flat]

section Scripts

variable {policy : Policy} {p : Parsed} {inner added : AddedLines} {f : Focus} {s : Section}
variable {text outer behind : List Char}

theorem unitIn_of_isAbout (about : IsAbout p inner f s)
    (stands : text = outer ++ (p.source.text ++ behind)) :
    UnitIn text outer p (s.moved (newlines outer)) (p.source.text.drop f.tree.stop ++ behind) := by
  have order := about.unit.start_le_stop
  refine ⟨f, about.node, about.unit, about.kind, about.name, ?_, ?_, ?_⟩
  · rw [stands]
    conv_lhs => rw [p.source.text_eq_slice order]
    simp only [List.append_assoc]
  · exact about.startLine ▸ Nat.add_comm _ _
  · exact about.endLine ▸ Nat.add_comm _ _

theorem exists_showsLines (about : IsAbout p inner f s) (displays : Displays policy p.source f s)
    (windowed : s.reason = .lineLimit) (first : policy.firstLine = newlines outer + 1)
    (stands : text = outer ++ (p.source.text ++ behind)) (fit : ∀ l ∈ inner, l < countBound)
    (comes : ∀ l ∈ inner, l + newlines outer ∈ added) :
    ∃ ls, ShowsLines text outer (p.source.text.drop f.tree.stop ++ behind) added policy.radius
      (s.moved (newlines outer)) ls := by
  obtain ⟨shown, applied, snippet, reason, summary⟩ := displays
  have windows := Policy.showWindows_of_apply applied (reason ▸ windowed)
  have positive : 0 < policy.firstLine := by omega
  obtain ⟨ls, shows⟩ := Policy.exists_showsAround positive
    (fun a member => fit a (about.lines a member).1) (fun a member => (about.lines a member).2)
    about.filled windows
  have shift : policy.firstLine - 1 = newlines outer := by omega
  let line := policy.numberedLine
    (p.source.lead f.tree.start ++ p.source.slice f.tree.start f.tree.stop) s.startLine s.addedLines
  have label : ∀ n, (line n).label = n + newlines outer := fun n => congrArg (n + ·) shift
  have labels : (ls.map line).map NumberedLine.label = ls.map (· + newlines outer) := by
    rw [List.map_map]
    exact List.map_congr_left fun n _ => label n
  have rows : pieces (s.moved (newlines outer)).snippet.toList =
      (spaced (ls.map line)).map Row.text := by
    rw [Section.moved, snippet, String.toList_ofList]
    exact shows.rows
  refine ⟨ls.map line, rows, ?_, ?_, ?_, ?_, ?_, ?_, ?_⟩
  · intro others same
    exact (List.map_injective_iff.mpr Row.text_injective (rows.symm.trans same)).symm
  · rw [labels]
    exact List.pairwise_map.mpr (shows.ascending.imp fun less => Nat.add_lt_add_right less _)
  · rw [labels]
    exact shows.near_moved (newlines outer)
  · intro l member
    obtain ⟨n, -, rfl⟩ := List.mem_map.mp member
    rw [label]
    simp [line, Policy.numberedLine, Section.moved]
  · rw [labels]
    intro n member
    obtain ⟨a, among, rfl⟩ := List.mem_map.mp member
    obtain ⟨isAdded, within⟩ := about.lines a among
    have near : IsNear s.addedLines policy.radius a :=
      ⟨a, among, Nat.le_add_right _ _, Nat.le_add_right _ _⟩
    exact ⟨comes a isAdded, List.mem_map.mpr ⟨a, (shows.near a).mpr ⟨within, near⟩, rfl⟩⟩
  · intro l member
    obtain ⟨n, among, rfl⟩ := List.mem_map.mp member
    have within := ((shows.near n).mp among).1
    rw [about.startLine, about.endLine] at within
    have read := getElem?_pieces_of_unit about.unit.start_le_stop stands within
    refine ⟨_, rfl, ?_⟩
    simp only [label, Section.moved, about.startLine, about.endLine, Nat.add_right_cancel_iff]
    exact read
  · have span : s.endLine + newlines outer - (s.startLine + newlines outer) =
        s.endLine - s.startLine := by omega
    rw [Section.moved, summary, shows.summary]
    dsimp only
    rw [span, List.length_map]

end Scripts

/-! ## Files -/

/-- Where the unit of a section in windows is, and which lines of the file its snippet shows. -/
def IsWindowed (m : Means) (added : AddedLines) (text : List Char) (kind : FileKind)
    (s : Section) : Prop :=
  ∃ outer post p ls, ScriptIn m.parser text kind outer p ∧ UnitIn text outer p s post ∧
    ShowsLines text outer post added m.config.windowRadius s ls

section Files

variable {m : Means} {added : AddedLines} {text : List Char}

theorem isWindowed_of_script {language : Language} {s : Section}
    (fit : ∀ l ∈ added, l < countBound)
    (member : s ∈ ((ScriptView.ofMeans m .script language .plain 1).extract text added).sections)
    (windowed : s.reason = .lineLimit) : IsWindowed m added text (.script language) s := by
  obtain ⟨p, f, read, about, displays⟩ := exists_isAbout_of_extract member
  have source : p.source.text = text := congrArg Source.text (Parsed.source_ofText read)
  have stands : text = [] ++ (p.source.text ++ []) := by simp [source]
  obtain ⟨ls, shows⟩ := exists_showsLines about displays windowed rfl stands fit fun l inside => inside
  have unit := unitIn_of_isAbout about stands
  rw [show newlines [] = 0 from rfl, Section.moved_zero] at shows unit
  exact ⟨_, _, p, ls, .whole read, unit, shows⟩

theorem isWindowed_of_block {rs : List Region} {r : Region} {outcome : Outcome} {t : Section}
    (layout : regions text = .ok rs) (among : r ∈ rs) (script : r.kind.isScript)
    (fit : ∀ l ∈ added, l < countBound) (h : extractRegion m added r = .ok outcome)
    (member : t ∈ outcome.sections) (windowed : t.reason = .lineLimit) :
    IsWindowed m added text .component t := by
  obtain ⟨language, s, known, moved, told⟩ := exists_shifted_of_extractRegion h member
  obtain ⟨p, f, read, about, displays⟩ := exists_isAbout_of_extract told
  obtain ⟨outer, behind, whole, first, -⟩ := sitsIn_of_regions layout r among
  have source : p.source.text = r.content := congrArg Source.text (Parsed.source_ofText read)
  have stands : text = outer ++ (p.source.text ++ behind) := by
    rw [whole, source, List.append_assoc]
  rw [first] at moved
  obtain rfl := Section.moved_of_shifted moved
  have back : ∀ l ∈ added.localize r.startLine, l + newlines outer ∈ added := by
    intro l isLocal
    obtain ⟨-, g, isAdded, behind, rfl⟩ := AddedLines.mem_localize.mp isLocal
    have same : g - r.startLine + 1 + newlines outer = g := by omega
    rwa [same]
  have small : ∀ l ∈ added.localize r.startLine, l < countBound := fun l isLocal =>
    Nat.lt_of_le_of_lt (Nat.le_add_right _ _) (fit _ (back l isLocal))
  have numbered : (blockView m r language).policy.firstLine = newlines outer + 1 := by
    rw [← first]
    exact Nat.max_eq_left (by omega)
  obtain ⟨ls, shows⟩ := exists_showsLines about displays windowed numbered stands small back
  refine ⟨outer, _, p, ls, ?_, unitIn_of_isAbout about stands, shows⟩
  exact .block layout among script (source ▸ stands) first known read

theorem HasSections.isWindowed {kind : FileKind} {sections : List Section}
    (has : HasSections m added text kind sections) (fit : ∀ l ∈ added, l < countBound) :
    ∀ s ∈ sections, s.reason = .lineLimit → IsWindowed m added text kind s := by
  intro s member windowed
  cases has with
  | script language =>
      exact isWindowed_of_script fit (Section.mem_sort.mp member) windowed
  | component told =>
      obtain ⟨rs, r, o, layout, region, isScript, extracts, inside⟩ :=
        exists_block_of_extractComponent told member
      exact isWindowed_of_block layout region isScript fit extracts inside windowed

end Files

/-- Every section of a file that is shown in windows is about a unit of a script in the file, and its
snippet shows the lines of the file that it should. -/
theorem windows_show_lines_of_the_file (w : Workspace) (path : Path) (added : AddedLines)
    (fit : ∀ l ∈ added, l < countBound) :
    (w.extractFile path added).sections = [] ∨
    ∃ text, w.files.readLenient (Path.resolve w.root path) = .ok text ∧
      ∀ s ∈ (w.extractFile path added).sections, s.reason = .lineLimit →
        IsWindowed (w.means path) added text (FileKind.ofPath path) s :=
  (hasSections_extractFile w path added).imp_right fun ⟨text, read, has⟩ =>
    ⟨text, read, has.isWindowed fit⟩

/-- A component with a function over three lines. -/
def stepsText : List Char := "<script>function f() \x7b\n  return 1;\n\x7d</script>\n".toList

/-- The script of the component. -/
def stepsTree : Syntax.Tree :=
  .named "program" [] 0 28 [
    .named "function_declaration" [] 0 28 [
      .mark "function" [] 0 8,
      .named "identifier" ["name"] 9 10 [],
      .named "formal_parameters" ["parameters"] 10 12 [
        .mark "(" [] 10 11,
        .mark ")" [] 11 12],
      .named "statement_block" ["body"] 13 28 [
        .mark "\x7b" [] 13 14,
        .named "return_statement" [] 17 26 [
          .mark "return" [] 17 23,
          .named "number" [] 24 25 [],
          .mark ";" [] 25 26],
        .mark "\x7d" [] 27 28]]]

/-- A project with the component, in which every unit of two lines is shown in windows, and a parser
that knows the script. -/
def stepsWorkspace : Workspace where
  files := (Directory.ofFile "Steps.vue".toList
    (.file (String.ofList stepsText).toUTF8.toList)).files
  root := []
  config := { Config.default with maxBlockLines := 1, windowRadius := 0 }
  parser := .ofTree "function f() \x7b\n  return 1;\n\x7d".toList stepsTree
  course _ _ := .ends 0

/-- The function of the component, of which its second line was added. -/
def stepsSection : Section :=
  ⟨.functionDeclaration, "f", 1, 3, [2], "+    2 |   return 1;", true, .lineLimit,
    some "3 lines, showing 1 window(s) of +/-0 lines around 1 added line(s)", none⟩

theorem sections_stepsWorkspace :
    (stepsWorkspace.extractFile "Steps.vue".toList (.ofList [2])).sections = [stepsSection] := by
  decide +kernel

theorem windows_of_steps :
    (∀ l ∈ AddedLines.ofList [2], l < countBound) ∧
    (stepsWorkspace.extractFile "Steps.vue".toList (.ofList [2])).sections = [stepsSection] ∧
    stepsSection.reason = .lineLimit ∧
    IsWindowed (stepsWorkspace.means "Steps.vue".toList) (.ofList [2]) stepsText .component
      stepsSection := by
  have fit : ∀ l ∈ AddedLines.ofList [2], l < countBound := by decide
  have readable : stepsWorkspace.files.readLenient
      (Path.resolve stepsWorkspace.root "Steps.vue".toList) = .ok stepsText := by decide +kernel
  refine ⟨fit, sections_stepsWorkspace, rfl, ?_⟩
  rcases windows_show_lines_of_the_file stepsWorkspace "Steps.vue".toList (.ofList [2]) fit with
    none | ⟨text, read, windowed⟩
  · rw [sections_stepsWorkspace] at none
    cases none
  · obtain rfl := Except.ok.inj (readable.symm.trans read)
    exact windowed stepsSection (sections_stepsWorkspace ▸ List.mem_singleton_self _) rfl

end DiffScope.Extract
