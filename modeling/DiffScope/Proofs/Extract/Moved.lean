import DiffScope.Proofs.Component.Moved
import DiffScope.Proofs.Extract.Files
import DiffScope.Proofs.Extract.Units
import DiffScope.Proofs.Snippet.Moved

/-! # Components further down

Behind text without tags a component has the same sections, issues and blocks, with all lines further
down. Lines added before the component are told of no section.
-/

namespace DiffScope.Extract

open DiffScope.Checked DiffScope.Component DiffScope.Diff DiffScope.Report DiffScope.Scope
open DiffScope.Syntax DiffScope.Text

/-! ## Sections -/

/-- A section is the same as another but for the labels in its snippet. -/
def IsRelabelled (k : Nat) (s t : Section) : Prop :=
  ∃ text, t = { s with snippet := String.ofList text } ∧
    Snippet.Relabels k s.reason s.snippet.toList text

/-- A section is the same as another, but with all its lines further down. -/
def IsMoved (k : Nat) (s t : Section) : Prop := IsRelabelled k (s.moved k) t

theorem IsRelabelled.moved {k : Nat} {s t : Section} (h : IsRelabelled k s t) (j : Nat) :
    IsRelabelled k (s.moved j) (t.moved j) := by
  obtain ⟨text, rfl, relabels⟩ := h
  exact ⟨text, rfl, relabels⟩

theorem moved_moved (s : Section) (j k : Nat) : (s.moved j).moved k = s.moved (j + k) := by
  simp [Section.moved, Nat.add_assoc, Function.comp_def]

theorem precedes_of_isMoved {k : Nat} {s t s' t' : Section} (h : IsMoved k s t)
    (h' : IsMoved k s' t') : s.precedes s' = t.precedes t' := by
  obtain ⟨_, rfl, -⟩ := h
  obtain ⟨_, rfl, -⟩ := h'
  simp [Section.precedes, Section.moved]

theorem isRelabelled_of_ofSelected {source : Source} {p : Snippet.Policy} {k : Nat} {sel : Selected}
    {s t : Section} (first : 0 < p.firstLine) (h : Section.ofSelected source p sel = .ok s)
    (h' : Section.ofSelected source (p.moved k) sel = .ok t) : IsRelabelled k s t := by
  obtain ⟨shown, shows, h⟩ := bind_eq_ok.mp h
  obtain ⟨shown', shows', h'⟩ := bind_eq_ok.mp h'
  obtain rfl := Except.ok.inj h
  obtain rfl := Except.ok.inj h'
  obtain ⟨reason, summary, relabels⟩ := Snippet.Policy.relabels_of_apply first shows shows'
  refine ⟨shown'.text, ?_, by simpa using relabels⟩
  simp only [Snippet.Shown.isTruncated, reason, summary]

/-! ## Scripts -/

section Scripts

variable {v : ScriptView} {k : Nat}

/-- How a script is looked at further down in its file. -/
def ScriptView.moved (v : ScriptView) (k : Nat) : ScriptView := { v with policy := v.policy.moved k }

/-- The same is told of a script, but for the labels in its snippets. -/
structure Outcome.IsRelabelled (k : Nat) (o o' : Outcome) : Prop where
  sections : List.Forall₂ (Extract.IsRelabelled k) o.sections o'.sections
  issues : o'.issues = o.issues

theorem isRelabelled_of_tell {p : Parsed} {added : AddedLines} {o o' : Outcome}
    (first : 0 < v.policy.firstLine) {found : Search.Found} (h : v.tell p added found = .ok o)
    (h' : (v.moved k).tell p added found = .ok o') : o.IsRelabelled k o' := by
  obtain ⟨selected, selects, told, issues⟩ := tell_eq_ok_iff.mp h
  obtain ⟨selected', selects', told', issues'⟩ := tell_eq_ok_iff.mp h'
  obtain rfl : selected = selected' := Except.ok.inj (selects.symm.trans selects')
  refine ⟨?_, issues'.trans issues.symm⟩
  refine (forall₂_comp told.flip told').imp fun s t ⟨sel, tells, tells'⟩ => ?_
  exact isRelabelled_of_ofSelected first tells tells'

/-- The work on a script comes to the same further down in its file. -/
theorem isRelabelled_work {text : List Char} (added : AddedLines) (first : 0 < v.policy.firstLine)
    (fit : newlines text + 1 + (v.policy.firstLine + k) < countBound) :
    (∃ issue, v.work text added = .ok (.error issue) ∧
      (v.moved k).work text added = .ok (.error issue)) ∨
    ∃ o o', v.work text added = .ok (.ok o) ∧ (v.moved k).work text added = .ok (.ok o') ∧
      o.IsRelabelled k o' := by
  cases read : Parsed.ofText v.parser v.language text with
  | error reason =>
      exact .inl ⟨_, ScriptView.work_eq_ok_error_iff.mpr (.inl ⟨reason, read, rfl⟩),
        ScriptView.work_eq_ok_error_iff.mpr (.inl ⟨reason, read, rfl⟩)⟩
  | ok p =>
      have source : p.source.text = text := congrArg Source.text (Parsed.source_ofText read)
      cases whole : (v.find p added).failure? with
      | some reason =>
          exact .inl ⟨_, ScriptView.work_eq_ok_error_iff.mpr (.inr ⟨p, read, reason, whole, rfl⟩),
            ScriptView.work_eq_ok_error_iff.mpr (.inr ⟨p, read, reason, whole, rfl⟩)⟩
      | none =>
          obtain ⟨o, told⟩ := exists_tell_of_fit (v := v) (p := p) added first
            (by rw [source]; omega)
          obtain ⟨o', told'⟩ := exists_tell_of_fit (v := v.moved k) (p := p) added
            (Nat.lt_of_lt_of_le first (Nat.le_add_right _ k)) (by rw [source]; exact fit)
          refine .inr ⟨o, o', ?_, ?_, isRelabelled_of_tell first told told'⟩
          · exact ScriptView.work_eq_ok_ok_iff.mpr
              ⟨p, read, ScriptView.analyze_eq_ok_ok_iff.mpr ⟨whole, told⟩⟩
          · exact ScriptView.work_eq_ok_ok_iff.mpr
              ⟨p, read, ScriptView.analyze_eq_ok_ok_iff.mpr ⟨whole, told'⟩⟩

theorem isRelabelled_extract {text : List Char} (added : AddedLines) (first : 0 < v.policy.firstLine)
    (fit : newlines text + 1 + (v.policy.firstLine + k) < countBound) :
    (v.extract text added).IsRelabelled k ((v.moved k).extract text added) := by
  cases filled : added.isEmpty with
  | true =>
      rw [ScriptView.extract, ScriptView.extract, filled, if_pos rfl]
      exact ⟨.nil, rfl⟩
  | false =>
      cases late : v.course.issue? v.timeoutMs "parse" with
      | some issue =>
          rw [ScriptView.extract_of_issue? filled late,
            ScriptView.extract_of_issue? (v := v.moved k) filled late]
          exact ⟨.nil, rfl⟩
      | none =>
          have inTime := Course.issue?_eq_none_iff.mp late
          rcases isRelabelled_work added first fit with ⟨issue, works, works'⟩ |
            ⟨o, o', works, works', relabelled⟩
          · rw [ScriptView.extract_eq_error filled inTime works,
              ScriptView.extract_eq_error (v := v.moved k) filled inTime works']
            exact ⟨.nil, rfl⟩
          · rw [ScriptView.extract_eq_outcome filled inTime works,
              ScriptView.extract_eq_outcome (v := v.moved k) filled inTime works']
            exact relabelled

end Scripts

/-! ## Script blocks -/

section Blocks

variable {m : Means} {source : List Char} {r : Region} {k : Nat} {others : List Nat}

/-- The same is told of a script block, but with all lines further down. -/
structure Outcome.IsMoved (k : Nat) (o o' : Outcome) : Prop where
  sections : List.Forall₂ (Extract.IsMoved k) o.sections o'.sections
  issues : o'.issues = o.issues

/-- A section of a script is moved to the lines of a file that has numbers for all of them. -/
theorem shifted_of_extract {v : ScriptView} {text : List Char} {added : AddedLines} {s : Section}
    (member : s ∈ (v.extract text added).sections) {n : Nat}
    (fit : newlines text + 1 + (n + 1) < countBound) : s.shifted (n + 1) = .ok (s.moved n) := by
  obtain ⟨p, f, read, about, -⟩ := exists_isAbout_of_extract member
  have source : p.source.text = text := congrArg Source.text (Parsed.source_ofText read)
  have start := p.source.line_le f.tree.start
  have stop := p.source.line_le f.tree.stop
  rw [source, ← about.startLine] at start
  rw [source, ← about.endLine] at stop
  refine Section.shifted_eq_ok ⟨by omega, by omega, fun l member => ?_⟩
  have below := (about.lines l member).2.2
  omega

/-- A script block tells what its script tells, in the lines of the file. -/
theorem extractRegion_of_known {language : Language} (added : AddedLines)
    (known : Language.ofAttribute? r.lang = some language) {n : Nat} (start : r.startLine = n + 1)
    (fit : newlines r.content + 1 + (n + 1) < countBound) : extractRegion m added r = .ok
      ⟨((blockView m r language).extract r.content
          (added.localize r.startLine)).sections.map (·.moved n),
        ((blockView m r language).extract r.content (added.localize r.startLine)).issues⟩ := by
  rw [extractRegion_eq_ok_iff, known]
  refine ⟨?_, rfl⟩
  rw [List.forall₂_map_right_iff, List.forall₂_same]
  intro s member
  have moved := shifted_of_extract member fit
  rwa [← start] at moved

theorem blockView_moved (m : Means) (language : Language) (first : 0 < r.startLine) :
    blockView m (r.moved k) language = (blockView m r language).moved k := by
  simp only [blockView, ScriptView.ofMeans, ScriptView.moved]
  congr 1
  exact Snippet.Policy.ofConfig_moved m.config first

/-- A script block further down tells the same, further down. -/
theorem exists_isMoved_extractRegion (added : AddedLines) (sits : r.SitsIn source)
    (above : ∀ z ∈ others, z ≤ k) (fit : newlines source + k + 2 < countBound) :
    ∃ o o', extractRegion m added r = .ok o ∧
      extractRegion m (added.moved k others) (r.moved k) = .ok o' ∧ o.IsMoved k o' := by
  obtain ⟨pre, post, whole, start, -⟩ := sits
  have size : newlines source = newlines pre + newlines r.content + newlines post := by
    rw [whole, newlines_append, newlines_append]
  have first : 0 < r.startLine := by omega
  cases known : Language.ofAttribute? r.lang with
  | none =>
      refine ⟨⟨[], []⟩, ⟨[], []⟩, ?_, ?_, ⟨.nil, rfl⟩⟩
      · rw [extractRegion_eq_ok_iff, known]
      · rw [extractRegion_eq_ok_iff, show (r.moved k).lang = r.lang from rfl, known]
  | some language =>
      -- The labels start at the block's first line, so the snippets move as far as the lines do.
      have numbered : (blockView m r language).policy.firstLine = r.startLine :=
        Nat.max_eq_left (show 1 ≤ r.startLine from first)
      have room : newlines r.content + 1 + ((blockView m r language).policy.firstLine + k) <
          countBound := by
        rw [numbered]
        omega
      have relabelled := isRelabelled_extract (added.localize r.startLine) (numbered ▸ first) room
      have told := extractRegion_of_known (m := m) added known start (by omega)
      have movedStart : (r.moved k).startLine = newlines pre + k + 1 := by
        change r.startLine + k = _
        omega
      have told' := extractRegion_of_known (m := m) (r := r.moved k) (added.moved k others) known
        movedStart (by change newlines r.content + 1 + _ < _; omega)
      rw [blockView_moved m language first,
        show (r.moved k).startLine = r.startLine + k from rfl,
        AddedLines.localize_moved added first above] at told'
      refine ⟨_, _, told, told', ?_, relabelled.issues⟩
      rw [List.forall₂_map_left_iff, List.forall₂_map_right_iff]
      refine relabelled.sections.imp fun s t same => ?_
      rw [Extract.IsMoved, moved_moved]
      exact same.moved _

end Blocks

/-! ## Components -/

theorem Outcome.isMoved_flatMap {k : Nat} {os os' : List Outcome}
    (h : List.Forall₂ (Outcome.IsMoved k) os os') :
    List.Forall₂ (Extract.IsMoved k) (os.flatMap Outcome.sections) (os'.flatMap Outcome.sections) ∧
      os'.flatMap Outcome.issues = os.flatMap Outcome.issues := by
  induction h with
  | nil => exact ⟨.nil, rfl⟩
  | cons first _ ih =>
      simp only [List.flatMap_cons]
      exact ⟨List.rel_append first.sections ih.1, by rw [first.issues, ih.2]⟩

/-- The script blocks of a component tell the same further down, one by one. -/
theorem exists_forall₂_isMoved {m : Means} {source : List Char} {rs : List Region} {k : Nat}
    (added : AddedLines) {others : List Nat} (layout : regions source = .ok rs)
    (above : ∀ z ∈ others, z ≤ k) (fit : newlines source + k + 2 < countBound) :
    ∃ os os', List.Forall₂ (fun r o => extractRegion m added r = .ok o)
        (rs.filter (·.kind.isScript)) os ∧
      List.Forall₂ (fun r o => extractRegion m (added.moved k others) r = .ok o)
        ((rs.map (Region.moved k)).filter (·.kind.isScript)) os' ∧
      List.Forall₂ (Outcome.IsMoved k) os os' := by
  have tells : ∀ r ∈ rs.filter (·.kind.isScript), ∃ o o', extractRegion m added r = .ok o ∧
      extractRegion m (added.moved k others) (r.moved k) = .ok o' ∧ o.IsMoved k o' :=
    fun r script => exists_isMoved_extractRegion added
      (sitsIn_of_regions layout r (List.mem_of_mem_filter script)) above fit
  obtain ⟨os, os', told, told', moved⟩ := exists_forall₂_of_forall tells
  have scripts : (rs.map (Region.moved k)).filter (·.kind.isScript) =
      (rs.filter (·.kind.isScript)).map (Region.moved k) := List.filter_map
  refine ⟨os, os', told, ?_, moved⟩
  rw [scripts, List.forall₂_map_left_iff]
  exact told'

/-- The same is told of a component, but with all lines further down: those of its sections, and that
of the tag at fault if its blocks cannot be told apart. -/
structure ComponentOutcome.IsMoved (m : Means) (source : List Char) (k : Nat)
    (o o' : ComponentOutcome) : Prop where
  sections : List.Forall₂ (Extract.IsMoved k) o.sections o'.sections
  metadata : o'.metadata = o.metadata
  issues : (∃ rs, regions source = .ok rs) → o'.issues = o.issues
  layout : m.IsInTime .layout → ∀ e, regions source = .error e →
    o.issues = [.ofLayout e] ∧ o'.issues = [.ofLayout (e.moved k)]
  late : ¬m.IsInTime .layout → o'.issues = o.issues

/-- Behind text without tags the same is told of a component, with all lines further down, whatever
lines of that text are added, as long as the line behind the file's last has a number and another one
behind it. -/
theorem components_move_with_their_lines (m : Means) {above : List Char} (source : List Char)
    (added : AddedLines) {others : List Nat} (untagged : '<' ∉ above)
    (low : ∀ z ∈ others, z ≤ newlines above)
    (fit : newlines (above ++ source) + 2 < countBound) :
    ∃ o o', extractComponent m source added = .ok o ∧
      extractComponent m (above ++ source) (added.moved (newlines above) others) = .ok o' ∧
      o.IsMoved m source (newlines above) o' := by
  have layout' := regions_append untagged source
  rw [newlines_append] at fit
  cases late : m.layoutIssue? with
  | some issue =>
      refine ⟨_, _, extractComponent_eq_ok_iff.mpr (.late late),
        extractComponent_eq_ok_iff.mpr (.late late), .nil, rfl, fun _ => rfl, ?_, fun _ => rfl⟩
      exact fun inTime => absurd inTime (Means.not_isInTime_of_layoutIssue? late)
  | none =>
    have inTime := Means.layoutIssue?_eq_none_iff.mp late
    cases layout : regions source with
    | error e =>
      rw [layout] at layout'
      refine ⟨_, _, extractComponent_eq_ok_iff.mpr (.unclear inTime layout),
        extractComponent_eq_ok_iff.mpr (.unclear inTime layout'), .nil, rfl, ?_, ?_,
        fun late => absurd inTime late⟩
      · rintro ⟨rs, other⟩
        cases layout.symm.trans other
      · intro _ e' same
        obtain rfl := Except.error.inj (layout.symm.trans same)
        exact ⟨rfl, rfl⟩
    | ok rs =>
      rw [layout] at layout'
      obtain ⟨os, os', told, told', moved⟩ := exists_forall₂_isMoved added layout low (by omega)
      obtain ⟨sections, issues⟩ := Outcome.isMoved_flatMap moved
      refine ⟨_, _, extractComponent_eq_ok_iff.mpr (.told inTime layout told),
        extractComponent_eq_ok_iff.mpr (.told inTime layout' told'), ?_, ?_, fun _ => issues, ?_,
        fun _ => issues⟩
      · exact forall₂_mergeSort sections fun _ _ _ _ => precedes_of_isMoved
      · exact congrArg some (metadataOf_map_moved _ rs)
      · intro _ e other
        cases layout.symm.trans other

/-- A component with a function. -/
def buttonText : List Char := "<script>\nfunction press() {}\n</script>\n".toList

/-- The script of the component. -/
def pressTree : Syntax.Tree :=
  .named "program" [] 1 21 [
    .named "function_declaration" [] 1 20 [
      .mark "function" [] 1 9,
      .named "identifier" ["name"] 10 15 [],
      .named "formal_parameters" ["parameters"] 15 17 [
        .mark "(" [] 15 16,
        .mark ")" [] 16 17],
      .named "statement_block" ["body"] 18 20 [
        .mark "\x7b" [] 18 19,
        .mark "\x7d" [] 19 20]]]

/-- The usual settings, and a parser that knows the script and is in time. -/
def buttonMeans : Means :=
  ⟨.default, .ofTree "\nfunction press() {}\n".toList pressTree, fun _ => .ends 0⟩

theorem sections_buttonText : extractComponent buttonMeans buttonText (.ofList [2]) =
    .ok ⟨[⟨.functionDeclaration, "press", 2, 2, [2], "function press() {}", false, .none, none,
      none⟩], [], some ⟨false, true, false, 0, 0⟩⟩ := by
  decide +kernel

/-- Behind two lines of a note the function of the component is told of two lines further down. -/
theorem button_moves_below_a_note :
    '<' ∉ "a note\n\n".toList ∧ (∀ z ∈ [0, 2], z ≤ newlines "a note\n\n".toList) ∧
    newlines ("a note\n\n".toList ++ buttonText) + 2 < countBound ∧
    ∃ o o', extractComponent buttonMeans buttonText (.ofList [2]) = .ok o ∧
      extractComponent buttonMeans ("a note\n\n".toList ++ buttonText)
        ((AddedLines.ofList [2]).moved 2 [0, 2]) = .ok o' ∧
      o.IsMoved buttonMeans buttonText 2 o' ∧ o.sections.map Section.name = ["press"] := by
  have untagged : '<' ∉ "a note\n\n".toList := by decide
  have low : ∀ z ∈ [0, 2], z ≤ newlines "a note\n\n".toList := by decide
  have fit : newlines ("a note\n\n".toList ++ buttonText) + 2 < countBound := by decide
  obtain ⟨o, o', told, told', moved⟩ :=
    components_move_with_their_lines buttonMeans buttonText (.ofList [2]) untagged low fit
  refine ⟨untagged, low, fit, o, o', told, told', moved, ?_⟩
  obtain rfl := Except.ok.inj (sections_buttonText.symm.trans told)
  rfl

end DiffScope.Extract
