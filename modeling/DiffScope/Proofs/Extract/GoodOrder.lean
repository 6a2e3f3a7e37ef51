import DiffScope.Proofs.Extract.Bounds
import DiffScope.Proofs.Extract.Isolation

/-! # Results are in good order

Whatever path, content and added lines a file has and however the work on it goes, its sections come in
the order of the file and agree with themselves, and what else is told fits together: a script that
fails has one error and nothing else, one that does not has no warnings but that syntax errors were
passed over and that the search was cut short, and a component tells which blocks it has exactly if its
blocks were told apart by the deadline.
-/

namespace DiffScope.Extract

open DiffScope.Checked DiffScope.Component DiffScope.Diff DiffScope.Project DiffScope.Report
open DiffScope.Scope DiffScope.Syntax DiffScope.Text

/-! ## Scripts -/

/-- The warnings about a script that was read: that syntax errors were passed over, and that the search
was cut short. -/
def scriptWarnings (maxDepth : Nat) (faults : Option Nat) (isCut : Bool) : List Issue :=
  (faults.map Issue.syntaxRecovered).toList ++ if isCut then [.depthExceeded maxDepth] else []

/-- A script fails and has one error, or it has only warnings. -/
inductive ScriptTells (v : ScriptView) (text : List Char) (added : AddedLines) : Outcome → Prop
  | failed {issue : Issue} (fails : v.Fails text added issue) : ScriptTells v text added ⟨[], [issue]⟩
  | warned {sections : List Section} (faults : Option Nat) (isCut : Bool) :
      ScriptTells v text added ⟨sections, scriptWarnings v.maxDepth faults isCut⟩

theorem scriptTells_of_analyze {v : ScriptView} {p : Parsed} {text : List Char}
    {added : AddedLines} {outcome : Outcome} (h : v.analyze p added = .ok (.ok outcome)) :
    ScriptTells v text added outcome := by
  obtain ⟨-, selected, -, -, issues⟩ := analyze_eq_ok_iff.mp h
  let faults := if p.isClean then none else some p.faultCount
  let isCut := (v.find p added).isCut
  have told : outcome.issues = scriptWarnings v.maxDepth faults isCut := by
    rw [issues, scriptWarnings]
    cases clean : p.isClean <;> simp [faults, isCut, clean]
  obtain ⟨sections, _⟩ := outcome
  obtain rfl : _ = scriptWarnings v.maxDepth faults isCut := told
  exact .warned faults isCut

theorem scriptTells_extract (v : ScriptView) (text : List Char) (added : AddedLines) :
    ScriptTells v text added (v.extract text added) := by
  cases filled : added.isEmpty with
  | true =>
      rw [ScriptView.extract, filled, if_pos rfl]
      exact .warned none false
  | false =>
      rcases v.extract_cases text filled with ⟨-, p, -, analyzed⟩ | ⟨issue, fails⟩
      · exact scriptTells_of_analyze analyzed
      · rw [fails.extract_eq filled]
        exact .failed fails

theorem filter_scriptWarnings (maxDepth : Nat) (faults : Option Nat) (isCut : Bool) :
    (scriptWarnings maxDepth faults isCut).filter Issue.isWarning =
        scriptWarnings maxDepth faults isCut ∧
      (scriptWarnings maxDepth faults isCut).filter (fun i => !i.isWarning) = [] := by
  cases faults <;> cases isCut <;> exact ⟨rfl, rfl⟩

/-- What is told of a script file fits together. -/
structure ScriptResult (maxDepth : Nat) (r : Result) : Prop where
  failed : r.errors ≠ [] → r.sections = [] ∧ r.warnings = [] ∧ r.errors.length = 1
  warned : r.errors = [] → ∃ faults isCut,
    r.warnings = (scriptWarnings maxDepth faults isCut).map Issue.tag
  component : r.component = none

theorem scriptResult_empty (maxDepth : Nat) (name : String) :
    ScriptResult maxDepth (.empty name) :=
  ⟨fun some => absurd rfl some, fun _ => ⟨none, false, rfl⟩, rfl⟩

theorem failed_of_error (name : String) {issue : Issue} (error : issue.isWarning = false) :
    Result.failed name issue = { Result.empty name with errors := [issue.tag] } :=
  if_neg (Bool.eq_false_iff.mp error)

theorem scriptResult_failed (maxDepth : Nat) (name : String) {issue : Issue}
    (error : issue.isWarning = false) : ScriptResult maxDepth (.failed name issue) := by
  rw [failed_of_error name error]
  exact ⟨fun _ => ⟨rfl, rfl, rfl⟩, fun none => absurd none (List.cons_ne_nil _ _), rfl⟩

/-- The result for a script that was told of. -/
def scriptResultOf (name : String) (outcome : Outcome) : Result :=
  outcome.issues.foldl Result.record
    { Result.empty name with sections := Section.sort outcome.sections }

theorem scriptResultOf_failed (name : String) (issue : Issue) :
    scriptResultOf name ⟨[], [issue]⟩ = .failed name issue := by
  rw [scriptResultOf, show Section.sort [] = [] from List.mergeSort_nil]
  rfl

theorem errors_scriptResultOf_warned (name : String) (sections : List Section) (maxDepth : Nat)
    (faults : Option Nat) (isCut : Bool) :
    (scriptResultOf name ⟨sections, scriptWarnings maxDepth faults isCut⟩).errors = [] := by
  rw [scriptResultOf, Result.errors_foldl_record, (filter_scriptWarnings _ _ _).2]
  rfl

theorem scriptResult_of_scriptTells {v : ScriptView} {text : List Char} {added : AddedLines}
    {outcome : Outcome} (name : String) (h : ScriptTells v text added outcome) :
    ScriptResult v.maxDepth (scriptResultOf name outcome) := by
  cases h with
  | failed fails =>
      rw [scriptResultOf_failed]
      exact scriptResult_failed v.maxDepth name fails.isWarning
  | warned faults isCut =>
      refine ⟨fun some => absurd (errors_scriptResultOf_warned _ _ _ _ _) some,
        fun _ => ⟨faults, isCut, ?_⟩, Result.component_foldl_record _ _⟩
      rw [scriptResultOf, Result.warnings_foldl_record, (filter_scriptWarnings _ _ _).1]
      rfl

/-- How a script file is looked at. -/
abbrev fileView (w : Workspace) (path : Path) (language : Language) : ScriptView :=
  .ofMeans (w.means path) .script language .plain 1

theorem scriptResult_extractFile (w : Workspace) {path : Path} (added : AddedLines)
    {language : Language} (kind : FileKind.ofPath path = .script language) :
    ScriptResult w.config.maxDepth (w.extractFile path added) := by
  have turns := turnsOut_extractFile w path added
  generalize w.extractFile path added = r at turns
  cases turns with
  | unsupported other => cases kind.symm.trans other
  | nothing => exact scriptResult_empty _ _
  | unreadable => exact scriptResult_failed _ _ rfl
  | @told some text r read tells =>
      rw [kind] at tells
      obtain rfl := Except.ok.inj tells
      exact scriptResult_of_scriptTells _
        (scriptTells_extract (fileView w path language) text added)
  | broken some read breaks =>
      rw [kind] at breaks
      cases breaks

/-- A script file with added lines that is read has an error exactly if its script fails, and then that
is all there is to tell. -/
structure ScriptExits (w : Workspace) (path : Path) (language : Language) (added : AddedLines)
    (r : Result) : Prop where
  failed_iff : ∀ text, added.isEmpty = false →
    w.files.readLenient (Path.resolve w.root path) = .ok text →
    (r.errors ≠ [] ↔ ∃ issue, (fileView w path language).Fails text added issue)
  alone : ∀ text issue, added.isEmpty = false →
    w.files.readLenient (Path.resolve w.root path) = .ok text →
    (fileView w path language).Fails text added issue →
    r = { Result.empty (String.ofList path) with errors := [issue.tag] }

theorem scriptExits_extractFile (w : Workspace) {path : Path} (added : AddedLines)
    {language : Language} (kind : FileKind.ofPath path = .script language) :
    ScriptExits w path language added (w.extractFile path added) := by
  let told (text : List Char) : Result :=
    scriptResultOf (String.ofList path) ((fileView w path language).extract text added)
  have extracts : ∀ {text}, added.isEmpty = false →
      w.files.readLenient (Path.resolve w.root path) = .ok text →
      w.extractFile path added = told text := fun filled read =>
    extractFile_of_extractText filled read (by rw [kind]; exact nofun) (by rw [kind]; rfl)
  have alone : ∀ {text issue}, added.isEmpty = false →
      (fileView w path language).Fails text added issue →
      told text = { Result.empty (String.ofList path) with errors := [issue.tag] } := by
    intro text issue filled fails
    rw [← failed_of_error _ fails.isWarning, ← scriptResultOf_failed]
    exact congrArg (scriptResultOf _) (fails.extract_eq filled)
  refine ⟨fun text filled read => ?_, fun text issue filled read fails =>
    (extracts filled read).trans (alone filled fails)⟩
  rw [extracts filled read]
  constructor
  · intro some
    have tells := scriptTells_extract (fileView w path language) text added
    dsimp only [told] at some
    generalize (fileView w path language).extract text added = outcome at tells some
    cases tells with
    | failed fails => exact ⟨_, fails⟩
    | warned => exact absurd (errors_scriptResultOf_warned _ _ _ _ _) some
  · rintro ⟨issue, fails⟩
    rw [alone filled fails]
    exact List.cons_ne_nil _ _

/-! ## Components -/

/-- What is told of a component file fits together: it tells which blocks it has exactly if it has added
lines, was read and its blocks were told apart by the deadline, and if they could not be told apart or
were not in time, there is that error and nothing else. -/
structure ComponentResult (w : Workspace) (path : Path) (added : AddedLines) (r : Result) : Prop where
  told : ∀ m, r.component = some m →
    added.isEmpty = false ∧ (w.means path).IsInTime .layout ∧ ∃ text rs,
      w.files.readLenient (Path.resolve w.root path) = .ok text ∧ regions text = .ok rs ∧
      m = metadataOf rs
  tells : ∀ text rs, added.isEmpty = false → (w.means path).IsInTime .layout →
    w.files.readLenient (Path.resolve w.root path) = .ok text → regions text = .ok rs →
    newlines text + 2 < countBound → r.component = some (metadataOf rs)
  layout : ∀ text e, added.isEmpty = false → (w.means path).IsInTime .layout →
    w.files.readLenient (Path.resolve w.root path) = .ok text → regions text = .error e →
    r = { Result.empty (String.ofList path) with
      errors := ["parse_error: " ++ ("component descriptor: " ++ e.message)] }
  late : ∀ text issue, added.isEmpty = false → (w.means path).layoutIssue? = some issue →
    w.files.readLenient (Path.resolve w.root path) = .ok text →
    r = { Result.empty (String.ofList path) with errors := [issue.tag] }

theorem component_failed (name : String) (issue : Issue) :
    (Result.failed name issue).component = none :=
  Result.component_foldl_record [issue] (.empty name)

/-- The result for a component that was told of. -/
def resultOf (name : String) (outcome : ComponentOutcome) : Result :=
  outcome.issues.foldl Result.record
    { Result.empty name with sections := outcome.sections, component := outcome.metadata }

theorem extractText_component_eq_ok_iff {w : Workspace} {path : Path} {text : List Char}
    {added : AddedLines} {r : Result} : w.extractText path .component text added = .ok r ↔
      ∃ outcome, extractComponent (w.means path) text added = .ok outcome ∧
        r = resultOf (String.ofList path) outcome :=
  bind_eq_ok.trans (exists_congr fun _ => and_congr_right fun _ =>
    ⟨fun h => (Except.ok.inj h).symm, fun h => congrArg _ h.symm⟩)

theorem componentResult_of_extractComponent {w : Workspace} {path : Path} {added : AddedLines}
    {text : List Char} {outcome : ComponentOutcome} (filled : added.isEmpty = false)
    (read : w.files.readLenient (Path.resolve w.root path) = .ok text)
    (told : extractComponent (w.means path) text added = .ok outcome) :
    ComponentResult w path added (resultOf (String.ofList path) outcome) := by
  have once : ∀ {text'}, w.files.readLenient (Path.resolve w.root path) = .ok text' →
      text' = text := fun again => Except.ok.inj (again.symm.trans read)
  cases extractComponent_eq_ok_iff.mp told with
  | @late issue late =>
      have slow := Means.not_isInTime_of_layoutIssue? late
      have only : resultOf (String.ofList path) ⟨[], [issue], none⟩ =
          { Result.empty (String.ofList path) with errors := [issue.tag] } :=
        failed_of_error _ (Course.isWarning_of_issue? late)
      refine ⟨fun m tells => ?_, fun _ _ _ inTime => absurd inTime slow,
        fun _ _ _ inTime => absurd inTime slow, fun _ issue' _ late' _ => ?_⟩
      · rw [only] at tells
        cases tells
      · obtain rfl := Option.some.inj (late.symm.trans late')
        exact only
  | @unclear e inTime broken =>
      refine ⟨nofun, fun text' rs _ _ again layout => ?_, fun text' e' _ _ again broken' => ?_,
        fun _ _ _ late => absurd inTime (Means.not_isInTime_of_layoutIssue? late)⟩
      · obtain rfl := once again
        cases broken.symm.trans layout
      · obtain rfl := once again
        obtain rfl := Except.error.inj (broken.symm.trans broken')
        rfl
  | @told rs outcomes inTime layout each =>
      have metadata : (resultOf (String.ofList path) (gathered rs outcomes)).component =
          some (metadataOf rs) := Result.component_foldl_record _ _
      refine ⟨fun m tells => ?_, fun text' rs' _ _ again layout' _ => ?_,
        fun text' e _ _ again broken => ?_,
        fun _ _ _ late => absurd inTime (Means.not_isInTime_of_layoutIssue? late)⟩
      · exact ⟨filled, inTime, text, rs, read, layout, Option.some.inj (tells.symm.trans metadata)⟩
      · obtain rfl := once again
        obtain rfl := Except.ok.inj (layout.symm.trans layout')
        exact metadata
      · obtain rfl := once again
        cases layout.symm.trans broken

theorem componentResult_extractFile (w : Workspace) {path : Path} (added : AddedLines)
    (kind : FileKind.ofPath path = .component) :
    ComponentResult w path added (w.extractFile path added) := by
  have turns := turnsOut_extractFile w path added
  generalize w.extractFile path added = r at turns
  cases turns with
  | unsupported other => cases kind.symm.trans other
  | nothing none =>
      have empty : added.isEmpty ≠ false := by
        rw [none]
        exact nofun
      exact ⟨nofun, fun _ _ some => absurd some empty, fun _ _ some => absurd some empty,
        fun _ _ some => absurd some empty⟩
  | unreadable some failed =>
      refine ⟨fun m tells => ?_, fun _ _ _ _ read => ?_, fun _ _ _ _ read => ?_,
        fun _ _ _ _ read => ?_⟩
      · cases (component_failed _ _).symm.trans tells
      · cases failed.symm.trans read
      · cases failed.symm.trans read
      · cases failed.symm.trans read
  | told some read tells =>
      rw [kind] at tells
      obtain ⟨outcome, told, rfl⟩ := extractText_component_eq_ok_iff.mp tells
      exact componentResult_of_extractComponent some read told
  | @broken some text e read breaks =>
      rw [kind] at breaks
      -- Only counts break off the work, so none of the last three cases can be.
      have failed : ∀ outcome, ¬ComponentTells (w.means path) text added outcome := by
        intro outcome tells
        have told := extractComponent_eq_ok_iff.mpr tells
        cases breaks.symm.trans (extractText_component_eq_ok_iff.mpr ⟨outcome, told, rfl⟩)
      refine ⟨fun m tells => ?_, fun text' rs _ _ again _ fit => ?_,
        fun text' e' _ inTime again layout => ?_, fun _ issue _ late _ => ?_⟩
      · cases (component_failed _ _).symm.trans tells
      · obtain rfl := Except.ok.inj (read.symm.trans again)
        obtain ⟨outcome, told⟩ := exists_extractComponent_eq_ok (w.means path) added fit
        exact absurd (extractComponent_eq_ok_iff.mp told) (failed outcome)
      · obtain rfl := Except.ok.inj (read.symm.trans again)
        exact absurd (.unclear inTime layout) (failed _)
      · exact absurd (.late late) (failed _)

/-! ## Sections -/

/-- A section is told of a plain script block of a component file. -/
def IsInPlainScript (w : Workspace) (path : Path) (added : AddedLines) (s : Section) : Prop :=
  FileKind.ofPath path = .component ∧ ∃ text rs r outcome,
    w.files.readLenient (Path.resolve w.root path) = .ok text ∧ regions text = .ok rs ∧
    r ∈ rs ∧ r.kind = .script ∧ extractRegion (w.means path) added r = .ok outcome ∧
    s ∈ outcome.sections

theorem coherent_extractFile (w : Workspace) (path : Path) (added : AddedLines) :
    ∀ s ∈ (w.extractFile path added).sections,
      Coherent added s ∧ (s.option ≠ none → IsInPlainScript w path added s) := by
  rcases hasSections_extractFile w path added with none | ⟨text, read, has⟩
  · rw [none]
    intro s member
    cases member
  · generalize kind : FileKind.ofPath path = k at has
    generalize (w.extractFile path added).sections = sections at has
    intro s member
    cases has with
    | script language =>
        obtain ⟨coherent, plain⟩ := coherent_of_extract (Section.mem_sort.mp member)
        exact ⟨coherent, fun option => absurd (plain rfl) option⟩
    | component told =>
        obtain ⟨rs, r, o, layout, block, -, extracts, inside⟩ :=
          exists_block_of_extractComponent told member
        obtain ⟨coherent, plain⟩ := coherent_of_extractRegion extracts s inside
        exact ⟨coherent, fun option => ⟨kind, text, rs, r, o, read, layout, block,
          Decidable.byContradiction fun other => option (plain other), extracts, inside⟩⟩

/-- The result for a file is in good order whatever the file, its added lines, the settings and the
parser are and however the work on it goes: its sections come in order and agree with themselves, only a
plain script block of a component has options to tell of, and what else is told of a script or a
component fits together. Work that is late or breaks off, a script that is not read and a tree that is
not searched each leave one error and nothing else. -/
theorem results_are_in_good_order (w : Workspace) (path : Path) (added : AddedLines) :
    (w.extractFile path added).WellFormed (String.ofList path) ∧
    (∀ s ∈ (w.extractFile path added).sections,
      Coherent added s ∧ (s.option ≠ none → IsInPlainScript w path added s)) ∧
    (∀ language, FileKind.ofPath path = .script language →
      ScriptResult w.config.maxDepth (w.extractFile path added) ∧
      ScriptExits w path language added (w.extractFile path added)) ∧
    (FileKind.ofPath path = .component →
      ComponentResult w path added (w.extractFile path added)) :=
  ⟨wellFormed_extractFile w path added, coherent_extractFile w path added,
    fun _ kind => ⟨scriptResult_extractFile w added kind, scriptExits_extractFile w added kind⟩,
    fun kind => componentResult_extractFile w added kind⟩

/-- A project with a component of two script blocks, in which each stage goes the same way. -/
def cardWorkspace (course : Course) : Workspace where
  files := (Directory.ofFile "Card.vue".toList
    (.file (String.ofList cardText).toUTF8.toList)).files
  root := []
  config := .default
  parser := .builtIn
  course _ _ := course

/-- The component tells which blocks it has, unless telling them apart takes too long. -/
theorem card_is_in_good_order : FileKind.ofPath "Card.vue".toList = .component ∧
    ((cardWorkspace (.ends 0)).extractFile "Card.vue".toList scatteredLines).WellFormed "Card.vue" ∧
    ((cardWorkspace (.ends 0)).extractFile "Card.vue".toList scatteredLines).component =
      some (metadataOf cardBlocks) ∧
    (cardWorkspace .endless).extractFile "Card.vue".toList scatteredLines =
      { Result.empty "Card.vue" with
        errors := ["timeout: component descriptor exceeded 5000ms"] } := by
  have kind : FileKind.ofPath "Card.vue".toList = .component := by decide
  have readable : (cardWorkspace .endless).files.readLenient
      (Path.resolve (cardWorkspace .endless).root "Card.vue".toList) = .ok cardText := by
    decide +kernel
  obtain ⟨wellFormed, -, -, component⟩ :=
    results_are_in_good_order (cardWorkspace (.ends 0)) "Card.vue".toList scatteredLines
  obtain ⟨-, -, -, slow⟩ :=
    results_are_in_good_order (cardWorkspace .endless) "Card.vue".toList scatteredLines
  refine ⟨kind, wellFormed, ?_, ?_⟩
  · exact (component kind).tells cardText cardBlocks rfl ⟨0, Nat.zero_le _, rfl⟩ readable
      regions_cardText (by decide)
  · exact (slow kind).late cardText _ rfl rfl readable

end DiffScope.Extract
