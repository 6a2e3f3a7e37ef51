import DiffScope.Extract.File
import DiffScope.Proofs.Checked
import DiffScope.Proofs.Extract.Script
import DiffScope.Proofs.Report.Result

/-! # What is told of a file

A file has the sections of its script, or those of its script blocks, each in the order of the file.
Nothing else that happens to a file brings sections.
-/

namespace DiffScope.Extract

open DiffScope.Checked DiffScope.Component DiffScope.Diff DiffScope.Project DiffScope.Report
open DiffScope.Scope DiffScope.Syntax

/-! ## Components -/

/-- What script blocks told, put together for the component. -/
def gathered (rs : List Region) (outcomes : List Outcome) : ComponentOutcome :=
  ⟨Section.sort (outcomes.flatMap Outcome.sections), outcomes.flatMap Outcome.issues,
    some (metadataOf rs)⟩

/-- What goes wrong with telling the blocks of a component apart, whatever its text is. -/
def Means.layoutIssue? (m : Means) : Option Issue :=
  (m.course .layout).issue? m.config.timeoutMs "component descriptor"

theorem Means.layoutIssue?_eq_none_iff {m : Means} : m.layoutIssue? = none ↔ m.IsInTime .layout :=
  Course.issue?_eq_none_iff

theorem Means.not_isInTime_of_layoutIssue? {m : Means} {issue : Issue}
    (late : m.layoutIssue? = some issue) : ¬m.IsInTime .layout := by
  rw [← layoutIssue?_eq_none_iff, late]
  exact nofun

/-- A component tells that its blocks were not told apart by the deadline, why they cannot be told
apart, or what its script blocks tell. -/
inductive ComponentTells (m : Means) (source : List Char) (added : AddedLines) :
    ComponentOutcome → Prop
  | late {issue : Issue} (late : m.layoutIssue? = some issue) :
      ComponentTells m source added ⟨[], [issue], none⟩
  | unclear {e : LayoutError} (inTime : m.IsInTime .layout) (layout : regions source = .error e) :
      ComponentTells m source added ⟨[], [.ofLayout e], none⟩
  | told {rs : List Region} {outcomes : List Outcome} (inTime : m.IsInTime .layout)
      (layout : regions source = .ok rs)
      (each : List.Forall₂ (fun r o => extractRegion m added r = .ok o)
        (rs.filter (·.kind.isScript)) outcomes) :
      ComponentTells m source added (gathered rs outcomes)

theorem extractComponent_eq_ok_iff {m : Means} {source : List Char} {added : AddedLines}
    {outcome : ComponentOutcome} :
    extractComponent m source added = .ok outcome ↔ ComponentTells m source added outcome := by
  unfold extractComponent
  cases late : m.layoutIssue? with
  | some issue =>
      rw [Course.await_of_issue? late]
      constructor
      · intro h
        exact Except.ok.inj h ▸ .late late
      · intro tells
        cases tells with
        | late same => rw [Option.some.inj (late.symm.trans same)]
        | unclear inTime => exact absurd inTime (Means.not_isInTime_of_layoutIssue? late)
        | told inTime => exact absurd inTime (Means.not_isInTime_of_layoutIssue? late)
  | none =>
      have inTime := Means.layoutIssue?_eq_none_iff.mp late
      rw [Course.await_of_isInTime inTime]
      cases layout : regions source with
      | error e =>
          constructor
          · intro h
            exact Except.ok.inj h ▸ .unclear inTime layout
          · intro tells
            cases tells with
            | late same => cases late.symm.trans same
            | unclear _ same => rw [Except.error.inj (same.symm.trans layout)]; rfl
            | told _ other => cases other.symm.trans layout
      | ok rs =>
          constructor
          · intro h
            obtain ⟨outcomes, each, h⟩ := bind_eq_ok.mp h
            exact Except.ok.inj h ▸ .told inTime layout (mapM_eq_ok.mp each)
          · intro tells
            cases tells with
            | late same => cases late.symm.trans same
            | unclear _ other => cases other.symm.trans layout
            | told _ same each =>
                obtain rfl := Except.ok.inj (same.symm.trans layout)
                exact bind_eq_ok.mpr ⟨_, mapM_eq_ok.mpr each, rfl⟩

/-- Every section of a component is one of a script block. -/
theorem exists_block_of_extractComponent {m : Means} {source : List Char} {added : AddedLines}
    {outcome : ComponentOutcome} (h : extractComponent m source added = .ok outcome) {s : Section}
    (member : s ∈ outcome.sections) :
    ∃ rs r o, regions source = .ok rs ∧ r ∈ rs ∧ r.kind.isScript = true ∧
      extractRegion m added r = .ok o ∧ s ∈ o.sections := by
  cases extractComponent_eq_ok_iff.mp h with
  | late => cases member
  | unclear => cases member
  | @told rs outcomes _ layout each =>
      obtain ⟨o, told, inside⟩ := List.mem_flatMap.mp (Section.mem_sort.mp member)
      obtain ⟨r, among, extracts⟩ := exists_of_mem_right each told
      obtain ⟨block, script⟩ := List.mem_filter.mp among
      exact ⟨rs, r, o, layout, block, script, extracts, inside⟩

/-! ## Files -/

/-- How the extraction of a file turns out. -/
inductive TurnsOut (w : Workspace) (path : Path) (added : AddedLines) : Result → Prop
  | unsupported (kind : FileKind.ofPath path = .unsupported) (extension : String) :
      TurnsOut w path added (.failed (String.ofList path) (.unsupportedFileType extension))
  | nothing (none : added.isEmpty = true) : TurnsOut w path added (.empty (String.ofList path))
  | unreadable (some : added.isEmpty = false) {e : ReadError}
      (failed : w.files.readLenient (Path.resolve w.root path) = .error e) :
      TurnsOut w path added (.failed (String.ofList path) .fileNotReadable)
  | told (some : added.isEmpty = false) {text : List Char} {r : Result}
      (read : w.files.readLenient (Path.resolve w.root path) = .ok text)
      (tells : w.extractText path (FileKind.ofPath path) text added = .ok r) :
      TurnsOut w path added r
  | broken (some : added.isEmpty = false) {text : List Char} {e : Overflow}
      (read : w.files.readLenient (Path.resolve w.root path) = .ok text)
      (breaks : w.extractText path (FileKind.ofPath path) text added = .error e) :
      TurnsOut w path added (.failed (String.ofList path) (.unexpected e.message))

theorem turnsOut_extractFile (w : Workspace) (path : Path) (added : AddedLines) :
    TurnsOut w path added (w.extractFile path added) := by
  unfold Workspace.extractFile Workspace.route
  split
  next r routed =>
    split at routed
    next kind =>
      obtain rfl := Except.ok.inj routed
      exact .unsupported kind _
    next =>
      split at routed
      next none =>
        obtain rfl := Except.ok.inj routed
        exact .nothing none
      next some =>
        have filled := Bool.not_eq_true _ ▸ some
        split at routed
        next text read => exact .told filled read routed
        next e failed =>
          obtain rfl := Except.ok.inj routed
          exact .unreadable filled failed
  next e routed =>
    split at routed
    next => cases routed
    next =>
      split at routed
      next => cases routed
      next some =>
        split at routed
        next text read => exact .broken (Bool.not_eq_true _ ▸ some) read routed
        next => cases routed

/-- The sections that a text has as a file of its kind. -/
inductive HasSections (m : Means) (added : AddedLines) (text : List Char) :
    FileKind → List Section → Prop
  | script (language : Language) : HasSections m added text (.script language)
      (Section.sort ((ScriptView.ofMeans m .script language .plain 1).extract text added).sections)
  | component {outcome : ComponentOutcome} (told : extractComponent m text added = .ok outcome) :
      HasSections m added text .component outcome.sections

theorem hasSections_of_extractText {w : Workspace} {path : Path} {kind : FileKind}
    {text : List Char} {added : AddedLines} {result : Result}
    (h : w.extractText path kind text added = .ok result) :
    result.sections = [] ∨ HasSections (w.means path) added text kind result.sections := by
  cases kind with
  | script language =>
      obtain rfl := Except.ok.inj h
      rw [Result.sections_foldl_record]
      exact .inr (.script language)
  | component =>
      obtain ⟨outcome, told, h⟩ := bind_eq_ok.mp h
      obtain rfl := Except.ok.inj h
      rw [Result.sections_foldl_record]
      exact .inr (.component told)
  | unsupported =>
      obtain rfl := Except.ok.inj h
      exact .inl rfl

/-- Sections are told only of a file that was read. -/
theorem hasSections_extractFile (w : Workspace) (path : Path) (added : AddedLines) :
    (w.extractFile path added).sections = [] ∨ ∃ text,
      w.files.readLenient (Path.resolve w.root path) = .ok text ∧
      HasSections (w.means path) added text (FileKind.ofPath path)
        (w.extractFile path added).sections := by
  have turns := turnsOut_extractFile w path added
  generalize w.extractFile path added = r at turns ⊢
  cases turns with
  | unsupported => exact .inl (Result.sections_failed _ _)
  | nothing => exact .inl rfl
  | unreadable => exact .inl (Result.sections_failed _ _)
  | told _ read tells =>
      exact (hasSections_of_extractText tells).imp_right fun has => ⟨_, read, has⟩
  | broken => exact .inl (Result.sections_failed _ _)

section Read

variable {w : Workspace} {path : Path} {added : AddedLines} {text : List Char}
variable (filled : added.isEmpty = false)
variable (read : w.files.readLenient (Path.resolve w.root path) = .ok text)

include filled read

/-- The result for a file with added lines that is read is what is told of its text. -/
theorem extractFile_of_extractText {r : Result}
    (supported : FileKind.ofPath path ≠ .unsupported)
    (told : w.extractText path (FileKind.ofPath path) text added = .ok r) :
    w.extractFile path added = r := by
  unfold Workspace.extractFile Workspace.route
  rw [filled, read]
  split
  next r' routed =>
    split at routed
    next kind => exact absurd kind supported
    next => exact Except.ok.inj (routed.symm.trans told)
  next e routed =>
    split at routed
    next kind => exact absurd kind supported
    next => cases routed.symm.trans told

/-- A component with added lines that is read has the sections that are told of its text. -/
theorem sections_extractFile_component {outcome : ComponentOutcome}
    (kind : FileKind.ofPath path = .component)
    (told : extractComponent (w.means path) text added = .ok outcome) :
    (w.extractFile path added).sections = outcome.sections := by
  have tells : w.extractText path (FileKind.ofPath path) text added =
      .ok (outcome.issues.foldl Result.record
        { Result.empty (String.ofList path) with
          sections := outcome.sections, component := outcome.metadata }) := by
    rw [kind]
    exact bind_eq_ok.mpr ⟨outcome, told, rfl⟩
  have supported : FileKind.ofPath path ≠ .unsupported := by
    rw [kind]
    exact nofun
  rw [extractFile_of_extractText filled read supported tells]
  exact Result.sections_foldl_record _ _

end Read

end DiffScope.Extract
