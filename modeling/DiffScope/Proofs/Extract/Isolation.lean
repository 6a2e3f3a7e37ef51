import DiffScope.Proofs.Extract.Batch
import DiffScope.Proofs.Extract.Files

/-! # Failures stay with their file

Whatever goes wrong behind the reading of the diffs ends as a tag on the result of the file that it
goes wrong with, and what is told of a file depends on nothing but its own diff and content. The
reading itself stands before that boundary: a diff that counts up to the bound breaks the batch.
-/

namespace DiffScope.Extract

open DiffScope.Checked DiffScope.Component DiffScope.Diff DiffScope.Project DiffScope.Report

/-! ## Well-formed results -/

theorem ordered_of_extractComponent {m : Means} {source : List Char} {added : AddedLines}
    {outcome : ComponentOutcome} (h : extractComponent m source added = .ok outcome) :
    outcome.sections.Pairwise fun a b => a.precedes b = true := by
  cases extractComponent_eq_ok_iff.mp h with
  | late => exact .nil
  | unclear => exact .nil
  | told => exact Section.pairwise_sort _

theorem wellFormed_extractText {w : Workspace} {path : Path} {kind : FileKind} {text : List Char}
    {added : AddedLines} {r : Result} (h : w.extractText path kind text added = .ok r) :
    r.WellFormed (String.ofList path) := by
  have start := Result.wellFormed_empty (String.ofList path)
  cases kind with
  | script language =>
      obtain rfl := Except.ok.inj h
      refine Result.WellFormed.foldl_record ?_ _
      exact ⟨start.filePath, Section.pairwise_sort _, start.errors, start.warnings⟩
  | component =>
      obtain ⟨outcome, extracts, h⟩ := bind_eq_ok.mp h
      obtain rfl := Except.ok.inj h
      refine Result.WellFormed.foldl_record ?_ _
      exact ⟨start.filePath, ordered_of_extractComponent extracts, start.errors, start.warnings⟩
  | unsupported =>
      obtain rfl := Except.ok.inj h
      exact start

/-- The result for a file is well formed, whatever its content and its added lines are. -/
theorem wellFormed_extractFile (w : Workspace) (path : Path) (added : AddedLines) :
    (w.extractFile path added).WellFormed (String.ofList path) := by
  have turns := turnsOut_extractFile w path added
  generalize w.extractFile path added = r at turns ⊢
  cases turns with
  | unsupported => exact Result.wellFormed_failed _ _
  | nothing => exact Result.wellFormed_empty _
  | unreadable => exact Result.wellFormed_failed _ _
  | told _ _ tells => exact wellFormed_extractText tells
  | broken => exact Result.wellFormed_failed _ _

/-! ## What a result depends on -/

/-- Two workspaces are looked at in the same way and have the same content under a path, and the work
on the file goes in the same way. -/
structure AgreeOn (w w' : Workspace) (path : Path) : Prop where
  root : w'.root = w.root
  config : w'.config = w.config
  parser : w'.parser = w.parser
  course : w'.course path = w.course path
  content : w'.files.lookup (Path.resolve w.root path) = w.files.lookup (Path.resolve w.root path)

namespace AgreeOn

variable {w w' : Workspace} {path : Path}

theorem readLenient (h : AgreeOn w w' path) : w'.files.readLenient (Path.resolve w'.root path) =
    w.files.readLenient (Path.resolve w.root path) := by
  rw [Files.readLenient, Files.readLenient, Files.readBytes, Files.readBytes, h.root, h.content]

theorem means (h : AgreeOn w w' path) : w'.means path = w.means path := by
  rw [Workspace.means, Workspace.means, h.config, h.parser, h.course]

theorem extractText (h : AgreeOn w w' path) (kind : FileKind) (text : List Char)
    (added : AddedLines) :
    w'.extractText path kind text added = w.extractText path kind text added := by
  cases kind with
  | script language => rw [Workspace.extractText, Workspace.extractText, h.means]
  | component => rw [Workspace.extractText, Workspace.extractText, h.means]
  | unsupported => rfl

theorem extractFile (h : AgreeOn w w' path) (added : AddedLines) :
    w'.extractFile path added = w.extractFile path added := by
  have route : w'.route path added = w.route path added := by
    unfold Workspace.route
    rw [h.readLenient]
    simp only [h.extractText]
  rw [Workspace.extractFile, Workspace.extractFile, route]

end AgreeOn

/-- A path occurs once in a batch, with a diff. -/
def OccursOnce (path : Path) (diff : List Char) (changes : List (Path × List Char)) : Prop :=
  ∃ before after, changes = before ++ (path, diff) :: after ∧
    ∀ change ∈ before ++ after, change.1 ≠ path

theorem lastChange?_of_occursOnce {path : Path} {diff : List Char}
    {changes : List (Path × List Char)} (h : OccursOnce path diff changes) :
    lastChange? changes (String.ofList path) = some (path, diff) := by
  obtain ⟨before, after, rfl, others⟩ := h
  have none : after.reverse.find? (fun c => String.ofList c.1 = String.ofList path) = none := by
    rw [List.find?_eq_none]
    intro change member same
    have apart := others change (List.mem_append_right _ (List.mem_reverse.mp member))
    exact apart (String.ofList_injective (of_decide_eq_true same))
  rw [lastChange?, List.reverse_append, List.reverse_cons, List.append_assoc, List.find?_append,
    none, Option.none_or, List.singleton_append, List.find?_cons, decide_eq_true rfl]

theorem exists_lastChange?_iff {changes : List (Path × List Char)} {name : String} :
    (∃ change, lastChange? changes name = some change) ↔
      ∃ change ∈ changes, String.ofList change.1 = name := by
  rw [← Option.isSome_iff_exists, lastChange?, List.find?_isSome]
  simp

/-- A batch has one result for each path, and that of a path which occurs once is the result of
extracting that file alone. -/
theorem Collects.entry_iff {w : Workspace} {changes : List (Path × List Char)} {rs : Results}
    (h : Collects w changes rs) {path : Path} {diff : List Char}
    (once : OccursOnce path diff changes) (r : Result) :
    (String.ofList path, r) ∈ rs ↔ w.extractDiff path diff = .ok r := by
  rw [h.entries, lastChange?_of_occursOnce once]
  constructor
  · rintro ⟨change, found, extracts⟩
    obtain rfl := Option.some.inj found
    exact extracts
  · intro extracts
    exact ⟨(path, diff), rfl, extracts⟩

theorem mem_keys_of_extractMany {w : Workspace} {changes : List (Path × List Char)} {rs : Results}
    (h : w.extractMany changes = .ok rs) (name : String) :
    name ∈ rs.map Prod.fst ↔ ∃ change ∈ changes, String.ofList change.1 = name := by
  have numbered := Workspace.exists_extractMany_eq_ok_iff.mp ⟨rs, h⟩
  have entries := (collects_of_extractMany h).entries name
  rw [← exists_lastChange?_iff, List.mem_map]
  constructor
  · rintro ⟨⟨_, r⟩, member, rfl⟩
    obtain ⟨change, found, -⟩ := (entries r).mp member
    exact ⟨change, found⟩
  · rintro ⟨change, found⟩
    have member := List.mem_reverse.mp (List.mem_of_find?_eq_some found)
    have extracts := w.extractDiff_eq_ok change.1 (numbered change member)
    exact ⟨_, (entries _).mpr ⟨change, found, extracts⟩, rfl⟩

/-- A file is extracted exactly when no line of its diff is numbered up to the bound, and a batch
exactly when that holds of each of its diffs. Then every result is well formed, what breaks off on
the way to it is its only issue, each path has one result, and that of a path which occurs once is
the same in every batch and every workspace that agree on the file. -/
theorem failures_stay_with_their_file (w : Workspace) :
    (∀ path diff, (∃ r, w.extractDiff path diff = .ok r) ↔ Numbered diff) ∧
    (∀ path diff r, w.extractDiff path diff = .ok r → r.WellFormed (String.ofList path) ∧
      ∀ e, w.route path (addedBy diff) = .error e →
        r = .failed (String.ofList path) (.unexpected e.message)) ∧
    (∀ changes, (∃ rs, w.extractMany changes = .ok rs) ↔ ∀ change ∈ changes, Numbered change.2) ∧
    (∀ changes rs, w.extractMany changes = .ok rs →
      (rs.map Prod.fst).Pairwise (· < ·) ∧
      ∀ name, name ∈ rs.map Prod.fst ↔ ∃ change ∈ changes, String.ofList change.1 = name) ∧
    (∀ w' changes changes' path diff rs rs', AgreeOn w w' path →
      OccursOnce path diff changes → OccursOnce path diff changes' →
      w.extractMany changes = .ok rs → w'.extractMany changes' = .ok rs' →
      ∃ r, w.extractDiff path diff = .ok r ∧
        (∀ x, (String.ofList path, x) ∈ rs ↔ x = r) ∧
        ∀ x, (String.ofList path, x) ∈ rs' ↔ x = r) := by
  refine ⟨fun path diff => ?_, fun path diff r h => ?_, fun changes => ?_,
    fun changes rs h => ?_, ?_⟩
  · constructor
    · rintro ⟨r, extracts⟩
      exact (Workspace.extractDiff_eq_ok_iff.mp extracts).1
    · intro numbered
      exact ⟨_, w.extractDiff_eq_ok path numbered⟩
  · obtain ⟨-, rfl⟩ := Workspace.extractDiff_eq_ok_iff.mp h
    refine ⟨wellFormed_extractFile w path _, fun e broken => ?_⟩
    rw [Workspace.extractFile, broken]
  · exact Workspace.exists_extractMany_eq_ok_iff
  · exact ⟨List.pairwise_map.mpr (collects_of_extractMany h).ascending, mem_keys_of_extractMany h⟩
  · intro w' changes changes' path diff rs rs' agree once once' run run'
    obtain ⟨before, after, rfl, -⟩ := id once
    have numbered : Numbered diff :=
      Workspace.exists_extractMany_eq_ok_iff.mp ⟨rs, run⟩ (path, diff) (by simp)
    have same := agree.extractFile (addedBy diff)
    refine ⟨w.extractFile path (addedBy diff), w.extractDiff_eq_ok path numbered,
      fun x => ?_, fun x => ?_⟩
    · rw [(collects_of_extractMany run).entry_iff once, Workspace.extractDiff_eq_ok_iff]
      exact and_iff_right numbered
    · rw [(collects_of_extractMany run').entry_iff once', Workspace.extractDiff_eq_ok_iff, same]
      exact and_iff_right numbered

/-- A diff that adds the line with the last number. -/
def lastLineDiff : List Char := "@@ -0,0 +18446744073709551615,1 @@\n+x\n".toList

/-- The project without files. -/
def emptyWorkspace : Workspace :=
  ⟨Directory.files ⟨[]⟩, [], .default, .builtIn, fun _ _ => .ends 0⟩

/-- A project with a broken script, on which the work does not come to an end. -/
def notesWorkspace : Workspace :=
  ⟨(Directory.ofFile "notes.ts".toList (.file "f(".toUTF8.toList)).files, [], .default, .builtIn,
    fun path _ => if path = "notes.ts".toList then .endless else .ends 0⟩

/-- A diff that adds the script. -/
def notesDiff : List Char := "@@ -0,0 +1 @@\n+f(\n".toList

def logoAlone : List (Path × List Char) := [("logo.png".toList, [])]

def logoBehindNotes : List (Path × List Char) := ("notes.ts".toList, notesDiff) :: logoAlone

/-- The entry of a file is the same whether it is alone or behind a broken script. -/
theorem entry_behind_notes :
    ∃ r rs rs', emptyWorkspace.extractMany logoAlone = .ok rs ∧
      notesWorkspace.extractMany logoBehindNotes = .ok rs' ∧
      ("logo.png", r) ∈ rs ∧ ("logo.png", r) ∈ rs' := by
  obtain ⟨-, -, runs, -, isolated⟩ := failures_stay_with_their_file emptyWorkspace
  obtain ⟨-, -, runs', -, -⟩ := failures_stay_with_their_file notesWorkspace
  have empty : Numbered [] :=
    (ofDiff_eq_ok_iff.mp (show AddedLines.ofDiff [] = .ok .empty by rfl)).1
  have notes : Numbered notesDiff :=
    (ofDiff_eq_ok_iff.mp (show AddedLines.ofDiff notesDiff = .ok (.ofList [1]) by decide)).1
  have numbered : ∀ change ∈ logoAlone, Numbered change.2 := List.forall_mem_singleton.mpr empty
  obtain ⟨rs, run⟩ := (runs logoAlone).mpr numbered
  obtain ⟨rs', run'⟩ := (runs' logoBehindNotes).mpr (List.forall_mem_cons.mpr ⟨notes, numbered⟩)
  have agree : AgreeOn emptyWorkspace notesWorkspace "logo.png".toList :=
    ⟨rfl, rfl, rfl, rfl, rfl⟩
  have alone : OccursOnce "logo.png".toList [] logoAlone := ⟨[], [], rfl, by simp⟩
  have behind : OccursOnce "logo.png".toList [] logoBehindNotes := ⟨[_], [], rfl, by simp⟩
  obtain ⟨r, -, entry, entry'⟩ := isolated _ _ _ _ _ rs rs' agree alone behind run run'
  exact ⟨r, rs, rs', run, run', (entry r).mpr rfl, (entry' r).mpr rfl⟩

/-- Adding the line with the last number breaks off the extraction of a file that would not even be
looked at, and with it that of a batch whose other diff is empty. -/
theorem extraction_breaks_off_at_the_last_number :
    emptyWorkspace.extractDiff "logo.png".toList lastLineDiff = .error .sum ∧
    ∀ rs, emptyWorkspace.extractMany
      [("notes.png".toList, []), ("logo.png".toList, lastLineDiff)] ≠ .ok rs := by
  have broken : AddedLines.ofDiff lastLineDiff = .error .sum := by decide
  constructor
  · rw [Workspace.extractDiff, broken]
    rfl
  · intro rs run
    have numbered := Workspace.exists_extractMany_eq_ok_iff.mp ⟨rs, run⟩
    have last : Numbered lastLineDiff := numbered ("logo.png".toList, lastLineDiff) (by simp)
    cases broken.symm.trans (ofDiff_eq_ok_iff.mpr ⟨last, rfl⟩)

end DiffScope.Extract
