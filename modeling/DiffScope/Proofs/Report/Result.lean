import DiffScope.Report.Result
import DiffScope.Proofs.Report.Section

/-! # Results in good order

A result names its file, has its sections in the order of the file, and has nothing but the tags of
issues among its errors and warnings. Recording an issue keeps that, and leaves the sections alone.
-/

namespace DiffScope.Report

namespace Section

theorem mem_sort {sections : List Section} {s : Section} : s ∈ sort sections ↔ s ∈ sections :=
  List.mem_mergeSort

theorem precedes_iff {a b : Section} : a.precedes b = true ↔
    a.startLine < b.startLine ∨ a.startLine = b.startLine ∧ a.endLine ≤ b.endLine := by
  simp [precedes]

theorem pairwise_sort (sections : List Section) :
    (sort sections).Pairwise fun a b => a.precedes b = true := by
  apply List.pairwise_mergeSort
  · intro a b c ab bc
    rw [precedes_iff] at ab bc ⊢
    omega
  · intro a b
    rw [Bool.or_eq_true, precedes_iff, precedes_iff]
    omega

end Section

namespace Result

/-- A result is in good order for the file at a path. -/
structure WellFormed (path : String) (r : Result) : Prop where
  filePath : r.filePath = path
  ordered : r.sections.Pairwise fun a b => a.precedes b = true
  errors : ∀ t ∈ r.errors, ∃ issue : Issue, issue.isWarning = false ∧ t = issue.tag
  warnings : ∀ t ∈ r.warnings, ∃ issue : Issue, issue.isWarning = true ∧ t = issue.tag

theorem sections_record (r : Result) (issue : Issue) : (r.record issue).sections = r.sections := by
  unfold record
  split <;> rfl

theorem sections_foldl_record (issues : List Issue) (r : Result) :
    (issues.foldl record r).sections = r.sections := by
  induction issues generalizing r with
  | nil => rfl
  | cons issue issues ih => rw [List.foldl_cons, ih, sections_record]

theorem component_foldl_record (issues : List Issue) (r : Result) :
    (issues.foldl record r).component = r.component := by
  induction issues generalizing r with
  | nil => rfl
  | cons issue issues ih =>
      rw [List.foldl_cons, ih, record]
      split <;> rfl

/-- The tags of issues that are more than warnings go behind the errors. -/
theorem errors_foldl_record (issues : List Issue) (r : Result) :
    (issues.foldl record r).errors =
      r.errors ++ (issues.filter fun i => !i.isWarning).map Issue.tag := by
  induction issues generalizing r with
  | nil => exact (List.append_nil _).symm
  | cons issue issues ih =>
      rw [List.foldl_cons, ih, record]
      cases warning : issue.isWarning <;> simp [warning]

/-- The tags of warnings go behind the warnings. -/
theorem warnings_foldl_record (issues : List Issue) (r : Result) :
    (issues.foldl record r).warnings = r.warnings ++ (issues.filter Issue.isWarning).map Issue.tag := by
  induction issues generalizing r with
  | nil => exact (List.append_nil _).symm
  | cons issue issues ih =>
      rw [List.foldl_cons, ih, record]
      cases warning : issue.isWarning <;> simp [warning]

theorem sections_failed (path : String) (issue : Issue) : (failed path issue).sections = [] :=
  sections_record _ issue

theorem wellFormed_empty (path : String) : (empty path).WellFormed path :=
  ⟨rfl, .nil, nofun, nofun⟩

namespace WellFormed

variable {path : String} {r : Result}

theorem record (h : r.WellFormed path) (issue : Issue) : (r.record issue).WellFormed path := by
  unfold Result.record
  split
  next warning =>
    refine ⟨h.filePath, h.ordered, h.errors, fun t member => ?_⟩
    rcases List.mem_append.mp member with member | member
    · exact h.warnings t member
    · exact ⟨issue, warning, List.mem_singleton.mp member⟩
  next error =>
    refine ⟨h.filePath, h.ordered, fun t member => ?_, h.warnings⟩
    rcases List.mem_append.mp member with member | member
    · exact h.errors t member
    · exact ⟨issue, Bool.not_eq_true _ ▸ error, List.mem_singleton.mp member⟩

theorem foldl_record (h : r.WellFormed path) (issues : List Issue) :
    (issues.foldl Result.record r).WellFormed path := by
  induction issues generalizing r with
  | nil => exact h
  | cons issue issues ih => exact ih (h.record issue)

end WellFormed

theorem wellFormed_failed (path : String) (issue : Issue) :
    (failed path issue).WellFormed path :=
  (wellFormed_empty path).record issue

end Result

end DiffScope.Report
