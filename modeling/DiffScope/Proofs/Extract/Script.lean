import DiffScope.Extract.Script

/-! # The work on a script

What is told of a script is what its work comes to, if the work is done by the deadline: a tree is read
of the text, searched and told of. Otherwise one thing is told: why not.
-/

namespace DiffScope.Extract

open DiffScope.Diff DiffScope.Report DiffScope.Syntax

namespace Course

variable {α : Type} {milliseconds : Nat} {stage : String} {work : Except Overflow α} {course : Course}

/-- A stage comes to its end by a deadline. -/
def IsInTime (milliseconds : Nat) (course : Course) : Prop :=
  ∃ time ≤ milliseconds, course = .ends time

theorem issue?_eq_none_iff : course.issue? milliseconds stage = none ↔
    course.IsInTime milliseconds := by
  cases course <;> simp [issue?, IsInTime]

/-- A stage that does not come to its end by a deadline is late, or it broke off. -/
theorem eq_of_issue? {issue : Issue} (h : course.issue? milliseconds stage = some issue) :
    issue = .timeout stage milliseconds ∨ ∃ reason, issue = broken stage reason := by
  cases course with
  | ends time =>
      rw [issue?] at h
      split at h
      · cases h
      · exact .inl (Option.some.inj h).symm
  | endless => exact .inl (Option.some.inj h).symm
  | breaks reason => exact .inr ⟨reason, (Option.some.inj h).symm⟩

theorem isWarning_of_issue? {issue : Issue} (h : course.issue? milliseconds stage = some issue) :
    issue.isWarning = false := by
  rcases eq_of_issue? h with rfl | ⟨reason, rfl⟩ <;> rfl

theorem await_of_issue? {issue : Issue} (h : course.issue? milliseconds stage = some issue) :
    course.await milliseconds stage work = .error issue := by
  rw [await, h]

theorem await_of_isInTime (inTime : course.IsInTime milliseconds) :
    course.await milliseconds stage work = work.mapError fun e => broken stage e.message := by
  rw [await, issue?_eq_none_iff.mpr inTime]

end Course

/-- The stage comes to its end by the deadline that is set. -/
def Means.IsInTime (m : Means) (stage : Stage) : Prop :=
  (m.course stage).IsInTime m.config.timeoutMs

namespace ScriptView

variable {v : ScriptView} {text : List Char} {added : AddedLines} {outcome : Outcome}

/-- The work on a script comes to what is told of its tree, or says that it is not read or searched. -/
theorem work_eq_ok_ok_iff : v.work text added = .ok (.ok outcome) ↔
    ∃ p, Parsed.ofText v.parser v.language text = .ok p ∧ v.analyze p added = .ok (.ok outcome) := by
  unfold work
  cases Parsed.ofText v.parser v.language text <;> simp

theorem analyze_eq_ok_ok_iff {p : Parsed} : v.analyze p added = .ok (.ok outcome) ↔
    (v.find p added).failure? = none ∧ v.tell p added (v.find p added) = .ok outcome := by
  unfold analyze
  dsimp only
  cases (v.find p added).failure? with
  | some reason => simp
  | none => cases v.tell p added (v.find p added) <;> simp [Except.map]

theorem analyze_eq_ok_error_iff {p : Parsed} {issue : Issue} :
    v.analyze p added = .ok (.error issue) ↔
      ∃ reason, (v.find p added).failure? = some reason ∧ issue = .traverse reason := by
  unfold analyze
  dsimp only
  cases (v.find p added).failure? with
  | some reason => simp [eq_comm]
  | none => cases v.tell p added (v.find p added) <;> simp [Except.map]

/-- What is told instead of a script's sections: that its text is not read or its tree not searched. -/
theorem work_eq_ok_error_iff {issue : Issue} : v.work text added = .ok (.error issue) ↔
    (∃ reason, Parsed.ofText v.parser v.language text = .error reason ∧ issue = .parse reason) ∨
    ∃ p, Parsed.ofText v.parser v.language text = .ok p ∧
      ∃ reason, (v.find p added).failure? = some reason ∧ issue = .traverse reason := by
  unfold work
  cases Parsed.ofText v.parser v.language text with
  | error reason => simp [eq_comm]
  | ok p => simp [analyze_eq_ok_error_iff]

section Exits

variable (filled : added.isEmpty = false)

include filled

/-- Of a script whose work is late or broke off nothing is told but that. -/
theorem extract_of_issue? {issue : Issue} (late : v.course.issue? v.timeoutMs "parse" = some issue) :
    v.extract text added = ⟨[], [issue]⟩ := by
  rw [extract, filled, if_neg Bool.false_ne_true, Course.await_of_issue? late]

variable (inTime : v.course.IsInTime v.timeoutMs)

include inTime

/-- What the work on a script comes to by the deadline is what is told of it. -/
theorem extract_eq_outcome (works : v.work text added = .ok (.ok outcome)) :
    v.extract text added = outcome := by
  rw [extract, filled, if_neg Bool.false_ne_true, Course.await_of_isInTime inTime, works]
  rfl

/-- Of a script that is not read or not searched nothing is told but why. -/
theorem extract_eq_error {issue : Issue} (works : v.work text added = .ok (.error issue)) :
    v.extract text added = ⟨[], [issue]⟩ := by
  rw [extract, filled, if_neg Bool.false_ne_true, Course.await_of_isInTime inTime, works]
  rfl

/-- Of a script for which a count leaves its bound nothing is told but that. -/
theorem extract_eq_broken {e : Overflow} (breaks : v.work text added = .error e) :
    v.extract text added = ⟨[], [Course.broken "parse" e.message]⟩ := by
  rw [extract, filled, if_neg Bool.false_ne_true, Course.await_of_isInTime inTime, breaks]
  rfl

end Exits

/-- Why nothing is told of a script: its work is late or broke off, its text is not read, its tree not
searched, or a count leaves its bound. -/
inductive Fails (v : ScriptView) (text : List Char) (added : AddedLines) : Issue → Prop
  | late {issue : Issue} (late : v.course.issue? v.timeoutMs "parse" = some issue) :
      Fails v text added issue
  | unread {reason : String} (inTime : v.course.IsInTime v.timeoutMs)
      (unread : Parsed.ofText v.parser v.language text = .error reason) :
      Fails v text added (.parse reason)
  | outside {p : Parsed} {reason : String} (inTime : v.course.IsInTime v.timeoutMs)
      (read : Parsed.ofText v.parser v.language text = .ok p)
      (outside : (v.find p added).failure? = some reason) : Fails v text added (.traverse reason)
  | broken {e : Overflow} (inTime : v.course.IsInTime v.timeoutMs)
      (breaks : v.work text added = .error e) : Fails v text added (Course.broken "parse" e.message)

theorem Fails.isWarning {issue : Issue} (h : v.Fails text added issue) : issue.isWarning = false := by
  cases h with
  | late late => exact Course.isWarning_of_issue? late
  | unread | outside | broken => rfl

/-- Of a script that fails nothing is told but why. -/
theorem Fails.extract_eq {issue : Issue} (filled : added.isEmpty = false)
    (h : v.Fails text added issue) : v.extract text added = ⟨[], [issue]⟩ := by
  cases h with
  | late late => exact extract_of_issue? filled late
  | @unread reason inTime unread =>
      exact extract_eq_error filled inTime (work_eq_ok_error_iff.mpr (.inl ⟨reason, unread, rfl⟩))
  | @outside p reason inTime read outside =>
      exact extract_eq_error filled inTime
        (work_eq_ok_error_iff.mpr (.inr ⟨p, read, reason, outside, rfl⟩))
  | broken inTime breaks => exact extract_eq_broken filled inTime breaks

/-- A script with added lines is told of, or it fails. -/
theorem extract_cases (v : ScriptView) (text : List Char) (filled : added.isEmpty = false) :
    (v.course.IsInTime v.timeoutMs ∧ ∃ p, Parsed.ofText v.parser v.language text = .ok p ∧
      v.analyze p added = .ok (.ok (v.extract text added))) ∨ ∃ issue, v.Fails text added issue := by
  cases late : v.course.issue? v.timeoutMs "parse" with
  | some issue => exact .inr ⟨issue, .late late⟩
  | none =>
      have inTime := Course.issue?_eq_none_iff.mp late
      cases works : v.work text added with
      | error e => exact .inr ⟨_, .broken inTime works⟩
      | ok result =>
          cases result with
          | error issue =>
              rcases work_eq_ok_error_iff.mp works with
                ⟨_, unread, rfl⟩ | ⟨_, read, _, outside, rfl⟩
              · exact .inr ⟨_, .unread inTime unread⟩
              · exact .inr ⟨_, .outside inTime read outside⟩
          | ok outcome =>
              rw [extract_eq_outcome filled inTime works]
              exact .inl ⟨inTime, work_eq_ok_ok_iff.mp works⟩

/-- A function that stops behind its text is not told of, and work without an end is not waited for. -/
example :
    let long : Parser := ⟨fun _ text =>
      .ok (.node ⟨"arrow_function", true, false, false, [], 0, text.length + 1⟩ [])⟩
    let view course : ScriptView := ⟨long, course, .javaScript, .plain, 8, 50, .ofConfig .default 1⟩
    (view (.ends 50)).extract "x => x".toList (.ofList [1]) =
        ⟨[], [.traverse "arrow_function at line 1 has a span outside the source"]⟩ ∧
      (view .endless).extract "x => x".toList (.ofList [1]) = ⟨[], [.timeout "parse" 50]⟩ := by
  decide +kernel

/-- Sections are told only of a script that was read and analyzed. -/
theorem sections_extract (v : ScriptView) (text : List Char) (added : AddedLines) :
    (v.extract text added).sections = [] ∨ ∃ p, Parsed.ofText v.parser v.language text = .ok p ∧
      v.analyze p added = .ok (.ok (v.extract text added)) := by
  cases none : added.isEmpty with
  | true =>
      rw [extract, none, if_pos rfl]
      exact .inl rfl
  | false =>
      rcases v.extract_cases text none with ⟨-, told⟩ | ⟨issue, fails⟩
      · exact .inr told
      · rw [fails.extract_eq none]
        exact .inl rfl

end ScriptView

end DiffScope.Extract
