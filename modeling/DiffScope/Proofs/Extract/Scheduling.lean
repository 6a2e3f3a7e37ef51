import Mathlib.Data.List.Sort
import DiffScope.Extract.Schedule
import DiffScope.Proofs.Extract.Isolation
import DiffScope.Proofs.Text.ByteOrder

/-! # Results do not depend on the schedule

Whatever happens next in a batch, every file still waits, is in flight or has a result under its path,
and every result is that of a file under its path. Once each file came to an end, that settles the
results, however many files were handled at a time and in whatever order they came to an end.
-/

namespace DiffScope.Extract

open DiffScope.Checked DiffScope.Diff DiffScope.Project DiffScope.Report DiffScope.Text

namespace Batch

/-- Where the files of a batch are, and whose the results are. -/
structure Accounts (w : Workspace) (changes : List (Path × List Char)) (b : Batch) : Prop where
  waiting : ∀ change ∈ b.waiting, change ∈ changes
  inFlight : ∀ change ∈ b.inFlight, change ∈ changes
  room : b.inFlight.length ≤ w.limit
  ascending : b.results.Ascending
  told : ∀ name r, (name, r) ∈ b.results → ∃ change ∈ changes, String.ofList change.1 = name ∧
    w.extractDiff change.1 change.2 = .ok r
  all : ∀ change ∈ changes, change ∈ b.waiting ∨ change ∈ b.inFlight ∨
    ∃ r, (String.ofList change.1, r) ∈ b.results

section Steps

variable {w : Workspace} {changes : List (Path × List Char)} {b c : Batch} {n : Nat}

theorem accounts_start (w : Workspace) (changes : List (Path × List Char)) :
    Accounts w changes (start changes) where
  waiting := fun _ member => member
  inFlight := nofun
  room := Nat.zero_le _
  ascending := .nil
  told := nofun
  all := fun _ member => .inl member

theorem Accounts.step (h : Accounts w changes b) (step : Step w b c) : Accounts w changes c := by
  cases step with
  | @start change waiting inFlight results room =>
      obtain ⟨first, others⟩ := List.forall_mem_cons.mp h.waiting
      refine ⟨others, ?_, ?_, h.ascending, h.told, fun other member => ?_⟩
      · exact List.forall_mem_append.mpr ⟨h.inFlight, List.forall_mem_singleton.mpr first⟩
      · rw [List.length_append]
        exact room
      · -- The file that is started only changes its place.
        rcases h.all other member with waits | flies | result
        · rcases List.mem_cons.mp waits with rfl | waits
          · exact .inr (.inl (List.mem_append_right _ (List.mem_singleton_self _)))
          · exact .inl waits
        · exact .inr (.inl (List.mem_append_left _ flies))
        · exact .inr (.inr result)
  | @finish change before after waiting results r extracts =>
      have kept : (before ++ after).Sublist (before ++ change :: after) :=
        (List.sublist_cons_self change after).append_left before
      refine ⟨h.waiting, fun other flies => h.inFlight other (kept.subset flies),
        kept.length_le.trans h.room, h.ascending.insert _ _, fun name x entry => ?_,
        fun other member => ?_⟩
      · rcases (Results.mem_insert h.ascending).mp entry with ⟨rfl, rfl⟩ | ⟨-, entry⟩
        · exact ⟨change, h.inFlight change (by simp), rfl, extracts⟩
        · exact h.told name x entry
      · -- An entry that is put in place of another stands under the same path.
        by_cases same : String.ofList other.1 = String.ofList change.1
        · exact .inr (.inr ⟨r, (Results.mem_insert h.ascending).mpr (.inl ⟨same, rfl⟩)⟩)
        · rcases h.all other member with waits | flies | ⟨x, entry⟩
          · exact .inl waits
          · have apart : other ≠ change := fun equal => same (congrArg _ (congrArg _ equal))
            simp only [List.mem_append, List.mem_cons, apart, false_or] at flies
            exact .inr (.inl (List.mem_append.mpr flies))
          · exact .inr (.inr ⟨x, (Results.mem_insert h.ascending).mpr (.inr ⟨same, entry⟩)⟩)

theorem accounts_of_runs (run : Runs w n (start changes) b) : Accounts w changes b := by
  generalize begins : start changes = a at run
  induction run with
  | none => exact begins ▸ accounts_start w changes
  | next _ step ih => exact (ih begins).step step

/-- The steps that are left: a file that waits takes two, and a file in flight one. -/
def due (b : Batch) : Nat := 2 * b.waiting.length + b.inFlight.length

theorem due_of_step (step : Step w b c) : b.due = c.due + 1 := by
  cases step with
  | start =>
      simp only [due, List.length_cons, List.length_append, List.length_nil]
      omega
  | finish =>
      simp only [due, List.length_cons, List.length_append]
      omega

theorem due_of_runs (run : Runs w n (start changes) b) : n + b.due = 2 * changes.length := by
  generalize begins : start changes = a at run
  induction run with
  | none =>
      subst begins
      exact Nat.zero_add _
  | next _ step ih =>
      have left := due_of_step step
      have total := ih begins
      omega

theorem isDone_iff_due : b.IsDone ↔ b.due = 0 := by
  rw [IsDone, due, ← List.length_eq_zero_iff, ← List.length_eq_zero_iff]
  omega

theorem exists_step (accounts : Accounts w changes b)
    (numbered : ∀ change ∈ changes, Numbered change.2) (busy : ¬b.IsDone) : ∃ c, Step w b c := by
  obtain ⟨waiting, inFlight, results⟩ := b
  cases inFlight with
  | cons change inFlight =>
      have extracts := w.extractDiff_eq_ok change.1
        (numbered change (accounts.inFlight change List.mem_cons_self))
      exact ⟨_, .finish [] inFlight extracts⟩
  | nil =>
      cases waiting with
      | nil => exact absurd ⟨rfl, rfl⟩ busy
      | cons change waiting => exact ⟨_, .start (Nat.lt_of_lt_of_le Nat.zero_lt_one (le_max_right _ _))⟩

theorem not_breaks (accounts : Accounts w changes b)
    (numbered : ∀ change ∈ changes, Numbered change.2) : ¬b.Breaks w := by
  rintro ⟨change, flies, e, broken⟩
  have extracts := w.extractDiff_eq_ok change.1 (numbered change (accounts.inFlight change flies))
  cases broken.symm.trans extracts

theorem Runs.cons {a : Batch} (step : Step w a b) (run : Runs w n b c) : Runs w (n + 1) a c := by
  induction run with
  | none => exact .next .none step
  | next _ last ih => exact .next (ih step) last

theorem exists_runs_isDone (accounts : Accounts w changes b)
    (numbered : ∀ change ∈ changes, Numbered change.2) : ∃ c, Runs w b.due b c ∧ c.IsDone := by
  -- The induction is on the steps that are left, of which each step takes one.
  induction left : b.due generalizing b with
  | zero => exact ⟨b, .none, isDone_iff_due.mpr left⟩
  | succ n ih =>
      have busy : ¬b.IsDone := by
        rw [isDone_iff_due, left]
        exact Nat.succ_ne_zero n
      obtain ⟨c, step⟩ := exists_step accounts numbered busy
      obtain ⟨d, run, done⟩ :=
        ih (accounts.step step) (Nat.succ.inj ((due_of_step step).symm.trans left))
      exact ⟨d, run.cons step, done⟩

end Steps

end Batch

/-! ## Results of files that are told alone -/

/-- Changes to the same path are the same. -/
def Alike (changes : List (Path × List Char)) : Prop :=
  ∀ a ∈ changes, ∀ b ∈ changes, a.1 = b.1 → a.2 = b.2

instance (changes : List (Path × List Char)) : Decidable (Alike changes) :=
  inferInstanceAs (Decidable (∀ a ∈ changes, ∀ b ∈ changes, a.1 = b.1 → a.2 = b.2))

theorem Alike.eq_of_name {changes : List (Path × List Char)} (alike : Alike changes)
    {a b : Path × List Char} (inA : a ∈ changes) (inB : b ∈ changes)
    (same : String.ofList a.1 = String.ofList b.1) : a = b :=
  have path := String.ofList_injective same
  Prod.ext path (alike a inA b inB path)

/-- Under each path there is the result of a change to it, and every change has one. -/
structure Completes (w : Workspace) (changes : List (Path × List Char)) (rs : Results) : Prop where
  ascending : rs.Ascending
  told : ∀ name r, (name, r) ∈ rs → ∃ change ∈ changes, String.ofList change.1 = name ∧
    w.extractDiff change.1 change.2 = .ok r
  all : ∀ change ∈ changes, ∃ r, (String.ofList change.1, r) ∈ rs

namespace Completes

variable {w : Workspace} {changes : List (Path × List Char)} {rs rs' : Results}

theorem mem_keys_iff (h : Completes w changes rs) (name : String) :
    name ∈ rs.map Prod.fst ↔ ∃ change ∈ changes, String.ofList change.1 = name := by
  rw [List.mem_map]
  constructor
  · rintro ⟨⟨_, r⟩, entry, rfl⟩
    obtain ⟨change, member, same, -⟩ := h.told _ r entry
    exact ⟨change, member, same⟩
  · rintro ⟨change, member, rfl⟩
    obtain ⟨r, entry⟩ := h.all change member
    exact ⟨_, entry, rfl⟩

theorem entry_iff (h : Completes w changes rs) (alike : Alike changes)
    {change : Path × List Char} (member : change ∈ changes) (r : Result) :
    (String.ofList change.1, r) ∈ rs ↔ w.extractDiff change.1 change.2 = .ok r := by
  have extracts : ∀ {x}, (String.ofList change.1, x) ∈ rs →
      w.extractDiff change.1 change.2 = .ok x := by
    intro x entry
    obtain ⟨other, among, same, extracts⟩ := h.told _ x entry
    obtain rfl := alike.eq_of_name among member same
    exact extracts
  refine ⟨extracts, fun told => ?_⟩
  obtain ⟨x, entry⟩ := h.all change member
  obtain rfl := Except.ok.inj ((extracts entry).symm.trans told)
  exact entry

theorem subset (h : Completes w changes rs) (h' : Completes w changes rs') (alike : Alike changes) :
    rs ⊆ rs' := by
  rintro ⟨name, r⟩ entry
  obtain ⟨change, member, rfl, extracts⟩ := h.told name r entry
  exact (h'.entry_iff alike member r).mpr extracts

/-- There is one way to put the results of alike changes in place. -/
theorem eq (h : Completes w changes rs) (h' : Completes w changes rs') (alike : Alike changes) :
    rs = rs' := by
  have irreflexive : Std.Irrefl fun a b : String × Result => a.1 < b.1 := ⟨fun a => lt_irrefl a.1⟩
  exact h.ascending.eq_of_mem_iff h'.ascending fun _ =>
    ⟨fun entry => h.subset h' alike entry, fun entry => h'.subset h alike entry⟩

end Completes

section Completion

variable {w : Workspace} {changes : List (Path × List Char)}

theorem completes_of_extractMany {rs : Results} (h : w.extractMany changes = .ok rs) :
    Completes w changes rs := by
  have collects := collects_of_extractMany h
  refine ⟨collects.ascending, fun name r entry => ?_, fun change member => ?_⟩
  · obtain ⟨change, found, extracts⟩ := (collects.entries name r).mp entry
    have same := List.find?_some found
    exact ⟨change, List.mem_reverse.mp (List.mem_of_find?_eq_some found), of_decide_eq_true same,
      extracts⟩
  · obtain ⟨⟨_, r⟩, entry, rfl⟩ :=
      List.mem_map.mp ((mem_keys_of_extractMany h _).mpr ⟨change, member, rfl⟩)
    exact ⟨r, entry⟩

theorem Batch.Accounts.completes {b : Batch} (h : Batch.Accounts w changes b) (done : b.IsDone) :
    Completes w changes b.results := by
  refine ⟨h.ascending, h.told, fun change member => ?_⟩
  rcases h.all change member with waits | flies | result
  · rw [done.1] at waits
    cases waits
  · rw [done.2] at flies
    cases flies
  · exact result

end Completion

/-! ## How many files are handled at a time -/

/-- The workspace with so many files handled at a time. -/
def Workspace.withConcurrency (w : Workspace) (files : Nat) : Workspace :=
  { w with config := w.config.set .concurrency files }

theorem extractDiff_withConcurrency (w : Workspace) (files : Nat) (path : Path)
    (diff : List Char) : (w.withConcurrency files).extractDiff path diff = w.extractDiff path diff :=
  rfl

theorem Completes.of_withConcurrency {w : Workspace} {files : Nat}
    {changes : List (Path × List Char)} {rs : Results}
    (h : Completes (w.withConcurrency files) changes rs) : Completes w changes rs where
  ascending := h.ascending
  told := fun name r entry => by
    obtain ⟨change, member, same, extracts⟩ := h.told name r entry
    rw [extractDiff_withConcurrency] at extracts
    exact ⟨change, member, same, extracts⟩
  all := h.all

/-- A batch that came so far goes on until it is done, with these results and no others. -/
structure Batch.OnCourse (w : Workspace) (changes : List (Path × List Char)) (rs : Results)
    (n : Nat) (b : Batch) : Prop where
  room : b.inFlight.length ≤ w.limit
  unbroken : ¬b.Breaks w
  goesOn : ¬b.IsDone → ∃ c, Step w b c
  steps : n + b.due = 2 * changes.length
  completes : ∃ c, Runs w b.due b c ∧ c.IsDone
  ends : b.IsDone → b.results = rs

theorem Batch.onCourse_of_runs {w : Workspace} {files n : Nat} {b : Batch}
    {changes : List (Path × List Char)} {rs : Results} (alike : Alike changes)
    (numbered : ∀ change ∈ changes, Numbered change.2) (completes : Completes w changes rs)
    (run : Runs (w.withConcurrency files) n (start changes) b) :
    OnCourse (w.withConcurrency files) changes rs n b := by
  have accounts := accounts_of_runs run
  exact ⟨accounts.room, not_breaks accounts numbered, exists_step accounts numbered,
    due_of_runs run, exists_runs_isDone accounts numbered,
    fun done => (accounts.completes done).of_withConcurrency.eq completes alike⟩

/-- A batch in which changes to the same path are alike and all diffs can be read has the same results
however many files are handled at a time and whatever happens next: under each path, in the order of
their bytes, what is told of that file alone. -/
theorem results_do_not_depend_on_the_schedule (w : Workspace) {changes : List (Path × List Char)}
    (alike : Alike changes) (numbered : ∀ change ∈ changes, Numbered change.2) :
    ∃ rs : Results, w.extractMany changes = .ok rs ∧
      (rs.map Prod.fst).Pairwise (fun a b => utf8 a < utf8 b) ∧
      (∀ name, name ∈ rs.map Prod.fst ↔ ∃ change ∈ changes, String.ofList change.1 = name) ∧
      (∀ change ∈ changes, ∀ r,
        (String.ofList change.1, r) ∈ rs ↔ w.extractDiff change.1 change.2 = .ok r) ∧
      ∀ files n b, Batch.Runs (w.withConcurrency files) n (.start changes) b →
        Batch.OnCourse (w.withConcurrency files) changes rs n b := by
  obtain ⟨rs, extracts⟩ := (Workspace.exists_extractMany_eq_ok_iff (w := w)).mpr numbered
  have completes := completes_of_extractMany extracts
  have ordered : (rs.map Prod.fst).Pairwise fun a b => utf8 a < utf8 b :=
    List.pairwise_map.mpr (completes.ascending.imp fun before => lt_iff_utf8_lt.mp before)
  exact ⟨rs, extracts, ordered, completes.mem_keys_iff,
    fun _ member => completes.entry_iff alike member,
    fun _ _ _ run => Batch.onCourse_of_runs alike numbered completes run⟩

/-- A batch with a broken script, a picture, and the same change to the script again. -/
def notesTwice : List (Path × List Char) := logoBehindNotes ++ [("notes.ts".toList, notesDiff)]

/-- The picture may come to an end before the script in front of it, and the script behind it too. -/
theorem notes_end_last : Alike notesTwice ∧ (∀ change ∈ notesTwice, Numbered change.2) ∧
    ∃ rs b, notesWorkspace.extractMany notesTwice = .ok rs ∧
      Batch.Runs (notesWorkspace.withConcurrency 2) 6 (.start notesTwice) b ∧
      b.IsDone ∧ b.results = rs := by
  have alike : Alike notesTwice := by decide
  have empty : Numbered [] :=
    (ofDiff_eq_ok_iff.mp (show AddedLines.ofDiff [] = .ok .empty by rfl)).1
  have notes : Numbered notesDiff :=
    (ofDiff_eq_ok_iff.mp (show AddedLines.ofDiff notesDiff = .ok (.ofList [1]) by decide)).1
  have numbered : ∀ change ∈ notesTwice, Numbered change.2 :=
    List.forall_mem_cons.mpr ⟨notes, List.forall_mem_cons.mpr ⟨empty,
      List.forall_mem_singleton.mpr notes⟩⟩
  have script := (notesWorkspace.withConcurrency 2).extractDiff_eq_ok "notes.ts".toList notes
  have picture := (notesWorkspace.withConcurrency 2).extractDiff_eq_ok "logo.png".toList empty
  have run := Batch.Runs.none (w := notesWorkspace.withConcurrency 2) (b := .start notesTwice)
    |>.next (.start (by decide)) |>.next (.start (by decide))
    |>.next (.finish [("notes.ts".toList, notesDiff)] [] picture) |>.next (.start (by decide))
    |>.next (.finish [("notes.ts".toList, notesDiff)] [] script) |>.next (.finish [] [] script)
  obtain ⟨rs, extracts, -, -, -, courses⟩ :=
    results_do_not_depend_on_the_schedule notesWorkspace alike numbered
  exact ⟨alike, numbered, rs, _, extracts, run, ⟨rfl, rfl⟩, (courses 2 6 _ run).ends ⟨rfl, rfl⟩⟩

end DiffScope.Extract
