import Mathlib.Data.List.Induction
import Mathlib.Data.String.Basic
import DiffScope.Extract.File
import DiffScope.Proofs.Diff.Scan

/-! # Results of a batch

Results are kept under their paths, each path once and in order. A batch comes to an end exactly
when each of its diffs can be read, and then there is, under every path, the result of the last
change to that path and of nothing else.
-/

namespace DiffScope.Extract

open DiffScope.Checked DiffScope.Diff DiffScope.Project DiffScope.Report

namespace Results

/-- Each path has one result, and the paths are in order. -/
def Ascending (rs : Results) : Prop := rs.Pairwise fun a b => a.1 < b.1

variable {rs : Results} {path name : String} {result r : Result}

theorem ne_of_least (least : ∀ entry ∈ rs, path < entry.1) (member : (name, r) ∈ rs) :
    name ≠ path :=
  fun same => lt_irrefl path (same ▸ least _ member)

theorem mem_insert (ascending : rs.Ascending) :
    (name, r) ∈ rs.insert path result ↔
      name = path ∧ r = result ∨ name ≠ path ∧ (name, r) ∈ rs := by
  induction rs with
  | nil => simp [insert]
  | cons entry rest ih =>
      obtain ⟨p, q⟩ := entry
      obtain ⟨least, ascending⟩ := List.pairwise_cons.mp ascending
      rw [insert]
      split
      next before =>
        have all : ∀ entry ∈ (p, q) :: rest, path < entry.1 :=
          List.forall_mem_cons.mpr ⟨before, fun entry among => before.trans (least entry among)⟩
        rw [List.mem_cons, Prod.mk.injEq]
        exact or_congr_right ⟨fun among => ⟨ne_of_least all among, among⟩, fun h => h.2⟩
      next =>
        split
        next same =>
          have apart : (name, r) ∈ rest → name ≠ p := ne_of_least least
          simp only [List.mem_cons, Prod.mk.injEq]
          grind
        next other =>
          simp only [List.mem_cons, Prod.mk.injEq, ih ascending]
          grind

theorem Ascending.insert (ascending : rs.Ascending) (path : String) (result : Result) :
    (rs.insert path result).Ascending := by
  induction rs with
  | nil => exact List.pairwise_singleton _ _
  | cons entry rest ih =>
      obtain ⟨p, q⟩ := entry
      obtain ⟨least, rising⟩ := List.pairwise_cons.mp ascending
      rw [Results.insert]
      split
      next before =>
        refine List.pairwise_cons.mpr ⟨fun other among => ?_, ascending⟩
        rcases List.mem_cons.mp among with rfl | among
        · exact before
        · exact lt_trans before (least other among)
      next notBefore =>
        split
        next same =>
          subst same
          exact List.pairwise_cons.mpr ⟨least, rising⟩
        next other =>
          refine List.pairwise_cons.mpr ⟨fun entry among => ?_, ih rising⟩
          rcases (mem_insert rising).mp among with ⟨same, -⟩ | ⟨-, among⟩
          · rw [same]
            exact lt_of_le_of_ne (not_lt.mp notBefore) fun same => other same.symm
          · exact least entry among

end Results

namespace Workspace

variable {w : Workspace} {path : Path} {diff : List Char} {r : Result} {rs : Results}
variable {changes : List (Path × List Char)}

/-- The result for a file is there exactly when its diff can be read. -/
theorem extractDiff_eq_ok_iff : w.extractDiff path diff = .ok r ↔
    Numbered diff ∧ r = w.extractFile path (addedBy diff) := by
  rw [extractDiff, bind_eq_ok]
  constructor
  · rintro ⟨added, found, same⟩
    obtain ⟨numbered, rfl⟩ := ofDiff_eq_ok_iff.mp found
    exact ⟨numbered, (Except.ok.inj same).symm⟩
  · rintro ⟨numbered, rfl⟩
    exact ⟨_, ofDiff_eq_ok_iff.mpr ⟨numbered, rfl⟩, rfl⟩

theorem extractDiff_eq_ok (w : Workspace) (path : Path) (numbered : Numbered diff) :
    w.extractDiff path diff = .ok (w.extractFile path (addedBy diff)) :=
  extractDiff_eq_ok_iff.mpr ⟨numbered, rfl⟩

theorem extractMany_nil : w.extractMany [] = .ok [] := rfl

/-- One more change puts its result among those of the changes before it. -/
theorem extractMany_concat {change : Path × List Char} :
    w.extractMany (changes ++ [change]) = .ok rs ↔
      ∃ earlier r, w.extractMany changes = .ok earlier ∧
        w.extractDiff change.1 change.2 = .ok r ∧
        rs = earlier.insert (String.ofList change.1) r := by
  rw [extractMany, List.foldlM_append, bind_eq_ok]
  constructor
  · rintro ⟨earlier, run, last⟩
    obtain ⟨next, last, same⟩ := bind_eq_ok.mp last
    obtain ⟨r, extracts, inserted⟩ := bind_eq_ok.mp last
    obtain rfl := Except.ok.inj inserted
    exact ⟨earlier, r, run, extracts, (Except.ok.inj same).symm⟩
  · rintro ⟨earlier, r, run, extracts, rfl⟩
    exact ⟨earlier, run, bind_eq_ok.mpr ⟨_, bind_eq_ok.mpr ⟨r, extracts, rfl⟩, rfl⟩⟩

/-- A batch comes to an end exactly when each of its diffs can be read. -/
theorem exists_extractMany_eq_ok_iff :
    (∃ rs, w.extractMany changes = .ok rs) ↔ ∀ change ∈ changes, Numbered change.2 := by
  induction changes using List.reverseRecOn with
  | nil => exact ⟨nofun, fun _ => ⟨[], extractMany_nil⟩⟩
  | append_singleton earlier change ih =>
      rw [List.forall_mem_append, List.forall_mem_singleton, ← ih]
      constructor
      · rintro ⟨rs, run⟩
        obtain ⟨before, r, run, extracts, -⟩ := extractMany_concat.mp run
        exact ⟨⟨before, run⟩, (extractDiff_eq_ok_iff.mp extracts).1⟩
      · rintro ⟨⟨before, run⟩, numbered⟩
        exact ⟨_, extractMany_concat.mpr ⟨before, _, run, w.extractDiff_eq_ok _ numbered, rfl⟩⟩

end Workspace

/-- The last change to the file that goes by a name. -/
def lastChange? (changes : List (Path × List Char)) (name : String) : Option (Path × List Char) :=
  changes.reverse.find? fun change => String.ofList change.1 = name

theorem lastChange?_concat (changes : List (Path × List Char)) (change : Path × List Char)
    (name : String) : lastChange? (changes ++ [change]) name =
      if String.ofList change.1 = name then some change else lastChange? changes name := by
  rw [lastChange?, List.reverse_append, List.reverse_singleton, List.singleton_append,
    List.find?_cons]
  by_cases same : String.ofList change.1 = name
  · rw [if_pos same, decide_eq_true same]
  · rw [if_neg same, decide_eq_false same]
    rfl

/-- Under each path there is the result of the last change to that path. -/
structure Collects (w : Workspace) (changes : List (Path × List Char)) (rs : Results) : Prop where
  ascending : rs.Ascending
  entries : ∀ (name : String) (r : Result), (name, r) ∈ rs ↔
    ∃ change, lastChange? changes name = some change ∧ w.extractDiff change.1 change.2 = .ok r

theorem collects_of_extractMany {w : Workspace} {changes : List (Path × List Char)} {rs : Results}
    (h : w.extractMany changes = .ok rs) : Collects w changes rs := by
  induction changes using List.reverseRecOn generalizing rs with
  | nil =>
      obtain rfl := Except.ok.inj h
      exact ⟨.nil, by simp [lastChange?]⟩
  | append_singleton earlier change ih =>
      obtain ⟨before, r, run, extracts, rfl⟩ := Workspace.extractMany_concat.mp h
      obtain ⟨ascending, entries⟩ := ih run
      refine ⟨ascending.insert _ _, fun name x => ?_⟩
      rw [Results.mem_insert ascending, entries, lastChange?_concat]
      by_cases same : String.ofList change.1 = name
      · subst same
        simp [extracts, eq_comm]
      · simp [same, Ne.symm same]

end DiffScope.Extract
