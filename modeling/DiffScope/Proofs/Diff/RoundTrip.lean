import Mathlib.Data.List.Basic
import DiffScope.Proofs.Diff.Scan
import DiffScope.Proofs.Diff.Writing

/-! # Written diffs are read back

Reading the text of a written diff gives its hunks with every line numbered and placed as it was
meant. Markers and fillers bring nothing; the counts of the headers say where each hunk ends.
-/

namespace DiffScope.Diff

open DiffScope.Checked DiffScope.Text

/-! ## Lines of the text -/

theorem dropReturn_of_ne {line : List Char} (h : line.getLast? ≠ some '\r') :
    dropReturn line = line :=
  if_neg h

theorem dropReturn_prefix (line : List Char) : dropReturn line <+: line := by
  rw [dropReturn]
  split
  · exact List.dropLast_prefix line
  · exact List.prefix_rfl

theorem getLast?_mark_ne {mark : Char} (other : mark ≠ '\r') (t : LineText) :
    (mark :: t.chars).getLast? ≠ some '\r' := by
  intro last
  cases chars : t.chars with
  | nil =>
      rw [chars] at last
      exact other (Option.some.inj last)
  | cons c cs =>
      rw [chars, List.getLast?_cons_cons, ← chars] at last
      exact t.unreturned last

namespace Change

theorem unbroken_line (c : Change) (isBare : Bool) : '\n' ∉ c.line isBare := by
  have marked (mark : Char) (other : mark ≠ '\n') (t : LineText) : '\n' ∉ mark :: t.chars := by
    rw [List.mem_cons, not_or]
    exact ⟨other.symm, t.unbroken⟩
  cases c with
  | keep t =>
      rw [line]
      split
      · exact List.not_mem_nil
      · exact marked ' ' (by decide) t
  | insert t => exact marked '+' (by decide) t
  | delete t => exact marked '-' (by decide) t

theorem dropReturn_line (c : Change) (isBare : Bool) :
    dropReturn (c.line isBare) = c.line isBare := by
  apply dropReturn_of_ne
  cases c with
  | keep t =>
      rw [line]
      split
      · simp
      · exact getLast?_mark_ne (by decide) t
  | insert t => exact getLast?_mark_ne (by decide) t
  | delete t => exact getLast?_mark_ne (by decide) t

end Change

theorem unbroken_header (h : Header) : '\n' ∉ h.line := by
  have digits (n : Nat) : '\n' ∉ Nat.toDigits 10 n := fun member => by
    cases isDigit_toDigits n _ member
  simp [Header.line, digits]

theorem dropReturn_header (h : Header) : dropReturn h.line = h.line := by
  apply dropReturn_of_ne
  have last : h.line.getLast? = some '@' := by
    simp [Header.line, List.getLast?_append, List.getLast?_cons]
  rw [last]
  decide

theorem unbroken_lines (d : WrittenDiff) : ∀ l ∈ d.lines, '\n' ∉ l := by
  intro l member
  rcases List.mem_append.mp member with member | member
  · obtain ⟨f, -, rfl⟩ := List.mem_map.mp member
    exact f.unbroken
  · obtain ⟨h, -, member⟩ := List.mem_flatMap.mp member
    rcases List.mem_append.mp member with member | member
    · rcases List.mem_cons.mp member with rfl | member
      · exact unbroken_header h.header
      · obtain ⟨b, -, member⟩ := List.mem_flatMap.mp member
        rcases List.mem_cons.mp member with rfl | member
        · exact b.change.unbroken_line b.isBare
        · obtain ⟨m, -, rfl⟩ := List.mem_map.mp member
          simp [m.unbroken]
    · obtain ⟨f, -, rfl⟩ := List.mem_map.mp member
      exact f.unbroken

theorem lines_flatMap {ls : List (List Char)} (unbroken : ∀ l ∈ ls, '\n' ∉ l) :
    lines (ls.flatMap fun l => l ++ ['\n']) = ls.map dropReturn := by
  induction ls with
  | nil => rfl
  | cons l ls ih =>
      obtain ⟨first, rest⟩ := List.forall_mem_cons.mp unbroken
      rw [List.flatMap_cons, List.append_assoc, List.singleton_append,
        lines_append_newline l _ first, ih rest, List.map_cons]

/-- The lines of a written diff are those that it is written as, but for a carriage return at the
end of a marker or a filler. -/
theorem lines_text (d : WrittenDiff) : lines d.text = d.lines.map dropReturn :=
  lines_flatMap (unbroken_lines d)

/-! ## Lines that bring nothing -/

theorem opensHunk_dropReturn {line : List Char} (silent : ¬"@@".toList <+: line) :
    opensHunk (dropReturn line) = false := by
  cases opens : opensHunk (dropReturn line) with
  | false => rfl
  | true =>
      obtain ⟨rest, found⟩ := Option.isSome_iff_exists.mp opens
      obtain ⟨behind, whole⟩ := dropReturn_prefix line
      rw [after?_eq_some_iff.mp found, List.append_assoc] at whole
      exact absurd ⟨rest ++ behind, whole⟩ silent

/-- No hunk is open, or the open one has all its lines. -/
def Idle (cursor : Option Cursor) : Prop :=
  ∀ c, cursor = some c → c.isSpent = true

theorem idle_none : Idle none := nofun

/-- A line that opens no hunk brings nothing where none is to be gone on with. -/
theorem scanStep_of_idle {cursor : Option Cursor} (position : Nat) {line : List Char}
    (idle : Idle cursor) (silent : opensHunk line = false) :
    (scanStep cursor position line).1 = none ∧ Idle (scanStep cursor position line).2 := by
  unfold scanStep
  rw [silent, if_neg Bool.false_ne_true]
  split
  · exact ⟨rfl, idle_none⟩
  · cases cursor with
    | none => exact ⟨rfl, idle_none⟩
    | some c =>
        simp only [idle c rfl, if_true]
        split
        · exact ⟨rfl, idle⟩
        · exact ⟨rfl, idle_none⟩

/-- Fillers bring nothing. -/
theorem scanFrom_fillers {cursor : Option Cursor} (idle : Idle cursor) (position : Nat)
    (fillers : List Filler) (rest : List (List Char)) :
    ∃ behind, Idle behind ∧
      scanFrom cursor position ((fillers.map Filler.chars).map dropReturn ++ rest) =
        scanFrom behind (position + fillers.length) rest := by
  induction fillers generalizing cursor position with
  | nil => exact ⟨cursor, idle, rfl⟩
  | cons f fs ih =>
      obtain ⟨nothing, still⟩ := scanStep_of_idle position idle (opensHunk_dropReturn f.silent)
      obtain ⟨behind, last, run⟩ := ih still (position + 1)
      refine ⟨behind, last, ?_⟩
      rw [List.map_cons, List.map_cons, List.cons_append, scanFrom, nothing, Option.toList_none,
        List.nil_append, run, List.length_cons]
      congr 1
      omega

theorem exists_dropReturn_marker (chars : List Char) :
    ∃ rest, dropReturn ('\\' :: chars) = '\\' :: rest := by
  cases chars with
  | nil => exact ⟨[], rfl⟩
  | cons c cs =>
      rw [dropReturn]
      split
      · exact ⟨(c :: cs).dropLast, List.dropLast_cons_cons⟩
      · exact ⟨c :: cs, rfl⟩

theorem scanStep_marker (c : Cursor) (position : Nat) (chars : List Char) :
    scanStep (some c) position (dropReturn ('\\' :: chars)) = (none, some c) := by
  obtain ⟨rest, marker⟩ := exists_dropReturn_marker chars
  rw [marker]
  rfl

/-- Markers bring nothing and leave the hunk where it is. -/
theorem scanFrom_markers (c : Cursor) (position : Nat) (markers : List Marker)
    (rest : List (List Char)) :
    scanFrom (some c) position ((markers.map fun m => '\\' :: m.chars).map dropReturn ++ rest) =
      scanFrom (some c) (position + markers.length) rest := by
  induction markers generalizing position with
  | nil => rfl
  | cons m ms ih =>
      rw [List.map_cons, List.map_cons, List.cons_append, scanFrom, scanStep_marker,
        Option.toList_none, List.nil_append, ih, List.length_cons]
      congr 1
      omega

/-! ## Lines of hunks -/

/-- Where a hunk is when certain lines of the files are next and so many are left. -/
def cursorAt (next left : Side → Nat) : Cursor :=
  ⟨next .old, next .new, left .old, left .new⟩

theorem countOn_cons (s : Side) (b : BodyLine) (bs : List BodyLine) :
    countOn s (b :: bs) = countOn s bs + if b.change.isOn s then 1 else 0 :=
  List.countP_cons

/-- Every line of a hunk is in one of the files. -/
theorem isSpent_cons (next : Side → Nat) (b : BodyLine) (bs : List BodyLine) :
    (cursorAt next fun s => countOn s (b :: bs)).isSpent = false := by
  simp only [cursorAt, Cursor.isSpent, countOn_cons]
  cases b.change with
  | keep t => simp [Change.isOn]
  | insert t => simp [Change.isOn]
  | delete t => simp [Change.isOn]

theorem isSpent_nil (next : Side → Nat) : (cursorAt next fun s => countOn s []).isSpent = true :=
  rfl

theorem pass_line (next : Side → Nat) (b : BodyLine) (bs : List BodyLine) (position : Nat) :
    (cursorAt next fun s => countOn s (b :: bs)).pass position (b.change.line b.isBare) =
      (⟨position, b.change.roleAt next, String.ofList b.change.text.chars⟩,
        cursorAt (b.change.behind next) fun s => countOn s bs) := by
  simp only [cursorAt, countOn_cons]
  cases b.change with
  | insert t => rfl
  | delete t => rfl
  | keep t =>
      rw [Change.line]
      by_cases bare : (b.isBare && t.chars.isEmpty) = true
      · rw [if_pos bare, Cursor.pass_context (by simp) (by simp)]
        rw [Bool.and_eq_true, List.isEmpty_iff] at bare
        simp only [Change.text, bare.2]
        rfl
      · rw [if_neg bare, Cursor.pass_context (by simp) (by simp)]
        rfl

/-- A line of a hunk that is not at its end is taken for such. -/
theorem scanStep_line {c : Cursor} (live : c.isSpent = false) (position : Nat) (change : Change)
    (isBare : Bool) :
    scanStep (some c) position (change.line isBare) =
      (some (.line (c.pass position (change.line isBare)).1),
        some (c.pass position (change.line isBare)).2) := by
  have plain (line : List Char) (opens : opensHunk line = false)
      (file : (after? "diff --git".toList line).isSome = false) (mark : line.head? ≠ some '\\') :
      scanStep (some c) position line =
        (some (.line (c.pass position line).1), some (c.pass position line).2) := by
    unfold scanStep
    rw [opens, file]
    simp only [Bool.false_eq_true, if_false, mark, live]
  cases change with
  | insert t => exact plain _ rfl rfl (by simp [Change.line])
  | delete t => exact plain _ rfl rfl (by simp [Change.line])
  | keep t =>
      rw [Change.line]
      split
      · exact plain _ rfl rfl (by simp)
      · exact plain _ rfl rfl (by simp)

/-- The lines of a hunk are read one for one, up to the end that its counts say. -/
theorem scanFrom_body (position : Nat) (next : Side → Nat) (body : List BodyLine)
    (rest : List (List Char)) :
    ∃ behind,
      scanFrom (some (cursorAt next fun s => countOn s body)) position
          ((body.flatMap BodyLine.lines).map dropReturn ++ rest) =
        (entriesFrom position next body).map Event.line ++
          scanFrom (some (cursorAt behind fun s => countOn s []))
            (position + (body.flatMap BodyLine.lines).length) rest := by
  induction body generalizing position next with
  | nil => exact ⟨next, rfl⟩
  | cons b bs ih =>
      obtain ⟨behind, run⟩ := ih (position + b.lines.length) (b.change.behind next)
      refine ⟨behind, ?_⟩
      have markers : position + 1 + b.markers.length = position + b.lines.length := by
        simp only [BodyLine.lines, List.length_cons, List.length_map]
        omega
      rw [List.flatMap_cons, List.map_append, List.append_assoc, BodyLine.lines, List.map_cons,
        Change.dropReturn_line, List.cons_append, scanFrom,
        scanStep_line (isSpent_cons next b bs), pass_line]
      simp only [Option.toList_some]
      rw [scanFrom_markers, markers, run, entriesFrom, List.map_cons, List.length_append,
        Nat.add_assoc]
      rfl

end DiffScope.Diff
