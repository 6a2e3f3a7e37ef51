import Mathlib.Data.List.Nodup
import DiffScope.Proofs.Diff.Hunks
import DiffScope.Proofs.Diff.RoundTrip

/-! # A read diff means what was written

The map that is read of a written diff has the hunks that were meant. So its added lines are the
numbers of the inserted lines, and where no two hunks have lines of one number, the text of a line
is found under its number.
-/

namespace DiffScope.Diff

open DiffScope.Checked DiffScope.Text

/-! ## The map -/

theorem WrittenHunk.bounded_header (h : WrittenHunk) : h.header.Bounded := by
  have old := h.bounded .old
  have new := h.bounded .new
  refine ⟨?_, ?_, ?_, ?_⟩
  all_goals simp only [header]; omega

theorem scanStep_header (cursor : Option Cursor) (position : Nat) (h : WrittenHunk) :
    scanStep cursor position h.header.line =
      (some (.opening h.header), some (cursorAt h.start fun s => countOn s h.body)) := by
  unfold scanStep
  rw [Header.opensHunk_line, if_pos rfl, Header.ofLine?_line h.bounded_header]
  rfl

/-- Hunks are read one behind another, whatever stands between them. -/
theorem scanFrom_hunks {cursor : Option Cursor} (idle : Idle cursor) (position : Nat)
    (hunks : List WrittenHunk) :
    scanFrom cursor position ((hunks.flatMap WrittenHunk.lines).map dropReturn) =
      (hunksFrom position hunks).flatMap eventsOf := by
  induction hunks generalizing cursor position with
  | nil => rfl
  | cons h hs ih =>
      obtain ⟨next, body⟩ := scanFrom_body (position + 1) h.start h.body
        ((h.fillers.map Filler.chars).map dropReturn ++
          (hs.flatMap WrittenHunk.lines).map dropReturn)
      have spent : Idle (some (cursorAt next fun s => countOn s [])) := by
        rintro c same
        obtain rfl := Option.some.inj same
        exact isSpent_nil next
      obtain ⟨behind, still, fillers⟩ := scanFrom_fillers spent
        (position + 1 + (h.body.flatMap BodyLine.lines).length) h.fillers
        ((hs.flatMap WrittenHunk.lines).map dropReturn)
      have length : position + 1 + (h.body.flatMap BodyLine.lines).length + h.fillers.length =
          position + h.lines.length := by
        simp only [WrittenHunk.lines, List.length_cons, List.length_append, List.length_map]
        omega
      rw [List.flatMap_cons, List.map_append, WrittenHunk.lines, List.map_append, List.map_cons,
        dropReturn_header, List.append_assoc, List.cons_append, scanFrom, scanStep_header]
      simp only [Option.toList_some]
      rw [body, fillers, length, ih still, hunksFrom, List.flatMap_cons, eventsOf]
      rfl

theorem scan_text (d : WrittenDiff) : scan d.text = d.meant.flatMap eventsOf := by
  obtain ⟨behind, still, fillers⟩ := scanFrom_fillers idle_none 1 d.preamble
    ((d.hunks.flatMap WrittenHunk.lines).map dropReturn)
  rw [scan, lines_text, WrittenDiff.lines, List.map_append, fillers, scanFrom_hunks still]
  rfl

theorem behind_add_countOn (next : Side → Nat) (b : BodyLine) (bs : List BodyLine) (s : Side) :
    b.change.behind next s + countOn s bs = next s + countOn s (b :: bs) := by
  rw [Change.behind, countOn_cons]
  omega

theorem fits_entriesFrom {position : Nat} {next : Side → Nat} {body : List BodyLine}
    (bounded : ∀ s, next s + countOn s body < countBound) :
    ∀ e ∈ entriesFrom position next body, e.role.Fits := by
  induction body generalizing position next with
  | nil => exact nofun
  | cons b bs ih =>
      have rest : ∀ s, b.change.behind next s + countOn s bs < countBound := fun s => by
        rw [behind_add_countOn]
        exact bounded s
      refine List.forall_mem_cons.mpr ⟨?_, ih rest⟩
      have old := bounded .old
      have new := bounded .new
      rw [countOn_cons] at old new
      cases change : b.change with
      | keep t =>
          rw [change] at old new
          simp only [Change.isOn, if_true] at old new
          constructor <;> omega
      | insert t =>
          rw [change] at new
          simp only [Change.isOn, if_true] at new
          change next .new + 1 < countBound
          omega
      | delete t =>
          rw [change] at old
          simp only [Change.isOn, if_true] at old
          change next .old + 1 < countBound
          omega

theorem fits_hunksFrom (position : Nat) (hunks : List WrittenHunk) :
    ∀ e ∈ (hunksFrom position hunks).flatMap eventsOf, e.Fits := by
  induction hunks generalizing position with
  | nil => exact nofun
  | cons h hs ih =>
      rw [hunksFrom, List.flatMap_cons]
      refine List.forall_mem_append.mpr ⟨?_, ih _⟩
      refine List.forall_mem_cons.mpr ⟨trivial, ?_⟩
      rw [List.forall_mem_map]
      exact fits_entriesFrom h.bounded

/-- What is read of a written diff is what was meant. -/
theorem ofDiff_text (d : WrittenDiff) : LineMap.ofDiff d.text = .ok ⟨d.meant⟩ := by
  have numbered : Numbered d.text := by
    rw [Numbered, scan_text]
    exact fits_hunksFrom _ d.hunks
  exact LineMap.ofDiff_eq_ok_iff.mpr ⟨numbered, by rw [hunksIn_eq (scan_text d)]⟩

/-! ## Numbers of lines -/

/-- Number of a line in the file on a side. -/
def Role.lineOn? : Side → Role → Option Nat
  | .old => Role.oldLine?
  | .new => Role.newLine?

/-- Number and text of a line that is in the file on a side. -/
def Entry.shownOn? (s : Side) (e : Entry) : Option (Nat × String) :=
  (e.role.lineOn? s).map (·, e.text)

theorem lineOn?_roleAt (c : Change) (next : Side → Nat) (s : Side) :
    (c.roleAt next).lineOn? s = if c.isOn s then some (next s) else none := by
  cases c with
  | keep t => cases s <;> rfl
  | insert t => cases s <;> rfl
  | delete t => cases s <;> rfl

/-- On either side the lines of a hunk are numbered one behind another. -/
theorem filterMap_shownOn?_entriesFrom (s : Side) (position : Nat) (next : Side → Nat)
    (body : List BodyLine) :
    (entriesFrom position next body).filterMap (Entry.shownOn? s) =
      (((body.map BodyLine.change).filter (Change.isOn s)).zipIdx (next s)).map
        fun c => (c.2, String.ofList c.1.text.chars) := by
  induction body generalizing position next with
  | nil => rfl
  | cons b bs ih =>
      rw [entriesFrom, List.filterMap_cons, ih, Entry.shownOn?, lineOn?_roleAt, List.map_cons,
        List.filter_cons, Change.behind]
      cases b.change.isOn s with
      | true => simp
      | false => simp

theorem filterMap_shownOn?_hunksFrom (s : Side) (position : Nat) (hunks : List WrittenHunk) :
    ((hunksFrom position hunks).flatMap Hunk.entries).filterMap (Entry.shownOn? s) =
      (hunks.flatMap fun h => h.numberedOn s).map
        fun c => (c.2, String.ofList c.1.text.chars) := by
  induction hunks generalizing position with
  | nil => rfl
  | cons h hs ih =>
      rw [hunksFrom, List.flatMap_cons, List.filterMap_append, ih, List.flatMap_cons,
        List.map_append, filterMap_shownOn?_entriesFrom]
      rfl

/-- Added lines are the inserted ones. -/
theorem filterMap_addedLine?_entriesFrom (position : Nat) (next : Side → Nat)
    (body : List BodyLine) :
    ((entriesFrom position next body).filterMap fun e => e.role.addedLine?) =
      ((((body.map BodyLine.change).filter (Change.isOn .new)).zipIdx (next .new)).filter
        fun c => c.1.isInsert).map Prod.snd := by
  induction body generalizing position next with
  | nil => rfl
  | cons b bs ih =>
      rw [entriesFrom, List.filterMap_cons, ih, List.map_cons, List.filter_cons, Change.behind]
      cases b.change with
      | keep t => simp [Change.roleAt, Role.addedLine?, Change.isOn, Change.isInsert]
      | insert t => simp [Change.roleAt, Role.addedLine?, Change.isOn, Change.isInsert]
      | delete t => simp [Change.roleAt, Role.addedLine?, Change.isOn]

theorem filterMap_addedLine?_hunksFrom (position : Nat) (hunks : List WrittenHunk) :
    (((hunksFrom position hunks).flatMap Hunk.entries).filterMap fun e => e.role.addedLine?) =
      ((hunks.flatMap fun h => h.numberedOn .new).filter fun c => c.1.isInsert).map Prod.snd := by
  induction hunks generalizing position with
  | nil => rfl
  | cons h hs ih =>
      rw [hunksFrom, List.flatMap_cons, List.filterMap_append, ih, List.flatMap_cons,
        List.filter_append, List.map_append, filterMap_addedLine?_entriesFrom]
      rfl

/-! ## Lines under their numbers -/

/-- Text of a line of the file on a side. -/
def LineMap.lineText? (m : LineMap) : Side → Nat → Option String
  | .old => m.oldLineText?
  | .new => m.newLineText?

theorem find?_shownOn? (s : Side) (n : Nat) (entries : List Entry) :
    (entries.find? fun e => e.role.lineOn? s = some n).map Entry.text =
      ((entries.filterMap (Entry.shownOn? s)).find? fun p => p.1 = n).map Prod.snd := by
  induction entries with
  | nil => rfl
  | cons e es ih =>
      rw [List.find?_cons, List.filterMap_cons, Entry.shownOn?]
      cases number : e.role.lineOn? s with
      | none => simpa using ih
      | some k =>
          by_cases same : k = n
          · simp [same]
          · simpa [same] using ih

theorem LineMap.lineText?_eq (m : LineMap) (s : Side) (n : Nat) :
    m.lineText? s n =
      ((m.entries.filterMap (Entry.shownOn? s)).find? fun p => p.1 = n).map Prod.snd := by
  rw [← find?_shownOn?]
  cases s with
  | old => rfl
  | new => rfl

/-- Under a number that is given once there is what it is given to. -/
theorem find?_eq_some_iff_mem {α : Type} {pairs : List (Nat × α)}
    (once : (pairs.map Prod.fst).Nodup) {n : Nat} {x : α} :
    (pairs.find? fun p => p.1 = n).map Prod.snd = some x ↔ (n, x) ∈ pairs := by
  induction pairs with
  | nil => simp
  | cons p ps ih =>
      obtain ⟨k, y⟩ := p
      obtain ⟨fresh, rest⟩ := List.nodup_cons.mp once
      rw [List.find?_cons, List.mem_cons]
      by_cases same : k = n
      · subst same
        have later : (k, x) ∉ ps := fun among => fresh (List.mem_map.mpr ⟨(k, x), among, rfl⟩)
        simp [later, eq_comm]
      · simp only [same, decide_false]
        rw [ih rest]
        simp [Ne.symm same]

theorem length_numbered (body : List BodyLine) (s : Side) :
    ((body.map BodyLine.change).filter (Change.isOn s)).length = countOn s body := by
  rw [List.filter_map, List.length_map, countOn, List.countP_eq_length_filter]
  rfl

/-- Where no two hunks have lines of one number, no two lines have the same number. -/
theorem nodup_numberedOn {d : WrittenDiff} {s : Side} (apart : d.Apart s) :
    ((d.numberedOn s).map Prod.snd).Nodup := by
  have ranges : (d.numberedOn s).map Prod.snd =
      d.hunks.flatMap fun h => List.range' (h.start s) (countOn s h.body) := by
    rw [WrittenDiff.numberedOn, List.map_flatMap]
    refine List.flatMap_congr fun h _ => ?_
    rw [WrittenHunk.numberedOn, List.zipIdx_map_snd, length_numbered]
  rw [ranges, List.nodup_flatMap]
  refine ⟨fun h _ => List.nodup_range', apart.imp fun {a b} none n inA inB => ?_⟩
  exact none n ⟨List.mem_range'_1.mp inA, List.mem_range'_1.mp inB⟩

theorem lineText?_meant {d : WrittenDiff} {s : Side} (apart : d.Apart s) (n : Nat) (t : String) :
    (LineMap.mk d.meant).lineText? s n = some t ↔
      ∃ c, (c, n) ∈ d.numberedOn s ∧ t = String.ofList c.text.chars := by
  have shown : (LineMap.mk d.meant).entries.filterMap (Entry.shownOn? s) =
      (d.numberedOn s).map fun c => (c.2, String.ofList c.1.text.chars) :=
    filterMap_shownOn?_hunksFrom s _ d.hunks
  have once : (((d.numberedOn s).map fun c => (c.2, String.ofList c.1.text.chars)).map
      Prod.fst).Nodup := by
    rw [List.map_map]
    exact nodup_numberedOn apart
  rw [LineMap.lineText?_eq, shown, find?_eq_some_iff_mem once, List.mem_map]
  constructor
  · rintro ⟨⟨c, k⟩, member, same⟩
    obtain ⟨rfl, rfl⟩ := Prod.mk.inj same
    exact ⟨c, member, rfl⟩
  · rintro ⟨c, member, rfl⟩
    exact ⟨(c, n), member, rfl⟩

/-- Reading undoes writing: the hunks are those that were written, with every line numbered and in
its place; the added lines are the positive numbers of inserted lines; and where no two hunks have
lines of one number on a side, there is under each number the text of its line, and nothing else. -/
theorem reading_undoes_writing (d : WrittenDiff) :
    ∃ m, LineMap.ofDiff d.text = .ok m ∧ m.hunks = d.meant ∧
      (∀ l, l ∈ m.addedLines ↔ 0 < l ∧ ∃ c, c.isInsert = true ∧ (c, l) ∈ d.numberedOn .new) ∧
      (d.Apart .new → ∀ n t, m.newLineText? n = some t ↔
        ∃ c, (c, n) ∈ d.numberedOn .new ∧ t = String.ofList c.text.chars) ∧
      (d.Apart .old → ∀ n t, m.oldLineText? n = some t ↔
        ∃ c, (c, n) ∈ d.numberedOn .old ∧ t = String.ofList c.text.chars) := by
  refine ⟨⟨d.meant⟩, ofDiff_text d, rfl, fun l => ?_, fun apart => ?_, fun apart => ?_⟩
  · have added : (LineMap.mk d.meant).entries.filterMap (fun e => e.role.addedLine?) =
        ((d.numberedOn .new).filter fun c => c.1.isInsert).map Prod.snd :=
      filterMap_addedLine?_hunksFrom _ d.hunks
    rw [LineMap.addedLines, added, AddedLines.mem_ofList, and_comm, List.mem_map]
    refine and_congr_right fun _ => ⟨?_, ?_⟩
    · rintro ⟨⟨c, k⟩, member, rfl⟩
      obtain ⟨member, inserted⟩ := List.mem_filter.mp member
      exact ⟨c, inserted, member⟩
    · rintro ⟨c, inserted, member⟩
      exact ⟨(c, l), List.mem_filter.mpr ⟨member, inserted⟩, rfl⟩
  · exact lineText?_meant apart
  · exact lineText?_meant apart

/-- A hunk that puts a line behind the last one of a file, which is not ended. -/
def appended : WrittenDiff where
  preamble := [⟨"--- a/notes".toList, by decide, by decide⟩]
  hunks := [{
    start := fun _ => 7
    body := [⟨.keep ⟨"end".toList, by decide, by decide⟩, false, []⟩,
      ⟨.insert ⟨"more".toList, by decide, by decide⟩, false, [⟨" No newline".toList, by decide⟩]⟩]
    fillers := []
    bounded := by intro s; cases s <;> decide }]

theorem lines_of_appended :
    appended.Apart .new ∧ appended.Apart .old ∧
    ∃ m, LineMap.ofDiff appended.text = .ok m ∧ m.newLineText? 8 = some "more" ∧
      m.oldLineText? 8 = none := by
  have apart : ∀ s, appended.Apart s := fun _ => List.pairwise_singleton _ _
  obtain ⟨m, read, -, -, new, old⟩ := reading_undoes_writing appended
  refine ⟨apart .new, apart .old, m, read, ?_, ?_⟩
  · exact (new (apart .new) 8 "more").mpr ⟨_, .tail _ (.head _), rfl⟩
  · cases found : m.oldLineText? 8 with
    | none => rfl
    | some t =>
        obtain ⟨c, member, -⟩ := (old (apart .old) 8 t).mp found
        have numbers : (8 : Nat) ∈ (appended.numberedOn .old).map Prod.snd :=
          List.mem_map_of_mem member
        exact absurd numbers (by decide)

example : appended.text =
    "--- a/notes\n@@ -7,1 +7,2 @@\n end\n+more\n\\ No newline\n".toList := by decide

example : appended.meant = [⟨⟨7, 1, 7, 2⟩, [⟨3, .context 7 7, "end"⟩, ⟨4, .added 8, "more"⟩]⟩] := by
  decide

end DiffScope.Diff
