import DiffScope.Proofs.Diff.Hunks
import DiffScope.Proofs.Diff.Localized
import DiffScope.Proofs.Text.Pieces

/-! # Diffs one behind another

A line that is meant as a header and a line that begins another file end the hunk before them,
wherever that has got to. So a diff that begins with such a line is read behind another diff as it
is read alone, further down. In the same way a header that cannot be read takes with it the lines
up to the next header, and nothing else.
-/

namespace DiffScope.Diff

open DiffScope.Text

/-! ## Further down in a diff -/

def Entry.below (k : Nat) (e : Entry) : Entry := { e with position := e.position + k }

/-- The hunk when there are so many more lines before it. -/
def Hunk.below (k : Nat) (h : Hunk) : Hunk := { h with entries := h.entries.map (Entry.below k) }

def Event.below (k : Nat) : Event → Event
  | .opening h => .opening h
  | .line e => .line (e.below k)

theorem Entry.below_below (j k : Nat) (e : Entry) : (e.below j).below k = e.below (k + j) := by
  simp only [below, Nat.add_assoc, Nat.add_comm k j]

theorem Hunk.below_below (j k : Nat) (h : Hunk) : (h.below j).below k = h.below (k + j) := by
  simp only [below, List.map_map, Function.comp_def, Entry.below_below]

theorem Event.fits_below {k : Nat} {e : Event} : (e.below k).Fits ↔ e.Fits := by
  cases e with
  | opening h => exact Iff.rfl
  | line e => exact Iff.rfl

theorem eventsOf_below (k : Nat) (h : Hunk) :
    eventsOf (h.below k) = (eventsOf h).map (Event.below k) := by
  simp [eventsOf, Hunk.below, Event.below]

theorem Cursor.pass_add (c : Cursor) (position k : Nat) (line : List Char) :
    c.pass (position + k) line =
      ((c.pass position line).1.below k, (c.pass position line).2) := by
  unfold pass
  split <;> rfl

theorem scanStep_add (cursor : Option Cursor) (position k : Nat) (line : List Char) :
    scanStep cursor (position + k) line =
      ((scanStep cursor position line).1.map (Event.below k),
        (scanStep cursor position line).2) := by
  unfold scanStep
  split
  · cases Header.ofLine? line <;> rfl
  · split
    · rfl
    · cases cursor with
      | none => rfl
      | some c =>
          by_cases mark : line.head? = some '\\'
          · simp [mark]
          · cases live : c.isSpent with
            | true => simp [mark, live]
            | false => simp [mark, live, Cursor.pass_add, Event.below]

/-- Further down the same is read. -/
theorem scanFrom_add (cursor : Option Cursor) (position k : Nat) (ls : List (List Char)) :
    scanFrom cursor (position + k) ls = (scanFrom cursor position ls).map (Event.below k) := by
  induction ls generalizing cursor position with
  | nil => rfl
  | cons line rest ih =>
      rw [scanFrom, scanFrom, scanStep_add, Nat.add_right_comm, ih, List.map_append]
      cases (scanStep cursor position line).1 <;> rfl

/-! ## Lines one behind another -/

theorem exists_scanFrom_append (cursor : Option Cursor) (position : Nat)
    (ls others : List (List Char)) :
    ∃ behind, scanFrom cursor position (ls ++ others) =
      scanFrom cursor position ls ++ scanFrom behind (position + ls.length) others := by
  induction ls generalizing cursor position with
  | nil => exact ⟨cursor, rfl⟩
  | cons line rest ih =>
      obtain ⟨behind, run⟩ := ih (scanStep cursor position line).2 (position + 1)
      refine ⟨behind, ?_⟩
      rw [List.cons_append, scanFrom, run, scanFrom, List.append_assoc, List.length_cons,
        Nat.add_right_comm, Nat.add_assoc position]

/-- The line is meant as a header, or it begins another file. -/
def EndsHunk (line : List Char) : Prop :=
  "@@".toList <+: line ∨ "diff --git".toList <+: line

theorem isSome_after?_iff {start text : List Char} :
    (after? start text).isSome = true ↔ start <+: text := by
  rw [Option.isSome_iff_exists]
  constructor
  · rintro ⟨rest, found⟩
    exact ⟨rest, (after?_eq_some_iff.mp found).symm⟩
  · rintro ⟨rest, rfl⟩
    exact ⟨rest, after?_eq_some_iff.mpr rfl⟩

/-- Of the hunk before it nothing is left at such a line. -/
theorem scanStep_of_endsHunk {line : List Char} (ends : EndsHunk line) (cursor : Option Cursor)
    (position : Nat) : scanStep cursor position line = scanStep none position line := by
  unfold scanStep
  rcases ends with header | file
  · have opens : opensHunk line = true := isSome_after?_iff.mpr header
    rw [opens]
    rfl
  · rw [isSome_after?_iff.mpr file]
    rfl

/-- The first line of the text ends the hunk before the text. -/
def StartsAnew (text : List Char) : Prop := ∃ line ∈ (lines text).head?, EndsHunk line

theorem scan_append {a b : List Char} (ended : IsEnded a) (anew : StartsAnew b) :
    scan (a ++ b) = scan a ++ (scan b).map (Event.below (lines a).length) := by
  obtain ⟨line, first, ends⟩ := anew
  obtain ⟨rest, split⟩ := List.head?_eq_some_iff.mp first
  obtain ⟨behind, run⟩ := exists_scanFrom_append none 1 (lines a) (lines b)
  rw [scan, lines_append ended, run, scan, scan, ← scanFrom_add, split, scanFrom,
    scanStep_of_endsHunk ends, ← scanFrom]

theorem numbered_append {a b : List Char} (ended : IsEnded a) (anew : StartsAnew b) :
    Numbered (a ++ b) ↔ Numbered a ∧ Numbered b := by
  unfold Numbered
  rw [scan_append ended anew, List.forall_mem_append, List.forall_mem_map]
  simp only [Event.fits_below]

theorem hunksIn_append {a b : List Char} (ended : IsEnded a) (anew : StartsAnew b) :
    hunksIn (a ++ b) = hunksIn a ++ (hunksIn b).map (Hunk.below (lines a).length) := by
  apply hunksIn_eq
  rw [scan_append ended anew, List.flatMap_append, ← scan_eq_flatMap, List.flatMap_map]
  simp only [eventsOf_below]
  rw [← List.map_flatMap, ← scan_eq_flatMap]

/-! ## Maps one behind another -/

/-- A map, and behind it the map of a diff that begins so many lines further down. -/
def LineMap.followedBy (m : LineMap) (k : Nat) (next : LineMap) : LineMap :=
  ⟨m.hunks ++ next.hunks.map (Hunk.below k)⟩

theorem ofDiff_append_eq_ok_iff {a b : List Char} (ended : IsEnded a) (anew : StartsAnew b)
    {m : LineMap} :
    LineMap.ofDiff (a ++ b) = .ok m ↔ ∃ first second, LineMap.ofDiff a = .ok first ∧
      LineMap.ofDiff b = .ok second ∧ m = first.followedBy (lines a).length second := by
  simp only [LineMap.ofDiff_eq_ok_iff, numbered_append ended anew, hunksIn_append ended anew]
  constructor
  · rintro ⟨⟨inA, inB⟩, rfl⟩
    exact ⟨_, _, ⟨inA, rfl⟩, ⟨inB, rfl⟩, rfl⟩
  · rintro ⟨_, _, ⟨inA, rfl⟩, ⟨inB, rfl⟩, rfl⟩
    exact ⟨⟨inA, inB⟩, rfl⟩

theorem LineMap.followedBy_nil (m : LineMap) (k : Nat) : m.followedBy k ⟨[]⟩ = m := by
  simp [followedBy]

theorem LineMap.followedBy_nil_followedBy (m : LineMap) (j k : Nat) (next : LineMap) :
    m.followedBy j ((LineMap.mk []).followedBy k next) = m.followedBy (j + k) next := by
  simp [followedBy, Hunk.below_below, Function.comp_def]

theorem mem_addedLines_followedBy {m next : LineMap} {k l : Nat} :
    l ∈ (m.followedBy k next).addedLines ↔ l ∈ m.addedLines ∨ l ∈ next.addedLines := by
  have entries : (m.followedBy k next).entries =
      m.entries ++ next.entries.map (Entry.below k) := by
    simp only [LineMap.followedBy, LineMap.entries, List.flatMap_append, List.flatMap_map,
      List.map_flatMap]
    rfl
  have moved : (∃ e ∈ next.entries.map (Entry.below k), e.role = .added l) ↔
      ∃ e ∈ next.entries, e.role = .added l := by
    constructor
    · rintro ⟨_, member, role⟩
      obtain ⟨e, among, rfl⟩ := List.mem_map.mp member
      exact ⟨e, among, role⟩
    · rintro ⟨e, among, role⟩
      exact ⟨e.below k, List.mem_map_of_mem among, role⟩
  simp only [mem_addedLines, entries, List.mem_append, or_and_right, exists_or, and_or_left, moved]

theorem ofDiff_eq_ok_iff_map {diff : List Char} {added : AddedLines} :
    AddedLines.ofDiff diff = .ok added ↔
      ∃ m, LineMap.ofDiff diff = .ok m ∧ added = m.addedLines := by
  rw [ofDiff_eq_map]
  cases LineMap.ofDiff diff with
  | error e => simp [Except.map]
  | ok m => simp [Except.map, eq_comm]

theorem addedLines_append_eq_ok_iff {a b : List Char} (ended : IsEnded a) (anew : StartsAnew b)
    {added : AddedLines} :
    AddedLines.ofDiff (a ++ b) = .ok added ↔ ∃ first second,
      AddedLines.ofDiff a = .ok first ∧ AddedLines.ofDiff b = .ok second ∧
        ∀ l, l ∈ added ↔ l ∈ first ∨ l ∈ second := by
  simp only [ofDiff_eq_ok_iff_map, ofDiff_append_eq_ok_iff ended anew]
  constructor
  · rintro ⟨_, ⟨first, second, inA, inB, rfl⟩, rfl⟩
    exact ⟨_, _, ⟨first, inA, rfl⟩, ⟨second, inB, rfl⟩, fun l => mem_addedLines_followedBy⟩
  · rintro ⟨_, _, ⟨first, inA, rfl⟩, ⟨second, inB, rfl⟩, same⟩
    refine ⟨_, ⟨first, second, inA, inB, rfl⟩, AddedLines.eq_of_mem_iff fun l => ?_⟩
    rw [same, mem_addedLines_followedBy]

/-! ## Headers that cannot be read -/

/-- A line that is meant as a header and cannot be read as one, and lines behind it of which none is
a header. -/
structure IsMalformedHunk (text : List Char) : Prop where
  opens : ∃ line ∈ (lines text).head?, "@@".toList <+: line
  unread : ∀ line ∈ lines text, Header.ofLine? line = none

theorem IsMalformedHunk.startsAnew {text : List Char} (h : IsMalformedHunk text) :
    StartsAnew text := by
  obtain ⟨line, first, opens⟩ := h.opens
  exact ⟨line, first, .inl opens⟩

theorem scanFrom_none_eq_nil (position : Nat) {ls : List (List Char)}
    (unread : ∀ line ∈ ls, Header.ofLine? line = none) : scanFrom none position ls = [] := by
  induction ls generalizing position with
  | nil => rfl
  | cons line rest ih =>
      obtain ⟨here, others⟩ := List.forall_mem_cons.mp unread
      rw [scanFrom]
      have reads := reads_scanStep none position line
      generalize scanStep none position line = step at reads ⊢
      cases reads with
      | opening header => simp [here] at header
      | closing other => exact ih (position + 1) others

/-- Where no header can be read, there is an empty map. -/
theorem IsMalformedHunk.ofDiff_eq {text : List Char} (h : IsMalformedHunk text) :
    LineMap.ofDiff text = .ok ⟨[]⟩ := by
  have nothing : scan text = [] := scanFrom_none_eq_nil 1 h.unread
  have numbered : Numbered text := by
    rw [Numbered, nothing]
    exact nofun
  exact LineMap.ofDiff_eq_ok_iff.mpr ⟨numbered, by rw [hunksIn, nothing]; rfl⟩

theorem startsAnew_append {a : List Char} (anew : StartsAnew a) (ended : IsEnded a)
    (b : List Char) : StartsAnew (a ++ b) := by
  obtain ⟨line, first, ends⟩ := anew
  refine ⟨line, ?_, ends⟩
  rw [lines_append ended, List.head?_append, first]
  rfl

/-- Behind a diff such a header brings nothing. -/
theorem IsMalformedHunk.ofDiff_append_eq_ok_iff {a text : List Char} (h : IsMalformedHunk text)
    (ended : IsEnded a) {m : LineMap} :
    LineMap.ofDiff (a ++ text) = .ok m ↔ LineMap.ofDiff a = .ok m := by
  rw [Diff.ofDiff_append_eq_ok_iff ended h.startsAnew, h.ofDiff_eq]
  constructor
  · rintro ⟨first, second, inA, empty, rfl⟩
    obtain rfl := Except.ok.inj empty
    rwa [LineMap.followedBy_nil]
  · intro inA
    exact ⟨m, ⟨[]⟩, inA, rfl, (m.followedBy_nil _).symm⟩

/-- Between two parts such a header moves the second part down. -/
theorem IsMalformedHunk.ofDiff_between_eq_ok_iff {a text b : List Char} (h : IsMalformedHunk text)
    (ended : IsEnded a) (done : IsEnded text) (anew : StartsAnew b) {m : LineMap} :
    LineMap.ofDiff (a ++ (text ++ b)) = .ok m ↔ ∃ first second, LineMap.ofDiff a = .ok first ∧
      LineMap.ofDiff b = .ok second ∧ m = first.followedBy (lines (a ++ text)).length second := by
  rw [Diff.ofDiff_append_eq_ok_iff ended (startsAnew_append h.startsAnew done b)]
  simp only [Diff.ofDiff_append_eq_ok_iff done anew, h.ofDiff_eq, lines_append ended,
    List.length_append]
  constructor
  · rintro ⟨first, _, inA, ⟨empty, second, same, inB, rfl⟩, rfl⟩
    obtain rfl := Except.ok.inj same
    exact ⟨first, second, inA, inB, first.followedBy_nil_followedBy _ _ second⟩
  · rintro ⟨first, second, inA, inB, rfl⟩
    exact ⟨first, _, inA, ⟨⟨[]⟩, second, rfl, inB, rfl⟩,
      (first.followedBy_nil_followedBy _ _ second).symm⟩

/-- A diff of two parts is read part by part: it can be read exactly if both parts can be, its hunks
are those of the first part and, further down, those of the second, and it adds what they add. A
header that cannot be read takes the lines up to the next header with it, and nothing else, whether
it stands at the end or between two parts. -/
theorem parts_of_a_diff_are_read_apart {a b : List Char} (ended : IsEnded a)
    (anew : StartsAnew b) :
    (∀ m, LineMap.ofDiff (a ++ b) = .ok m ↔ ∃ first second, LineMap.ofDiff a = .ok first ∧
      LineMap.ofDiff b = .ok second ∧ m = first.followedBy (lines a).length second) ∧
    (∀ added, AddedLines.ofDiff (a ++ b) = .ok added ↔ ∃ first second,
      AddedLines.ofDiff a = .ok first ∧ AddedLines.ofDiff b = .ok second ∧
      ∀ l, l ∈ added ↔ l ∈ first ∨ l ∈ second) ∧
    ∀ malformed, IsMalformedHunk malformed →
      (∀ m, LineMap.ofDiff (a ++ malformed) = .ok m ↔ LineMap.ofDiff a = .ok m) ∧
      (IsEnded malformed → ∀ m, LineMap.ofDiff (a ++ (malformed ++ b)) = .ok m ↔
        ∃ first second, LineMap.ofDiff a = .ok first ∧ LineMap.ofDiff b = .ok second ∧
          m = first.followedBy (lines (a ++ malformed)).length second) := by
  refine ⟨fun m => ofDiff_append_eq_ok_iff ended anew,
    fun added => addedLines_append_eq_ok_iff ended anew, fun malformed header => ⟨?_, ?_⟩⟩
  · exact fun m => header.ofDiff_append_eq_ok_iff ended
  · exact fun done m => header.ofDiff_between_eq_ok_iff ended done anew

/-- A hunk, a header that cannot be read, and a hunk of another file. -/
def notesPart : List Char := "@@ -1,1 +1,2 @@\n a\n+b\n".toList

def malformedPart : List Char := "@@ what @@\n+lost\n".toList

def otherPart : List Char := "diff --git a/k b/k\n@@ -5 +5,2 @@\n+c\n".toList

theorem hunks_around_malformed :
    (IsEnded notesPart ∧ StartsAnew otherPart ∧ IsMalformedHunk malformedPart ∧
      IsEnded malformedPart) ∧
    LineMap.ofDiff (notesPart ++ (malformedPart ++ otherPart)) = .ok ⟨[
      ⟨⟨1, 1, 1, 2⟩, [⟨2, .context 1 1, "a"⟩, ⟨3, .added 2, "b"⟩]⟩,
      ⟨⟨5, 1, 5, 2⟩, [⟨8, .added 5, "c"⟩]⟩]⟩ := by
  have ended : IsEnded notesPart := .inr rfl
  have anew : StartsAnew otherPart := ⟨_, rfl, .inr ⟨" a/k b/k".toList, rfl⟩⟩
  have header : IsMalformedHunk malformedPart := ⟨⟨_, rfl, " what @@".toList, rfl⟩, by decide⟩
  have done : IsEnded malformedPart := .inr rfl
  refine ⟨⟨ended, anew, header, done⟩, ?_⟩
  have apart := (parts_of_a_diff_are_read_apart ended anew).2.2 malformedPart header
  exact (apart.2 done _).mpr ⟨_, _, rfl, rfl, rfl⟩

end DiffScope.Diff
