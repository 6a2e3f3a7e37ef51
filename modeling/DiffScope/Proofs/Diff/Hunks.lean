import DiffScope.Proofs.Diff.Scan

/-! # What is read belongs to hunks

A line is read only while a hunk is open. So nothing is read before the first header, and what is
read of a diff is what its hunks bring, one behind another.
-/

namespace DiffScope.Diff

open DiffScope.Checked DiffScope.Text

/-! ## One line -/

theorem opensHunk_of_ofLine? {line : List Char} {h : Header}
    (header : Header.ofLine? line = some h) : opensHunk line = true := by
  unfold Header.ofLine? at header
  obtain ⟨rest, found, -⟩ := Option.bind_eq_some_iff.mp header
  have start := after?_eq_some_iff.mp found
  exact Option.isSome_iff_exists.mpr ⟨" -".toList ++ rest, after?_eq_some_iff.mpr start⟩

/-- What a line can bring, and which hunk is open before and behind it. -/
inductive Reads (position : Nat) (line : List Char) :
    Option Cursor → Option Event × Option Cursor → Prop
  | opening {cursor : Option Cursor} {h : Header} (header : Header.ofLine? line = some h) :
      Reads position line cursor (some (.opening h), some (.ofHeader h))
  /-- No hunk is open behind the line, whatever was. -/
  | closing {cursor : Option Cursor} (other : Header.ofLine? line = none) :
      Reads position line cursor (none, none)
  | marker {c : Cursor} (other : Header.ofLine? line = none) (mark : line.head? = some '\\') :
      Reads position line (some c) (none, some c)
  | taken {c : Cursor} (other : Header.ofLine? line = none) (plain : line.head? ≠ some '\\')
      (live : c.isSpent = false) :
      Reads position line (some c)
        (some (.line (c.pass position line).1), some (c.pass position line).2)

theorem reads_scanStep (cursor : Option Cursor) (position : Nat) (line : List Char) :
    Reads position line cursor (scanStep cursor position line) := by
  unfold scanStep
  cases opens : opensHunk line with
  | true =>
      rw [if_pos rfl]
      cases header : Header.ofLine? line with
      | none => exact .closing header
      | some h => exact .opening header
  | false =>
      have other : Header.ofLine? line = none := by
        cases header : Header.ofLine? line with
        | none => rfl
        | some h =>
            rw [opensHunk_of_ofLine? header] at opens
            cases opens
      rw [if_neg Bool.false_ne_true]
      split
      · exact .closing other
      · cases cursor with
        | none => exact .closing other
        | some c =>
            by_cases mark : line.head? = some '\\'
            · simp only [mark, if_true]
              exact .marker other mark
            · simp only [mark, if_false]
              cases live : c.isSpent with
              | true => exact .closing other
              | false => exact .taken other mark live

/-! ## Hunks and what they bring -/

/-- What a hunk brings. -/
def eventsOf (h : Hunk) : List Event := .opening h.header :: h.entries.map Event.line

theorem foldr_lines (es later : List Entry) (hunks : List Hunk) :
    (es.map Event.line).foldr consEvent (later, hunks) = (es ++ later, hunks) := by
  induction es with
  | nil => rfl
  | cons e es ih => rw [List.map_cons, List.foldr_cons, ih]; rfl

/-- Hunks are put together again from what they bring. -/
theorem hunksOf_flatMap (hunks : List Hunk) : hunksOf (hunks.flatMap eventsOf) = ([], hunks) := by
  induction hunks with
  | nil => rfl
  | cons h hs ih =>
      rw [hunksOf] at ih
      rw [List.flatMap_cons, hunksOf, List.foldr_append, ih, eventsOf, List.foldr_cons, foldr_lines,
        List.append_nil]
      rfl

theorem hunksOf_opening (h : Header) (es : List Event) :
    hunksOf (.opening h :: es) = ([], ⟨h, (hunksOf es).1⟩ :: (hunksOf es).2) := rfl

theorem hunksOf_line (e : Entry) (es : List Event) :
    hunksOf (.line e :: es) = (e :: (hunksOf es).1, (hunksOf es).2) := rfl

/-- Nothing is lost when what is read is put together to hunks. -/
theorem append_flatMap_hunksOf (es : List Event) :
    (hunksOf es).1.map Event.line ++ (hunksOf es).2.flatMap eventsOf = es := by
  induction es with
  | nil => rfl
  | cons e es ih =>
      cases e with
      | opening h =>
          rw [hunksOf_opening, List.map_nil, List.nil_append, List.flatMap_cons, eventsOf]
          exact congrArg (Event.opening h :: ·) ih
      | line e =>
          rw [hunksOf_line, List.map_cons]
          exact congrArg (Event.line e :: ·) ih

/-- Where no hunk is open, no line is read before the next header. -/
theorem hunksOf_scanFrom_none (position : Nat) (ls : List (List Char)) :
    (hunksOf (scanFrom none position ls)).1 = [] := by
  induction ls generalizing position with
  | nil => rfl
  | cons line rest ih =>
      rw [scanFrom]
      have reads := reads_scanStep none position line
      generalize scanStep none position line = step at reads ⊢
      cases reads with
      | opening header => rfl
      | closing other => exact ih (position + 1)

/-- The hunks of a diff that is read without a bound. -/
def hunksIn (diff : List Char) : List Hunk := (hunksOf (scan diff)).2

/-- What is read of a diff is its hunks. -/
theorem scan_eq_flatMap (diff : List Char) : scan diff = (hunksIn diff).flatMap eventsOf := by
  have whole := append_flatMap_hunksOf (scan diff)
  have first : (hunksOf (scan diff)).1 = [] := hunksOf_scanFrom_none 1 (lines diff)
  rw [first] at whole
  exact whole.symm

theorem hunksIn_eq {diff : List Char} {hunks : List Hunk}
    (read : scan diff = hunks.flatMap eventsOf) : hunksIn diff = hunks := by
  rw [hunksIn, read, hunksOf_flatMap]

theorem LineMap.ofDiff_eq_ok_iff {diff : List Char} {m : LineMap} :
    LineMap.ofDiff diff = .ok m ↔ Numbered diff ∧ m = ⟨hunksIn diff⟩ := by
  rw [LineMap.ofDiff, bind_eq_ok]
  constructor
  · rintro ⟨es, found, same⟩
    obtain ⟨numbered, rfl⟩ := events_eq_ok_iff.mp found
    exact ⟨numbered, (Except.ok.inj same).symm⟩
  · rintro ⟨numbered, rfl⟩
    exact ⟨_, events_eq_ok_iff.mpr ⟨numbered, rfl⟩, rfl⟩

/-! ## Lines that are added -/

/-- Position and number of each line that is only in the new file. -/
def LineMap.addedPositions (m : LineMap) : List (Nat × Nat) :=
  m.entries.filterMap fun e => e.role.addedLine?.map (e.position, ·)

def Event.isLine : Event → Bool
  | .opening _ => false
  | .line _ => true

theorem filterMap_addedPosition?_hunks (hunks : List Hunk) :
    (hunks.flatMap eventsOf).filterMap Event.addedPosition? =
      (LineMap.mk hunks).addedPositions := by
  induction hunks with
  | nil => rfl
  | cons h hs ih =>
      rw [List.flatMap_cons, List.filterMap_append, ih, eventsOf, List.filterMap_cons,
        List.filterMap_map]
      simp only [LineMap.addedPositions, LineMap.entries, List.flatMap_cons, List.filterMap_append]
      rfl

theorem map_snd_addedPositions (m : LineMap) :
    m.addedPositions.map Prod.snd = m.entries.filterMap fun e => e.role.addedLine? := by
  rw [LineMap.addedPositions, List.map_filterMap]
  congr 1
  funext e
  cases e.role.addedLine? <;> rfl

theorem countP_isLine_hunks (hunks : List Hunk) :
    (hunks.flatMap eventsOf).countP Event.isLine = (LineMap.mk hunks).entries.length := by
  induction hunks with
  | nil => rfl
  | cons h hs ih =>
      have opening : Event.isLine (.opening h.header) = false := rfl
      have own : (h.entries.map Event.line).countP Event.isLine = h.entries.length := by
        rw [List.countP_map]
        exact List.countP_eq_length.mpr fun e _ => rfl
      rw [List.flatMap_cons, List.countP_append, ih, eventsOf, List.countP_cons, opening, own]
      simp only [LineMap.entries, List.flatMap_cons, List.length_append]
      rfl

theorem mem_addedLines {m : LineMap} {l : Nat} :
    l ∈ m.addedLines ↔ 0 < l ∧ ∃ e ∈ m.entries, e.role = .added l := by
  have added (r : Role) : r.addedLine? = some l ↔ r = .added l := by
    cases r <;> simp [Role.addedLine?]
  rw [LineMap.addedLines, AddedLines.mem_ofList, and_comm, List.mem_filterMap]
  simp only [added]

/-! ## What a diff adds -/

/-- A diff is read line by line exactly when it has a map, and then its lines are those of the
map's hunks. -/
theorem events_eq_map (diff : List Char) :
    events diff = (LineMap.ofDiff diff).map fun m => m.hunks.flatMap eventsOf := by
  cases found : events diff with
  | error e =>
      have none : LineMap.ofDiff diff = .error e := by
        rw [LineMap.ofDiff, found]
        rfl
      rw [none]
      rfl
  | ok es =>
      obtain ⟨numbered, rfl⟩ := events_eq_ok_iff.mp found
      rw [LineMap.ofDiff_eq_ok_iff.mpr ⟨numbered, rfl⟩, scan_eq_flatMap]
      rfl

theorem addedPositions_eq_map (diff : List Char) :
    addedPositions diff = (LineMap.ofDiff diff).map LineMap.addedPositions := by
  rw [addedPositions, events_eq_map]
  cases LineMap.ofDiff diff with
  | error e => rfl
  | ok m => exact congrArg Except.ok (filterMap_addedPosition?_hunks m.hunks)

theorem ofDiff_eq_map (diff : List Char) :
    AddedLines.ofDiff diff = (LineMap.ofDiff diff).map LineMap.addedLines := by
  rw [AddedLines.ofDiff, addedPositions_eq_map]
  cases LineMap.ofDiff diff with
  | error e => rfl
  | ok m => exact congrArg (Except.ok ∘ AddedLines.ofList) (map_snd_addedPositions m)

end DiffScope.Diff
