import DiffScope.Proofs.Diff.Meaning

/-! # Lines of a hunk are numbered one behind another

Whatever a diff looks like, there is a hunk for each header that can be read, and its lines are the
lines behind the header, markers left out, up to a line behind which nothing counts. Each has the
numbers that follow those of the lines before it, and none is taken when the counts of the header
are used up on both sides.
-/

namespace DiffScope.Diff

open DiffScope.Checked DiffScope.Text

/-! ## Sides of a hunk -/

/-- Whether a line is in the file on a side. -/
def Role.isOn : Side → Role → Bool
  | .old, added _ => false
  | .new, removed _ => false
  | _, _ => true

/-- How many of the lines are in the file on a side. -/
def linesOn (s : Side) (es : List Entry) : Nat := es.countP fun e => e.role.isOn s

namespace Header

/-- Where the hunk starts in the file on a side. -/
def startOn (h : Header) : Side → Nat
  | .old => h.oldStart
  | .new => h.newStart

def lengthOn (h : Header) : Side → Nat
  | .old => h.oldLen
  | .new => h.newLen

end Header

namespace Cursor

def nextOn (c : Cursor) : Side → Nat
  | .old => c.oldLine
  | .new => c.newLine

def leftOn (c : Cursor) : Side → Nat
  | .old => c.oldLeft
  | .new => c.newLeft

theorem nextOn_ofHeader (h : Header) (s : Side) : (ofHeader h).nextOn s = h.startOn s := by
  cases s <;> rfl

theorem leftOn_ofHeader (h : Header) (s : Side) : (ofHeader h).leftOn s = h.lengthOn s := by
  cases s <;> rfl

theorem exists_leftOn {c : Cursor} (live : c.isSpent = false) : ∃ s, 0 < c.leftOn s := by
  by_cases old : c.oldLeft = 0
  · have new : c.newLeft ≠ 0 := by simpa [isSpent, old] using live
    exact ⟨.new, Nat.pos_of_ne_zero new⟩
  · exact ⟨.old, Nat.pos_of_ne_zero old⟩

end Cursor

/-! ## Taking a line -/

/-- The line is the text behind the mark that says where it is; a line without a mark is in both
files. -/
def Entry.Shows (e : Entry) (line : List Char) : Prop :=
  match e.role with
  | .added _ => line = '+' :: e.text.toList
  | .removed _ => line = '-' :: e.text.toList
  | .context .. => line = ' ' :: e.text.toList ∨
      line = e.text.toList ∧ ∀ c ∈ line.head?, c ∉ ['+', '-', ' ', '\\']

/-- What is taken for a line of a hunk, and where the hunk is behind it. -/
structure Cursor.Takes (c : Cursor) (position : Nat) (line : List Char) (e : Entry)
    (behind : Cursor) : Prop where
  position : e.position = position
  shows : e.Shows line
  number : ∀ s, e.role.lineOn? s = if e.role.isOn s then some (c.nextOn s) else none
  next : ∀ s, behind.nextOn s = c.nextOn s + if e.role.isOn s then 1 else 0
  left : ∀ s, behind.leftOn s = c.leftOn s - if e.role.isOn s then 1 else 0

theorem Cursor.takes_pass (c : Cursor) (position : Nat) {line : List Char}
    (plain : line.head? ≠ some '\\') :
    c.Takes position line (c.pass position line).1 (c.pass position line).2 := by
  unfold pass
  split
  next text =>
    refine ⟨rfl, ?_, ?_, ?_, ?_⟩
    · simp [Entry.Shows]
    all_goals intro s; cases s <;> rfl
  next text =>
    refine ⟨rfl, ?_, ?_, ?_, ?_⟩
    · simp [Entry.Shows]
    all_goals intro s; cases s <;> rfl
  next notAdded notRemoved =>
    refine ⟨rfl, ?_, ?_, ?_, ?_⟩
    · unfold contextText
      split
      next text => simp [Entry.Shows]
      next notMarked =>
        refine .inr ⟨by simp, ?_⟩
        intro c head
        obtain ⟨rest, rfl⟩ := List.head?_eq_some_iff.mp head
        simp only [List.mem_cons, List.not_mem_nil, or_false, not_or]
        refine ⟨?_, ?_, ?_, ?_⟩
        · rintro rfl
          exact notAdded rest rfl
        · rintro rfl
          exact notRemoved rest rfl
        · rintro rfl
          exact notMarked rest rfl
        · rintro rfl
          exact plain rfl
    all_goals intro s; cases s <;> rfl

/-! ## The lines of one hunk -/

/-- Each line has the numbers that come next behind the lines before it, and is in a file of which
not all lines have come. So the numbers ascend. -/
structure Counted (next left : Side → Nat) (es : List Entry) : Prop where
  number : ∀ before e after, es = before ++ e :: after → ∀ s,
    e.role.lineOn? s = if e.role.isOn s then some (next s + linesOn s before) else none
  due : ∀ before e after, es = before ++ e :: after → ∃ s, linesOn s before < left s
  ascending : ∀ s, (es.filterMap fun e => e.role.lineOn? s).Pairwise (· < ·)

theorem linesOn_cons (s : Side) (e : Entry) (es : List Entry) :
    linesOn s (e :: es) = linesOn s es + if e.role.isOn s then 1 else 0 :=
  List.countP_cons

theorem counted_nil (next left : Side → Nat) : Counted next left [] := by
  refine ⟨?_, ?_, fun s => List.Pairwise.nil⟩
  · intro before e after split
    simp at split
  · intro before e after split
    simp at split

theorem Counted.least {next left : Side → Nat} {es : List Entry} (counted : Counted next left es)
    {s : Side} {n : Nat} (member : n ∈ es.filterMap fun e => e.role.lineOn? s) : next s ≤ n := by
  obtain ⟨e, among, number⟩ := List.mem_filterMap.mp member
  obtain ⟨before, after, split⟩ := List.append_of_mem among
  rw [counted.number before e after split s] at number
  split at number
  · obtain rfl := Option.some.inj number
    exact Nat.le_add_right _ _
  · cases number

theorem Cursor.Takes.counted {c behind : Cursor} {position : Nat} {line : List Char} {e : Entry}
    {es : List Entry} (takes : c.Takes position line e behind) (live : c.isSpent = false)
    (rest : Counted behind.nextOn behind.leftOn es) : Counted c.nextOn c.leftOn (e :: es) := by
  refine ⟨?_, ?_, ?_⟩
  · intro before f after split s
    rcases List.cons_eq_append_iff.mp split with ⟨rfl, same⟩ | ⟨others, rfl, later⟩
    · obtain ⟨rfl, -⟩ := List.cons.inj same
      exact takes.number s
    · rw [rest.number others f after later s, takes.next, linesOn_cons, Nat.add_assoc,
        Nat.add_comm (linesOn s others)]
  · intro before f after split
    rcases List.cons_eq_append_iff.mp split with ⟨rfl, -⟩ | ⟨others, rfl, later⟩
    · exact exists_leftOn live
    · obtain ⟨s, due⟩ := rest.due others f after later
      rw [takes.left] at due
      exact ⟨s, by rw [linesOn_cons]; omega⟩
  · intro s
    rw [List.filterMap_cons, takes.number s]
    cases on : e.role.isOn s with
    | false => exact rest.ascending s
    | true =>
        refine List.pairwise_cons.mpr ⟨fun n member => ?_, rest.ascending s⟩
        have least := rest.least member
        rw [takes.next, on] at least
        exact least

/-- The lines stand where they say among the places of a diff, one below another, and from the first
place to the last of them there are only markers between them. -/
structure Placed (places : List (List Char × Nat)) (es : List Entry) : Prop where
  ascending : es.Pairwise fun a b => a.position < b.position
  shown : ∀ e ∈ es, ∃ line, (line, e.position) ∈ places ∧ e.Shows line
  complete : ∀ e ∈ es, ∀ line position, (line, position) ∈ places → position < e.position →
    line.head? = some '\\' ∨ ∃ other ∈ es, other.position = position

theorem placed_nil (places : List (List Char × Nat)) : Placed places [] :=
  ⟨List.Pairwise.nil, nofun, nofun⟩

section Behind

variable {places : List (List Char × Nat)} {es : List Entry} {line : List Char} {position : Nat}

theorem Placed.marker (placed : Placed places es) (mark : line.head? = some '\\') :
    Placed ((line, position) :: places) es := by
  refine ⟨placed.ascending, ?_, ?_⟩
  · intro e member
    obtain ⟨shown, among, shows⟩ := placed.shown e member
    exact ⟨shown, .tail _ among, shows⟩
  · intro e member other place among before
    rcases List.mem_cons.mp among with same | among
    · obtain ⟨rfl, -⟩ := Prod.mk.inj same
      exact .inl mark
    · exact placed.complete e member other place among before

theorem Placed.cons (placed : Placed places es) (later : ∀ place ∈ places, position < place.2)
    {e : Entry} (here : e.position = position) (shows : e.Shows line) :
    Placed ((line, position) :: places) (e :: es) := by
  have below : ∀ f ∈ es, position < f.position := by
    intro f member
    obtain ⟨shown, among, -⟩ := placed.shown f member
    exact later _ among
  refine ⟨?_, ?_, ?_⟩
  · refine List.pairwise_cons.mpr ⟨fun f member => ?_, placed.ascending⟩
    rw [here]
    exact below f member
  · intro f member
    rcases List.mem_cons.mp member with rfl | member
    · exact ⟨line, by rw [here]; exact .head _, shows⟩
    · obtain ⟨shown, among, shows⟩ := placed.shown f member
      exact ⟨shown, .tail _ among, shows⟩
  · intro f member other place among before
    rcases List.mem_cons.mp among with same | among
    · obtain ⟨-, rfl⟩ := Prod.mk.inj same
      exact .inr ⟨e, List.mem_cons_self, here⟩
    · rcases List.mem_cons.mp member with rfl | member
      · have behind := later _ among
        rw [here] at before
        omega
      · rcases placed.complete f member other place among before with mark | ⟨g, found, same⟩
        · exact .inl mark
        · exact .inr ⟨g, List.mem_cons_of_mem _ found, same⟩

end Behind

/-! ## The hunks of a diff -/

/-- The headers that can be read, each with its place. -/
def headersOf (places : List (List Char × Nat)) : List (Nat × Header) :=
  places.filterMap fun place => (Header.ofLine? place.1).map (place.2, ·)

/-- The hunk has the header at a place, and its lines are those behind it. -/
structure Hunk.ReadAt (places : List (List Char × Nat)) (opening : Nat × Header) (h : Hunk) :
    Prop where
  header : h.header = opening.2
  opens : ∃ line, (line, opening.1) ∈ places ∧ Header.ofLine? line = some h.header
  placed : Placed (places.filter fun place => opening.1 < place.2) h.entries
  counted : Counted h.header.startOn h.header.lengthOn h.entries

/-- What stands before a header is nothing to its hunk. -/
theorem Hunk.ReadAt.behind {places : List (List Char × Nat)} {opening : Nat × Header} {h : Hunk}
    (read : h.ReadAt places opening) {line : List Char} {position : Nat}
    (later : ∀ place ∈ places, position < place.2) :
    h.ReadAt ((line, position) :: places) opening := by
  obtain ⟨header, among, parses⟩ := read.opens
  have before : ¬opening.1 < position := Nat.not_lt.mpr (Nat.le_of_lt (later _ among))
  refine ⟨read.header, ⟨header, .tail _ among, parses⟩, ?_, read.counted⟩
  rw [List.filter_cons_of_neg (by simpa using before)]
  exact read.placed

theorem Hunk.readAt_opening {places : List (List Char × Nat)} {line : List Char} {position : Nat}
    (later : ∀ place ∈ places, position < place.2) {h : Header}
    (header : Header.ofLine? line = some h) {es : List Entry} (placed : Placed places es)
    (counted : Counted (Cursor.ofHeader h).nextOn (Cursor.ofHeader h).leftOn es) :
    Hunk.ReadAt ((line, position) :: places) (position, h) ⟨h, es⟩ := by
  have all : places.filter (fun place => position < place.2) = places :=
    List.filter_eq_self.mpr fun place member => by simpa using later place member
  refine ⟨rfl, ⟨line, .head _, header⟩, ?_, ?_⟩
  · rw [List.filter_cons_of_neg (by simp), all]
    exact placed
  · have next : (Cursor.ofHeader h).nextOn = h.startOn := funext (Cursor.nextOn_ofHeader h)
    have left : (Cursor.ofHeader h).leftOn = h.lengthOn := funext (Cursor.leftOn_ofHeader h)
    rwa [next, left] at counted

/-- A line that is no header adds nothing to the hunks behind it. -/
theorem forall₂_readAt_behind {places : List (List Char × Nat)} {line : List Char}
    {position : Nat} (later : ∀ place ∈ places, position < place.2)
    (other : Header.ofLine? line = none) {hunks : List Hunk}
    (reads : List.Forall₂ (Hunk.ReadAt places) (headersOf places) hunks) :
    List.Forall₂ (Hunk.ReadAt ((line, position) :: places))
      (headersOf ((line, position) :: places)) hunks := by
  rw [headersOf, List.filterMap_cons_none (by rw [other]; rfl)]
  exact reads.imp fun _ _ read => read.behind later

/-- The lines behind an open hunk go on with it, and the hunks behind are those of the headers. -/
theorem readAt_scanFrom (cursor : Option Cursor) (position : Nat) (ls : List (List Char)) :
    (∀ c, cursor = some c →
      Placed (ls.zipIdx position) (hunksOf (scanFrom cursor position ls)).1 ∧
        Counted c.nextOn c.leftOn (hunksOf (scanFrom cursor position ls)).1) ∧
      List.Forall₂ (Hunk.ReadAt (ls.zipIdx position)) (headersOf (ls.zipIdx position))
        (hunksOf (scanFrom cursor position ls)).2 := by
  -- By induction on the lines that are left: each leaves a hunk open or none, as `Reads` says.
  induction ls generalizing cursor position with
  | nil => exact ⟨fun c _ => ⟨placed_nil _, counted_nil _ _⟩, .nil⟩
  | cons line rest ih =>
      have later : ∀ place ∈ rest.zipIdx (position + 1), position < place.2 :=
        fun place member => List.le_snd_of_mem_zipIdx member
      rw [List.zipIdx_cons, scanFrom]
      have reads := reads_scanStep cursor position line
      generalize scanStep cursor position line = step at reads ⊢
      cases reads with
      | @opening _ h header =>
          obtain ⟨own, others⟩ := ih (some (.ofHeader h)) (position + 1)
          obtain ⟨placed, counted⟩ := own _ rfl
          refine ⟨fun c _ => ⟨placed_nil _, counted_nil _ _⟩, ?_⟩
          rw [headersOf, List.filterMap_cons_some (by rw [header]; rfl)]
          refine .cons (Hunk.readAt_opening later header placed counted) ?_
          exact others.imp fun _ _ read => read.behind later
      | closing other =>
          obtain ⟨-, others⟩ := ih none (position + 1)
          have nothing := hunksOf_scanFrom_none (position + 1) rest
          refine ⟨fun c _ => ?_, forall₂_readAt_behind later other others⟩
          exact ⟨nothing ▸ placed_nil _, nothing ▸ counted_nil _ _⟩
      | @marker c other mark =>
          obtain ⟨own, others⟩ := ih (some c) (position + 1)
          obtain ⟨placed, counted⟩ := own _ rfl
          refine ⟨fun c' same => ?_, forall₂_readAt_behind later other others⟩
          obtain rfl := Option.some.inj same
          exact ⟨placed.marker mark, counted⟩
      | @taken c other plain live =>
          obtain ⟨own, others⟩ := ih (some (c.pass position line).2) (position + 1)
          obtain ⟨placed, counted⟩ := own _ rfl
          have takes := c.takes_pass position plain
          refine ⟨fun c' same => ?_, forall₂_readAt_behind later other others⟩
          obtain rfl := Option.some.inj same
          exact ⟨placed.cons later takes.position takes.shows, takes.counted live counted⟩

/-- The hunks that are read of a diff are those of its headers. -/
theorem forall₂_readAt_hunksIn (diff : List Char) :
    List.Forall₂ (Hunk.ReadAt ((lines diff).zipIdx 1)) (headersOf ((lines diff).zipIdx 1))
      (hunksIn diff) :=
  (readAt_scanFrom none 1 (lines diff)).2

/-- Lines that are only in the new file are among those in the new file. -/
theorem Counted.added {next left : Side → Nat} {es : List Entry} (counted : Counted next left es) :
    (es.filterMap fun e => e.role.addedLine?).Pairwise (· < ·) := by
  have number {e : Entry} {n : Nat} (added : e.role.addedLine? = some n) :
      e.role.lineOn? .new = some n := by
    cases role : e.role with
    | added l =>
        rw [role] at added
        exact added
    | removed l =>
        rw [role] at added
        cases added
    | context l k =>
        rw [role] at added
        cases added
  have ascending := List.pairwise_filterMap.mp (counted.ascending .new)
  refine List.pairwise_filterMap.mpr (ascending.imp fun {a b} less n inA k inB => ?_)
  exact less n (number inA) k (number inB)

/-- Whatever a diff looks like, if no number leaves its bound, there is a hunk for each header that
can be read. Its lines stand one below another behind the header, with nothing but markers between
them; each is the text behind its mark; on either side it has the number that follows those of the
lines before it, and it is taken only while lines are left on a side. -/
theorem hunks_number_their_lines {diff : List Char} (numbered : Numbered diff) :
    ∃ m, LineMap.ofDiff diff = .ok m ∧
      List.Forall₂ (Hunk.ReadAt ((lines diff).zipIdx 1)) (headersOf ((lines diff).zipIdx 1))
        m.hunks ∧
      ∀ h ∈ m.hunks, (h.entries.filterMap fun e => e.role.addedLine?).Pairwise (· < ·) := by
  have reads := forall₂_readAt_hunksIn diff
  refine ⟨⟨hunksIn diff⟩, LineMap.ofDiff_eq_ok_iff.mpr ⟨numbered, rfl⟩, reads, ?_⟩
  intro h member
  obtain ⟨opening, -, read⟩ := exists_of_mem_right reads member
  exact read.counted.added

/-- A header that counts too many old lines and too few new ones, with a marker and a line without
a mark behind it. -/
def miscounted : List Char := "@@ -3,9 +4 @@\n-x\n\\ No newline\n+y\nz\n".toList

theorem hunk_of_miscounted : Numbered miscounted ∧
    ∃ m h, LineMap.ofDiff miscounted = .ok m ∧ m.hunks = [h] ∧
      h.ReadAt ((lines miscounted).zipIdx 1) (1, ⟨3, 9, 4, 1⟩) := by
  have numbered : Numbered miscounted := (events_eq_ok_iff.mp rfl).1
  refine ⟨numbered, ?_⟩
  obtain ⟨m, read, hunks, -⟩ := hunks_number_their_lines numbered
  have headers : headersOf ((lines miscounted).zipIdx 1) = [(1, ⟨3, 9, 4, 1⟩)] := by decide
  rw [headers] at hunks
  obtain ⟨h, rest, own, none, same⟩ := List.forall₂_cons_left_iff.mp hunks
  obtain rfl := List.forall₂_nil_left_iff.mp none
  exact ⟨m, h, read, same, own⟩

example : LineMap.ofDiff miscounted = .ok ⟨[⟨⟨3, 9, 4, 1⟩, [⟨2, .removed 3, "x"⟩,
    ⟨4, .added 4, "y"⟩, ⟨5, .context 4 5, "z"⟩]⟩]⟩ := rfl

end DiffScope.Diff
