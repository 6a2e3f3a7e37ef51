import DiffScope.Proofs.Diff.Joining
import DiffScope.Proofs.Diff.Numbering

/-! # Strict reading

A diff is read strictly by looking at its header lines first, each for itself. The scan of the diff
meets the same lines, whatever state they find it in. So a diff that is read strictly has the map that
it always has, with a hunk for each header line.
-/

namespace DiffScope.Diff

open DiffScope.Checked DiffScope.Text

/-! ## Header lines -/

/-- The lines that are meant as headers. -/
def headerLines (diff : List Char) : List (List Char) :=
  (lines diff).filter fun line => "@@".toList <+: line

/-- Those of them that begin with a header. -/
def readableLines (diff : List Char) : List (List Char) :=
  (headerLines diff).filter fun line => (Header.ofLine? line).isSome

theorem isSome_ofLine?_iff {line : List Char} :
    (Header.ofLine? line).isSome = true ↔ ∃ h : Header, h.Begins line := by
  simp only [Option.isSome_iff_exists, Header.ofLine?_eq_some_iff]

theorem opensHunk_iff {line : List Char} : opensHunk line = true ↔ "@@".toList <+: line :=
  isSome_after?_iff

/-- A line that begins with a header is meant as one. -/
theorem readableLines_eq (diff : List Char) :
    readableLines diff = (lines diff).filter fun line => (Header.ofLine? line).isSome := by
  rw [readableLines, headerLines, List.filter_filter]
  refine List.filter_congr fun line _ => ?_
  cases header : Header.ofLine? line with
  | none => rfl
  | some h =>
      have opens := opensHunk_iff.mp (opensHunk_of_ofLine? header)
      rw [decide_eq_true opens]
      rfl

theorem forall₂_filterMap {α β : Type} (f : α → Option β) (xs : List α) :
    List.Forall₂ (fun x y => f x = some y) (xs.filter fun x => (f x).isSome) (xs.filterMap f) := by
  induction xs with
  | nil => exact .nil
  | cons x xs ih =>
      cases value : f x with
      | none =>
          rw [List.filter_cons_of_neg (by simp [value]), List.filterMap_cons_none value]
          exact ih
      | some y =>
          rw [List.filter_cons_of_pos (by simp [value]), List.filterMap_cons_some value]
          exact .cons value ih

/-- There is a hunk for each line that begins with a header, whatever state the line was met in. -/
theorem map_header_hunksIn (diff : List Char) :
    (hunksIn diff).map Hunk.header = (lines diff).filterMap Header.ofLine? := by
  have headers : (headersOf ((lines diff).zipIdx 1)).map Prod.snd =
      (hunksIn diff).map Hunk.header := by
    rw [← List.forall₂_eq_eq_eq, List.forall₂_map_left_iff, List.forall₂_map_right_iff]
    exact (forall₂_readAt_hunksIn diff).imp fun _ _ read => read.header.symm
  have places : (lines diff).filterMap Header.ofLine? =
      ((lines diff).zipIdx 1).filterMap fun place => Header.ofLine? place.1 := by
    conv_lhs => rw [← List.zipIdx_map_fst 1 (lines diff), List.filterMap_map]
    rfl
  rw [← headers, headersOf, List.map_filterMap, places]
  congr 1
  funext place
  cases Header.ofLine? place.1 <;> rfl

theorem forall₂_begins_hunksIn (diff : List Char) :
    List.Forall₂ (fun line h => h.header.Begins line) (readableLines diff) (hunksIn diff) := by
  have headers := forall₂_filterMap Header.ofLine? (lines diff)
  rw [← readableLines_eq, ← map_header_hunksIn, List.forall₂_map_right_iff] at headers
  exact headers.imp fun _ _ read => Header.begins_of_ofLine? read

/-! ## The first line that cannot be read -/

/-- The line is meant as a header and is none, and those before it begin with headers. -/
def IsFirstMalformed (diff line : List Char) : Prop :=
  ∃ before after, headerLines diff = before ++ line :: after ∧
    (∀ earlier ∈ before, ∃ h : Header, h.Begins earlier) ∧ ¬∃ h : Header, h.Begins line

theorem malformed?_eq (diff : List Char) :
    LineMap.malformed? diff = (headerLines diff).find? fun l => (Header.ofLine? l).isNone := by
  rw [LineMap.malformed?, headerLines, List.find?_filter]
  congr 1
  funext line
  rw [Bool.eq_iff_iff]
  simp [opensHunk_iff]

theorem malformed?_eq_some_iff {diff line : List Char} :
    LineMap.malformed? diff = some line ↔ IsFirstMalformed diff line := by
  have unread (l : List Char) : (Header.ofLine? l).isNone = true ↔ ¬∃ h : Header, h.Begins l := by
    rw [← isSome_ofLine?_iff]
    simp
  rw [malformed?_eq, List.find?_eq_some_iff_append, unread]
  constructor
  · rintro ⟨none, before, after, split, readable⟩
    refine ⟨before, after, split, fun l member => ?_, none⟩
    rw [← isSome_ofLine?_iff]
    simpa using readable l member
  · rintro ⟨before, after, split, readable, none⟩
    refine ⟨none, before, after, split, fun l member => ?_⟩
    have read := isSome_ofLine?_iff.mpr (readable l member)
    simpa using read

theorem malformed?_eq_none_iff {diff : List Char} :
    LineMap.malformed? diff = none ↔ ∀ line ∈ headerLines diff, ∃ h : Header, h.Begins line := by
  rw [malformed?_eq, List.find?_eq_none]
  simp only [← isSome_ofLine?_iff, Option.isNone_iff_eq_none, Option.isSome_iff_ne_none, ne_eq]

/-! ## Both readings -/

theorem ofStrictDiff_of_malformed {diff line : List Char} (first : IsFirstMalformed diff line) :
    LineMap.ofStrictDiff diff = .ok (.error (.invalidHeader (.ofList line))) := by
  rw [LineMap.ofStrictDiff, malformed?_eq_some_iff.mpr first]

theorem readableLines_of_readable {diff : List Char}
    (readable : ∀ line ∈ headerLines diff, ∃ h : Header, h.Begins line) :
    readableLines diff = headerLines diff :=
  List.filter_eq_self.mpr fun line member => isSome_ofLine?_iff.mpr (readable line member)

section Built

variable {diff : List Char} {m : LineMap}

/-- Where every header line can be read, there is a map if there is a header line. -/
theorem ofStrictDiff_of_readable (built : LineMap.ofDiff diff = .ok m)
    (readable : ∀ line ∈ headerLines diff, ∃ h : Header, h.Begins line) :
    LineMap.ofStrictDiff diff =
      .ok (if headerLines diff = [] then .error .noHunk else .ok m) := by
  obtain ⟨-, rfl⟩ := LineMap.ofDiff_eq_ok_iff.mp built
  have hunks := forall₂_begins_hunksIn diff
  rw [readableLines_of_readable readable] at hunks
  have bare : (hunksIn diff).isEmpty = true ↔ headerLines diff = [] := by
    rw [List.isEmpty_iff, ← List.length_eq_zero_iff, ← hunks.length_eq, List.length_eq_zero_iff]
  rw [LineMap.ofStrictDiff, malformed?_eq_none_iff.mpr readable, built]
  simp only [← bare]
  rfl

/-- Either a first header line cannot be read, or all can. -/
theorem exists_isFirstMalformed_or (diff : List Char) :
    (∃ line, IsFirstMalformed diff line) ∨
      ∀ line ∈ headerLines diff, ∃ h : Header, h.Begins line := by
  rw [← malformed?_eq_none_iff]
  simp only [← malformed?_eq_some_iff]
  cases LineMap.malformed? diff <;> simp

theorem IsFirstMalformed.not_readable {line : List Char} (first : IsFirstMalformed diff line) :
    ¬∀ line ∈ headerLines diff, ∃ h : Header, h.Begins line := by
  obtain ⟨before, after, split, -, none⟩ := first
  intro readable
  exact none (readable line (by simp [split]))

theorem IsFirstMalformed.unique {line line' : List Char} (first : IsFirstMalformed diff line)
    (first' : IsFirstMalformed diff line') : line = line' := by
  rw [← malformed?_eq_some_iff] at first first'
  exact Option.some.inj (first.symm.trans first')

theorem ofStrictDiff_eq_ok_iff (built : LineMap.ofDiff diff = .ok m) {m' : LineMap} :
    LineMap.ofStrictDiff diff = .ok (.ok m') ↔ headerLines diff ≠ [] ∧
      (∀ line ∈ headerLines diff, ∃ h : Header, h.Begins line) ∧ m' = m := by
  rcases exists_isFirstMalformed_or diff with ⟨line, first⟩ | readable
  · rw [ofStrictDiff_of_malformed first]
    constructor
    · exact nofun
    · rintro ⟨-, readable, -⟩
      exact absurd readable first.not_readable
  · rw [ofStrictDiff_of_readable built readable]
    by_cases bare : headerLines diff = []
    · simp [bare]
    · rw [if_neg bare, Except.ok.injEq, Except.ok.injEq]
      exact ⟨fun same => ⟨bare, readable, same.symm⟩, fun same => same.2.2.symm⟩

theorem ofStrictDiff_eq_error_iff (built : LineMap.ofDiff diff = .ok m) {e : DiffError} :
    LineMap.ofStrictDiff diff = .ok (.error e) ↔
      (∃ line, IsFirstMalformed diff line ∧ e = .invalidHeader (.ofList line)) ∨
      (headerLines diff = [] ∧ e = .noHunk) := by
  rcases exists_isFirstMalformed_or diff with ⟨line, first⟩ | readable
  · rw [ofStrictDiff_of_malformed first]
    constructor
    · intro same
      obtain rfl := Except.error.inj (Except.ok.inj same)
      exact .inl ⟨line, first, rfl⟩
    · rintro (⟨line', first', rfl⟩ | ⟨bare, -⟩)
      · rw [first.unique first']
      · exact absurd (by simp [bare]) first.not_readable
  · have none (line : List Char) : ¬IsFirstMalformed diff line := fun first =>
      first.not_readable readable
    rw [ofStrictDiff_of_readable built readable]
    by_cases bare : headerLines diff = []
    · simp [bare, none, eq_comm]
    · simp [bare, none]

end Built

/-- The map of a diff has one hunk for each line that begins with a header, in their order, and the
hunk has the header that its line begins with. To read the diff strictly gives the same map if there
are header lines and each begins with a header, so that each has its hunk. If one does not, the first
that does not is the reason why there is no map; and if there are none, that is the reason. -/
theorem strict_reading_agrees {diff : List Char} {m : LineMap}
    (built : LineMap.ofDiff diff = .ok m) :
    List.Forall₂ (fun line h => h.header.Begins line) (readableLines diff) m.hunks ∧
    (∀ m', LineMap.ofStrictDiff diff = .ok (.ok m') ↔ headerLines diff ≠ [] ∧
      (∀ line ∈ headerLines diff, ∃ h : Header, h.Begins line) ∧ m' = m) ∧
    (∀ m', LineMap.ofStrictDiff diff = .ok (.ok m') →
      List.Forall₂ (fun line h => h.header.Begins line) (headerLines diff) m'.hunks) ∧
    ∀ e, LineMap.ofStrictDiff diff = .ok (.error e) ↔
      (∃ line, IsFirstMalformed diff line ∧ e = .invalidHeader (.ofList line)) ∨
      (headerLines diff = [] ∧ e = .noHunk) := by
  have hunks : List.Forall₂ (fun line h => h.header.Begins line) (readableLines diff) m.hunks := by
    obtain ⟨-, rfl⟩ := LineMap.ofDiff_eq_ok_iff.mp built
    exact forall₂_begins_hunksIn diff
  refine ⟨hunks, fun m' => ofStrictDiff_eq_ok_iff built, fun m' read => ?_,
    fun e => ofStrictDiff_eq_error_iff built⟩
  obtain ⟨-, readable, rfl⟩ := (ofStrictDiff_eq_ok_iff built).mp read
  rwa [readableLines_of_readable readable] at hunks

/-- A hunk with more lines than it counts, a header that cannot be read, and one that can. -/
def patchedText : List Char := "@@ -1 +1 @@\n a\n beyond\n@@ what @@\n+x\n@@ -9,0 +9 @@\n+y\n".toList

def patchedMap : LineMap :=
  ⟨[⟨⟨1, 1, 1, 1⟩, [⟨2, .context 1 1, "a"⟩]⟩, ⟨⟨9, 0, 9, 1⟩, [⟨7, .added 9, "y"⟩]⟩]⟩

theorem strict_reading_of_patchedText : LineMap.ofDiff patchedText = .ok patchedMap ∧
    LineMap.ofStrictDiff patchedText = .ok (.error (.invalidHeader "@@ what @@")) := by
  have built : LineMap.ofDiff patchedText = .ok patchedMap := rfl
  refine ⟨built, ((strict_reading_agrees built).2.2.2 _).mpr (.inl ⟨_, ?_, rfl⟩)⟩
  have lines : headerLines patchedText =
      ["@@ -1 +1 @@".toList, "@@ what @@".toList, "@@ -9,0 +9 @@".toList] := by decide
  refine ⟨["@@ -1 +1 @@".toList], ["@@ -9,0 +9 @@".toList], lines, ?_, ?_⟩
  · intro earlier member
    obtain rfl := List.mem_singleton.mp member
    exact ⟨⟨1, 1, 1, 1⟩, Header.begins_of_ofLine? rfl⟩
  · rw [← isSome_ofLine?_iff]
    decide

end DiffScope.Diff
