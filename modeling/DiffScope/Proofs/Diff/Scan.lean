import DiffScope.Diff.LineMap
import DiffScope.Proofs.Checked

/-! # Reading a diff without a bound

If numbers had no bound, every diff could be read. A diff is read with the bound exactly when every
line of a hunk that the reading without a bound meets leaves room for the number of the next line,
and then both readings are the same.
-/

namespace DiffScope.Diff

open DiffScope.Checked DiffScope.Text

/-- The number is followed by another. -/
def Role.Fits : Role → Prop
  | .added n => n + 1 < countBound
  | .removed o => o + 1 < countBound
  | .context o n => o + 1 < countBound ∧ n + 1 < countBound

/-- The numbers of a line of a hunk are followed by others. -/
def Event.Fits : Event → Prop
  | .opening _ => True
  | .line e => e.role.Fits

/-- The text of a line that is in both files. -/
def contextText (line : List Char) : List Char :=
  match line with
  | ' ' :: text => text
  | _ => line

namespace Cursor

/-- The line of a hunk at a position, and where the hunk is behind it, without a bound. -/
def pass (c : Cursor) (position : Nat) : List Char → Entry × Cursor
  | '+' :: text => (⟨position, .added c.newLine, String.ofList text⟩,
      { c with newLine := c.newLine + 1, newLeft := c.newLeft - 1 })
  | '-' :: text => (⟨position, .removed c.oldLine, String.ofList text⟩,
      { c with oldLine := c.oldLine + 1, oldLeft := c.oldLeft - 1 })
  | line => (⟨position, .context c.oldLine c.newLine, String.ofList (contextText line)⟩,
      ⟨c.oldLine + 1, c.newLine + 1, c.oldLeft - 1, c.newLeft - 1⟩)

theorem pass_context {c : Cursor} {position : Nat} {line : List Char}
    (notAdded : ∀ text, line ≠ '+' :: text) (notRemoved : ∀ text, line ≠ '-' :: text) :
    c.pass position line =
      (⟨position, .context c.oldLine c.newLine, String.ofList (contextText line)⟩,
        ⟨c.oldLine + 1, c.newLine + 1, c.oldLeft - 1, c.newLeft - 1⟩) := by
  unfold pass
  split
  next text => exact absurd rfl (notAdded text)
  next text => exact absurd rfl (notRemoved text)
  next => rfl

theorem passOld_eq_ok_iff {c d : Cursor} : c.passOld = .ok d ↔
    c.oldLine + 1 < countBound ∧
      d = { c with oldLine := c.oldLine + 1, oldLeft := c.oldLeft - 1 } := by
  rw [passOld, bind_eq_ok]
  constructor
  · rintro ⟨next, counted, rest⟩
    obtain ⟨rfl, bound⟩ := plus_eq_ok_iff.mp counted
    exact ⟨bound, (Except.ok.inj rest).symm⟩
  · rintro ⟨bound, rfl⟩
    exact ⟨_, plus_eq_ok_iff.mpr ⟨rfl, bound⟩, rfl⟩

theorem passNew_eq_ok_iff {c d : Cursor} : c.passNew = .ok d ↔
    c.newLine + 1 < countBound ∧
      d = { c with newLine := c.newLine + 1, newLeft := c.newLeft - 1 } := by
  rw [passNew, bind_eq_ok]
  constructor
  · rintro ⟨next, counted, rest⟩
    obtain ⟨rfl, bound⟩ := plus_eq_ok_iff.mp counted
    exact ⟨bound, (Except.ok.inj rest).symm⟩
  · rintro ⟨bound, rfl⟩
    exact ⟨_, plus_eq_ok_iff.mpr ⟨rfl, bound⟩, rfl⟩

theorem take_eq_ok_iff {c : Cursor} {position : Nat} {line : List Char} {r : Entry × Cursor} :
    c.take position line = .ok r ↔
      (c.pass position line).1.role.Fits ∧ r = c.pass position line := by
  unfold take
  split
  next text =>
    rw [bind_eq_ok]
    constructor
    · rintro ⟨d, passed, rest⟩
      obtain ⟨bound, rfl⟩ := passNew_eq_ok_iff.mp passed
      exact ⟨bound, (Except.ok.inj rest).symm⟩
    · rintro ⟨bound, rfl⟩
      exact ⟨_, passNew_eq_ok_iff.mpr ⟨bound, rfl⟩, rfl⟩
  next text =>
    rw [bind_eq_ok]
    constructor
    · rintro ⟨d, passed, rest⟩
      obtain ⟨bound, rfl⟩ := passOld_eq_ok_iff.mp passed
      exact ⟨bound, (Except.ok.inj rest).symm⟩
    · rintro ⟨bound, rfl⟩
      exact ⟨_, passOld_eq_ok_iff.mpr ⟨bound, rfl⟩, rfl⟩
  next notAdded notRemoved =>
    rw [bind_eq_ok, pass_context notAdded notRemoved]
    constructor
    · rintro ⟨d, passed, rest⟩
      obtain ⟨e, further, rest⟩ := bind_eq_ok.mp rest
      obtain ⟨oldBound, rfl⟩ := passOld_eq_ok_iff.mp passed
      obtain ⟨newBound, rfl⟩ := passNew_eq_ok_iff.mp further
      exact ⟨⟨oldBound, newBound⟩, (Except.ok.inj rest).symm⟩
    · rintro ⟨⟨oldBound, newBound⟩, rfl⟩
      exact ⟨_, passOld_eq_ok_iff.mpr ⟨oldBound, rfl⟩,
        bind_eq_ok.mpr ⟨_, passNew_eq_ok_iff.mpr ⟨newBound, rfl⟩, rfl⟩⟩

end Cursor

/-- What a line of a diff brings, and where the open hunk is behind it, without a bound. -/
def scanStep (cursor : Option Cursor) (position : Nat) (line : List Char) :
    Option Event × Option Cursor :=
  if opensHunk line then
    match Header.ofLine? line with
    | some h => (some (.opening h), some (.ofHeader h))
    | none => (none, none)
  else if (after? "diff --git".toList line).isSome then (none, none)
  else match cursor with
    | none => (none, none)
    | some c =>
      if line.head? = some '\\' then (none, some c)
      else if c.isSpent then (none, none)
      else (some (.line (c.pass position line).1), some (c.pass position line).2)

/-- What the lines of a diff bring from a position on, without a bound. -/
def scanFrom (cursor : Option Cursor) (position : Nat) : List (List Char) → List Event
  | [] => []
  | line :: rest =>
    (scanStep cursor position line).1.toList ++
      scanFrom (scanStep cursor position line).2 (position + 1) rest

/-- What the lines of a diff bring, without a bound. -/
def scan (diff : List Char) : List Event :=
  scanFrom none 1 (lines diff)

/-- A line that is taken for one of a hunk brings an event whose numbers have to fit. -/
theorem take_line_eq_ok_iff {c : Cursor} {position : Nat} {line : List Char}
    {r : Option Event × Option Cursor} :
    (do
      let (entry, behind) ← c.take position line
      return (some (.line entry), some behind)) = (.ok r : Except Overflow _) ↔
      (c.pass position line).1.role.Fits ∧
        r = (some (.line (c.pass position line).1), some (c.pass position line).2) := by
  rw [bind_eq_ok]
  constructor
  · rintro ⟨taken, takes, rest⟩
    obtain ⟨bound, rfl⟩ := Cursor.take_eq_ok_iff.mp takes
    exact ⟨bound, (Except.ok.inj rest).symm⟩
  · rintro ⟨bound, rfl⟩
    exact ⟨_, Cursor.take_eq_ok_iff.mpr ⟨bound, rfl⟩, rfl⟩

theorem step_eq_ok_iff {cursor : Option Cursor} {position : Nat} {line : List Char}
    {r : Option Event × Option Cursor} :
    step cursor position line = .ok r ↔
      (∀ e ∈ (scanStep cursor position line).1, e.Fits) ∧ r = scanStep cursor position line := by
  have silent {cursor : Option Cursor} : (Except.ok (none, cursor) : Except Overflow _) = .ok r ↔
      (∀ e ∈ (none : Option Event), e.Fits) ∧ r = (none, cursor) := by
    simp [eq_comm]
  unfold step scanStep
  cases opensHunk line with
  | true =>
      simp only [if_true]
      cases Header.ofLine? line with
      | none => exact silent
      | some h => simp [Event.Fits, eq_comm]
  | false =>
      simp only [Bool.false_eq_true, if_false]
      cases (after? "diff --git".toList line).isSome with
      | true => exact silent
      | false =>
          cases cursor with
          | none => exact silent
          | some c =>
              simp only [Bool.false_eq_true, if_false]
              by_cases marker : line.head? = some '\\'
              · simp only [marker, if_true]
                exact silent
              · simp only [marker, if_false]
                cases c.isSpent with
                | true => exact silent
                | false =>
                    rw [if_neg Bool.false_ne_true, take_line_eq_ok_iff]
                    simp [Event.Fits]

theorem eventsFrom_eq_ok_iff {cursor : Option Cursor} {position : Nat} {ls : List (List Char)}
    {es : List Event} :
    eventsFrom cursor position ls = .ok es ↔
      (∀ e ∈ scanFrom cursor position ls, e.Fits) ∧ es = scanFrom cursor position ls := by
  induction ls generalizing cursor position es with
  | nil => simp [eventsFrom, scanFrom, eq_comm]
  | cons line rest ih =>
      rw [eventsFrom, bind_eq_ok, scanFrom]
      simp only [List.forall_mem_append, Option.mem_toList]
      constructor
      · rintro ⟨here, steps, later⟩
        obtain ⟨fits, rfl⟩ := step_eq_ok_iff.mp steps
        obtain ⟨events, found, same⟩ := bind_eq_ok.mp later
        obtain ⟨others, rfl⟩ := ih.mp found
        exact ⟨⟨fits, others⟩, (Except.ok.inj same).symm⟩
      · rintro ⟨⟨fits, others⟩, rfl⟩
        exact ⟨_, step_eq_ok_iff.mpr ⟨fits, rfl⟩, bind_eq_ok.mpr ⟨_, ih.mpr ⟨others, rfl⟩, rfl⟩⟩

/-- Every line of a hunk has numbers that are followed by others. -/
def Numbered (diff : List Char) : Prop := ∀ e ∈ scan diff, e.Fits

theorem events_eq_ok_iff {diff : List Char} {es : List Event} :
    events diff = .ok es ↔ Numbered diff ∧ es = scan diff :=
  eventsFrom_eq_ok_iff

/-- The lines that a diff adds, read without a bound. -/
def addedBy (diff : List Char) : AddedLines :=
  .ofList (((scan diff).filterMap Event.addedPosition?).map Prod.snd)

theorem ofDiff_eq_ok_iff {diff : List Char} {added : AddedLines} :
    AddedLines.ofDiff diff = .ok added ↔ Numbered diff ∧ added = addedBy diff := by
  rw [AddedLines.ofDiff, bind_eq_ok]
  constructor
  · rintro ⟨positions, placed, rest⟩
    obtain ⟨es, found, same⟩ := bind_eq_ok.mp placed
    obtain ⟨numbered, rfl⟩ := events_eq_ok_iff.mp found
    obtain rfl := Except.ok.inj same
    exact ⟨numbered, (Except.ok.inj rest).symm⟩
  · rintro ⟨numbered, rfl⟩
    exact ⟨_, bind_eq_ok.mpr ⟨_, events_eq_ok_iff.mpr ⟨numbered, rfl⟩, rfl⟩, rfl⟩

end DiffScope.Diff
