import DiffScope.Diff.AddedLines
import DiffScope.Diff.Header

/-!
# Line maps

The lines of a unified diff, each with its number in the old and in the new file. Only lines inside
a hunk count: a hunk begins with a header and ends when the header's counts are used up, at the next
line that is meant as a header, or at the next file of the diff.
-/

namespace DiffScope.Diff

open DiffScope.Text

/-- How a line of a hunk stands to the two files, with its numbers there. -/
inductive Role where
  /-- Only in the new file. -/
  | added (newLine : Nat)
  /-- Only in the old file. -/
  | removed (oldLine : Nat)
  /-- In both files. -/
  | context (oldLine newLine : Nat)
  deriving DecidableEq, Repr

namespace Role

def name : Role → String
  | added _ => "added"
  | removed _ => "removed"
  | context .. => "context"

def oldLine? : Role → Option Nat
  | added _ => none
  | removed o => some o
  | context o _ => some o

def newLine? : Role → Option Nat
  | added n => some n
  | removed _ => none
  | context _ n => some n

/-- Number in the new file of a line that is only there. -/
def addedLine? : Role → Option Nat
  | added n => some n
  | _ => none

end Role

/-- A line of a hunk. -/
structure Entry where
  /-- Line of the diff, counted from one. -/
  position : Nat
  role : Role
  /-- The line without its mark. -/
  text : String
  deriving DecidableEq, Repr

/-- A hunk with its lines. -/
structure Hunk where
  header : Header
  entries : List Entry
  deriving DecidableEq, Repr

/-- The hunks of a diff. -/
structure LineMap where
  hunks : List Hunk
  deriving DecidableEq, Repr

/-! ## Reading a diff line by line -/

/-- Where a hunk has got to: the next line of either file and how many are left. -/
structure Cursor where
  oldLine : Nat
  newLine : Nat
  oldLeft : Nat
  newLeft : Nat
  deriving DecidableEq, Repr

namespace Cursor

def ofHeader (h : Header) : Cursor :=
  ⟨h.oldStart, h.newStart, h.oldLen, h.newLen⟩

/-- Whether the hunk has all its lines. -/
def isSpent (c : Cursor) : Bool :=
  c.oldLeft = 0 && c.newLeft = 0

def passOld (c : Cursor) : Except Overflow Cursor := do
  let next ← Overflow.plus c.oldLine 1
  return { c with oldLine := next, oldLeft := c.oldLeft - 1 }

def passNew (c : Cursor) : Except Overflow Cursor := do
  let next ← Overflow.plus c.newLine 1
  return { c with newLine := next, newLeft := c.newLeft - 1 }

/-- The line of a hunk at a position, and where the hunk is behind it. -/
def take (c : Cursor) (position : Nat) : List Char → Except Overflow (Entry × Cursor)
  | '+' :: text => do
    return (⟨position, .added c.newLine, String.ofList text⟩, ← c.passNew)
  | '-' :: text => do
    return (⟨position, .removed c.oldLine, String.ofList text⟩, ← c.passOld)
  | line => do
    let text := match line with
      | ' ' :: text => text
      | _ => line
    let behind ← (← c.passOld).passNew
    return (⟨position, .context c.oldLine c.newLine, String.ofList text⟩, behind)

end Cursor

/-- What a line of a diff brings. -/
inductive Event where
  | opening (header : Header)
  | line (entry : Entry)
  deriving DecidableEq, Repr

/-- What a line of a diff brings, and where the open hunk is behind it. -/
def step (cursor : Option Cursor) (position : Nat) (line : List Char) :
    Except Overflow (Option Event × Option Cursor) :=
  if opensHunk line then
    match Header.ofLine? line with
    | some h => .ok (some (.opening h), some (.ofHeader h))
    | none => .ok (none, none)
  else if (after? "diff --git".toList line).isSome then .ok (none, none)
  else match cursor with
    | none => .ok (none, none)
    | some c =>
      if line.head? = some '\\' then .ok (none, some c)
      else if c.isSpent then .ok (none, none)
      else do
        let (entry, behind) ← c.take position line
        return (some (.line entry), some behind)

/-- What the lines of a diff bring from a position on. -/
def eventsFrom (cursor : Option Cursor) (position : Nat) :
    List (List Char) → Except Overflow (List Event)
  | [] => .ok []
  | line :: rest => do
    let (event, behind) ← step cursor position line
    let events ← eventsFrom behind (position + 1) rest
    return event.toList ++ events

/-- What the lines of a diff bring. -/
def events (diff : List Char) : Except Overflow (List Event) :=
  eventsFrom none 1 (lines diff)

/-- Adds what a line brings in front of the hunks behind it. -/
def consEvent : Event → List Entry × List Hunk → List Entry × List Hunk
  | .opening h, (entries, hunks) => ([], ⟨h, entries⟩ :: hunks)
  | .line e, (entries, hunks) => (e :: entries, hunks)

/-- The lines before the first opening, and the hunks from there on. -/
def hunksOf (events : List Event) : List Entry × List Hunk :=
  events.foldr consEvent ([], [])

namespace LineMap

/-- The map of a diff. Malformed headers bring nothing. -/
def ofDiff (diff : List Char) : Except Overflow LineMap := do
  return ⟨(hunksOf (← events diff)).2⟩

/-- The first line that is meant as a header and is none. -/
def malformed? (diff : List Char) : Option (List Char) :=
  (lines diff).find? fun l => opensHunk l && (Header.ofLine? l).isNone

/-- The map of a diff that has a hunk and no malformed header. -/
def ofStrictDiff (diff : List Char) : Except Overflow (Except DiffError LineMap) :=
  match malformed? diff with
  | some line => .ok (.error (.invalidHeader (String.ofList line)))
  | none => do
    let map ← ofDiff diff
    return if map.hunks.isEmpty then .error .noHunk else .ok map

def entries (m : LineMap) : List Entry :=
  m.hunks.flatMap Hunk.entries

/-- The lines that are only in the new file. -/
def addedLines (m : LineMap) : AddedLines :=
  .ofList (m.entries.filterMap fun e => e.role.addedLine?)

/-- The text of a line of the new file, if the diff shows it. -/
def newLineText? (m : LineMap) (line : Nat) : Option String :=
  (m.entries.find? fun e => e.role.newLine? = some line).map Entry.text

/-- The text of a line of the old file, if the diff shows it. -/
def oldLineText? (m : LineMap) (line : Nat) : Option String :=
  (m.entries.find? fun e => e.role.oldLine? = some line).map Entry.text

end LineMap

/-- Position and number of an entry that is only in the new file. -/
def Event.addedPosition? : Event → Option (Nat × Nat)
  | .line e => e.role.addedLine?.map (e.position, ·)
  | .opening _ => none

/-- Position and number of each line that a diff adds. -/
def addedPositions (diff : List Char) : Except Overflow (List (Nat × Nat)) := do
  return (← events diff).filterMap Event.addedPosition?

/-- The lines that a diff adds. -/
def AddedLines.ofDiff (diff : List Char) : Except Overflow AddedLines := do
  return .ofList ((← addedPositions diff).map Prod.snd)

end DiffScope.Diff
