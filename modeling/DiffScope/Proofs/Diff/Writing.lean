import DiffScope.Diff.LineMap
import DiffScope.Proofs.Diff.Header

/-! # Written diffs

A diff as it is meant: hunks of kept, inserted and deleted lines, with the starts that the hunks
have in the old and in the new file. It is written with markers behind lines and with other lines
between the hunks, which say nothing of the files. What should be read of it follows from counting
its lines.
-/

namespace DiffScope.Diff

open DiffScope.Text

/-- The file before the change and the file behind it. -/
inductive Side where
  | old
  | new
  deriving DecidableEq

/-- A text that can stand on a line of its own. -/
structure LineText where
  chars : List Char
  unbroken : '\n' ∉ chars
  /-- A carriage return at the end would be taken for a part of the line end. -/
  unreturned : chars.getLast? ≠ some '\r'

/-- What happens to a line. -/
inductive Change where
  | keep (text : LineText)
  | insert (text : LineText)
  | delete (text : LineText)

namespace Change

def text : Change → LineText
  | keep t | insert t | delete t => t

/-- Whether the line is in the file on a side. -/
def isOn : Side → Change → Bool
  | .old, insert _ => false
  | .new, delete _ => false
  | _, _ => true

/-- Whether the line is new. -/
def isInsert : Change → Bool
  | insert _ => true
  | _ => false

/-- The line as it is written; an empty kept line may be written bare, without its mark. -/
def line (isBare : Bool) : Change → List Char
  | keep t => if isBare && t.chars.isEmpty then [] else ' ' :: t.chars
  | insert t => '+' :: t.chars
  | delete t => '-' :: t.chars

/-- How the line stands to the files, when it comes next in them. -/
def roleAt (next : Side → Nat) : Change → Role
  | keep _ => .context (next .old) (next .new)
  | insert _ => .added (next .new)
  | delete _ => .removed (next .old)

end Change

/-- A line that says something of the line before it, behind a backslash. -/
structure Marker where
  chars : List Char
  unbroken : '\n' ∉ chars

/-- A line between hunks, which is not meant to open one. -/
structure Filler where
  chars : List Char
  unbroken : '\n' ∉ chars
  silent : ¬"@@".toList <+: chars

/-- A line of a hunk, how it is written, and the markers behind it. -/
structure BodyLine where
  change : Change
  isBare : Bool
  markers : List Marker

/-- The lines that a line of a hunk is written as. -/
def BodyLine.lines (b : BodyLine) : List (List Char) :=
  b.change.line b.isBare :: b.markers.map fun m => '\\' :: m.chars

/-- How many lines of a hunk are in the file on a side. -/
def countOn (s : Side) (body : List BodyLine) : Nat :=
  body.countP fun b => b.change.isOn s

/-- A hunk with the lines that follow it. -/
structure WrittenHunk where
  start : Side → Nat
  body : List BodyLine
  fillers : List Filler
  bounded : ∀ s, start s + countOn s body < countBound

namespace WrittenHunk

/-- The header that tells the starts and the true counts. -/
def header (h : WrittenHunk) : Header :=
  ⟨h.start .old, countOn .old h.body, h.start .new, countOn .new h.body⟩

def lines (h : WrittenHunk) : List (List Char) :=
  h.header.line :: h.body.flatMap BodyLine.lines ++ h.fillers.map Filler.chars

/-- The changes to lines on a side, each with the number of its line. -/
def numberedOn (h : WrittenHunk) (s : Side) : List (Change × Nat) :=
  ((h.body.map BodyLine.change).filter (Change.isOn s)).zipIdx (h.start s)

/-- The number is that of a line of the hunk. -/
def Covers (h : WrittenHunk) (s : Side) (n : Nat) : Prop :=
  h.start s ≤ n ∧ n < h.start s + countOn s h.body

end WrittenHunk

/-- Hunks, with lines before the first of them. -/
structure WrittenDiff where
  preamble : List Filler
  hunks : List WrittenHunk

namespace WrittenDiff

def lines (d : WrittenDiff) : List (List Char) :=
  d.preamble.map Filler.chars ++ d.hunks.flatMap WrittenHunk.lines

/-- The text of the diff, every line of it ended. -/
def text (d : WrittenDiff) : List Char :=
  d.lines.flatMap fun l => l ++ ['\n']

/-- The changes to lines on a side, each with the number of its line. -/
def numberedOn (d : WrittenDiff) (s : Side) : List (Change × Nat) :=
  d.hunks.flatMap fun h => h.numberedOn s

/-- No two hunks have lines of one number on a side. -/
def Apart (d : WrittenDiff) (s : Side) : Prop :=
  d.hunks.Pairwise fun a b => ∀ n, ¬(a.Covers s n ∧ b.Covers s n)

end WrittenDiff

/-! ## What should be read -/

/-- The next lines of the files behind a change. -/
def Change.behind (next : Side → Nat) (c : Change) (s : Side) : Nat :=
  next s + if c.isOn s then 1 else 0

/-- The lines of a hunk from a position of the diff and from lines of the files on. -/
def entriesFrom (position : Nat) (next : Side → Nat) : List BodyLine → List Entry
  | [] => []
  | b :: bs => ⟨position, b.change.roleAt next, String.ofList b.change.text.chars⟩ ::
      entriesFrom (position + b.lines.length) (b.change.behind next) bs

/-- The hunks from a position of the diff on. -/
def hunksFrom (position : Nat) : List WrittenHunk → List Hunk
  | [] => []
  | h :: hs => ⟨h.header, entriesFrom (position + 1) h.start h.body⟩ ::
      hunksFrom (position + h.lines.length) hs

/-- The hunks of a diff; its lines are counted from one. -/
def WrittenDiff.meant (d : WrittenDiff) : List Hunk :=
  hunksFrom (1 + d.preamble.length) d.hunks

end DiffScope.Diff
