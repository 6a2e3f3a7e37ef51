import DiffScope.Config.Basic
import DiffScope.Snippet.Window
import DiffScope.Text.Decimal
import DiffScope.Text.Lines

/-!
# Snippets

How much of a unit's text is shown. A text of too many characters is cut off behind the last that
is allowed; one of too many lines is shown as numbered lines around the added ones; any other is
shown as it is.
-/

namespace DiffScope.Snippet

open DiffScope.Text

/-- How a text was shortened. -/
inductive Truncation where
  | none
  /-- It was cut off behind the last character allowed. -/
  | charLimit
  /-- Only lines around the added ones are shown. -/
  | lineLimit
  deriving DecidableEq, Repr, Inhabited

namespace Truncation

/-- The ways of shortening in order. -/
def all : List Truncation := [none, charLimit, lineLimit]

def name : Truncation → String
  | none => "none"
  | charLimit => "char_limit"
  | lineLimit => "line_limit"

def ofName? (s : String) : Option Truncation :=
  all.find? fun r => r.name = s

theorem ofName?_name (r : Truncation) : ofName? r.name = some r := by
  cases r <;> decide

end Truncation

/-- What is shown of a unit. -/
structure Shown where
  text : List Char
  reason : Truncation
  /-- A note on what is shown, if it is numbered lines. -/
  summary : Option String
  deriving DecidableEq, Repr

def Shown.isTruncated (s : Shown) : Bool := s.reason != .none

/-- The limits for the text of units. -/
structure Policy where
  maxChars : Nat
  /-- Lines of a unit that is shown whole. -/
  maxLines : Nat
  /-- Lines shown on either side of an added line. -/
  radius : Nat
  /-- The line of the file on which line 1 of the text is. -/
  firstLine : Nat
  deriving DecidableEq, Repr

/-- The limits of the settings, for a text that begins on a line of its file. -/
def Policy.ofConfig (c : Config) (firstLine : Nat) : Policy :=
  ⟨c.maxSnippetChars, c.maxBlockLines, c.windowRadius, max firstLine 1⟩

/-- What stands behind a text that was cut off, of so many characters. -/
def cutMark (length : Nat) : List Char :=
  "\n/* ... truncated: original length ".toList ++ Nat.toDigits 10 length ++ " chars */".toList

def gapMark : List Char := "  ... |".toList

/-- A line with its number in the file. -/
def numbered (isAdded : Bool) (label : Nat) (body : List Char) : List Char :=
  (if isAdded then '+' else ' ') :: alignRight 5 label ++ " | ".toList ++ body

namespace Policy

/-- The number that a line of the text has in the file. -/
def label (p : Policy) (line : Nat) : Except Overflow Nat := do
  Overflow.minus (← Overflow.plus line p.firstLine) 1

/-- The numbered line of a unit that starts on a line of the text. -/
def showLine (p : Policy) (lines : List (List Char)) (startLine : Nat) (added : List Nat)
    (line : Nat) : Except Overflow (List Char) := do
  let body := trimReturns (lines[line - startLine]?.getD [])
  return numbered (added.contains line) (← p.label line) body

/-- The numbered lines of a window. -/
def showWindow (p : Policy) (lines : List (List Char)) (startLine : Nat) (added : List Nat)
    (w : Window) : Except Overflow (List (List Char)) :=
  w.lines.mapM (p.showLine lines startLine added)

/-- A unit as numbered lines around the added ones. -/
def showWindows (p : Policy) (text : List Char) (startLine endLine lineCount : Nat)
    (added : List Nat) : Except Overflow Shown := do
  let ws ← windows added startLine endLine p.radius
  let shown ← ws.mapM (p.showWindow (pieces text) startLine added)
  let count (n : Nat) := toString n
  return {
    text := ['\n'].intercalate ([gapMark].intercalate shown)
    reason := .lineLimit
    summary := some (count lineCount ++ " lines, showing " ++ count ws.length
      ++ " window(s) of +/-" ++ count p.radius ++ " lines around " ++ count added.length
      ++ " added line(s)") }

/-- What is shown of a unit. The lead is the text before the unit in its first line; it is shown
only where whole lines are. -/
def apply (p : Policy) (lead raw : List Char) (startLine endLine : Nat) (added : List Nat) :
    Except Overflow Shown :=
  if p.maxChars < raw.length then
    .ok { text := raw.take p.maxChars ++ cutMark raw.length, reason := .charLimit, summary := none }
  else do
    let lineCount ← lineSpan startLine endLine
    if p.maxLines < lineCount then
      p.showWindows (lead ++ raw) startLine endLine lineCount added
    else
      return { text := raw, reason := .none, summary := none }

end Policy

end DiffScope.Snippet
