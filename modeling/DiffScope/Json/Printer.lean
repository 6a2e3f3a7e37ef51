import DiffScope.Json.Value

/-!
# Writing JSON

The text of a JSON value: on one line, or spread over lines with two blanks for each level. Of
the characters of a string only the quote, the backslash and the control characters are escaped.
-/

namespace DiffScope.Json

/-- The digit for a value below sixteen. -/
def hexDigit (n : Nat) : Char :=
  if n < 10 then Char.ofNat (48 + n) else Char.ofNat (87 + n)

/-- How a character stands in a string. -/
def escapeChar (c : Char) : List Char :=
  if c = '"' then ['\\', '"']
  else if c = '\\' then ['\\', '\\']
  else if c = '\n' then ['\\', 'n']
  else if c = '\r' then ['\\', 'r']
  else if c = '\t' then ['\\', 't']
  else if c.toNat = 8 then ['\\', 'b']
  else if c.toNat = 12 then ['\\', 'f']
  else if c.toNat < 32 then
    ['\\', 'u', '0', '0', hexDigit (c.toNat / 16), hexDigit (c.toNat % 16)]
  else [c]

def quote (s : String) : List Char :=
  '"' :: s.toList.flatMap escapeChar ++ ['"']

/-- How the parts of a value are set apart. -/
structure Layout where
  /-- Behind an opening bracket, a comma and before a closing bracket, by level. -/
  breakAt : Nat → List Char
  /-- Between a name and its value. -/
  colon : List Char

def Layout.flat : Layout := ⟨fun _ => [], [':']⟩

/-- A line for each item, two blanks further in for each level. -/
def Layout.spread : Layout :=
  ⟨fun level => '\n' :: List.replicate (2 * level) ' ', [':', ' ']⟩

/-- Items between brackets. -/
def bracket (l : Layout) (level : Nat) (opening closing : Char) (items : List (List Char)) :
    List Char :=
  if items.isEmpty then [opening, closing] else
    opening :: [','].intercalate (items.map (l.breakAt (level + 1) ++ ·))
      ++ l.breakAt level ++ [closing]

mutual

/-- The text of a value at a level. -/
def render (l : Layout) (level : Nat) : Json → List Char
  | .null => "null".toList
  | .bool b => (if b then "true" else "false").toList
  | .natural n => Nat.toDigits 10 n
  | .numeral s => s.toList
  | .string s => quote s
  | .array items => bracket l level '[' ']' (renderItems l (level + 1) items)
  | .object members => bracket l level '\x7b' '\x7d' (renderMembers l (level + 1) members)

def renderItems (l : Layout) (level : Nat) : List Json → List (List Char)
  | [] => []
  | j :: js => render l level j :: renderItems l level js

def renderMembers (l : Layout) (level : Nat) : List (String × Json) → List (List Char)
  | [] => []
  | (name, j) :: ms => (quote name ++ l.colon ++ render l level j) :: renderMembers l level ms

end

/-- The text on one line. -/
def compact (j : Json) : String := String.ofList (render .flat 0 j)

/-- The text spread over lines. -/
def pretty (j : Json) : String := String.ofList (render .spread 0 j)

end DiffScope.Json
