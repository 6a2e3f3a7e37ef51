import DiffScope.Json.Value
import DiffScope.Text.Decimal
import DiffScope.Text.Lines

/-!
# Reading JSON

The value that a text spells. A reader answers what it read and the text left.
-/

namespace DiffScope.Json

open DiffScope.Text

/-- A blank between the parts of a value. -/
def isGap (c : Char) : Bool :=
  c = ' ' || c = '\n' || c = '\r' || c = '\t'

/-- A text without the blanks before it. -/
def skipGap (text : List Char) : List Char :=
  text.dropWhile isGap

def hexValue? (c : Char) : Option Nat :=
  if c.isDigit then some (c.toNat - 48)
  else if 'a' ≤ c ∧ c ≤ 'f' then some (c.toNat - 87)
  else if 'A' ≤ c ∧ c ≤ 'F' then some (c.toNat - 55)
  else none

/-- The unit that four hexadecimal digits stand for. -/
def unit? (a b c d : Char) : Option Nat := do
  return 4096 * (← hexValue? a) + 256 * (← hexValue? b) + 16 * (← hexValue? c) + (← hexValue? d)

/-- The character behind a backslash. -/
def escaped? (c : Char) : Option Nat :=
  match c with
  | '"' => some 34
  | '\\' => some 92
  | '/' => some 47
  | 'b' => some 8
  | 'f' => some 12
  | 'n' => some 10
  | 'r' => some 13
  | 't' => some 9
  | _ => none

/-- The code points and halves of code points of a string up to its closing quote. -/
def readUnits (units : List Nat) : List Char → Option (List Nat × List Char)
  | [] => none
  | '"' :: rest => some (units.reverse, rest)
  | '\\' :: 'u' :: a :: b :: c :: d :: rest =>
    match unit? a b c d with
    | some u => readUnits (u :: units) rest
    | none => none
  | '\\' :: c :: rest =>
    match escaped? c with
    | some u => readUnits (u :: units) rest
    | none => none
  | c :: rest => if c.toNat < 32 then none else readUnits (c.toNat :: units) rest

/-- The characters of code points, of which some stand in halves. -/
def joinUnits (chars : List Char) : List Nat → Option (List Char)
  | [] => some chars.reverse
  | [u] => if 0xD800 ≤ u ∧ u < 0xE000 then none else some (Char.ofNat u :: chars).reverse
  | u :: v :: rest =>
    if 0xD800 ≤ u ∧ u < 0xDC00 then
      if 0xDC00 ≤ v ∧ v < 0xE000 then
        joinUnits (Char.ofNat (0x10000 + 1024 * (u - 0xD800) + (v - 0xDC00)) :: chars) rest
      else none
    else if 0xDC00 ≤ u ∧ u < 0xE000 then none
    else joinUnits (Char.ofNat u :: chars) (v :: rest)

def readString (text : List Char) : Option (String × List Char) := do
  let (units, rest) ← readUnits [] text
  let chars ← joinUnits [] units
  return (String.ofList chars, rest)

/-- Digits behind a mark: at least one if the mark is there. -/
def readPart (marks : List Char) (signed : Bool) : List Char → Option (List Char × List Char)
  | [] => some ([], [])
  | c :: rest =>
    if marks.contains c then
      let (sign, rest) := match signed, rest with
        | true, '+' :: rest => (['+'], rest)
        | true, '-' :: rest => (['-'], rest)
        | _, rest => ([], rest)
      let digits := rest.takeWhile Char.isDigit
      if digits.isEmpty then none else some (c :: sign ++ digits, rest.dropWhile Char.isDigit)
    else some ([], c :: rest)

def readNumber (text : List Char) : Option (Json × List Char) := do
  let (sign, text) := match text with
    | '-' :: rest => (['-'], rest)
    | _ => ([], text)
  let digits := text.takeWhile Char.isDigit
  let rest := text.dropWhile Char.isDigit
  if digits.isEmpty || (digits.length > 1 && digits.head? = some '0') then none
  let (fraction, rest) ← readPart ['.'] false rest
  let (exponent, rest) ← readPart ['e', 'E'] true rest
  if sign.isEmpty && fraction.isEmpty && exponent.isEmpty then
    return (.natural (digitsValue digits), rest)
  return (.numeral (String.ofList (sign ++ digits ++ fraction ++ exponent)), rest)

mutual

def readValue : Nat → List Char → Option (Json × List Char)
  | 0, _ => none
  | fuel + 1, text =>
    match skipGap text with
    | '"' :: rest => (readString rest).map fun (s, rest) => (.string s, rest)
    | '[' :: rest =>
      match skipGap rest with
      | ']' :: rest => some (.array [], rest)
      | _ => readItems fuel [] rest
    | '\x7b' :: rest =>
      match skipGap rest with
      | '\x7d' :: rest => some (.object [], rest)
      | _ => readMembers fuel [] rest
    | text =>
      match after? "null".toList text, after? "true".toList text, after? "false".toList text with
      | some rest, _, _ => some (.null, rest)
      | _, some rest, _ => some (.bool true, rest)
      | _, _, some rest => some (.bool false, rest)
      | none, none, none => readNumber text

/-- The items of an array, behind those already read. -/
def readItems : Nat → List Json → List Char → Option (Json × List Char)
  | 0, _, _ => none
  | fuel + 1, items, text =>
    match readValue fuel text with
    | none => none
    | some (item, rest) =>
      match skipGap rest with
      | ',' :: rest => readItems fuel (item :: items) rest
      | ']' :: rest => some (.array (item :: items).reverse, rest)
      | _ => none

/-- The members of an object, behind those already read. -/
def readMembers : Nat → List (String × Json) → List Char → Option (Json × List Char)
  | 0, _, _ => none
  | fuel + 1, members, text =>
    match skipGap text with
    | '"' :: rest =>
      match readString rest with
      | none => none
      | some (name, rest) =>
        match skipGap rest with
        | ':' :: rest =>
          match readValue fuel rest with
          | none => none
          | some (value, rest) =>
            match skipGap rest with
            | ',' :: rest => readMembers fuel ((name, value) :: members) rest
            | '\x7d' :: rest => some (.object ((name, value) :: members).reverse, rest)
            | _ => none
        | _ => none
    | _ => none

end

/-- The value that a text spells. -/
def ofText? (text : List Char) : Option Json :=
  match readValue (text.length + 1) text with
  | some (value, rest) => if (skipGap rest).isEmpty then some value else none
  | none => none

end DiffScope.Json
