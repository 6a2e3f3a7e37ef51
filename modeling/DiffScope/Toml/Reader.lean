import DiffScope.Toml.Scalar

/-!
# Reading TOML

A document is read line by line into blocks, each a header with the values below it, which make up
the tables of the document.
-/

namespace DiffScope.Toml

open DiffScope.Text

/-- Arrays and inline tables lie at most this deep in one another; a key has at most so many
parts. -/
def depthBound : Nat := 79

/-- What stands behind a comment; line ends are left. -/
def skipComment : List Char → Option (List Char)
  | '#' :: rest =>
    let rest := rest.dropWhile isTextChar
    if rest.isEmpty ∨ (newline? rest).isSome then some rest else none
  | rest => some rest

/-- What stands behind blanks, comments and line ends. -/
def skipFill : Nat → List Char → Option (List Char)
  | 0, text => some text
  | fuel + 1, text =>
    match skipGap text with
    | '#' :: rest => do
      match newline? (← skipComment ('#' :: rest)) with
      | some rest => skipFill fuel rest
      | none => none
    | text =>
      match newline? text with
      | some rest => skipFill fuel rest
      | none => some text

/-- What stands behind the rest of a line that holds nothing more. -/
def endLine? (text : List Char) : Option (List Char) := do
  let rest ← skipComment (skipGap text)
  if rest.isEmpty then some [] else newline? rest

/-- A character of a key without quotes. -/
def isKeyChar (c : Char) : Bool :=
  c.isAlphanum || c = '-' || c = '_'

def readKeyPart (text : List Char) : Option (String × List Char) :=
  (readKeyString text).orElse fun _ =>
    match text.takeWhile isKeyChar with
    | [] => none
    | name => some (String.ofList name, text.dropWhile isKeyChar)

/-- A key: parts with points between them. -/
def readKey : Nat → List Char → Option (List String × List Char)
  | 0, _ => none
  | fuel + 1, text => do
    let (part, rest) ← readKeyPart (skipGap text)
    match skipGap rest with
    | '.' :: rest =>
      let (parts, rest) ← readKey fuel rest
      return (part :: parts, rest)
    | rest => return ([part], rest)

mutual

def readValue (fuel : Nat) (depth : Nat) (text : List Char) : Option (Toml × List Char) :=
  match fuel with
  | 0 => none
  | fuel + 1 =>
    match text with
    | '[' :: rest => if depth = 0 then none else readItems fuel (depth - 1) [] rest
    | '\x7b' :: rest =>
      if depth = 0 then none else
        match skipGap rest with
        | '\x7d' :: rest => some (table .inline [], rest)
        | _ => readPairs fuel (depth - 1) [] rest
    | _ => readScalar text

/-- The items of an array, behind those already read. -/
def readItems (fuel : Nat) (depth : Nat) (items : List Toml) (text : List Char) :
    Option (Toml × List Char) :=
  match fuel with
  | 0 => none
  | fuel + 1 => do
    let text ← skipFill (text.length + 1) text
    match text with
    | ']' :: rest => return (array items.reverse, rest)
    | _ =>
      let (item, rest) ← readValue fuel depth text
      let rest ← skipFill (rest.length + 1) rest
      match rest with
      | ',' :: rest => readItems fuel depth (item :: items) rest
      | ']' :: rest => return (array (item :: items).reverse, rest)
      | _ => none

/-- The members of an inline table, behind those already read. -/
def readPairs (fuel : Nat) (depth : Nat) (members : Members) (text : List Char) :
    Option (Toml × List Char) :=
  match fuel with
  | 0 => none
  | fuel + 1 => do
    let (key, rest) ← readKey depthBound text
    let rest ← after? ['='] rest
    let (value, rest) ← readValue fuel depth (skipGap rest)
    let members ← add (key.getLast?.getD "") value key.dropLast members
    match skipGap rest with
    | ',' :: rest => readPairs fuel depth members rest
    | '\x7d' :: rest => return (table .inline members, rest)
    | _ => none

end

/-- A header, from its bracket on. -/
def readHeader (text : List Char) : Option (Block × List Char) :=
  match text with
  | '[' :: '[' :: rest => do
    let (path, rest) ← readKey depthBound rest
    let rest ← endLine? (← after? [']', ']'] rest)
    return (⟨path, true, []⟩, rest)
  | '[' :: rest => do
    let (path, rest) ← readKey depthBound rest
    let rest ← endLine? (← after? [']'] rest)
    return (⟨path, false, []⟩, rest)
  | _ => none

def readEntry (text : List Char) : Option ((List String × String × Toml) × List Char) := do
  let (key, rest) ← readKey depthBound text
  let rest ← after? ['='] rest
  let (value, rest) ← readValue (2 * text.length + 2) depthBound (skipGap rest)
  let rest ← endLine? rest
  return ((key.dropLast, key.getLast?.getD "", value), rest)

/-- The blocks of a document, behind those already read. -/
def readBlocks : Nat → List Block → Block → List Char → Option (List Block)
  | 0, _, _, _ => none
  | fuel + 1, done, current, text =>
    let close (b : Block) : Block := ⟨b.path, b.isRow, b.entries.reverse⟩
    match skipGap text with
    | [] => some (close current :: done).reverse
    | '[' :: rest =>
      match readHeader ('[' :: rest) with
      | some (next, rest) => readBlocks fuel (close current :: done) next rest
      | none => none
    | c :: rest =>
      if c = '#' ∨ c = '\n' ∨ c = '\r' then
        match endLine? (c :: rest) with
        | some rest => readBlocks fuel done current rest
        | none => none
      else match readEntry (c :: rest) with
        | some (entry, rest) =>
          readBlocks fuel done ⟨current.path, current.isRow, entry :: current.entries⟩ rest
        | none => none

/-- The tables of a document; a byte order mark may precede it. -/
def ofText? (text : List Char) : Option Toml := do
  let text := if text.head? = some '\uFEFF' then text.drop 1 else text
  let blocks ← readBlocks (text.length + 1) [] ⟨[], false, []⟩ text
  return table .header (← ofBlocks blocks)

end DiffScope.Toml
