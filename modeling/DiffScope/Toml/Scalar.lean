import DiffScope.Text.Decimal
import DiffScope.Text.Lines
import DiffScope.Toml.Value

/-!
# Scalars of TOML

Readers of strings, numbers, dates and truth values. A reader answers what it read and the text
left, or nothing if no such value begins there.
-/

namespace DiffScope.Toml

open DiffScope.Text

/-- A blank inside a line. -/
def isGap (c : Char) : Bool :=
  c = ' ' || c = '\t'

/-- A text without the blanks before it. -/
def skipGap (text : List Char) : List Char :=
  text.dropWhile isGap

/-- What stands behind the end of a line. -/
def newline? : List Char → Option (List Char)
  | '\n' :: rest => some rest
  | '\r' :: '\n' :: rest => some rest
  | _ => none

/-- A character that may stand in a text or a comment. -/
def isTextChar (c : Char) : Bool :=
  c = '\t' || (32 ≤ c.toNat && c.toNat ≠ 127)

/-! ## Strings -/

def hexValue? (c : Char) : Option Nat :=
  if c.isDigit then some (c.toNat - 48)
  else if 'a' ≤ c ∧ c ≤ 'f' then some (c.toNat - 87)
  else if 'A' ≤ c ∧ c ≤ 'F' then some (c.toNat - 55)
  else none

/-- The character of a code point given by a fixed number of hexadecimal digits. -/
def readCodePoint (digits : Nat) (text : List Char) : Option (Char × List Char) := do
  let values ← (text.take digits).mapM hexValue?
  if values.length < digits then none
  let n := values.foldl (fun n d => 16 * n + d) 0
  if n < 0xD800 ∨ (0xDFFF < n ∧ n < 0x110000) then
    return (Char.ofNat n, text.drop digits)
  none

/-- The character that an escape stands for, behind its backslash. -/
def readEscape : List Char → Option (Char × List Char)
  | 'b' :: rest => some ('\x08', rest)
  | 't' :: rest => some ('\t', rest)
  | 'n' :: rest => some ('\n', rest)
  | 'f' :: rest => some ('\x0c', rest)
  | 'r' :: rest => some ('\r', rest)
  | '"' :: rest => some ('"', rest)
  | '\\' :: rest => some ('\\', rest)
  | 'u' :: rest => readCodePoint 4 rest
  | 'U' :: rest => readCodePoint 8 rest
  | _ => none

/-- The rest of a string on one line; escapes count only between double quotes. -/
def readLine (delimiter : Char) : Nat → List Char → List Char → Option (String × List Char)
  | 0, _, _ => none
  | _, _, [] => none
  | fuel + 1, acc, c :: rest =>
    if c = delimiter then some (String.ofList acc.reverse, rest)
    else if c = '\\' ∧ delimiter = '"' then
      match readEscape rest with
      | some (e, rest) => readLine delimiter fuel (e :: acc) rest
      | none => none
    else if isTextChar c then readLine delimiter fuel (c :: acc) rest
    else none

/-- What follows a backslash at the end of a line and the blanks and line ends behind it. -/
def joinLines? (text : List Char) : Option (List Char) :=
  (newline? (skipGap text)).map fun rest =>
    (rest.dropWhile fun c => isGap c || c = '\n' || c = '\r')

/-- The rest of a string over several lines. It ends at three delimiters; up to two more right
before them belong to the string. -/
def readLines (delimiter : Char) : Nat → List Char → List Char → Option (String × List Char)
  | 0, _, _ => none
  | _, _, [] => none
  | fuel + 1, acc, c :: rest =>
    if c = delimiter then
      let run := ((c :: rest).takeWhile (· = delimiter)).length
      let behind := (c :: rest).dropWhile (· = delimiter)
      if run < 3 then readLines delimiter fuel (List.replicate run delimiter ++ acc) behind
      else if run ≤ 5 then
        some (String.ofList (List.replicate (run - 3) delimiter ++ acc).reverse, behind)
      else none
    else if c = '\\' ∧ delimiter = '"' then
      match joinLines? rest with
      | some rest => readLines delimiter fuel acc rest
      | none =>
        match readEscape rest with
        | some (e, rest) => readLines delimiter fuel (e :: acc) rest
        | none => none
    else match newline? (c :: rest) with
      | some rest => readLines delimiter fuel ('\n' :: acc) rest
      | none => if isTextChar c then readLines delimiter fuel (c :: acc) rest else none

/-- A string, from its first delimiter on. -/
def readString (text : List Char) : Option (String × List Char) :=
  let quoted (delimiter : Char) :=
    match after? (List.replicate 3 delimiter) text with
    | some rest => readLines delimiter (text.length + 1) [] ((newline? rest).getD rest)
    | none => readLine delimiter (text.length + 1) [] (text.drop 1)
  match text.head? with
  | some '"' => quoted '"'
  | some '\x27' => quoted '\x27'
  | _ => none

/-- A string on one line, from its delimiter on. -/
def readKeyString (text : List Char) : Option (String × List Char) :=
  match text.head? with
  | some '"' => readLine '"' (text.length + 1) [] (text.drop 1)
  | some '\x27' => readLine '\x27' (text.length + 1) [] (text.drop 1)
  | _ => none

/-! ## Numbers -/

/-- A run of digits; a single underscore may stand between two of them. -/
def readDigits (isDigit : Char → Bool) : List Char → List Char × List Char
  | [] => ([], [])
  | [c] => if isDigit c then ([c], []) else ([], [c])
  | c :: d :: rest =>
    if isDigit c then
      if d = '_' then
        match readDigits isDigit rest with
        | ([], _) => ([c], d :: rest)
        | (ds, behind) => (c :: ds, behind)
      else
        let (ds, behind) := readDigits isDigit (d :: rest)
        (c :: ds, behind)
    else ([], c :: d :: rest)

def readSign : List Char → List Char × List Char
  | '+' :: rest => (['+'], rest)
  | '-' :: rest => (['-'], rest)
  | rest => ([], rest)

/-- Decimal digits with a sign before them, without needless zeros. -/
def readWhole (text : List Char) : Option (List Char × List Char × List Char) :=
  let (sign, text) := readSign text
  match text with
  | '0' :: rest => some (sign, ['0'], rest)
  | _ =>
    match readDigits Char.isDigit text with
    | ([], _) => none
    | (digits, rest) => some (sign, digits, rest)

/-- A whole number if it lies within 64 bits with sign. -/
def bounded? (n : Int) : Option Toml :=
  if -9223372036854775808 ≤ n ∧ n ≤ 9223372036854775807 then some (integer n) else none

/-- A whole number in another base, behind its mark. -/
def readBased (base : Nat) (text : List Char) : Option (Toml × List Char) := do
  let isDigit (c : Char) := match hexValue? c with
    | some d => decide (d < base)
    | none => false
  let (digits, rest) := readDigits isDigit text
  if digits.isEmpty then none
  let values ← digits.mapM hexValue?
  let n : Nat := values.foldl (fun n d => base * n + d) 0
  return (← bounded? n, rest)

def readInteger (text : List Char) : Option (Toml × List Char) :=
  match text with
  | '0' :: 'x' :: rest => readBased 16 rest
  | '0' :: 'o' :: rest => readBased 8 rest
  | '0' :: 'b' :: rest => readBased 2 rest
  | _ => do
    let (sign, digits, rest) ← readWhole text
    let n : Int := digitsValue digits
    return (← bounded? (if sign = ['-'] then -n else n), rest)

/-- Whether a decimal is nearer to what a double cannot hold than to what it can. -/
def exceedsDouble (mantissa : Nat) (exponent : Int) : Bool :=
  let digits : Int := (Nat.toDigits 10 mantissa).length
  if mantissa = 0 ∨ digits + exponent < 300 then false
  else if digits + exponent > 310 then true
  else
    let bound := Nat.pow 2 1024 - Nat.pow 2 970
    if 0 ≤ exponent then bound ≤ mantissa * Nat.pow 10 exponent.toNat
    else bound * Nat.pow 10 (-exponent).toNat ≤ mantissa

/-- The part of a number behind its point, if there is one. -/
def readFraction : List Char → Option (List Char × List Char)
  | '.' :: rest =>
    match readDigits Char.isDigit rest with
    | ([], _) => none
    | (digits, rest) => some (digits, rest)
  | rest => some ([], rest)

def readExponent (text : List Char) : Option (Option Int × List Char) :=
  match text with
  | c :: rest =>
    if c = 'e' ∨ c = 'E' then
      let (sign, rest) := readSign rest
      match readDigits Char.isDigit rest with
      | ([], _) => none
      | (digits, rest) =>
        let n : Int := digitsValue digits
        some (some (if sign = ['-'] then -n else n), rest)
    else some (none, text)
  | [] => some (none, [])

/-- A number with a fraction or an exponent. -/
def readFloat (text : List Char) : Option (Toml × List Char) := do
  let spelt (rest : List Char) := float (String.ofList (text.take (text.length - rest.length)))
  let (sign, behind) := readSign text
  match after? "inf".toList behind, after? "nan".toList behind with
  | some rest, _ => return (spelt rest, rest)
  | _, some rest => return (spelt rest, rest)
  | none, none =>
    let (_, digits, rest) ← readWhole text
    let (fraction, rest) ← readFraction rest
    let (exponent, rest) ← readExponent rest
    if fraction.isEmpty ∧ exponent.isNone then none
    let power := exponent.getD 0 - fraction.length
    if sign ≠ ['-'] ∧ exceedsDouble (digitsValue (digits ++ fraction)) power then none
    return (spelt rest, rest)

/-! ## Dates -/

/-- A number of a fixed count of digits within bounds. -/
def readFixed (digits low high : Nat) (text : List Char) : Option (Nat × List Char) :=
  let run := text.take digits
  let n := digitsValue run
  if run.length = digits ∧ run.all Char.isDigit ∧ low ≤ n ∧ n ≤ high then
    some (n, text.drop digits)
  else none

def daysOf (year month : Nat) : Nat :=
  if month = 2 then
    if year % 4 = 0 ∧ (year % 100 ≠ 0 ∨ year % 400 = 0) then 29 else 28
  else if month = 4 ∨ month = 6 ∨ month = 9 ∨ month = 11 then 30
  else 31

/-- What stands behind a date. -/
def afterDay? (text : List Char) : Option (List Char) := do
  let (year, text) ← readFixed 4 0 9999 text
  let (month, text) ← readFixed 2 1 12 (← after? ['-'] text)
  let (_, text) ← readFixed 2 1 (daysOf year month) (← after? ['-'] text)
  return text

/-- What stands behind a time of day. -/
def afterTime? (text : List Char) : Option (List Char) := do
  let (_, text) ← readFixed 2 0 23 text
  let (_, text) ← readFixed 2 0 59 (← after? [':'] text)
  let (_, text) ← readFixed 2 0 60 (← after? [':'] text)
  match text with
  | '.' :: rest =>
    if (rest.takeWhile Char.isDigit).isEmpty then none
    else return rest.dropWhile Char.isDigit
  | _ => return text

/-- What stands behind a distance from universal time, if there is one. -/
def afterZone? (text : List Char) : Option (List Char) :=
  match text with
  | 'Z' :: rest => some rest
  | 'z' :: rest => some rest
  | c :: rest =>
    if c = '+' ∨ c = '-' then do
      let (_, rest) ← readFixed 2 0 23 rest
      let (_, rest) ← readFixed 2 0 59 (← after? [':'] rest)
      return rest
    else some text
  | [] => some []

/-- What stands behind a date, a time or both. -/
def afterDate? (text : List Char) : Option (List Char) :=
  match afterDay? text with
  | none => afterTime? text
  | some rest =>
    match rest with
    | c :: time =>
      if c = 'T' ∨ c = 't' ∨ (c = ' ' ∧ (readFixed 2 0 23 time).isSome ∧
          (time.drop 2).head? = some ':') then do
        afterZone? (← afterTime? time)
      else some rest
    | [] => some []

def readDate (text : List Char) : Option (Toml × List Char) :=
  (afterDate? text).map fun rest =>
    (date (String.ofList (text.take (text.length - rest.length))), rest)

def readScalar (text : List Char) : Option (Toml × List Char) :=
  match after? "true".toList text, after? "false".toList text with
  | some rest, _ => some (bool true, rest)
  | _, some rest => some (bool false, rest)
  | none, none =>
    ((readString text).map fun (s, rest) => (string s, rest)).orElse fun _ =>
      (readDate text).orElse fun _ => (readFloat text).orElse fun _ => readInteger text

end DiffScope.Toml
