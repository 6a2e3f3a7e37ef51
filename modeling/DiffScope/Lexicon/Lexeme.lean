import DiffScope.Lexicon.Chars

/-!
# Token classes of script text

Every class of tokens that is not a fixed word or mark, with the longest text of that class at
the head of a list of characters.
-/

namespace DiffScope.Lexicon

/-- The two quotes. -/
inductive Quote where
  | double
  | single
  deriving DecidableEq, Hashable, Repr, Inhabited

def Quote.char : Quote → Char
  | double => '"'
  | single => '\x27'

/-- A class of tokens with more than one member. -/
inductive Lexeme where
  | name
  /-- A name behind a number sign. -/
  | privateName
  /-- The interpreter line that may open a script. -/
  | interpreterLine
  | number
  | comment
  /-- Text inside a string literal in these quotes. -/
  | stringText (quote : Quote)
  /-- Text inside a markup attribute in these quotes. -/
  | attributeText (quote : Quote)
  /-- An escape inside a string or template literal. -/
  | escape
  | pattern
  /-- The slash that closes a regular expression literal. -/
  | patternEnd
  | patternFlags
  /-- A character reference in markup text. -/
  | charReference
  /-- A hyphenated name in markup. -/
  | tagName
  /-- A static accessor keyword pair that ends its line. -/
  | staticAccessor
  deriving DecidableEq, Hashable, Repr, Inhabited

namespace Lexeme

/-- Whether the class starts exactly where the token before it ended. -/
def isImmediate : Lexeme → Bool
  | stringText _ | attributeText _ | escape | pattern | patternEnd | patternFlags => true
  | _ => false

/-- The declared rank of the class: a token of higher rank beats a longer one of lower rank. -/
def rank : Lexeme → Int
  | stringText _ | attributeText _ | patternEnd => 1
  | pattern => -1
  | _ => 0

/-- Between tokens of one rank and one length, the higher of these wins; a fixed word has 2. -/
def tieRank : Lexeme → Nat
  | patternEnd => 3
  | l => if l.isImmediate then 1 else 0

end Lexeme

/-! ## Names -/

/-- Length of the code point escape at the head, zero if there is none. -/
def codeEscape : List Char → Nat
  | '\\' :: 'u' :: '\x7b' :: rest =>
    let digits := rest.takeWhile isHex
    match rest.drop digits.length with
    | '\x7d' :: _ => if digits.isEmpty then 0 else digits.length + 4
    | _ => 0
  | '\\' :: 'u' :: a :: b :: c :: d :: _ => if isHex a && isHex b && isHex c && isHex d then 6 else 0
  | _ => 0

/-- Length of the longest run of name characters and code point escapes. -/
def nameRun (cs : List Char) : Nat :=
  match cs with
  | [] => 0
  | c :: rest =>
    if isNameChar c then nameRun rest + 1
    else
      let n := codeEscape (c :: rest)
      if 0 < n then nameRun (rest.drop (n - 1)) + n else 0
termination_by cs.length
decreasing_by all_goals simp only [List.length_cons, List.length_drop]; omega

/-- Length of the name at the head, zero if there is none. -/
def nameLength : List Char → Nat
  | [] => 0
  | c :: rest =>
    if isNameStart c then nameRun rest + 1
    else
      let n := codeEscape (c :: rest)
      if 0 < n then nameRun (rest.drop (n - 1)) + n else 0

/-! ## Numbers -/

/-- Length of a run of digits in which single underscores may stand between two digits. -/
def digitRun (digit : Char → Bool) : List Char → Nat
  | [] => 0
  | c :: rest => if digit c then more rest + 1 else 0
where
  /-- Length of what continues a run behind one of its digits. -/
  more : List Char → Nat
    | [] => 0
    | [c] => if digit c then 1 else 0
    | c :: d :: rest =>
      if digit c then more (d :: rest) + 1
      else if c = '_' && digit d then more rest + 2
      else 0

def exponentLength : List Char → Nat
  | e :: rest =>
    if e = 'e' || e = 'E' then
      match rest with
      | s :: digits =>
        if s = '+' || s = '-' then
          let n := digitRun Char.isDigit digits
          if n = 0 then 0 else n + 2
        else
          let n := digitRun Char.isDigit rest
          if n = 0 then 0 else n + 1
      | [] => 0
    else 0
  | [] => 0

/-- Length of a whole part that a fraction or an exponent may follow: zero alone, or digits that
begin with one to nine behind at most one zero. -/
def wholeLength (cs : List Char) : Nat :=
  let rest := match cs with
    | '0' :: rest => rest
    | _ => cs
  let lead := cs.length - rest.length
  match rest with
  | c :: _ =>
    if '1' ≤ c && c ≤ '9' then lead + digitRun Char.isDigit rest
    else lead
  | [] => lead

/-- Length of a literal with a base mark, such as a hexadecimal one; zero if there is none. -/
def basedLength : List Char → Nat
  | '0' :: b :: rest =>
    let digit : Option (Char → Bool) :=
      if b = 'x' || b = 'X' then some isHex
      else if b = 'o' || b = 'O' then some isOctal
      else if b = 'b' || b = 'B' then some (fun c => c = '0' || c = '1')
      else none
    match digit with
    | none => 0
    | some digit =>
      let n := digitRun digit rest
      if n = 0 then 0 else match rest.drop n with
        | 'n' :: _ => n + 3
        | _ => n + 2
  | _ => 0

def decimalLength (cs : List Char) : Nat :=
  let whole := wholeLength cs
  let digits := digitRun Char.isDigit cs
  let plain := match cs.drop digits with
    | 'n' :: _ => if digits = 0 then 0 else digits + 1
    | _ => digits
  let scaled := if whole = 0 then 0 else
    match cs.drop whole with
    | '.' :: rest =>
      let places := digitRun Char.isDigit rest
      whole + 1 + places + exponentLength (rest.drop places)
    | rest =>
      let e := exponentLength rest
      if e = 0 then 0 else whole + e
  let fraction := match cs with
    | '.' :: rest =>
      let places := digitRun Char.isDigit rest
      if places = 0 then 0 else 1 + places + exponentLength (rest.drop places)
    | _ => 0
  max plain (max scaled fraction)

/-- Length of the number literal at the head, zero if there is none. -/
def numberLength (cs : List Char) : Nat :=
  max (basedLength cs) (decimalLength cs)

/-! ## Comments, strings and regular expressions -/

/-- Length of the text up to and with the first comment close, if there is one. -/
def blockCommentRest : List Char → Option Nat
  | '*' :: '/' :: _ => some 2
  | _ :: rest => (blockCommentRest rest).map (· + 1)
  | [] => none

def commentLength : List Char → Nat
  | '/' :: '/' :: rest => (rest.takeWhile fun c => !isLineEnd c && c ≠ '\r').length + 2
  | '/' :: '*' :: rest => match blockCommentRest rest with
    | some n => n + 2
    | none => 0
  | _ => 0

def escapeLength : List Char → Nat
  | '\\' :: c :: rest =>
    if c = 'x' then
      match rest with
      | a :: b :: _ => if isHex a && isHex b then 4 else 0
      | _ => 0
    else if c = 'u' then codeEscape ('\\' :: c :: rest)
    else if isOctal c then 2 + ((rest.take 2).takeWhile isOctal).length
    else if c = '\r' || c = '?' then
      match rest with
      | d :: _ => if isLineEnd d then 3 else 2
      | [] => 2
    else 2
  | _ => 0

/-- Length of a bracketed class of a pattern behind its opening bracket, with the closing one. -/
def patternClassRest : List Char → Option Nat
  | ']' :: _ => some 1
  | '\\' :: c :: rest => if c = '\n' then none else (patternClassRest rest).map (· + 2)
  | '\\' :: [] => none
  | c :: rest => if c = '\n' then none else (patternClassRest rest).map (· + 1)
  | [] => none

/-- Length of the regular expression pattern at the head. -/
def patternLength (cs : List Char) : Nat :=
  match cs with
  | [] => 0
  | c :: rest =>
    if c = '[' then
      match patternClassRest rest with
      | some n => patternLength (rest.drop n) + n + 1
      | none => 0
    else if c = '\\' then
      match rest with
      | d :: after => if d = '\n' then 0 else patternLength after + 2
      | [] => 0
    else if c = '/' || c = '\n' then 0
    else patternLength rest + 1
termination_by cs.length
decreasing_by all_goals simp only [List.length_cons, List.length_drop]; omega

/-! ## Markup -/

def attributeTextLength (delimiter : Char) : List Char → Nat
  | [] => 0
  | [c] => if c = delimiter || c = '&' then 0 else 1
  | c :: d :: rest =>
    if c = '&' then
      if d = '#' || d.isAlpha then 0 else attributeTextLength delimiter rest + 2
    else if c = delimiter then 0
    else attributeTextLength delimiter (d :: rest) + 1

/-- Length of the character reference at the head, zero if there is none. -/
def charReferenceLength : List Char → Nat
  | '&' :: '#' :: x :: rest =>
    let (digits, before) :=
      if x = 'x' || x = 'X' then ((rest.takeWhile isHex).length, 3)
      else (((x :: rest).takeWhile Char.isDigit).length, 2)
    let limit := if before = 3 then 6 else 5
    if 0 < digits && digits ≤ limit then
      match ('&' :: '#' :: x :: rest).drop (before + digits) with
      | ';' :: _ => before + digits + 1
      | _ => 0
    else 0
  | '&' :: rest =>
    let letters := (rest.takeWhile Char.isAlpha).length
    if 0 < letters && letters ≤ 30 then
      match rest.drop letters with
      | ';' :: _ => letters + 2
      | _ => 0
    else 0
  | _ => 0

/-- Length of the hyphenated name at the head, zero if there is none. -/
def tagNameLength : List Char → Nat
  | [] => 0
  | c :: rest =>
    if c.isAlpha || c = '_' || c = '$' then
      let word := (rest.takeWhile isTagChar).length
      match rest.drop word with
      | '-' :: more => 2 + word + (more.takeWhile fun d => isTagChar d || d = '-').length
      | _ => 0
    else 0

/-- Length of a run of spaces up to and with its last line feed, zero if it has none. -/
def spaceThroughLine : List Char → Nat
  | [] => 0
  | c :: rest =>
    if isSpace c then
      let n := spaceThroughLine rest
      if 0 < n then n + 1 else if c = '\n' then 1 else 0
    else 0

/-- Length of the static accessor words at the head when they end their line, zero otherwise. -/
def staticAccessorLength : List Char → Nat
  | 's' :: 't' :: 'a' :: 't' :: 'i' :: 'c' :: rest =>
    let gap := (rest.takeWhile isSpace).length
    if gap = 0 then 0 else
      match rest.drop gap with
      | 'g' :: 'e' :: 't' :: after =>
        let n := spaceThroughLine after
        if 0 < n then 9 + gap + n else 0
      | _ => 0
  | _ => 0

/-- Length of the longest text of the class at the head, zero if there is none. -/
def Lexeme.length : Lexeme → List Char → Nat
  | name, cs => nameLength cs
  | privateName, '#' :: cs => let n := nameLength cs; if 0 < n then n + 1 else 0
  | privateName, _ => 0
  | interpreterLine, '#' :: '!' :: cs => (cs.takeWhile (· ≠ '\n')).length + 2
  | interpreterLine, _ => 0
  | number, cs => numberLength cs
  | comment, cs => commentLength cs
  | stringText q, cs => (cs.takeWhile fun c => c ≠ q.char && c ≠ '\\' && c ≠ '\r' && c ≠ '\n').length
  | attributeText q, cs => attributeTextLength q.char cs
  | escape, cs => escapeLength cs
  | pattern, cs => patternLength cs
  | patternEnd, '/' :: _ => 1
  | patternEnd, _ => 0
  | patternFlags, cs => (cs.takeWhile fun c => 'a' ≤ c && c ≤ 'z').length
  | charReference, cs => charReferenceLength cs
  | tagName, cs => tagNameLength cs
  | staticAccessor, cs => staticAccessorLength cs

/-- How far the beginnings of tokens reach at the head when no token is completed there. -/
def deadEnd : List Char → Nat
  | '#' :: _ => 1
  | '\\' :: 'u' :: '\x7b' :: rest => 3 + (rest.takeWhile isHex).length
  | '\\' :: 'u' :: rest => 2 + ((rest.take 4).takeWhile isHex).length
  | '\\' :: 'x' :: rest => 2 + ((rest.take 2).takeWhile isHex).length
  | '\\' :: _ => 1
  | _ => 0

end DiffScope.Lexicon
