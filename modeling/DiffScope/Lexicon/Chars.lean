/-!
# Character classes of script text

The classes that decide where a token of a script begins and ends.
-/

namespace DiffScope.Lexicon

/-- A blank separates tokens and belongs to none of them. -/
def isBlank (c : Char) : Bool :=
  let n := c.toNat
  (9 ≤ n && n ≤ 13) || n = 32 || n = 0xA0 || n = 0x1680 || (0x2000 ≤ n && n ≤ 0x200B) ||
    n = 0x2028 || n = 0x2029 || n = 0x202F || n = 0x205F || n = 0x2060 || n = 0x3000 || n = 0xFEFF

/-- A space in the narrow sense: the six ASCII white characters. -/
def isSpace (c : Char) : Bool :=
  let n := c.toNat
  (9 ≤ n && n ≤ 13) || n = 32

/-- A line ends at a line feed and at the two Unicode separators. -/
def isLineEnd (c : Char) : Bool :=
  c = '\n' || c.toNat = 0x2028 || c.toNat = 0x2029

def isHex (c : Char) : Bool :=
  c.isDigit || ('a' ≤ c && c ≤ 'f') || ('A' ≤ c && c ≤ 'F')

def isOctal (c : Char) : Bool :=
  '0' ≤ c && c ≤ '7'

/-- An ASCII mark that no name contains. -/
def isMark (c : Char) : Bool :=
  [':', ';', '\x60', '"', '\x27', '@', '#', '.', ',', '|', '^', '&', '<', '=', '>', '+', '-', '*', '/',
    '\\', '%', '?', '!', '~', '(', ')', '[', ']', '\x7b', '\x7d'].contains c

def isNameChar (c : Char) : Bool :=
  !(c.toNat < 32) && !isBlank c && !isMark c

def isNameStart (c : Char) : Bool :=
  isNameChar c && !c.isDigit

/-- A character of an element or attribute name that holds a hyphen. -/
def isTagChar (c : Char) : Bool :=
  c.isAlphanum || c = '_' || c = '$'

end DiffScope.Lexicon
