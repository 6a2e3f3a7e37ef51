import DiffScope.Lexicon.Chars

/-!
# Tokens that depend on their surroundings

Some tokens exist only where the grammar has room for them: the semicolon that a line end stands
for, the text of a template or of markup, the question mark of a conditional, and the two
comments of markup origin. Each reader looks ahead in the text; the tokens that the grammar allows
at that place decide which reader is asked.
-/

namespace DiffScope.Lexicon

/-- A token that only its surroundings can decide. -/
inductive Contextual where
  /-- The empty token that a line end or a closing brace stands for. -/
  | semicolon
  | templateText
  /-- The question mark of a conditional expression. -/
  | questionMark
  /-- A comment in the manner of markup. -/
  | htmlComment
  /-- The logical disjunction mark; only its being allowed matters. -/
  | logicalOr
  /-- An escape; only its being allowed matters. -/
  | escape
  /-- A regular expression pattern; only its being allowed matters. -/
  | pattern
  | markupText
  /-- The semicolon behind a function signature; only its being allowed matters. -/
  | signatureSemicolon
  /-- Allowed nowhere in the grammar, so only while recovering from an error. -/
  | recovery
  deriving DecidableEq, Hashable, Repr, Inhabited

/-- The two ways in which a line end may stand for a semicolon. -/
inductive Dialect where
  | plain
  | typed
  deriving DecidableEq, Repr, Inhabited

/-- A contextual token found at a place: what precedes it there and how long it is. -/
structure Found where
  token : Contextual
  /-- Characters before the token. -/
  skip : Nat
  /-- Characters of the token. -/
  length : Nat
  deriving Repr

/-- A place in the text being looked at: how far from the start, and what is left. -/
structure Walk where
  /-- Characters behind this place. -/
  offset : Nat
  /-- Characters ahead of this place. -/
  rest : List Char

namespace Walk

/-- The next character; the end of the text looks like a null character. -/
def look (w : Walk) : Char := w.rest.headD '\x00'

/-- One character further; the end stays the end. -/
def step (w : Walk) : Walk :=
  match w.rest with
  | [] => w
  | _ :: rest => ⟨w.offset + 1, rest⟩

/-- Behind the longest run of characters in a class. -/
def skipWhile (p : Char → Bool) (w : Walk) : Walk :=
  go w.offset w.rest
where
  /-- The run from a given place on. -/
  go (offset : Nat) : List Char → Walk
    | [] => ⟨offset, []⟩
    | c :: rest => if p c then go (offset + 1) rest else ⟨offset, c :: rest⟩

def skipSpaces (w : Walk) : Walk := w.skipWhile isSpace

/-- Whether the text ahead begins with the given characters, and the place behind them. -/
def after? : List Char → Walk → Option Walk
  | [], w => some w
  | c :: cs, w => if w.rest.head? = some c then after? cs w.step else none

end Walk

/-- Whether the character looks like the end of the text. -/
def isEnd (c : Char) : Bool := c = '\x00'

/-- The place behind a line comment whose two slashes are behind. -/
def lineCommentRest (w : Walk) : Walk :=
  w.skipWhile fun c => !isEnd c && !isLineEnd c

/-- The place behind a block comment whose opening is behind, whether it was closed there, and
whether it held a line end. -/
def blockCommentWalk (w : Walk) : Walk × Bool × Bool :=
  go w.offset w.rest false
where
  /-- The walk from a given place on. -/
  go (offset : Nat) (rest : List Char) (line : Bool) : Walk × Bool × Bool :=
    match rest with
    | [] => (⟨offset, []⟩, false, line)
    | '*' :: '/' :: rest => (⟨offset + 2, rest⟩, true, line)
    | c :: rest =>
      if isEnd c then (⟨offset, c :: rest⟩, false, line)
      else go (offset + 1) rest (line || isLineEnd c)

/-! ## Blanks and comments before a token -/

/-- What the blanks and comments ahead say about a semicolon. -/
inductive Gap where
  /-- A slash that opens no comment. -/
  | broken
  /-- A closed comment without a line end; nothing is decided yet. -/
  | undecided
  /-- Everything up to the next token was passed. -/
  | passed
  deriving DecidableEq, Repr

/-- Passes blanks and comments in a plain script. With `whole` unset the walk stops behind the
first block comment that no further slash follows. The flag says whether a comment was passed. -/
def plainGap (whole : Bool) (w : Walk) : Gap × Bool × Walk :=
  go (w.rest.length + 1) w false false
where
  /-- The walk with the comments and the line ends seen so far. -/
  go : Nat → Walk → Bool → Bool → Gap × Bool × Walk
    | 0, w, seen, _ => (.passed, seen, w)
    | fuel + 1, w, seen, line =>
      let w := w.skipSpaces
      if w.look ≠ '/' then (.passed, seen, w) else
        let w := w.step
        if w.look = '/' then go fuel (lineCommentRest w.step) true line
        else if w.look = '*' then
          let (w, closed, lines) := blockCommentWalk w.step
          let line := line || lines
          if closed then
            if w.look ≠ '/' && !whole then ((if line then .passed else .undecided), true, w)
            else go fuel w true line
          else go fuel w seen line
        else (.broken, seen, w)

/-- Passes blanks and comments in a typed script. The flags say whether the next token was reached
and whether a comment was passed. -/
def typedGap (w : Walk) : Bool × Bool × Walk :=
  go (w.rest.length + 1) w false
where
  /-- The walk with the comments seen so far. -/
  go : Nat → Walk → Bool → Bool × Bool × Walk
    | 0, w, seen => (true, seen, w)
    | fuel + 1, w, seen =>
      let w := w.skipSpaces
      if w.look ≠ '/' then (true, seen, w) else
        let w := w.step
        if w.look = '/' then go fuel (lineCommentRest w.step) true
        else if w.look = '*' then
          let (w, closed, _) := blockCommentWalk w.step
          go fuel w (seen || closed)
        else (false, seen, w)

/-! ## The semicolon that is not written -/

/-- Whether a word that begins with `i` at the head leaves room for a semicolon: the two relation
words do not, any other word does. -/
def beforeRelation (w : Walk) : Bool × Walk :=
  let w := w.step
  if w.look ≠ 'n' then (true, w) else
    let w := w.step
    if !w.look.isAlpha then (false, w) else
      match follow ['s', 't', 'a', 'n', 'c', 'e', 'o', 'f'] w with
      | (false, w) => (true, w)
      | (true, w) => (w.look.isAlpha, w)
where
  /-- Whether these characters lie ahead, and the place behind those that do. -/
  follow : List Char → Walk → Bool × Walk
    | [], w => (true, w)
    | c :: cs, w => if w.look = c then follow cs w.step else (false, w)

/-- What a reader of semicolons found: whether the semicolon stands, whether a comment was passed,
and the place that was reached. -/
structure SemicolonAnswer where
  stands : Bool
  seenComment : Bool
  /-- Where the reader stopped. -/
  reached : Walk

/-- Whether the token behind a line end lets a semicolon stand before that line end, in a plain
script. -/
def plainNextLine (w : Walk) : Bool × Walk :=
  let c := w.look
  if ['\x60', ',', ':', ';', '*', '%', '>', '<', '=', '[', '(', '?', '^', '|', '&', '/'].contains c then
    (false, w)
  else if c = '.' then (w.step.look.isDigit, w.step)
  else if c = '+' then (w.step.look = '+', w.step)
  else if c = '-' then (w.step.look = '-', w.step)
  else if c = '!' then (w.step.look ≠ '=', w.step)
  else if c = 'i' then beforeRelation w
  else (true, w)

/-- Whether a semicolon stands at the head of a plain script's text. `afterComment` says that a
comment followed by anything but a comma or an equals sign is enough. -/
def plainSemicolon (afterComment : Bool) (w : Walk) : SemicolonAnswer :=
  go (w.rest.length + 1) w false
where
  /-- The walk along the line, with the comments seen so far. -/
  go : Nat → Walk → Bool → SemicolonAnswer
    | 0, w, seen => ⟨false, seen, w⟩
    | fuel + 1, w, seen =>
      if isEnd w.look then ⟨true, seen, w⟩ else
        let (gap, seen, w) :=
          if w.look = '/' then
            let (gap, comment, w) := plainGap false w
            (gap, seen || comment, w)
          else (.undecided, seen, w)
        if gap = .broken then ⟨false, seen, w⟩
        else if gap = .passed && afterComment && w.look ≠ ',' && w.look ≠ '=' then ⟨true, seen, w⟩
        else if w.look = '\x7d' then ⟨true, seen, w⟩
        else if isLineEnd w.look then
          let (gap, comment, w) := plainGap true w.step
          let seen := seen || comment
          if gap = .broken then ⟨false, seen, w⟩ else
            let (stands, w) := plainNextLine w
            ⟨stands, seen, w⟩
        else if !isSpace w.look then ⟨false, seen, w⟩
        else go fuel w.step seen

/-- Whether the token behind a line end lets a semicolon stand before that line end, in a typed
script. -/
def typedNextLine (allowed : Contextual → Bool) (w : Walk) : Bool × Walk :=
  let c := w.look
  if ['\x60', ',', '.', ';', '*', '%', '>', '<', '=', '?', '^', '|', '&', '/', ':'].contains c then (false, w)
  else if c = '\x7b' then (!allowed .signatureSemicolon, w)
  else if c = '(' || c = '[' then (!allowed .logicalOr, w)
  else if c = '+' then (w.step.look = '+', w.step)
  else if c = '-' then (w.step.look = '-', w.step)
  else if c = '!' then (w.step.look ≠ '=', w.step)
  else if c = 'i' then beforeRelation w
  else (true, w)

/-- Whether a semicolon stands at the head of a typed script's text. -/
def typedSemicolon (allowed : Contextual → Bool) (w : Walk) : SemicolonAnswer :=
  let w := w.skipWhile fun c => isSpace c && c ≠ '\n'
  if isEnd w.look then ⟨true, false, w⟩
  else if w.look = '\x7d' then
    let w := w.step.skipSpaces
    ⟨w.look ≠ ':' || allowed .logicalOr, false, w⟩
  else if w.look ≠ '\n' then ⟨false, false, w⟩
  else
    let (passed, seen, w) := typedGap w.step
    if !passed then ⟨false, seen, w⟩ else
      let (stands, w) := typedNextLine allowed w
      ⟨stands, seen, w⟩

/-! ## The other readers -/

/-- The question mark of a conditional at the head, behind spaces. -/
def readQuestionMark (dialect : Dialect) (w : Walk) : Option Found :=
  let w := w.skipSpaces
  if w.look ≠ '?' then none else
    let found : Found := ⟨.questionMark, w.offset, 1⟩
    let w := w.step
    match dialect with
    | .plain =>
      if w.look = '?' then none
      else if w.look = '.' then (if w.step.look.isDigit then some found else none)
      else some found
    | .typed =>
      if w.look = '?' || w.look = '.' then none else
        let w := w.skipSpaces
        if w.look = ':' || w.look = ')' || w.look = ',' then none
        else if w.look = '.' then (if w.step.look.isDigit then some found else none)
        else some found

/-- The text of a template up to its end, a substitution or an escape. -/
def readTemplateText (cs : List Char) : Option Found :=
  match go 0 cs with
  | some 0 => none
  | some n => some ⟨.templateText, 0, n⟩
  | none => none
where
  /-- Length of the text from a given place on, none if the template is not closed. -/
  go (n : Nat) : List Char → Option Nat
    | [] => none
    | '$' :: '\x7b' :: _ => some n
    | c :: rest =>
      if c = '\x60' || c = '\\' then some n
      else if isEnd c then none
      else go (n + 1) rest

/-- The text between markup tags. Blanks that begin behind a line end are no text by themselves;
the number is that of the characters passed, the flag says whether they are text. -/
def markupTextRun (cs : List Char) : Nat × Bool :=
  go 0 false false cs
where
  /-- The run from a given place on. -/
  go (n : Nat) (atLine text : Bool) : List Char → Nat × Bool
    | [] => (n, text)
    | c :: rest =>
      if isEnd c || ['<', '>', '\x7b', '\x7d', '&'].contains c then (n, text)
      else if c = '\n' then go (n + 1) true text rest
      else
        let atLine := atLine && isSpace c
        go (n + 1) atLine (text || !atLine) rest

/-- A comment in the manner of markup, behind blanks. -/
def readHtmlComment (w : Walk) : Option Found :=
  let start := w.skipWhile fun c => isSpace c || isLineEnd c
  let opened :=
    if start.look = '<' then Walk.after? ['<', '!', '-', '-'] start
    else Walk.after? ['-', '-', '>'] start
  opened.map fun w =>
    ⟨.htmlComment, start.offset, (lineCommentRest w).offset - start.offset⟩

/-- The contextual token at the head of the text, if the grammar's room for it and the text agree
on one. -/
def readContextual (dialect : Dialect) (allowed : Contextual → Bool) (cs : List Char) : Option Found :=
  if allowed .templateText then
    if allowed .semicolon then none else readTemplateText cs
  else
    let (n, text) := if allowed .markupText then markupTextRun cs else (0, false)
    if text then some ⟨.markupText, 0, n⟩ else
      let w : Walk := ⟨n, cs.drop n⟩
      let semicolon := allowed .semicolon || (dialect = .typed && allowed .signatureSemicolon)
      if semicolon then
        let answer := match dialect with
          | .plain => plainSemicolon (!allowed .logicalOr) w
          | .typed => typedSemicolon allowed w
        if answer.stands then some ⟨.semicolon, n, 0⟩
        else if !answer.seenComment && allowed .questionMark && answer.reached.look = '?' then
          readQuestionMark dialect answer.reached
        else none
      else if allowed .questionMark then readQuestionMark dialect w
      else if allowed .htmlComment && !allowed .logicalOr && !allowed .escape && !allowed .pattern then
        readHtmlComment w
      else none

end DiffScope.Lexicon
