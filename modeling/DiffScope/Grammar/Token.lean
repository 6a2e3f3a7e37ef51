import DiffScope.Grammar.Rule

/-!
# Tokens of a grammar

Sets of numbered tokens, how a token is found in the text, the tokens that a rule uses, and which
tokens can be taken for one another.
-/

namespace DiffScope.Grammar

open DiffScope.Lexicon

/-- A set of tokens, one bit each. -/
abbrev TokenSet := Nat

namespace TokenSet

def single (t : Nat) : TokenSet := 1 <<< t

def has (s : TokenSet) (t : Nat) : Bool := Nat.testBit s t

def union (a b : TokenSet) : TokenSet := if a = 0 then b else if b = 0 then a else a ||| b

def ofList (ts : List Nat) : TokenSet := ts.foldl (fun s t => s ||| single t) 0

end TokenSet

/-- How a token is found in the text. -/
inductive Matcher where
  /-- The end of the text. -/
  | finish
  | word (text : String)
  | lexeme (lexeme : Lexeme)
  | contextual (token : Contextual)
  deriving Repr, Inhabited

/-- Whether a word could be read as a name. -/
def looksLikeName (text : String) : Bool :=
  let cs := text.toList
  nameLength cs = cs.length && !cs.isEmpty

namespace Rule

/-- Whether the rule is a word that could be read as a name. -/
def isKeyword : Rule → Bool
  | word w => looksLikeName w
  | _ => false

/-- The tokens of a rule, each time it uses one, in order. -/
def tokens : Rule → List Rule
  | word t => [word t]
  | lexeme l => [lexeme l]
  | both a b => a.tokens ++ b.tokens
  | either a b => a.tokens ++ b.tokens
  | many1 r => r.tokens
  | bind _ _ r => r.tokens
  | weigh _ r => r.tokens
  | field _ r => r.tokens
  | shownAs _ r => r.tokens
  | _ => []

/-- Whether a token can begin with a character. -/
def canBegin (c : Char) : Rule → Bool
  | word w => w.toList.head? = some c
  | lexeme l => 0 < l.length [c]
  | _ => false

/-- Whether a new token could be taken where another one was meant: a longer word that begins with
the other, if what is left of it may follow the other; a word that is also of the other's class; and
the accessor word, which reads past the plain one. Words and the class of names stay out of this,
for words are told from names afterwards. -/
def encroaches (new old : Rule) (mayFollow : Char → Bool) : Bool :=
  match new, old with
  | word w, word v =>
    match w.toList.drop v.length with
    | c :: _ => v.toList.isPrefixOf w.toList && mayFollow c
    | [] => false
  | word w, lexeme l => l ≠ .name && l.length w.toList = w.length
  | lexeme .staticAccessor, word v => v = "static"
  | _, _ => false

end Rule

end DiffScope.Grammar
