import DiffScope.Lexicon.Contextual
import DiffScope.Lexicon.Lexeme

/-!
# Grammar rules

A grammar is a list of named rules over fixed words, token classes and other rules. Rules carry
what a tree shows of them (fields, display names) and how conflicts between them are settled
(binding levels, sides and weights).
-/

namespace DiffScope.Grammar

open DiffScope.Lexicon

/-- How tightly a rule binds. -/
inductive Level where
  /-- Nothing is said. -/
  | unset
  /-- Compared with other numbers, where nothing said counts as zero. -/
  | number (value : Int)
  /-- Compared by the grammar's rankings. -/
  | named (name : String)
  deriving DecidableEq, Hashable, Repr, Inhabited

/-- Which of two equally binding readings is taken. -/
inductive Side where
  | left
  | right
  deriving DecidableEq, Hashable, Repr, Inhabited

/-- The name under which a node is shown, and whether it counts as a named node. -/
structure Label where
  text : String
  /-- Unset for words and marks. -/
  isNamed : Bool
  deriving DecidableEq, Hashable, Repr, Inhabited

/-- A grammar rule. -/
inductive Rule where
  /-- Matches nothing at all. -/
  | blank
  /-- A fixed word or mark. -/
  | word (text : String)
  | lexeme (lexeme : Lexeme)
  /-- Another rule, or a contextual token, by its name. -/
  | ref (name : String)
  /-- One rule behind another. -/
  | both (first second : Rule)
  | either (first second : Rule)
  /-- A rule any number of times, but at least once. -/
  | many1 (rule : Rule)
  | bind (level : Level) (side : Option Side) (rule : Rule)
  /-- A rule that is preferred by its weight among finished readings. -/
  | weigh (weight : Int) (rule : Rule)
  /-- A rule whose nodes carry a field name. -/
  | field (name : String) (rule : Rule)
  /-- A rule shown under another name. -/
  | shownAs (label : Label) (rule : Rule)
  deriving DecidableEq, Hashable, Repr, Inhabited

instance : Coe String Rule := ⟨.ref⟩

namespace Rule

def seq : List Rule → Rule
  | [] => blank
  | [r] => r
  | r :: rs => both r (seq rs)

def oneOf : List Rule → Rule
  | [] => blank
  | [r] => r
  | r :: rs => either r (oneOf rs)

def opt (r : Rule) : Rule := either r blank

def many (r : Rule) : Rule := opt (many1 r)

/-- A rule one or more times with a mark between. -/
def sepBy1 (separator r : Rule) : Rule := both r (many (both separator r))

def commas1 (r : Rule) : Rule := sepBy1 (word ",") r

def commas (r : Rule) : Rule := opt (commas1 r)

def level (level : String) (r : Rule) : Rule := bind (.named level) none r

def leftAt (level : String) (r : Rule) : Rule := bind (.named level) (some .left) r

def rightAt (level : String) (r : Rule) : Rule := bind (.named level) (some .right) r

def leftward (r : Rule) : Rule := bind (.number 0) (some .left) r

def rightward (r : Rule) : Rule := bind (.number 0) (some .right) r

/-- A rule shown as a node of another name. -/
def named (name : String) (r : Rule) : Rule := shownAs ⟨name, true⟩ r

/-- A rule shown as a word or mark. -/
def worded (text : String) (r : Rule) : Rule := shownAs ⟨text, false⟩ r

def isToken : Rule → Bool
  | word _ | lexeme _ => true
  | _ => false

end Rule

/-- One entry of a ranking: a named level, or a rule by its name. -/
inductive Rank where
  | level (name : String)
  | rule (name : String)
  deriving DecidableEq, Repr, Inhabited

/-- A grammar. -/
structure Rulebook where
  /-- Which way of reading contextual tokens it takes. -/
  dialect : Dialect
  /-- The named rules; the first is the one a whole text matches. -/
  rules : List (String × Rule)
  /-- The contextual tokens by name. -/
  contextual : List (Contextual × Rule)
  /-- The tokens that may stand between any two others. -/
  extras : List String
  /-- Rules that are read as their parts wherever they are used. -/
  inlined : List String
  /-- Rules that leave no node of their own although their name would show. -/
  hidden : List String
  /-- Orders of binding, tightest first. -/
  rankings : List (List Rank)
  /-- Tokens that are not looked for while skipping broken text. -/
  fragile : List Rule
  deriving Inhabited

namespace Rulebook

def rule? (g : Rulebook) (name : String) : Option Rule := g.rules.lookup name

/-- Puts rules in the place of those of the same name and adds the rest at the end. -/
def override (g : Rulebook) (rules : List (String × Rule)) : List (String × Rule) :=
  g.rules.map (fun (name, r) => (name, (rules.lookup name).getD r)) ++
    rules.filter fun (name, _) => (g.rules.lookup name).isNone

end Rulebook

end DiffScope.Grammar
