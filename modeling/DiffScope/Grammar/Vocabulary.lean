import Std.Data.HashMap
import Std.Data.HashSet
import DiffScope.Grammar.Production
import DiffScope.Grammar.Token

/-!
# Numbered symbols

Every token and every rule of a grammar has a number. The end of the text is zero and the plain
name one; the other plain tokens follow in the order of the rules, then the contextual tokens that
are nothing else, the rules, and the rules made from repetitions.
-/

namespace DiffScope.Grammar

open DiffScope.Lexicon

/-- Keeps the first of equal elements. -/
def dedup [BEq α] [Hashable α] (l : List α) : List α :=
  (l.foldl (fun (seen, out) a => if seen.contains a then (seen, out) else (seen.insert a, a :: out))
    ((∅ : Std.HashSet α), ([] : List α))).2.reverse

/-- The place of each element of a list, counted from a number; of equal ones the last. -/
def placesFrom [BEq α] [Hashable α] (first : Nat) (l : List α) : Std.HashMap α Nat :=
  (l.zipIdx first).foldl (fun m (a, i) => m.insert a i) ∅

/-- The class of plain names. -/
def nameRule : Rule := .lexeme .name

/-- The symbols of a grammar. -/
structure Vocabulary where
  /-- The plain tokens in the order of the rules. -/
  met : List Rule
  /-- The plain tokens by number, from one. -/
  plain : List Rule
  /-- The contextual tokens that are no plain ones, by number. -/
  outer : List (Contextual × Rule)
  /-- The rules that are no tokens, by number, and the rules made from repetitions. -/
  phrases : List (String × Rule)
  /-- How many of the phrases were not made from repetitions. -/
  writtenCount : Nat
  plainNumbers : Std.HashMap Rule Nat
  /-- Numbers of tokens that a rule is the name of. -/
  namedTokens : Std.HashMap String Nat
  outerNumbers : Std.HashMap Rule Nat
  phraseNumbers : Std.HashMap String Nat

namespace Vocabulary

/-- The number of the first contextual token. -/
def outerStart (v : Vocabulary) : Nat := v.plain.length + 1

/-- How many symbols are tokens; the first phrase has this number. -/
def tokenCount (v : Vocabulary) : Nat := v.outerStart + v.outer.length

def size (v : Vocabulary) : Nat := v.tokenCount + v.phrases.length

/-- The number of the first rule made from a repetition. -/
def repetitionStart (v : Vocabulary) : Nat := v.tokenCount + v.writtenCount

def plainNumber? (v : Vocabulary) : Rule → Option Nat
  | .ref n => v.namedTokens[n]?
  | r => v.plainNumbers[r]?

def number (v : Vocabulary) : Rule → Nat
  | .ref n => (v.phraseNumbers[n]?).getD ((v.namedTokens[n]?).getD (v.outerNumbers.getD (.ref n) 0))
  | r => v.plainNumbers.getD r 0

def numbered (v : Vocabulary) : List (Rule × Nat) := v.plain.zipIdx 1

def tokenNames (v : Vocabulary) : Std.HashMap Nat String :=
  v.namedTokens.fold (fun m n i => m.insert i n) ∅

/-- All symbols in the order in which the states behind them are numbered: the contextual tokens,
the plain ones in the order of the rules, then the phrases. -/
def unfolding (v : Vocabulary) : List Nat :=
  (List.range v.outer.length).map (v.outerStart + ·) ++ v.met.map v.number ++
    (List.range v.phrases.length).map (v.tokenCount + ·)

/-- The symbols of a grammar. A rule that is one token used nowhere else names that token. -/
def ofGrammar (g : Rulebook) : Vocabulary :=
  let uses := g.rules.flatMap fun (_, r) => r.tokens
  let counts := uses.foldl (fun m r => m.insert r (m.getD r 0 + 1)) (∅ : Std.HashMap Rule Nat)
  let namesToken := fun (r : Rule) => r.isToken && counts.getD r 0 = 1
  let met := dedup uses
  let plain := nameRule :: met.filter (· ≠ nameRule)
  let plainNumbers := placesFrom 1 plain
  let namedTokens := (g.rules.filter fun (_, r) => namesToken r).foldl
    (fun m (n, r) => m.insert n (plainNumbers.getD r 0)) (∅ : Std.HashMap String Nat)
  let outer := g.contextual.filter fun (_, r) => match r with
    | .ref n => !namedTokens.contains n
    | r => !plainNumbers.contains r
  let (written, repetitions) := (g.rules.filter fun (_, r) => !namesToken r).foldl
    (fun (done, seen) (n, r) =>
      let (r, seen) := r.liftRepetitions n seen
      (done ++ [(n, r)], seen)) (([] : List (String × Rule)), ([] : List Rule.Repetition))
  let phrases := written ++ repetitions.map fun r => (r.name, r.rule)
  let outerStart := plain.length + 1
  { met, plain, outer, phrases, plainNumbers, namedTokens
    writtenCount := written.length
    outerNumbers := placesFrom outerStart (outer.map (·.2))
    phraseNumbers := placesFrom (outerStart + outer.length) (phrases.map (·.1)) }

end Vocabulary

end DiffScope.Grammar
