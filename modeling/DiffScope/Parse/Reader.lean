import DiffScope.Grammar.Automaton
import DiffScope.Parse.Green

/-!
# Reading tokens

The token at a place in the text is the best of those that the state of the parser awaits there;
failing those, the best of all tokens; failing those too, a stretch of text is passed that no token
begins in.
-/

namespace DiffScope.Parse

open DiffScope.Grammar DiffScope.Lexicon

/-- A token found in the text: what it is, the characters before it and its own. -/
structure Finding where
  symbol : Nat
  /-- Characters before the token. -/
  skip : Nat
  /-- Characters of the token. -/
  length : Nat
  deriving Repr, Inhabited

/-- A finding with what decides between several. -/
structure Candidate where
  finding : Finding
  /-- Higher ranks win. -/
  rank : Int
  /-- Between equal findings the higher wins. -/
  tieRank : Nat

namespace Candidate

def stop (c : Candidate) : Nat := c.finding.skip + c.finding.length

def beats (a b : Candidate) : Bool :=
  if a.rank ≠ b.rank then b.rank < a.rank
  else if a.stop ≠ b.stop then b.stop < a.stop
  else if a.tieRank ≠ b.tieRank then b.tieRank < a.tieRank
  else a.finding.symbol < b.finding.symbol

/-- The better of a candidate and what was best so far. -/
def keep (best : Option Candidate) (c : Candidate) : Option Candidate :=
  match best with
  | some b => if c.beats b then some c else best
  | none => some c

end Candidate

/-- The best token of a set at the head of the text, contextual ones aside. -/
def readAllowed (t : Table) (allowed : TokenSet) (cs : List Char) : Option Finding :=
  let blanks := (cs.takeWhile isBlank).length
  let rest := cs.drop blanks
  let wanted := fun (i : Nat) =>
    if i = Table.name then allowed &&& (t.keywordSet ||| TokenSet.single Table.name) ≠ 0 else allowed.has i
  let best := t.classes.foldl (fun best (i, l) =>
    if !wanted i then best else
      let skip := if l.isImmediate then 0 else blanks
      let n := l.length (if l.isImmediate then cs else rest)
      if n = 0 then best else Candidate.keep best ⟨⟨i, skip, n⟩, l.rank, l.tieRank⟩) none
  let best := match rest with
    | [] => best
    | c :: after => (t.marks.getD c.toNat []).foldl (fun best ((i, more) : Nat × List Char) =>
        if allowed.has i && more.isPrefixOf after then
          Candidate.keep best ⟨⟨i, blanks, more.length + 1⟩, 0, 2⟩
        else best) best
  match best with
  | some c => some c.finding
  | none => if rest.isEmpty && allowed.has Table.finish then some ⟨Table.finish, blanks, 0⟩ else none

/-- The stretch of text at the head in which no token begins: characters before it and its own. -/
def deadStretch (t : Table) (cs : List Char) : Nat × Nat :=
  let start := (cs.takeWhile isBlank).length
  let rest := cs.drop start
  let reach := deadEnd rest
  (start, go (rest.length + 1) start (start + reach) (rest.drop reach) - start)
where
  /-- The end of the stretch. A try that got nowhere passes one character. -/
  go : Nat → Nat → Nat → List Char → Nat
    | 0, stop, _, _ => stop
    | fuel + 1, stop, current, cs =>
      let (current, cs) := if current = stop then (current + 1, cs.tail) else (current, cs)
      match readAllowed t (t.sturdy ||| TokenSet.single Table.finish) cs with
      | some _ => current
      | none =>
        let blanks := (cs.takeWhile isBlank).length
        let reach := blanks + deadEnd (cs.drop blanks)
        go fuel current (current + reach) (cs.drop reach)

/-- The next token as a tree. `expected` are the tokens that the state awaits and `hasAdvanced` says
whether text was read since the last error; until then the empty semicolon does not count. In the
state of broken text every token will do. -/
def readToken (t : Table) (isBroken hasAdvanced : Bool) (expected : TokenSet) (cs : List Char) : Green :=
  let leaf := fun (f : Finding) =>
    Green.token f.symbol (Extent.ofTake f.skip cs) (Extent.ofTake f.length (cs.drop f.skip)) .read
      (f.symbol = Table.finish)
  let word := fun (f : Finding) =>
    if f.symbol ≠ Table.name then f else
      let text := String.ofList ((cs.drop f.skip).take f.length)
      match t.keywords[text]? with
      | some k => if isBroken || expected.has k then { f with symbol := k } else f
      | none => f
  let contextual := if isBroken then none else
    let allowed := fun c => match t.contextual.lookup c with
      | some i => (expected ||| t.extras).has i
      | none => false
    match readContextual t.dialect allowed cs with
    | some f => if f.length = 0 && f.skip = 0 && !hasAdvanced then none else
        (t.contextual.lookup f.token).map fun i => (⟨i, f.skip, f.length⟩ : Finding)
    | none => none
  match contextual with
  | some f => leaf f
  | none =>
    let plain := if isBroken then none else readAllowed t (expected ||| t.extras) cs
    match plain with
    | some f => leaf (word f)
    | none =>
      match readAllowed t (t.sturdy ||| TokenSet.single Table.finish) cs with
      | some f => leaf (word f)
      | none =>
        let (skip, length) := deadStretch t cs
        .node t.broken none
          ⟨Extent.ofTake skip cs, Extent.ofTake length (cs.drop skip), 0, 0, 0, 0⟩ false []

end DiffScope.Parse
