import DiffScope.Grammar.Reach

/-!
# Numbered grammars

A grammar made ready for parsing: symbols are numbers, rules are arrays of productions, and for
every rule it is known which tokens can begin it and which other rules can begin at its left end.
-/

namespace DiffScope.Grammar

open DiffScope.Lexicon

/-- A grammar ready for parsing. -/
structure Table where
  dialect : Dialect
  /-- How each token is found. -/
  matchers : Array Matcher
  /-- What each symbol is shown as, none for symbols that leave no node. -/
  labels : Array (Option Label)
  /-- The name of each symbol's rule. -/
  names : Array String
  /-- Whether a symbol is a rule made from a repetition. -/
  isRepetition : Array Bool
  /-- Whether a one-part reading of the symbol may be passed over unseen. -/
  isTransparent : Array Bool
  productions : Array Production
  /-- All points, in the order in which readings are tried. -/
  points : Array Point
  /-- The rules that match nothing at all, with the point of doing so. -/
  empties : List (Nat × Nat)
  /-- Tokens that can begin each symbol. -/
  first : Array TokenSet
  /-- For each rule, the symbols that its productions begin with and the points behind them, in the
  order of the points. -/
  openings : Array (Array (Nat × Nat))
  /-- For each symbol, the rules that can begin at its left end. -/
  corners : Array (Array (Nat × LeftCorner))
  /-- All symbols in the order in which the states behind them are numbered. -/
  unfolding : List Nat
  /-- The tokens that keep states apart which do not both await them. -/
  divisive : TokenSet
  /-- Tokens with those that are not newly awaited beside them, for the two can be confused. -/
  rivals : List (Nat × TokenSet)
  /-- The tokens that may stand anywhere. -/
  extras : TokenSet
  /-- The tokens looked for while skipping broken text. -/
  sturdy : TokenSet
  /-- Words by their text, those that look like names. -/
  keywords : Std.HashMap String Nat
  /-- All words that look like names. -/
  keywordSet : TokenSet
  /-- Words and marks by the code of their first character, those that do not look like names. -/
  marks : Std.HashMap Nat (List (Nat × List Char))
  /-- Token classes with their tokens. -/
  classes : List (Nat × Lexeme)
  /-- Contextual tokens with their tokens. -/
  contextual : List (Contextual × Nat)
  /-- Orders of binding: named levels and symbols. -/
  rankings : List (List (String ⊕ Nat))
  start : Nat
  deriving Inhabited

namespace Table

def tokenCount (t : Table) : Nat := t.matchers.size

/-- The token at the end of the text. -/
def finish : Nat := 0

/-- The token of plain names. -/
def name : Nat := 1

def symbolCount (t : Table) : Nat := t.labels.size

/-- The symbol of a node that holds skipped text. -/
def broken (t : Table) : Nat := t.symbolCount + 1

/-- The symbol of a run of skipped tokens that is still growing. -/
def brokenRun (t : Table) : Nat := t.symbolCount

def productionAt (t : Table) (p : Nat) : Production := t.productions[t.points[p]!.production]!

/-- The step behind a point, if there is one. -/
def stepAt (t : Table) (p : Nat) : Option (Step Nat) :=
  let point := t.points[p]!
  t.productions[point.production]!.steps[point.dot]?

/-- The step last passed at a point, if there is one. -/
def stepBefore (t : Table) (p : Nat) : Option (Step Nat) :=
  let point := t.points[p]!
  if point.dot = 0 then none else t.productions[point.production]!.steps[point.dot - 1]?

def isToken (t : Table) (symbol : Nat) : Bool := symbol < t.tokenCount

end Table

/-! ## Making a table -/

namespace Rulebook

/-- Bodies of rules by name. -/
abbrev Bodies := List (String × List (Sequence Rule))

/-- The bodies of the rules that are read as their parts. -/
def inlinedBodies (g : Rulebook) (bodies : Bodies) : Std.HashMap String (List (Sequence Rule)) :=
  (bodies.filter fun (n, _) => g.inlined.contains n).foldl (fun m (n, b) => m.insert n b) ∅

/-- How often each symbol is shown under which display names; nothing for symbols that also stand
bare somewhere. -/
def displayNames (v : Vocabulary) (isInlined : Rule → Bool) (bodies : Bodies) :
    Std.HashMap Nat (Option (List (Label × Nat))) :=
  (bodies.flatMap fun (_, b) => b.flatMap (·.steps)).foldl (fun m s =>
    if isInlined s.symbol then m else
      let i := v.number s.symbol
      match s.label, m.getD i (some []) with
      | none, _ => m.insert i none
      | some _, none => m
      | some l, some ls =>
        m.insert i (some (match ls.lookup l with
          | some n => ls.map fun (l', k) => if l' = l then (l', n + 1) else (l', k)
          | none => ls ++ [(l, 1)])))
    ∅

/-- The display name that counts as a symbol's own, for symbols that never stand bare: the first of
those used most. -/
def usualLabel (shown : Std.HashMap Nat (Option (List (Label × Nat)))) (extras : List Nat) (i : Nat) :
    Option Label :=
  if extras.contains i then none else
    (shown.getD i none).bind fun ls => (ls.foldl (fun best (l, n) => match best with
      | some (_, m) => if m < n then some (l, n) else best
      | none => some (l, n)) (none : Option (Label × Nat))).map (·.1)

/-- What a rule of a given name is shown as. -/
def labelOfName (g : Rulebook) (name : String) : Option Label :=
  if name.startsWith "_" || g.hidden.contains name then none else some ⟨name, true⟩

/-- What each symbol is shown as. -/
def labelsOf (g : Rulebook) (v : Vocabulary) (usual : Nat → Option Label) : List (Option Label) :=
  let tokenNames := v.tokenNames
  [none] ++
  v.numbered.map (fun (r, i) => (usual i).orElse fun _ => match tokenNames[i]?, r with
    | some n, _ => g.labelOfName n
    | none, .word w => some ⟨w, false⟩
    | none, .lexeme .patternEnd => some ⟨"/", false⟩
    | none, _ => none) ++
  (v.outer.zipIdx v.outerStart).map (fun ((_, r), i) => (usual i).orElse fun _ => match r with
    | .ref n => g.labelOfName n
    | _ => none) ++
  (v.phrases.zipIdx v.tokenCount).map (fun ((n, _), i) =>
    if v.repetitionStart ≤ i then none else (usual i).orElse fun _ => g.labelOfName n)

/-- The name of each symbol's rule. -/
def namesOf (v : Vocabulary) : List String :=
  let tokenNames := v.tokenNames
  ["end"] ++
  v.numbered.map (fun (r, i) => (tokenNames[i]?).getD (match r with
    | .word w => w
    | _ => "token")) ++
  v.outer.map (fun (_, r) => match r with
    | .ref n => n
    | _ => "token") ++
  v.phrases.map (·.1)

/-- All productions by rule, and last the one that stands for the whole text. -/
def productionsOf (g : Rulebook) (v : Vocabulary) (expand : Rule → Option (List (Sequence Rule)))
    (usual : Nat → Option Label) (bodies : Bodies) : Array Production :=
  let numbered := fun (s : Sequence Rule) =>
    ({ weight := s.weight
       steps := s.steps.map fun x =>
        let i := v.number x.symbol
        { symbol := i, level := x.level, side := x.side, field := x.field
          label := if x.label = usual i then none else x.label } } : Sequence Nat)
  ((bodies.zipIdx v.tokenCount).foldl (fun acc ((n, b), i) =>
    if g.inlined.contains n then acc else
      (dedup ((b.flatMap (Sequence.inline expand 8)).map numbered)).foldl (fun acc s => acc.push
        { head := i, steps := s.steps.toArray, weight := s.weight
          isPlain := s.steps.all fun x => x.label.isNone && x.field.isNone }) acc) #[]).push
  { head := v.size, steps := #[⟨v.tokenCount, .unset, none, none, none⟩], weight := 0, isPlain := true }

/-- The symbols that leave no node and hold fields. -/
def hidingFields (v : Vocabulary) (isHidden : Nat → Bool) (productions : Array Production) :
    Array Bool :=
  let holding := settle (fun (known : Array Bool) =>
      productions.foldl (fun known p =>
        if known[p.head]! then known
        else known.set! p.head (p.steps.any fun x =>
          x.field.isSome || (x.label.isNone && known[x.symbol]! && isHidden x.symbol))) known)
    v.size (Array.replicate (v.size + 1) false)
  holding.zipIdx.map fun (b, s) => b && isHidden s

/-- The words and marks that do not look like names, by the code of their first character. -/
def marksOf (v : Vocabulary) : Std.HashMap Nat (List (Nat × List Char)) :=
  v.numbered.foldl (fun m (r, i) => match r with
    | .word w =>
      if looksLikeName w then m else
        match w.toList with
        | c :: cs => m.insert c.toNat (m.getD c.toNat [] ++ [(i, cs)])
        | [] => m
    | _ => m) ∅

/-- For each rule what its productions begin with and the points behind that. -/
def openingsOf (size : Nat) (productions : Array Production) (points : Points) :
    Array (Array (Nat × Nat)) :=
  let triples := dedup <| productions.toList.zipIdx.filterMap fun (p, i) =>
    (p.steps[0]?).map fun x => (p.head, x.symbol, points.at i 1)
  (triples.foldl (fun acc (head, s, point) => acc.modify head (·.push (s, point)))
    (Array.replicate (size + 1) #[])).map fun row => row.qsort fun a b => a.2 < b.2

/-- Makes a grammar ready for parsing. -/
def table (g : Rulebook) : Table :=
  let v := Vocabulary.ofGrammar g
  let bodies := v.phrases.map fun (n, r) => (n, r.sequences)
  let inlined := g.inlinedBodies bodies
  let expand := fun (r : Rule) => match r with
    | .ref n => inlined[n]?
    | _ => none
  let extras := g.extras.map fun n => v.number (.ref n)
  let shown := displayNames v (fun r => (expand r).isSome) bodies
  let usual := usualLabel shown extras
  let labels := (g.labelsOf v usual).toArray
  let names := (namesOf v).toArray
  let isHidden := fun s => v.tokenCount ≤ s && (labels.getD s none).isNone
  let productions := g.productionsOf v expand usual bodies
  let points := Points.of (hidingFields v isHidden productions) productions
  let first := tokensAtEnd v.tokenCount v.size productions fun steps => steps[0]?
  let last := tokensAtEnd v.tokenCount v.size productions fun steps => steps.back?
  let renamed : Std.HashSet Nat := productions.foldl (fun acc p => p.steps.foldl (fun acc x =>
    if x.label.isSome then acc.insert x.symbol else acc) acc) ∅
  let fragile := g.fragile.map v.number
  let keywords := (v.numbered.filter fun (r, _) => r.isKeyword).filterMap fun (r, i) => match r with
    | .word w => some (w, i)
    | _ => none
  let contextual := g.contextual.map fun (c, r) =>
    (c, (v.plainNumber? r).getD (v.outerNumbers.getD r 0))
  let symbols := Array.range (v.size + 1)
  { dialect := g.dialect
    matchers := #[.finish] ++ (v.plain.map fun r => match r with
      | .lexeme l => Matcher.lexeme l
      | .word w => Matcher.word w
      | _ => Matcher.finish).toArray ++ (v.outer.map fun (c, _) => Matcher.contextual c).toArray
    labels, names, productions, first, contextual
    isRepetition := symbols.map fun i => v.repetitionStart ≤ i && i < v.size
    isTransparent := symbols.map fun i =>
      v.tokenCount ≤ i && i < v.size && isHidden i && !g.hidden.contains (names.getD i "") &&
        !renamed.contains i
    points := points.points
    empties := productions.toList.zipIdx.filterMap fun (p, i) =>
      if p.steps.isEmpty then some (p.head, points.at i 0) else none
    openings := openingsOf v.size productions points
    corners := cornersOf v.tokenCount v.size productions first
    unfolding := v.unfolding
    divisive := TokenSet.ofList (contextual.map (·.2))
    rivals := rivalsOf v (followersOf v.tokenCount productions first last)
    extras := TokenSet.ofList extras
    sturdy := TokenSet.ofList ((List.range v.outerStart).filter fun i => !fragile.contains i)
    keywords := keywords.foldl (fun m (w, i) => m.insert w i) ∅
    keywordSet := TokenSet.ofList (keywords.map (·.2))
    marks := marksOf v
    classes := v.numbered.filterMap fun (r, i) => match r with
      | .lexeme l => some (i, l)
      | _ => none
    rankings := g.rankings.map fun l => l.map fun r => match r with
      | .level n => .inl n
      | .rule n => .inr (v.phraseNumbers.getD n (v.size + 2))
    start := points.at (productions.size - 1) 0 }

end Rulebook

end DiffScope.Grammar
