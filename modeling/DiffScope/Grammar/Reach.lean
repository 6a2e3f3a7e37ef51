import DiffScope.Grammar.Point

/-!
# What productions reach

The tokens at the two ends of every symbol, the tokens that can follow a token, and the rules that
can begin at the left end of another rule.
-/

namespace DiffScope.Grammar

/-- Repeats a step until nothing changes, at most a given number of times. -/
def settle [BEq α] (f : α → α) : Nat → α → α
  | 0, a => a
  | n + 1, a => let b := f a; if b == a then a else settle f n b

/-- The tokens that can stand at one end of each symbol, given the step at that end of a
production. -/
def tokensAtEnd (tokenCount symbolCount : Nat) (productions : Array Production)
    (step : Array (Step Nat) → Option (Step Nat)) : Array TokenSet :=
  settle (fun (f : Array TokenSet) => productions.foldl (fun f p =>
      match step p.steps with
      | some x => f.modify p.head (· ||| f[x.symbol]!)
      | none => f) f)
    symbolCount
    ((Array.range (symbolCount + 1)).map fun s => if s < tokenCount then TokenSet.single s else 0)

/-- For each token the tokens that can follow it. -/
def followersOf (tokenCount : Nat) (productions : Array Production) (first last : Array TokenSet) :
    Array TokenSet :=
  let behind := productions.foldl (fun acc p =>
      (p.steps.toList.zip (p.steps.toList.drop 1)).foldl (fun acc (x, y) =>
        acc.modify x.symbol (· ||| first[y.symbol]!)) acc)
    (Array.replicate last.size (0 : TokenSet))
  (Array.range tokenCount).map fun i =>
    (last.zip behind).foldl (fun s (l, b) => if l.has i then s ||| b else s) 0

/-- The tokens that can be taken for another one, for each such token. -/
def rivalsOf (v : Vocabulary) (followers : Array TokenSet) : List (Nat × TokenSet) :=
  v.numbered.filterMap fun (old, j) =>
    let mayFollow := fun c => v.numbered.any fun (k, n) => (followers[j]!).has n && k.canBegin c
    let set := TokenSet.ofList ((v.numbered.filter fun (new, _) => new.encroaches old mayFollow).map (·.2))
    if set = 0 then none else some (j, set)

/-- A rule that can begin at the left end of another, and the tokens that can follow it there. -/
structure LeftCorner where
  /-- Tokens that follow from within. -/
  follow : TokenSet
  /-- Whether what follows the outer rule can follow it too. -/
  isLast : Bool
  deriving Inhabited

namespace LeftCorner

/-- All that either way of beginning allows. -/
def join (a b : LeftCorner) : LeftCorner := ⟨a.follow ||| b.follow, a.isLast || b.isLast⟩

end LeftCorner

/-- For each rule the rules that its own productions begin with. -/
def directCorners (tokenCount symbolCount : Nat) (productions : Array Production)
    (first : Array TokenSet) : Array (List (Nat × LeftCorner)) :=
  productions.foldl (fun acc p =>
    match p.steps[0]? with
    | none => acc
    | some x => if x.symbol < tokenCount then acc else
      let corner : LeftCorner := match p.steps[1]? with
        | some y => ⟨first[y.symbol]!, false⟩
        | none => ⟨0, true⟩
      acc.modify p.head fun row => match row.lookup x.symbol with
        | some old => row.map fun (s, c) => if s = x.symbol then (s, old.join corner) else (s, c)
        | none => (x.symbol, corner) :: row) (Array.replicate (symbolCount + 1) [])

/-- Visits rules that are still to be visited until none brings anything new. -/
def walkCorners (direct : Array (List (Nat × LeftCorner))) : Nat → List (Nat × LeftCorner) →
    Array (Option LeftCorner) → Array (Option LeftCorner)
  | 0, _, found => found
  | _ + 1, [], found => found
  | fuel + 1, (s, c) :: rest, found =>
    let old := (found[s]!).getD ⟨0, false⟩
    let new := old.join c
    if (found[s]!).isSome && new.follow = old.follow && new.isLast = old.isLast then
      walkCorners direct fuel rest found
    else
      let reached := (direct[s]!).flatMap fun (s', c') =>
        (if c'.follow = 0 then [] else [(s', (⟨c'.follow, false⟩ : LeftCorner))]) ++
        (if c'.isLast then [(s', new)] else [])
      walkCorners direct fuel (reached ++ rest) (found.set! s (some new))

/-- For each symbol the rules that can begin at its left end, itself included. -/
def cornersOf (tokenCount symbolCount : Nat) (productions : Array Production)
    (first : Array TokenSet) : Array (Array (Nat × LeftCorner)) :=
  let direct := directCorners tokenCount symbolCount productions first
  (Array.range (symbolCount + 1)).map fun s => if s < tokenCount then #[] else
    (walkCorners direct ((symbolCount + 1) * (symbolCount + 1) * 8) [(s, ⟨0, true⟩)]
      (Array.replicate (symbolCount + 1) none)).zipIdx.filterMap fun (c, head) =>
        c.map fun c => (head, c)

end DiffScope.Grammar
