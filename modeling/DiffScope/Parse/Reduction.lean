import DiffScope.Parse.Machine

/-!
# Reducing readings

The last trees of a reading become one node, once for each way back over them. A reading can be
reduced for a certain token, or in every way at once.
-/

namespace DiffScope.Parse

open DiffScope.Grammar Run

/-- Splits the extras from the end of trees. -/
def splitExtras (trees : List Green) : List Green × List Green :=
  let extras := (trees.reverse.takeWhile Green.isExtra).reverse
  (trees.take (trees.length - extras.length), extras)

/-- Replaces the last parts of a reading by a node, once for each way back. Answers the first new
reading, if one was made. -/
def reduce (a : Automaton) (v symbol count production : Nat) (weight : Int) : Run (Option Nat) := do
  let before := (← stack).size
  let slices ← withStack fun s =>
    let (s, slices) := s.popCount v count
    (slices, s)
  let haltedCount := ((← stack).heads.filter fun h => match h.status with
    | .halted => true
    | _ => false).size
  go haltedCount slices.size slices.toList 0
  return if (← stack).size > before then some before else none
where
  /-- Works off the slices; some of the new readings were dropped or merged meanwhile. -/
  go (haltedCount : Nat) : Nat → List Slice → Nat → Run Unit
    | 0, _, _ => pure ()
    | _ + 1, [], _ => pure ()
    | fuel + 1, slice :: rest, dropped => do
      let w := slice.version - dropped
      let same := rest.takeWhile (·.version = slice.version)
      let rest := rest.drop same.length
      if w > maxReadings + maxExcess + haltedCount then
        modifyStack (·.remove w)
        go haltedCount fuel rest (dropped + 1)
      else
        let (children, extras) := splitExtras slice.trees
        let (node, extras) := same.foldl (fun (node, extras) other =>
          let (children, extras') := splitExtras other.trees
          let rival := Green.phrase a.table symbol production children
          if node.isBetter rival then (rival, extras') else (node, extras))
          (Green.phrase a.table symbol production children, extras)
        let state := (← stack).state w
        let target := a.nextState state symbol
        modifyStack fun s => s.push a.table w (some (node.addWeight weight)) target
        for x in extras do
          modifyStack fun s => s.push a.table w (some x) target
        let merged ← mergeBefore w (List.range w)
        go haltedCount fuel rest (if merged then dropped + 1 else dropped)
  /-- Joins a reading to the first earlier one that it can join. -/
  mergeBefore (w : Nat) : List Nat → Run Bool
    | [] => return false
    | j :: js => do
      if j = v then mergeBefore w js
      else if ← withStack (fun s => s.merge a.table j w) then return true
      else mergeBefore w js

/-- A node that a state may be reduced to. -/
structure Reduction where
  symbol : Nat
  count : Nat
  production : Nat
  weight : Int

/-- The reductions of a state on some tokens, and whether one of them can be taken. -/
def reductionsOn (a : Automaton) (state : Nat) (tokens : List Nat) : Run (Array Reduction × Bool) := do
  let mut found : Array Reduction := #[]
  let mut canShift := false
  for token in tokens do
    for move in a.movesOn state token do
      match move with
      | .shift _ repeats => if !repeats then canShift := true
      | .recover => canShift := true
      | .reduce symbol count production weight =>
        if count > 0 && !found.any (fun r => r.symbol = symbol && r.count = count) then
          found := found.push ⟨symbol, count, production, weight⟩
      | _ => pure ()
  return (found, canShift)

/-- Reduces a reading in every way that is possible on a token, or on any token if none is given or
the text is at its end. Answers whether a reading can then take the token. -/
def reduceAll (a : Automaton) (start : Nat) (awaited : Option Nat) : Run Bool := do
  let initial := (← stack).size
  let token := awaited.filter (· ≠ Table.finish)
  let tokens := match token with
    | some k => [k]
    | none => (List.range a.table.tokenCount).drop 1
  go token initial tokens 4096 0 start false
where
  /-- Works off the readings from one on. -/
  go (token : Option Nat) (initial : Nat) (tokens : List Nat) : Nat → Nat → Nat → Bool → Run Bool
    | 0, _, _, able => return able
    | fuel + 1, i, v, able => do
      let count := (← stack).size
      if count ≤ v then return able
      if ← mergeFrom v ((List.range v).drop initial) then
        go token initial tokens fuel (i + 1) v able
      else
        let state := (← stack).state v
        let (reductions, canShift) ← reductionsOn a state tokens
        let mut made := none
        for r in reductions do
          made ← reduce a v r.symbol r.count r.production r.weight
        let next := if v = start then count else v + 1
        if canShift then go token initial tokens fuel (i + 1) next true
        else match made with
          | some w =>
            if i < maxReadings then
              modifyStack (·.renumber w v)
              go token initial tokens fuel (i + 1) v able
            else
              if token.isSome then modifyStack (·.remove v)
              go token initial tokens fuel (i + 1) next able
          | none =>
            if token.isSome then modifyStack (·.remove v)
            go token initial tokens fuel (i + 1) next able
  /-- Joins a reading to one of some others. -/
  mergeFrom (v : Nat) : List Nat → Run Bool
    | [] => return false
    | j :: js => do
      if ← withStack (fun s => s.merge a.table j v) then return true else mergeFrom v js

end DiffScope.Parse
