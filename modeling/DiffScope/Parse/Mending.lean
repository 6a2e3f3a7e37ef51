import DiffScope.Parse.Reduction

/-!
# Mending readings

A reading that cannot go on is mended: a missing token is put in, or trees and tokens are skipped
until an earlier state can go on. At the end of the text even a broken reading makes a tree.
-/

namespace DiffScope.Parse

open DiffScope.Grammar Run

/-! ## Finishing -/

/-- Ends a reading at the end of the text and keeps its tree if it is the best so far. -/
def accept (a : Automaton) (v : Nat) (lookahead : Green) : Run Unit := do
  modifyStack fun s => s.push a.table v (some lookahead) startState
  let slices ← withStack fun s =>
    let (s, slices) := s.popAll v
    (slices, s)
  for slice in slices do
    match rootOf slice.trees with
    | none => pure ()
    | some root => modify fun m => { m with
        accepted := m.accepted + 1
        finished := match m.finished with
          | some old => if old.isBetter root then some root else some old
          | none => some root }
  match slices[0]? with
  | some slice => modifyStack (·.remove slice.version)
  | none => pure ()
  modifyStack (·.halt v)
where
  /-- The tree of the whole text: the children of the last tree that is no extra, with everything
  before and behind it. -/
  rootOf (trees : List Green) : Option Green :=
    let back := trees.reverse
    let extras := (back.takeWhile Green.isExtra).reverse
    match back.dropWhile Green.isExtra with
    | .node symbol production _ _ children :: before =>
      let all := before.reverse ++ children ++ extras
      some (.node symbol production (Green.measureOf a.table symbol production all) false all)
    | _ => none

/-! ## Mending -/

/-- Goes back to an earlier state over a number of trees, which become one node of broken text. -/
def recoverTo (a : Automaton) (v depth state : Nat) : Run Bool := do
  let slices ← withStack fun s =>
    let (s, slices) := s.popCount v depth
    (slices, s)
  let mut done : Option Nat := none
  for slice in slices do
    let w := slice.version
    if done = some w then continue
    if (← stack).state w ≠ state then
      modifyStack (·.halt w)
      continue
    let older ← withStack fun s =>
      let (s, g) := s.popBroken a.table w
      (g, s)
    let trees := (match older with
      | some g => g.children
      | none => []) ++ slice.trees
    let (trees, extras) := splitExtras trees
    if !trees.isEmpty then
      modifyStack fun s => s.push a.table w (some (Green.brokenNode a.table true trees)) state
    for x in extras do
      modifyStack fun s => s.push a.table w (some x) state
    done := some w
  return done.isSome

/-- Returns to the nearest earlier state that awaits the token, unless that would cost too much. -/
def returnToLanding (a : Automaton) (v : Nat) (lookahead : Green) (readings progress cost : Nat)
    (position : Extent) : List Landing → Run Bool
  | [] => return false
  | l :: rest => do
    if l.state = brokenState || l.position.bytes = position.bytes then
      returnToLanding a v lookahead readings progress cost position rest
    else
      let depth := if progress > 0 then l.depth + 1 else l.depth
      let s ← stack
      if (List.range readings).any fun j =>
          s.state j = l.state && (s.position j).bytes = position.bytes then
        returnToLanding a v lookahead readings progress cost position rest
      else
        let newCost := cost + l.depth * skippedNodeCost + (position.bytes - l.position.bytes) +
          (position.rows - l.position.rows) * skippedRowCost
        if ← isHopeless v false newCost then return false
        if !(a.movesOn l.state lookahead.symbol).isEmpty then
          if ← recoverTo a v depth l.state then return true
        returnToLanding a v lookahead readings progress cost position rest

/-- Drops the readings from one on that do not go on. -/
def dropIdle : Nat → Nat → Run Unit
  | 0, _ => pure ()
  | fuel + 1, i => do
    let s ← stack
    if i < s.size then
      if s.isActive i then dropIdle fuel (i + 1)
      else
        modifyStack (·.remove i)
        dropIdle fuel i

/-- Goes on in broken text: returns to an earlier state that awaits the token, and also skips the
token. -/
def recover (a : Automaton) (v : Nat) (lookahead : Green) : Run Unit := do
  let readings := (← stack).size
  let position := (← stack).position v
  let landings := ((← stack).head v).landings
  let progress ← withStack (·.progressSince v)
  let cost := (← stack).cost v
  let returned ← match landings with
    | some ls =>
      if lookahead.symbol = a.table.broken then pure false
      else returnToLanding a v lookahead readings progress cost position ls.toList
    | none => pure false
  dropIdle ((← stack).size + 1) readings
  if lookahead.symbol = Table.finish then
    modifyStack fun s => s.push a.table v (some (Green.brokenNode a.table false [])) startState
    accept a v lookahead
  else if returned && (← stack).size > maxReadings then
    modifyStack (·.halt v)
  else
    let newCost := cost + skippedNodeCost + lookahead.total.bytes + lookahead.total.rows * skippedRowCost
    if ← isHopeless v false newCost then
      modifyStack (·.halt v)
    else
      let lookahead := match (a.movesOn startState lookahead.symbol).back? with
        | some .shiftExtra => lookahead.withExtra true
        | _ => lookahead
      let run := Green.brokenRunNode a.table [lookahead]
      let run ← if progress = 0 then pure run else do
        let slices ← withStack fun s =>
          let (s, slices) := s.popCount v 1
          (slices, s)
        match slices[0]? with
        | none => pure run
        | some slice =>
          modifyStack fun s => { s with heads := s.heads.extract 0 (slice.version + 1) }
          modifyStack (·.renumber slice.version v)
          pure (Green.brokenRunNode a.table (slice.trees ++ [run]))
      modifyStack fun s => s.push a.table v (some run) brokenState

/-- Looks for a token whose absence explains the error: with it the reading can take what follows. -/
def insertMissing (a : Automaton) (v : Nat) (lookahead : Green) (state : Nat) : List Nat → Run Bool
  | [] => return false
  | k :: rest => do
    let target := a.nextState state k
    if target = 0 || target = state then insertMissing a v lookahead state rest else
      let moves := a.movesOn target lookahead.leafSymbol
      match moves.toList with
      | .reduce .. :: _ =>
        let w ← withStack fun s =>
          let (s, w) := s.copy v
          (w, s)
        let missing := Green.token k Extent.zero Extent.zero .missing false
        modifyStack fun s => s.push a.table w (some missing) target
        if ← reduceAll a w (some lookahead.leafSymbol) then return true
        insertMissing a v lookahead state rest
      | _ => insertMissing a v lookahead state rest

/-- Begins to mend a reading that cannot take a token. -/
def handleError (a : Automaton) (v : Nat) (lookahead : Green) : Run Unit := do
  let before := (← stack).size
  let _ ← reduceAll a v none
  let count := (← stack).size
  let versions := v :: (List.range count).drop before
  let mut mended := false
  for w in versions do
    if !mended then
      mended ← insertMissing a w lookahead ((← stack).state w) ((List.range a.table.tokenCount).drop 1)
    modifyStack fun s => s.push a.table w none brokenState
  for _ in (List.range count).drop before do
    let _ ← withStack fun s => s.merge a.table v before
  modifyStack fun s => s.noteLandings v maxLandingDepth
  recover a v lookahead

end DiffScope.Parse
