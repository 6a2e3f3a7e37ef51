import DiffScope.Parse.Mending

/-!
# The parser

All readings go on token by token. One that cannot go on waits until the others have gone on; if all
wait, the best of them is mended. The best tree of a whole text is the result.
-/

namespace DiffScope.Parse

open DiffScope.Grammar Run

/-- Lets a reading take one token, after the reductions that the token calls for. -/
def advance (task : Task) (v : Nat) : Run Unit := do
  let s ← stack
  let state := s.state v
  let a := task.automaton
  let rest := task.rests.getD (s.position v).chars []
  let lookahead := readToken a.table (state = brokenState) (s.hasAdvanced v)
    (a.states[state]!).expected rest
  go 100000 state lookahead
where
  /-- Performs moves until the token is taken. -/
  go : Nat → Nat → Green → Run Unit
    | 0, _, _ => modifyStack (·.halt v)
    | fuel + 1, state, lookahead => do
      let a := task.automaton
      let moves := a.movesOn state lookahead.symbol
      let (ended, reduced, last) ← perform lookahead state moves.toList false none
      if ended then return
      match last with
      | some w =>
        modifyStack (·.renumber w v)
        go fuel ((← stack).state v) lookahead
      | none =>
        if reduced then modifyStack (·.halt v)
        else
          let asName := a.table.keywordSet.has lookahead.symbol &&
            lookahead.symbol < a.table.tokenCount
          let nameMoves := if asName then a.movesOn state Table.name else #[]
          if !nameMoves.isEmpty then
            go fuel state (.token Table.name lookahead.padding lookahead.size .read false)
          else if state = brokenState then recover a v lookahead
          else modifyStack fun s => s.pause v lookahead
  /-- Performs the moves on a token: whether the token is dealt with, whether a reduction was made,
  and the last new reading. -/
  perform (lookahead : Green) (state : Nat) : List Move → Bool → Option Nat → Run (Bool × Bool × Option Nat)
    | [], reduced, last => return (false, reduced, last)
    | move :: rest, reduced, last => do
      let a := task.automaton
      match move with
      | .shift target repeats =>
        if repeats then perform lookahead state rest reduced last else
          modifyStack fun s => s.push a.table v (some (lookahead.withExtra false)) target
          return (true, reduced, last)
      | .shiftExtra =>
        modifyStack fun s => s.push a.table v (some (lookahead.withExtra true)) state
        return (true, reduced, last)
      | .reduce symbol count production weight =>
        let made ← reduce a v symbol count production weight
        perform lookahead state rest true (made.orElse fun _ => last)
      | .accept =>
        accept a v lookahead
        return (true, reduced, last)
      | .recover =>
        recover a v lookahead
        return (true, reduced, last)

/-- Compares a reading of a given standing with the earlier ones: merges it, drops the clearly worse
and puts the better in front. Answers the place to go on from. -/
def settleOne (a : Automaton) (mine : Standing) : Nat → Nat → Nat → Run Nat
  | 0, i, _ => return i + 1
  | fuel + 1, i, j => do
    if i ≤ j then return i + 1
    let other ← standing j
    match other.compare mine with
    | .takeLeft =>
      modifyStack (·.remove i)
      return i
    | .preferLeft | .even =>
      if ← withStack (fun s => s.merge a.table j i) then return i
      settleOne a mine fuel i (j + 1)
    | .preferRight =>
      if ← withStack (fun s => s.merge a.table j i) then return i
      modifyStack (·.swap i j)
      settleOne a mine fuel i (j + 1)
    | .takeRight =>
      modifyStack (·.remove j)
      settleOne a mine fuel (i - 1) j

/-- Drops, merges and orders readings from one on; answers the least cost met outside broken text. -/
def settleFrom (a : Automaton) : Nat → Nat → Option Nat → Run (Option Nat)
  | 0, _, least => return least
  | fuel + 1, i, least => do
    let s ← stack
    if s.size ≤ i then return least
    if s.isHalted i then
      modifyStack (·.remove i)
      settleFrom a fuel i least
    else
      let mine ← standing i
      let least := if mine.isBroken then least else
        some (match least with
          | some n => min n mine.cost
          | none => mine.cost)
      let next ← settleOne a mine (s.size + 1) i 0
      settleFrom a fuel next least

/-- Mends the best reading if it waits, and drops the others that wait. -/
def resume (a : Automaton) : Nat → Nat → Nat → Bool → Option Nat → Run (Option Nat)
  | 0, _, _, _, least => return least
  | fuel + 1, i, n, going, least => do
    if n ≤ i then return least
    let s ← stack
    match (s.head i).status with
    | .paused lookahead =>
      if !going && (← get).accepted < maxReadings then
        let least := some (s.cost i)
        modifyStack fun s => s.modifyHead i fun h => { h with status := .active }
        handleError a i lookahead
        resume a fuel (i + 1) n true least
      else
        modifyStack (·.remove i)
        resume a fuel i (n - 1) going least
    | _ => resume a fuel (i + 1) n true least

/-- Brings the readings into order after a round; answers the least cost of one that goes on. -/
def condense (a : Automaton) : Run (Option Nat) := do
  let least ← settleFrom a (2 * (← stack).size * (← stack).size + 16) 0 none
  modifyStack fun s => { s with heads := s.heads.extract 0 maxReadings }
  let n := (← stack).size
  resume a (n + 1) 0 n false least

/-- Lets a reading go on until it has left the others behind. -/
def advanceWhile (task : Task) (v : Nat) : Nat → Nat → Run Nat
  | 0, last => return last
  | fuel + 1, last => do
    if !(← stack).isActive v then return last
    advance task v
    let position := ((← stack).position v).bytes
    if position > last || (v > 0 && position = last) then return position
    advanceWhile task v fuel last

/-- Lets every reading go on once. -/
def round (task : Task) : Nat → Nat → Nat → Run Nat
  | 0, _, last => return last
  | fuel + 1, v, last => do
    if (← stack).size ≤ v then return last
    let last ← advanceWhile task v 1000000 last
    round task fuel (v + 1) last

/-- Goes on round by round until a tree is finished and nothing better can come. -/
def rounds (task : Task) : Nat → Nat → Run Unit
  | 0, _ => pure ()
  | fuel + 1, last => do
    let before ← stack
    if before.size = 0 then return
    let last ← round task 64 0 last
    let least ← condense task.automaton
    match (← get).finished with
    | some g =>
      let surpassed := match least with
        | some n => decide (g.cost < n)
        | none => true
      if surpassed then return
      rounds task fuel last
    | none => rounds task fuel last

/-- The tree of a text. -/
def parse (a : Automaton) (text : List Char) : Option Green :=
  let task : Task := ⟨a, suffixes text⟩
  let start : Machine := ⟨.initial startState, none, 0⟩
  ((rounds task (64 * (text.length + 16)) 0).run start).2.finished
where
  /-- All that is left of a text at each place. -/
  suffixes (text : List Char) : Array (List Char) := go text #[]
  /-- Adds all that is left from a place on. -/
  go (text : List Char) (acc : Array (List Char)) : Array (List Char) :=
    match text with
    | [] => acc.push []
    | _ :: rest => go rest (acc.push text)

end DiffScope.Parse
