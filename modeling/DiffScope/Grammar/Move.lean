import DiffScope.Grammar.Table

/-!
# Moves

A state is a set of points that the text read so far may have reached, each with the tokens that
may follow its rule. On a token a state moves on, closes a rule, or both where the levels and sides
of the rules leave that open.
-/

namespace DiffScope.Grammar

/-- A point with the tokens that may follow its rule. -/
abbrev Item := Nat × TokenSet

/-- A state of the automaton. -/
structure State where
  /-- The points reached, with the tokens that may follow their rules. -/
  items : Array Item
  /-- The points at which a rule is matched in full, with the tokens that may follow it. -/
  ends : Array Item
  /-- The tokens that some move awaits. -/
  expected : TokenSet
  /-- The states behind symbols. -/
  next : Array (Nat × Nat)
  deriving Inhabited

/-- A move on a token. -/
inductive Move where
  /-- Takes the token and goes to a state. A repeated one only continues a repetition that could
  also have ended. -/
  | shift (state : Nat) (repeats : Bool)
  /-- Takes the token between any two others. -/
  | shiftExtra
  /-- Replaces the last parts by a node of a rule. -/
  | reduce (symbol count production : Nat) (weight : Int)
  /-- The whole text is matched. -/
  | accept
  /-- The token is skipped or ends the skipping. -/
  | recover
  deriving DecidableEq, Repr, Inhabited

def brokenState : Nat := 0

def startState : Nat := 1

namespace State

def next? (s : State) (symbol : Nat) : Option Nat :=
  (s.next.find? (·.1 = symbol)).map (·.2)

def points (s : State) : Array Nat := s.items.map (·.1)

end State

namespace Table

/-- Compares two levels held by readings of the given rules. -/
def compareLevels (t : Table) (a : Level) (as : List Nat) (b : Level) (bs : List Nat) : Ordering :=
  match a, b with
  | .number x, .number y => if x ≠ 0 || y ≠ 0 then compare x y else ranked
  | .number x, .unset => if x ≠ 0 then compare x 0 else ranked
  | .unset, .number y => if y ≠ 0 then compare 0 y else ranked
  | _, _ => ranked
where
  /-- Whether an entry of a ranking speaks of a level or its rules. -/
  speaksOf (entry : String ⊕ Nat) (l : Level) (rules : List Nat) : Bool :=
    match entry with
    | .inl n => l = .named n
    | .inr s => rules.contains s
  /-- What the first ranking that holds both says. -/
  ranked : Ordering :=
    (t.rankings.findSome? fun list => search list false false).getD .eq
  /-- Reads a ranking until both sides were met. -/
  search : List (String ⊕ Nat) → Bool → Bool → Option Ordering
    | [], _, _ => none
    | e :: rest, left, right =>
      if speaksOf e a as then (if right then some .lt else search rest true right)
      else if speaksOf e b bs then (if left then some .gt else search rest left true)
      else search rest left right

/-- Readings that end at a token and have survived so far, with what they say about binding. -/
structure Endings where
  moves : Array Move
  /-- The level of the last reading added. -/
  level : Level
  rules : List Nat
  left : Bool
  right : Bool
  none : Bool

/-- The level behind the step last passed at a point. -/
def levelAt (t : Table) (p : Nat) : Level :=
  match t.stepBefore p with
  | some x => x.level
  | none => .unset

/-- The side behind the step last passed at a point. -/
def sideAt (t : Table) (p : Nat) : Option Side :=
  (t.stepBefore p).bind fun x => x.side

/-- Adds a reading that ends at a point, unless a tighter one is there; looser ones give way. -/
def addEnding (t : Table) (e : Endings) (p : Nat) : Endings :=
  let production := t.productionAt p
  let move := if production.head = t.symbolCount then Move.accept
    else .reduce production.head production.steps.size t.points[p]!.production production.weight
  let level := t.levelAt p
  let side := t.sideAt p
  let order := if e.moves.isEmpty then Ordering.eq
    else t.compareLevels level [production.head] e.level e.rules
  let note := fun (e : Endings) => { e with
    level := level
    rules := if e.rules.contains production.head then e.rules else production.head :: e.rules
    left := e.left || side = some .left
    right := e.right || side = some .right
    none := e.none || side = Option.none }
  match order with
  | .lt => e
  | .eq => note { e with moves := e.moves.push move }
  | .gt => note ⟨#[move], .unset, [], false, false, false⟩

/-- The moves of a state on a token, given the state that the token leads to. -/
def movesOf (t : Table) (s : State) (token : Nat) (target : Option Nat) : Array Move :=
  let done := (s.ends.filter fun (_, follow) => follow.has token).toList.map (·.1)
  let ends := done.foldl t.addEnding ⟨#[], .unset, [], false, false, false⟩
  match target with
  | none =>
    if ends.moves.isEmpty && t.extras.has token then #[.shiftExtra] else ends.moves
  | some target =>
    if ends.moves.isEmpty then #[.shift target false] else
      let going := (s.items.filter fun (p, _) => t.points[p]!.dot > 0 &&
        match t.stepAt p with
        | some x => t.first[x.symbol]!.has token
        | none => false).toList.map (·.1)
      let begun := (going ++ done).filter fun p => t.points[p]!.dot > 0
      let heads := (begun.map fun p => (t.productionAt p).head).filter (· ≠ t.symbolCount)
      let sameRepetition := match heads with
        | h :: rest => t.isRepetition[h]! && rest.all (· = h)
        | [] => false
      if sameRepetition then ends.moves.push (.shift target true) else
        let orders := going.map fun p =>
          t.compareLevels (t.levelAt p) [(t.productionAt p).head] ends.level ends.rules
        let more := orders.contains .gt
        let less := orders.contains .lt
        if more && !less then #[.shift target false]
        else if less && !more then ends.moves
        else if !less && !more then
          if ends.left && !ends.none && !ends.right then ends.moves
          else if ends.right && !ends.none && !ends.left then #[.shift target false]
          else ends.moves.push (.shift target false)
        else ends.moves.push (.shift target false)

end Table

end DiffScope.Grammar
