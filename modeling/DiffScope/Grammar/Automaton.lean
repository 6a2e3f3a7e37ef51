import DiffScope.Grammar.Joining

/-!
# The automaton of a grammar

The joined states of a grammar by number, and what each does with a token. State zero is the state
of broken text and state one the start.
-/

namespace DiffScope.Grammar

/-- The states of a grammar. -/
structure Automaton where
  table : Table
  states : Array State
  deriving Inhabited

namespace Automaton

def ofTable (t : Table) : Automaton :=
  let states := t.unfold
  let groups := (Table.groupBy (fun n => (states[n]!).points) (List.range states.size)).flatMap fun g =>
    Table.siftAll (fun a b => t.collide states[a]! states[b]!) g
  let groups := Table.refine states states.size groups
  let numbers := Table.groupNumbers states.size groups
  let all := #[default] ++ (groups.map (Table.joined states numbers)).toArray
  ⟨t, all.map (t.shortcut all)⟩

def movesOn (a : Automaton) (state token : Nat) : Array Move :=
  let t := a.table
  if state = brokenState then
    if t.extras.has token then #[.shiftExtra]
    else if t.sturdy.has token || token = Table.finish ||
        (token < t.tokenCount && (match t.matchers[token]! with
          | .contextual _ => true
          | _ => false)) then
      #[.recover]
    else #[]
  else if t.tokenCount ≤ token then #[] else
    let s := a.states[state]!
    if !(s.expected ||| t.extras).has token then #[] else t.movesOf s token (s.next? token)

/-- The state behind a symbol as the moves on it say, zero if there is none. -/
def nextState (a : Automaton) (state symbol : Nat) : Nat :=
  match (a.states[state]!).next? symbol with
  | some n => n
  | none => if a.table.extras.has symbol then state else 0

end Automaton

end DiffScope.Grammar
