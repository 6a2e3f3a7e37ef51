import DiffScope.Grammar.Move

/-!
# Unfolding a grammar

All states that the start of a grammar leads to, each with its own tokens that may follow. States
are numbered in the order in which they are met.
-/

namespace DiffScope.Grammar

namespace Table

/-- For each rule that may begin at some points, the tokens that may follow it there. -/
def beginning (t : Table) (items : Array Item) : Array TokenSet :=
  items.foldl (fun acc (p, follow) =>
    match t.stepAt p with
    | some x =>
      let after := match t.stepAt t.points[p]!.next with
        | some y => t.first[y.symbol]!
        | none => follow
      (t.corners[x.symbol]!).foldl (fun acc (head, c) =>
        let follow := if c.isLast then TokenSet.union c.follow after else c.follow
        acc.modify head (TokenSet.union follow)) acc
    | none => acc) (Array.replicate (t.symbolCount + 1) 0)

/-- Adds an item to items sorted by their points. -/
def addItem (items : Array Item) (item : Item) : Array Item :=
  match items.findIdx? (item.1 ≤ ·.1) with
  | none => items.push item
  | some i =>
    if items[i]!.1 = item.1 then items.modify i fun (p, f) => (p, f ||| item.2)
    else items.insertIdx! i item

/-- The items behind each symbol that productions begin with, given what may begin. -/
def openRows (t : Table) (beginning : Array TokenSet) : Array (Array Item) :=
  (Array.range t.symbolCount).foldl (fun rows head =>
    let follow := beginning[head]!
    if follow = 0 then rows else
      (t.openings[head]!).foldl (fun rows (s, p) => rows.modify s (·.push (p, follow))) rows)
    (Array.replicate t.symbolCount #[])

/-- The items behind each symbol, given those behind what productions begin with. -/
def successors (t : Table) (items : Array Item) (rows : Array (Array Item)) :
    Array (Array Item) :=
  items.foldl (fun rows (p, follow) =>
    match t.stepAt p with
    | some x => rows.modify x.symbol fun row => addItem row (t.points[p]!.next, follow)
    | none => rows) rows

/-- What is known so far: the items of all states, also of those that are not worked out yet. -/
structure Atlas where
  kernels : Array (Array Item)
  /-- The number of each state by its items. -/
  numbers : Std.HashMap (Array Item) Nat
  /-- The items behind what productions begin with, by what may begin. -/
  opened : Std.HashMap (Array TokenSet) (Array (Array Item))

namespace Atlas

def ofKernel (items : Array Item) : Atlas :=
  ⟨#[items], (∅ : Std.HashMap (Array Item) Nat).insert items 0, ∅⟩

def number (a : Atlas) (items : Array Item) : Nat × Atlas :=
  match a.numbers[items]? with
  | some n => (n, a)
  | none => (a.kernels.size,
    { a with kernels := a.kernels.push items, numbers := a.numbers.insert items a.kernels.size })

/-- The items behind what productions begin with. -/
def openRows (t : Table) (a : Atlas) (beginning : Array TokenSet) : Array (Array Item) × Atlas :=
  match a.opened[beginning]? with
  | some rows => (rows, a)
  | none =>
    let rows := t.openRows beginning
    (rows, { a with opened := a.opened.insert beginning rows })

end Atlas

/-- The state with given items; the states behind it are numbered. -/
def unfoldState (t : Table) (a : Atlas) (items : Array Item) : State × Atlas :=
  let opening := t.beginning items
  let (rows, a) := a.openRows t opening
  let rows := t.successors items rows
  let met := t.unfolding.filter fun s => !(rows[s]!).isEmpty
  let (next, a) := met.foldl (fun (next, a) s =>
    let (n, a) := a.number rows[s]!
    (next.push (s, n), a)) ((#[] : Array (Nat × Nat)), a)
  let ends := (t.empties.filterMap fun (head, p) =>
    let follow := opening[head]!
    if follow = 0 then none else some (p, follow)).toArray ++
    items.filter fun (p, _) => (t.stepAt p).isNone
  let ending := ends.foldl (fun s (_, f) => s ||| f) 0
  let expected := next.foldl (fun s (i, _) => if t.isToken i then s ||| TokenSet.single i else s) ending
  let s : State := ⟨items, ends, expected, next⟩
  let stays := fun ((i, n) : Nat × Nat) => !(t.isToken i && ending.has i) ||
    (t.movesOf s i (some n)).any fun m => match m with
      | .shift .. => true
      | _ => false
  ({ s with next := next.filter stays }, a)

/-- Works out the states from one on. The fuel bounds their number. -/
def unfoldFrom (t : Table) : Nat → Nat → Atlas → Array State → Array State
  | 0, _, _, done => done
  | fuel + 1, i, a, done =>
    if h : i < a.kernels.size then
      let (s, a) := t.unfoldState a a.kernels[i]
      unfoldFrom t fuel (i + 1) a (done.push s)
    else done

def maxStates : Nat := 1000000

/-- All states that the start leads to; the start is the first of them. -/
def unfold (t : Table) : Array State :=
  t.unfoldFrom maxStates 0 (.ofKernel #[(t.start, TokenSet.single Table.finish)]) #[]

end Table

end DiffScope.Grammar
