import DiffScope.Grammar.Unfolding

/-!
# Joining states

States that stand at the same points become one wherever that changes no move of theirs. The joined
state awaits what any of them awaited, so that in broken text more rules are closed before the
fault is noticed.
-/

namespace DiffScope.Grammar

namespace Table

/-- Whether a state that awaits some tokens cannot await further ones. -/
def crowds (t : Table) (old added : TokenSet) : Bool :=
  added ≠ 0 && t.rivals.any fun (i, set) => old.has i && set &&& added ≠ 0

/-- Whether two states with the same points cannot be joined: a contextual token is awaited by only
one of them, a token that one of them adds can be confused with one of the other, or their moves on
a token differ. -/
def collide (t : Table) (a b : State) : Bool :=
  let differing := a.expected ^^^ b.expected
  (differing ≠ 0 && (differing &&& t.divisive ≠ 0 || t.crowds a.expected (differing &&& b.expected) ||
    t.crowds b.expected (differing &&& a.expected))) ||
    let shared := a.expected &&& b.expected
    let doubtful := (a.ends.zip b.ends).foldl
      (fun s (x, y) => s ||| ((x.2 ^^^ y.2) &&& shared)) 0
    doubtful ≠ 0 && (List.range t.tokenCount).any fun i => doubtful.has i &&
      t.movesOf a i ((a.next? i).map fun _ => 0) ≠ t.movesOf b i ((b.next? i).map fun _ => 0)

/-- Keeps the first of some elements and all that collide with none kept before; the others follow in
the order in which they were turned away. -/
def sift (collide : α → α → Bool) : List α → List α × List α
  | [] => ([], [])
  | a :: l =>
    let rest := sift collide (l.partition (collide a)).2
    (a :: rest.1, (l.partition (collide a)).1 ++ rest.2)
termination_by l => l.length
decreasing_by
  simp only [List.partition_eq_filter_filter, List.length_cons]
  exact Nat.lt_succ_of_le (List.length_filter_le ..)

/-- Every element is on one side of a partition. -/
theorem length_partition (p : α → Bool) (l : List α) :
    (l.partition p).1.length + (l.partition p).2.length = l.length := by
  rw [List.partition_eq_filter_filter]
  induction l with
  | nil => rfl
  | cons a l ih => by_cases h : p a <;> simp_all <;> omega

/-- Sifting loses nothing. -/
theorem length_sift (collide : α → α → Bool) (l : List α) :
    (sift collide l).1.length + (sift collide l).2.length = l.length := by
  induction l using sift.induct collide with
  | case1 => simp [sift]
  | case2 a l ih =>
    have h := length_partition (collide a) l
    rw [sift]
    simp only [List.length_cons, List.length_append]
    omega

/-- The first of some elements is kept. -/
theorem length_sift_turned (collide : α → α → Bool) (a : α) (l : List α) :
    (sift collide (a :: l)).2.length ≤ l.length := by
  have h := length_sift collide (a :: l)
  have k : 0 < (sift collide (a :: l)).1.length := by rw [sift]; simp
  simp only [List.length_cons] at h
  omega

/-- Sorts elements into groups in which none collide. -/
def siftAll (collide : α → α → Bool) : List α → List (List α)
  | [] => []
  | a :: l =>
    (sift collide (a :: l)).1 :: siftAll collide (sift collide (a :: l)).2
termination_by l => l.length
decreasing_by
  exact Nat.lt_succ_of_le (length_sift_turned collide a l)

/-- Groups elements by a key, in the order in which the keys are first met. -/
def groupBy [BEq κ] [Hashable κ] (key : α → κ) (l : List α) : List (List α) :=
  let step := fun (acc : Std.HashMap κ Nat × Array (List α)) a =>
    let (places, groups) := acc
    match places[key a]? with
    | some i => (places, groups.modify i (a :: ·))
    | none => (places.insert (key a) groups.size, groups.push [a])
  (l.foldl step (∅, #[])).2.toList.map List.reverse

def groupNumbers (size : Nat) (groups : List (List Nat)) : Array Nat :=
  (groups.zipIdx).foldl (fun acc (g, i) => g.foldl (fun acc n => acc.set! n i) acc)
    (Array.replicate size 0)

/-- Splits groups until the states of each lead to the same groups. -/
def refine (states : Array State) : Nat → List (List Nat) → List (List Nat)
  | 0, groups => groups
  | fuel + 1, groups =>
    let numbers := groupNumbers states.size groups
    let split := groups.flatMap fun g => match g with
      | [_] => [g]
      | _ => groupBy (fun n => (states[n]!).next.map fun (_, m) => numbers[m]!) g
    if split.length = groups.length then groups else refine states fuel split

/-- One state in the place of several. -/
def joined (states : Array State) (numbers : Array Nat) : List Nat → State
  | [] => default
  | n :: rest =>
    let merge := fun (xs ys : Array Item) => (xs.zip ys).map fun (x, y) => (x.1, x.2 ||| y.2)
    let s := rest.foldl (fun s m =>
      let other := states[m]!
      { s with
        items := merge s.items other.items
        ends := merge s.ends other.ends
        expected := s.expected ||| other.expected }) states[n]!
    { s with next := s.next.map fun (i, m) => (i, numbers[m]! + 1) }

/-- The rule that all moves of a state reduce to when each of them only renames its one part. -/
def renaming? (t : Table) (s : State) : Option Nat :=
  match s.items.toList with
  | [] => none
  | (p, _) :: rest =>
    let head := (t.productionAt p).head
    if renames p && t.isTransparent[head]! && rest.all fun (q, _) => renames q && (t.productionAt q).head = head
    then some head else none
where
  /-- Whether a point ends a production that has one plain part. -/
  renames (p : Nat) : Bool :=
    let production := t.productionAt p
    t.points[p]!.dot = 1 && production.steps.size = 1 && production.isPlain && production.weight = 0

/-- Leads past the states that only rename. -/
def shortcut (t : Table) (states : Array State) (s : State) : State :=
  { s with next := s.next.map fun (i, n) => (i, go 16 n) }
where
  /-- The state behind at most a given number of renamings. -/
  go : Nat → Nat → Nat
    | 0, n => n
    | fuel + 1, n => match t.renaming? states[n]! with
      | some head => match s.next? head with
        | some m => go fuel m
        | none => n
      | none => n

end Table

end DiffScope.Grammar
