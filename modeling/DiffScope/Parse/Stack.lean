import DiffScope.Parse.Green

/-!
# The stack of a parser with several readings

Readings that agree on what came before share it: the stack is a graph of nodes whose links lead
back towards the start, each over the tree that was read there. Its heads are the readings still
alive.
-/

namespace DiffScope.Parse

open DiffScope.Grammar

/-- A step back in the stack, over a tree or over the start of broken text. -/
structure Link where
  /-- The node before. -/
  node : Nat
  /-- The tree between. -/
  tree : Option Green
  deriving Inhabited

/-- A place in the stack. -/
structure StackNode where
  state : Nat
  /-- The text up to here. -/
  position : Extent
  /-- The ways back. -/
  links : Array Link
  /-- Cost of the broken text up to here. -/
  cost : Nat
  /-- Progress up to here. -/
  progress : Nat
  /-- Weight up to here. -/
  weight : Int
  deriving Inhabited

/-- An earlier state to which a reading of broken text may return. -/
structure Landing where
  /-- Where the state was reached. -/
  position : Extent
  /-- Trees that would be given up. -/
  depth : Nat
  state : Nat
  deriving Inhabited

/-- What a reading is doing. -/
inductive Status where
  | active
  /-- It cannot take a token. -/
  | paused (lookahead : Green)
  | halted
  deriving Inhabited

/-- A reading. -/
structure Head where
  node : Nat
  /-- The states that it may return to, known while it reads broken text. -/
  landings : Option (Array Landing)
  /-- Progress when it last met an error. -/
  progressAtError : Nat
  status : Status
  deriving Inhabited

/-- The stack. -/
structure Stack where
  nodes : Array StackNode
  heads : Array Head
  deriving Inhabited

/-- Trees taken from the stack, with the reading that stands before them. -/
structure Slice where
  /-- The trees from left to right. -/
  trees : List Green
  version : Nat
  deriving Inhabited

/-- A way back in the stack. -/
structure Path where
  node : Nat
  /-- The trees passed, from left to right. -/
  trees : List Green
  /-- How many of them are no extras. -/
  count : Nat
  deriving Inhabited

/-- How many ways back are followed at once. -/
def maxPaths : Nat := 64

/-- How many ways back a place keeps. -/
def maxLinks : Nat := 8

namespace Stack

def initial (startState : Nat) : Stack :=
  ⟨#[⟨startState, Extent.zero, #[], 0, 0, 0⟩], #[⟨0, none, 0, .active⟩]⟩

def head (s : Stack) (v : Nat) : Head := s.heads[v]!

/-- The place of a reading. -/
def top (s : Stack) (v : Nat) : StackNode := s.nodes[(s.head v).node]!

def state (s : Stack) (v : Nat) : Nat := (s.top v).state

/-- The text behind a reading. -/
def position (s : Stack) (v : Nat) : Extent := (s.top v).position

def size (s : Stack) : Nat := s.heads.size

def isActive (s : Stack) (v : Nat) : Bool := match (s.head v).status with
  | .active => true
  | _ => false

/-- Whether a reading cannot take a token. -/
def isPaused (s : Stack) (v : Nat) : Bool := match (s.head v).status with
  | .paused _ => true
  | _ => false

def isHalted (s : Stack) (v : Nat) : Bool := match (s.head v).status with
  | .halted => true
  | _ => false

def modifyHead (s : Stack) (v : Nat) (f : Head → Head) : Stack := { s with heads := s.heads.modify v f }

/-- Lets a reading wait with the token that it cannot take. -/
def pause (s : Stack) (v : Nat) (lookahead : Green) : Stack :=
  let progress := (s.top v).progress
  s.modifyHead v fun h => { h with status := .paused lookahead, progressAtError := progress }

def halt (s : Stack) (v : Nat) : Stack := s.modifyHead v fun h => { h with status := .halted }

def remove (s : Stack) (v : Nat) : Stack :=
  { s with heads := (s.heads.toList.eraseIdx v).toArray }

/-- Moves a reading into the place of an earlier one. -/
def renumber (s : Stack) (source target : Nat) : Stack :=
  if source = target then s else
    let a := s.head source
    let b := s.head target
    let a := if a.landings.isNone then { a with landings := b.landings } else a
    ({ s with heads := s.heads.set! target a }).remove source

/-- Exchanges two readings. -/
def swap (s : Stack) (v w : Nat) : Stack :=
  let a := s.head v
  let b := s.head w
  { s with heads := (s.heads.set! v b).set! w a }

/-- A second reading at the same place. -/
def copy (s : Stack) (v : Nat) : Stack × Nat :=
  ({ s with heads := s.heads.push { s.head v with landings := none } }, s.size)

/-- Moves a reading over a tree, or into broken text, to a state. -/
def push (t : Table) (s : Stack) (v : Nat) (tree : Option Green) (state : Nat) : Stack :=
  let old := s.top v
  let node : StackNode := match tree with
    | some g =>
      { state, links := #[⟨(s.head v).node, tree⟩], position := old.position + g.total
        cost := old.cost + g.cost, progress := old.progress + g.progress t
        weight := old.weight + g.weight }
    | none => { old with state, links := #[⟨(s.head v).node, none⟩] }
  let n := s.nodes.size
  { nodes := s.nodes.push node
    heads := s.heads.modify v fun h =>
      { h with node := n, progressAtError := if tree.isNone then node.progress else h.progressAtError } }

/-! ## Merging -/

/-- Whether two trees make no difference to what can follow. -/
def sameTree (a b : Option Green) : Bool :=
  match a, b with
  | none, none => true
  | some a, some b =>
    a.symbol = b.symbol && ((a.cost > 0 && b.cost > 0) ||
      (a.padding.bytes = b.padding.bytes && a.size.bytes = b.size.bytes &&
        a.children.length = b.children.length && a.isExtra = b.isExtra))
  | _, _ => false

def linkWeight (l : Link) : Int := match l.tree with
  | some g => g.weight
  | none => 0

/-- Adds a way back to a place. A way over the same tree to the same place is kept once, and one to
a place of the same state joins that place. -/
def addLink (t : Table) : Nat → Nat → Link → Array StackNode → Array StackNode
  | 0, _, _, nodes => nodes
  | fuel + 1, self, link, nodes =>
    if link.node = self then nodes else
      let node := nodes[self]!
      let before := nodes[link.node]!
      let joins := fun (l : Link) => sameTree l.tree link.tree &&
        (l.node = link.node ||
          let other := nodes[l.node]!
          other.state = before.state && other.position.bytes = before.position.bytes &&
            other.cost = before.cost)
      match node.links.findIdx? joins with
      | some i =>
        let old := node.links[i]!
        if old.node = link.node then
          if linkWeight old < linkWeight link then
            nodes.set! self { node with
              links := node.links.set! i link, weight := before.weight + linkWeight link }
          else nodes
        else
          let nodes := before.links.foldl (fun nodes l => addLink t fuel old.node l nodes) nodes
          let weight := before.weight + linkWeight link
          nodes.modify self fun n => { n with weight := max n.weight weight }
      | none =>
        if maxLinks ≤ node.links.size then nodes else
          let progress := before.progress + (match link.tree with
            | some g => g.progress t
            | none => 0)
          nodes.set! self { node with
            links := node.links.push link
            progress := max node.progress progress
            weight := max node.weight (before.weight + linkWeight link) }

/-- Whether two readings can become one. -/
def canMerge (s : Stack) (v w : Nat) : Bool :=
  let a := s.top v
  let b := s.top w
  s.isActive v && s.isActive w && a.state = b.state && a.position.bytes = b.position.bytes &&
    a.cost = b.cost

/-- Joins a reading to an earlier one if the two can become one. -/
def merge (t : Table) (s : Stack) (v w : Nat) : Bool × Stack :=
  if !s.canMerge v w then (false, s) else
    let a := (s.head v).node
    let nodes := (s.top w).links.foldl (fun nodes l => addLink t s.nodes.size a l nodes) s.nodes
    let s := { s with nodes := nodes }
    let s := if (s.top v).state = 0 then
        s.modifyHead v fun h => { h with progressAtError := nodes[a]!.progress }
      else s
    (true, s.remove w)

/-! ## Going back -/

/-- Notes trees taken along a path: readings that end at one place share a version. -/
def addSlice (s : Stack) (slices : Array Slice) (v : Nat) (p : Path) : Stack × Array Slice :=
  match (List.range slices.size).reverse.find? fun i => (s.head slices[i]!.version).node = p.node with
  | some i =>
    let (front, back) := slices.toList.splitAt (i + 1)
    (s, (front ++ ⟨p.trees, slices[i]!.version⟩ :: back).toArray)
  | none =>
    let w := s.size
    ({ s with heads := s.heads.push ⟨p.node, none, (s.head v).progressAtError, .active⟩ },
      slices.push ⟨p.trees, w⟩)

/-- The paths one link further back, first the one that continues this path and then the others;
at most as many others as there is room for. -/
def extend (s : Stack) (p : Path) (room : Nat) : List Path :=
  let along := fun (l : Link) => match l.tree with
    | some g => (⟨l.node, g :: p.trees, if g.isExtra then p.count else p.count + 1⟩ : Path)
    | none => ⟨l.node, p.trees, p.count + 1⟩
  match s.nodes[p.node]!.links.toList with
  | [] => []
  | l :: others => along l :: (others.take room).map along

/-- Follows all paths back. The test says of each path whether its trees are taken and whether it
ends; a path also ends at the start. -/
def walkBack (test : Path → Bool × Bool) (v : Nat) : Nat → List Path → Stack → Array Slice →
    Stack × Array Slice
  | 0, _, s, slices => (s, slices)
  | _ + 1, [], s, slices => (s, slices)
  | fuel + 1, paths, s, slices =>
    let (_, kept, added, s, slices) := paths.foldl
      (fun (alive, kept, added, s, slices) p =>
        let (take, stop) := test p
        let stop := stop || s.nodes[p.node]!.links.isEmpty
        let (s, slices) := if take then addSlice s slices v p else (s, slices)
        if stop then (alive - 1, kept, added, s, slices) else
          match extend s p (maxPaths - alive) with
          | [] => (alive - 1, kept, added, s, slices)
          | q :: others => (alive + others.length, q :: kept, others.reverse ++ added, s, slices))
      (paths.length, ([] : List Path), ([] : List Path), s, slices)
    walkBack test v fuel (kept.reverse ++ added.reverse) s slices

/-- Takes a number of trees, extras not counted, from a reading; one slice for each way back. -/
def popCount (s : Stack) (v count : Nat) : Stack × Array Slice :=
  walkBack (fun p => (p.count = count, p.count = count)) v (s.nodes.size + 1)
    [⟨(s.head v).node, [], 0⟩] s #[]

/-- Takes all trees from a reading. -/
def popAll (s : Stack) (v : Nat) : Stack × Array Slice :=
  let nodes := s.nodes
  walkBack (fun p => (nodes[p.node]!.links.isEmpty, false)) v (s.nodes.size + 1)
    [⟨(s.head v).node, [], 0⟩] s #[]

/-- Takes a tree of broken text from the top of a reading, if there is one. -/
def popBroken (t : Table) (s : Stack) (v : Nat) : Stack × Option Green :=
  match (s.top v).links.find? fun l => match l.tree with
    | some g => g.symbol = t.broken
    | none => false with
  | some l => (s.modifyHead v fun h => { h with node := l.node, status := .active }, l.tree)
  | none => (s, none)

/-- Collects the states on all ways back down to a depth, nearest first. -/
def landings (s : Stack) (maxDepth : Nat) : Nat → List Path → Array Landing → Array Landing
  | 0, _, found => found
  | _ + 1, [], found => found
  | fuel + 1, paths, found =>
    let (_, kept, added, found) := paths.foldl
      (fun (alive, kept, added, found) p =>
        let node := s.nodes[p.node]!
        if p.count > maxDepth then (alive - 1, kept, added, found) else
          let known := found.toList.reverse.takeWhile (fun e => p.count ≤ e.depth)
          let found := if known.any fun e => e.depth = p.count && e.state = node.state then found
            else found.push ⟨node.position, p.count, node.state⟩
          match extend s { p with trees := [] } (maxPaths - alive) with
          | [] => (alive - 1, kept, added, found)
          | q :: others => (alive + others.length, q :: kept, others.reverse ++ added, found))
      (paths.length, ([] : List Path), ([] : List Path), found)
    landings s maxDepth fuel (kept.reverse ++ added.reverse) found

/-- Notes the states that a reading may return to. -/
def noteLandings (s : Stack) (v maxDepth : Nat) : Stack :=
  let found := s.landings maxDepth (s.nodes.size + 1) [⟨(s.head v).node, [], 0⟩] #[]
  s.modifyHead v fun h => { h with landings := some found }

/-! ## Judging readings -/

/-- The cost of a reading, with what an error costs that it has just met. -/
def cost (s : Stack) (v : Nat) : Nat :=
  let node := s.top v
  let fresh := node.state = 0 && match node.links[0]? with
    | some l => l.tree.isNone
    | none => false
  node.cost + (if s.isPaused v || fresh then recoveryCost else 0)

/-- Progress of a reading since it last met an error. -/
def progressSince (s : Stack) (v : Nat) : Nat × Stack :=
  let now := (s.top v).progress
  let h := s.head v
  if now < h.progressAtError then (0, s.modifyHead v fun h => { h with progressAtError := now })
  else (now - h.progressAtError, s)

/-- Whether a reading has taken any text since it last met an error. -/
def hasAdvanced (s : Stack) (v : Nat) : Bool :=
  if (s.top v).cost = 0 then true else go s.nodes.size (s.head v).node
where
  /-- Goes back over empty trees. -/
  go : Nat → Nat → Bool
    | 0, _ => false
    | fuel + 1, n =>
      let node := s.nodes[n]!
      match node.links[0]? with
      | none => false
      | some l => match l.tree with
        | none => false
        | some g =>
          if g.total.bytes > 0 then true
          else if node.progress > (s.head v).progressAtError && g.cost = 0 then go fuel l.node
          else false

end Stack

end DiffScope.Parse
