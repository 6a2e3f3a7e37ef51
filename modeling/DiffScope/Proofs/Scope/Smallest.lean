import DiffScope.Proofs.Scope.Keys
import DiffScope.Proofs.Scope.Search
import DiffScope.Proofs.Scope.Selection

/-! # The smallest unit around a line

Among all nodes of a tree, the smallest unit around a line is the unit of least rank that holds the
line. A search numbers only the candidates that it finds, in the order of the nodes, so that ranks
compare in the same way by either numbering, and an added line belongs to a candidate exactly when
the candidate is the smallest unit around it.
-/

namespace DiffScope.Scope

open DiffScope.Checked DiffScope.Diff DiffScope.Syntax

/-- The node is a unit and covers text that is there. -/
def IsUnit (f : Focus) : Prop :=
  (kind? f).isSome ∧ Search.isTangible f.tree = true

theorem IsUnit.start_le_stop {f : Focus} (h : IsUnit f) : f.tree.start ≤ f.tree.stop := by
  have tangible := h.2
  simp only [Search.isTangible, Bool.and_eq_true, decide_eq_true_eq] at tangible
  exact Nat.le_of_lt tangible.2

/-- The line is one of the node's lines. -/
def Holds (s : Source) (f : Focus) (line : Nat) : Prop :=
  s.line f.tree.start ≤ line ∧ line ≤ s.line f.tree.stop

/-- What decides between units: the number of lines, the first line, and which of the nodes of the
tree the unit is. -/
def unitRank (s : Source) (f : Focus) (index : Nat) : Nat ×ₗ Nat ×ₗ Nat :=
  toLex (s.line f.tree.stop - s.line f.tree.start + 1, toLex (s.line f.tree.start, index))

/-- Of the units that hold a line, the node at an index is the one of least rank. -/
def IsSmallestAround (s : Source) (nodes : List Focus) (line index : Nat) : Prop :=
  ∃ f, nodes[index]? = some f ∧ IsUnit f ∧ Holds s f line ∧
    ∀ (j : Nat) (g : Focus), nodes[j]? = some g → IsUnit g → Holds s g line →
      unitRank s f index ≤ unitRank s g j

theorem IsSmallestAround.unique {s : Source} {nodes : List Focus} {line i j : Nat}
    (h : IsSmallestAround s nodes line i) (k : IsSmallestAround s nodes line j) : i = j := by
  obtain ⟨f, atI, unitF, holdsF, leastF⟩ := h
  obtain ⟨g, atJ, unitG, holdsG, leastG⟩ := k
  have ranks := le_antisymm (leastF j g atJ unitG holdsG) (leastG i f atI unitF holdsF)
  simp only [unitRank, EmbeddingLike.apply_eq_iff_eq, Prod.mk.injEq] at ranks
  exact ranks.2.2

/-- If any unit holds a line, one of them is the smallest around it. -/
theorem exists_isSmallestAround {s : Source} {nodes : List Focus} {line : Nat} {f : Focus}
    (member : f ∈ nodes) (unit : IsUnit f) (holds : Holds s f line) :
    ∃ i, IsSmallestAround s nodes line i := by
  obtain ⟨i, g, atI, ⟨unit, holds⟩, least⟩ :=
    exists_least_rank (unitRank s) (fun g => IsUnit g ∧ Holds s g line) member ⟨unit, holds⟩
  exact ⟨i, g, atI, unit, holds, fun j h atJ unit holds => least j h atJ ⟨unit, holds⟩⟩

namespace Search

/-- A candidate tells of a node what there is to tell. -/
structure Describes (s : Search) (f : Focus) (c : Candidate) : Prop where
  unit : IsUnit f
  kind : kind? f = some c.kind
  name : nameOf s.source f = .ok c.name
  option : c.option = s.naming.option? s.source f
  start : c.start = f.tree.start
  stop : c.stop = f.tree.stop
  startLine : c.startLine = s.source.line f.tree.start
  endLine : c.endLine = s.source.line f.tree.stop
  lines : c.addedLines = s.added.within c.startLine c.endLine
  filled : c.addedLines ≠ []

theorem candidate?_of_isUnit {s : Search} {f : Focus} (unit : IsUnit f) :
    s.candidate? f ≠ .ok none := by
  obtain ⟨kind, known⟩ := Option.isSome_iff_exists.mp unit.1
  rw [candidate?, known]
  dsimp only
  rw [if_pos unit.2]
  split
  · nofun
  · cases nameOf s.source f <;> nofun

theorem candidate?_of_find? {s : Search} {f : Focus} {c : Candidate}
    (h : s.find? f = some c) : s.meets f.tree = true ∧ s.candidate? f = .ok (some c) := by
  unfold find? at h
  split at h
  next meets =>
    cases tells : s.candidate? f with
    | error reason =>
        rw [tells] at h
        cases h
    | ok here =>
        rw [tells] at h
        exact ⟨meets, congrArg _ h⟩
  next => cases h

theorem describes_of_find? {s : Search} {f : Focus} {c : Candidate} (h : s.find? f = some c) :
    s.Describes f c := by
  obtain ⟨meets, tells⟩ := candidate?_of_find? h
  unfold candidate? at tells
  split at tells
  next => cases tells
  next kind known =>
    split at tells
    next tangible =>
      dsimp only at tells
      split at tells
      next => cases tells
      next =>
        obtain ⟨name, named, tells⟩ := bind_eq_ok.mp tells
        obtain rfl := Option.some.inj (Except.ok.inj tells)
        obtain ⟨l, added, above, below⟩ := meets_iff.mp meets
        have filled := List.ne_nil_of_mem (AddedLines.mem_within.mpr ⟨added, above, below⟩)
        have unit : IsUnit f := ⟨by rw [known]; rfl, tangible⟩
        exact ⟨unit, known, named, rfl, rfl, rfl, rfl, rfl, rfl, filled⟩
    next => cases tells

/-- Every one of the nodes that meets the set can be told of. -/
def TellsAll (s : Search) (nodes : List Focus) : Prop :=
  ∀ f ∈ nodes, s.meets f.tree = true → ∃ here, s.candidate? f = .ok here

/-- A unit that holds an added line is found. -/
theorem exists_find?_eq_some {s : Search} {nodes : List Focus} {f : Focus} {l : Nat}
    (tells : s.TellsAll nodes) (member : f ∈ nodes) (added : l ∈ s.added) (unit : IsUnit f)
    (holds : Holds s.source f l) : ∃ c, s.find? f = some c := by
  have meets : s.meets f.tree = true := meets_iff.mpr ⟨l, added, holds⟩
  obtain ⟨here, told⟩ := tells f member meets
  rw [find?_of_ok meets told]
  refine Option.ne_none_iff_exists'.mp ?_
  rintro rfl
  exact candidate?_of_isUnit unit told

section Texts

variable {s : Search} {t : Tree} {f : Focus}

theorem liesBefore_of_isNamedBy {place : Nat} {name : Tree} (tree : LiesBefore place f.tree)
    (above : ∀ a ∈ f.above, LiesBefore place a) (named : IsNamedBy f name) :
    LiesBefore place name := by
  cases named with
  | own found => exact tree.child (List.mem_of_find?_eq_some found)
  | assigned _ parent _ _ found =>
      exact (above _ (List.mem_of_mem_head? parent)).child (List.mem_of_find?_eq_some found)

/-- Every node of a tree that lies in the text can be told of. -/
theorem tellsAll_of_liesBefore (lies : LiesBefore s.source.text.length t) :
    s.TellsAll t.nodes := by
  intro f member _
  obtain ⟨tree, above⟩ := lies.of_mem_nodes member
  have inside : ∀ u, LiesBefore s.source.text.length u → s.source.get? u.start u.stop =
      some (s.source.slice u.start u.stop) := fun u h => if_pos h.span
  have named : ∃ name, nameOf s.source f = .ok name := by
    unfold nameOf
    split
    next name found =>
      have key := liesBefore_of_isNamedBy tree above (nameNode?_eq_some_iff.mp found)
      exact ⟨_, keyText_eq_ok_iff.mpr ⟨_, inside name key, rfl⟩⟩
    next => exact ⟨_, rfl⟩
  obtain ⟨name, named⟩ := named
  unfold candidate?
  split
  next => exact ⟨_, rfl⟩
  next =>
    split
    · rw [inside f.tree tree, named]
      exact ⟨_, rfl⟩
    · exact ⟨_, rfl⟩

end Texts

/-- Where every node can be told of, a search ends early only at a depth. -/
theorem failure?_eq_none_of_tellsAll {s : Search} {maxDepth : Nat} {t : Tree}
    (nests : LinesNest s.source t) (tells : s.TellsAll t.nodes) :
    (s.run maxDepth t).failure? = none := by
  have halt := (sees_run maxDepth nests).halt
  unfold Found.failure?
  split
  next reason halted =>
    obtain ⟨f, member, ends⟩ := List.exists_of_findSome?_eq_some (halt.symm.trans halted)
    cases halt?_eq_some_iff.mp ends with
    | outside meets fails =>
        obtain ⟨here, told⟩ := tells f member meets
        cases fails.symm.trans told
  next => rfl

/-- A search that is neither cut short nor fails finds all that there is. -/
theorem halt_eq_none {a : Found} (uncut : a.isCut = false) (told : a.failure? = none) :
    a.halt = none := by
  obtain ⟨candidates, halt⟩ := a
  cases halt with
  | none => rfl
  | some why =>
      cases why with
      | depth => cases uncut
      | outside reason => cases told

/-- The candidates among nodes, each with its place among them. -/
def finds (s : Search) (nodes : List Focus) : List (Candidate × Nat) :=
  nodes.zipIdx.filterMap fun n => (s.find? n.1).map (·, n.2)

theorem map_fst_finds (s : Search) (nodes : List Focus) :
    (s.finds nodes).map Prod.fst = nodes.filterMap s.find? := by
  conv_rhs => rw [← List.zipIdx_map_fst 0 nodes, List.filterMap_map]
  rw [finds, List.map_filterMap]
  refine List.filterMap_congr fun n _ => ?_
  rw [Option.map_map, Function.comp_apply]
  exact Option.map_id_apply

theorem mem_finds {s : Search} {nodes : List Focus} {c : Candidate} {i : Nat} :
    (c, i) ∈ s.finds nodes ↔ ∃ f, nodes[i]? = some f ∧ s.find? f = some c := by
  rw [finds, List.mem_filterMap]
  constructor
  · rintro ⟨⟨f, j⟩, member, found⟩
    obtain ⟨d, is, same⟩ := Option.map_eq_some_iff.mp found
    obtain ⟨rfl, rfl⟩ := Prod.mk.inj same
    exact ⟨f, List.mem_zipIdx_iff_getElem?.mp member, is⟩
  · rintro ⟨f, member, found⟩
    exact ⟨(f, i), List.mem_zipIdx_iff_getElem?.mpr member, by rw [found]; rfl⟩

theorem pairwise_finds (s : Search) (nodes : List Focus) :
    (s.finds nodes).Pairwise fun a b => a.2 < b.2 := by
  have ordered : (nodes.zipIdx.map Prod.snd).Pairwise (· < ·) := by
    rw [List.zipIdx_map_snd]
    exact List.pairwise_lt_range'
  rw [finds, List.pairwise_filterMap]
  refine (List.pairwise_map.mp ordered).imp fun {a b} before c foundC d foundD => ?_
  obtain ⟨_, _, rfl⟩ := Option.map_eq_some_iff.mp foundC
  obtain ⟨_, _, rfl⟩ := Option.map_eq_some_iff.mp foundD
  exact before

/-- Candidates and the nodes that they are stand in the same order. -/
theorem le_iff_le_of_finds {s : Search} {nodes : List Focus} {a b : Nat} {c d : Candidate × Nat}
    (foundA : (s.finds nodes)[a]? = some c) (foundB : (s.finds nodes)[b]? = some d) :
    a ≤ b ↔ c.2 ≤ d.2 := by
  have ordered := List.pairwise_iff_getElem.mp (s.pairwise_finds nodes)
  obtain ⟨boundA, rfl⟩ := List.getElem?_eq_some_iff.mp foundA
  obtain ⟨boundB, rfl⟩ := List.getElem?_eq_some_iff.mp foundB
  rcases Nat.lt_trichotomy a b with before | rfl | behind
  · have less := ordered a b boundA boundB before
    omega
  · simp
  · have less := ordered b a boundB boundA behind
    omega

/-- A candidate holds the added lines that its node holds. -/
theorem mem_addedLines_iff {s : Search} {f : Focus} {c : Candidate} {l : Nat}
    (added : l ∈ s.added) (found : s.find? f = some c) :
    l ∈ c.addedLines ↔ Holds s.source f l := by
  have is := describes_of_find? found
  rw [is.lines, AddedLines.mem_within, is.startLine, is.endLine]
  exact and_iff_right added

section Numbering

variable {s : Search} {nodes : List Focus}

/-- Ranks compare in the same way whether candidates or nodes are numbered. -/
theorem rank_le_rank_iff {a b i j : Nat} {c d : Candidate} {f g : Focus}
    (foundA : (s.finds nodes)[a]? = some (c, i)) (foundB : (s.finds nodes)[b]? = some (d, j))
    (isC : s.find? f = some c) (isD : s.find? g = some d) :
    c.rank a ≤ d.rank b ↔ unitRank s.source f i ≤ unitRank s.source g j := by
  have describesC := describes_of_find? isC
  have describesD := describes_of_find? isD
  have order := le_iff_le_of_finds foundA foundB
  simp only [Candidate.rank, unitRank, describesC.startLine, describesC.endLine,
    describesD.startLine, describesD.endLine, Prod.Lex.toLex_le_toLex, order]

theorem getElem?_map_fst_finds {j : Nat} {c : Candidate} :
    ((s.finds nodes).map Prod.fst)[j]? = some c ↔ ∃ i, (s.finds nodes)[j]? = some (c, i) := by
  rw [List.getElem?_map, Option.map_eq_some_iff]
  constructor
  · rintro ⟨⟨d, i⟩, found, rfl⟩
    exact ⟨i, found⟩
  · rintro ⟨i, found⟩
    exact ⟨(c, i), found, rfl⟩

/-- An added line belongs to a candidate exactly when its node is the smallest unit around it. -/
theorem owns_iff (tells : s.TellsAll nodes) {j i l : Nat} {c : Candidate} (added : l ∈ s.added)
    (found : (s.finds nodes)[j]? = some (c, i)) :
    Owns ((s.finds nodes).map Prod.fst) l j ↔ IsSmallestAround s.source nodes l i := by
  obtain ⟨f, atI, isC⟩ := mem_finds.mp (List.mem_of_getElem? found)
  constructor
  · rintro ⟨_, here, holds, least⟩
    obtain ⟨_, here⟩ := getElem?_map_fst_finds.mp here
    obtain ⟨rfl, rfl⟩ := Prod.mk.inj (Option.some.inj (here.symm.trans found))
    refine ⟨f, atI, (describes_of_find? isC).unit, (mem_addedLines_iff added isC).mp holds, ?_⟩
    intro k g atK unit holds'
    obtain ⟨d, isD⟩ := exists_find?_eq_some tells (List.mem_of_getElem? atK) added unit holds'
    obtain ⟨b, foundB⟩ := List.mem_iff_getElem?.mp (mem_finds.mpr ⟨g, atK, isD⟩)
    have heldB := (mem_addedLines_iff added isD).mpr holds'
    exact (rank_le_rank_iff found foundB isC isD).mp
      (least b d (getElem?_map_fst_finds.mpr ⟨k, foundB⟩) heldB)
  · rintro ⟨_, here, unit, holds, least⟩
    obtain rfl := Option.some.inj (here.symm.trans atI)
    refine ⟨c, getElem?_map_fst_finds.mpr ⟨i, found⟩, (mem_addedLines_iff added isC).mpr holds, ?_⟩
    intro b d foundB holds'
    obtain ⟨k, foundB⟩ := getElem?_map_fst_finds.mp foundB
    obtain ⟨g, atK, isD⟩ := mem_finds.mp (List.mem_of_getElem? foundB)
    have heldK := (mem_addedLines_iff added isD).mp holds'
    exact (rank_le_rank_iff found foundB isC isD).mpr
      (least k g atK (describes_of_find? isD).unit heldK)

end Numbering

/-- A kept candidate is the node at an index, and accounts for the added lines around which that is
the smallest unit. -/
structure Gives (s : Search) (nodes : List Focus) (index : Nat) (sel : Selected) : Prop where
  node : ∃ f, nodes[index]? = some f ∧ s.Describes f sel.candidate
  lines : ∀ l, l ∈ sel.accountsFor ↔ l ∈ s.added ∧ IsSmallestAround s.source nodes l index
  nonempty : sel.accountsFor ≠ []

/-- Among the nodes, where the candidate is that a selection gave a number. -/
def placeOf (s : Search) (nodes : List Focus) (j : Nat) : Nat :=
  ((s.finds nodes)[j]?.map Prod.snd).getD 0

theorem placeOf_eq {s : Search} {nodes : List Focus} {j i : Nat} {c : Candidate}
    (found : (s.finds nodes)[j]? = some (c, i)) : s.placeOf nodes j = i := by
  rw [placeOf, found]
  rfl

theorem Gives.of_keeps {s : Search} {nodes : List Focus} (tells : s.TellsAll nodes) {j : Nat}
    {sel : Selected} (h : Keeps ((s.finds nodes).map Prod.fst) s.added j sel) :
    s.Gives nodes (s.placeOf nodes j) sel := by
  obtain ⟨i, found⟩ := getElem?_map_fst_finds.mp h.found
  obtain ⟨f, atI, isC⟩ := mem_finds.mp (List.mem_of_getElem? found)
  rw [placeOf_eq found]
  refine ⟨⟨f, atI, describes_of_find? isC⟩, fun l => ?_, h.nonempty⟩
  rw [h.accounts]
  exact and_congr_right fun added => owns_iff tells added found

/-- A selection keeps exactly the nodes that are the smallest units around added lines, in order. -/
theorem gives_of_select {s : Search} {nodes : List Focus} (tells : s.TellsAll nodes)
    {selected : List Selected}
    (h : select (nodes.filterMap s.find?) s.added = .ok selected) :
    ∃ picks : List Nat, picks.Pairwise (· < ·) ∧ List.Forall₂ (s.Gives nodes) picks selected ∧
      ∀ l ∈ s.added, ∀ i, IsSmallestAround s.source nodes l i → i ∈ picks := by
  rw [← map_fst_finds] at h
  obtain ⟨picks, ascending, kept, complete⟩ := shares_of_select h (by
    intro c only
    have member : c ∈ (s.finds nodes).map Prod.fst := only ▸ List.mem_singleton_self c
    rw [map_fst_finds] at member
    obtain ⟨f, -, isC⟩ := List.mem_filterMap.mp member
    have is := describes_of_find? isC
    exact ⟨is.filled, fun l holds => (AddedLines.mem_within.mp (is.lines ▸ holds)).1⟩)
  refine ⟨picks.map (s.placeOf nodes), ?_, ?_, fun l added i smallest => ?_⟩
  · refine List.pairwise_map.mpr (ascending.imp_of_mem fun {a b} memberA memberB before => ?_)
    obtain ⟨selA, -, keepsA⟩ := Checked.exists_of_mem_left kept memberA
    obtain ⟨selB, -, keepsB⟩ := Checked.exists_of_mem_left kept memberB
    obtain ⟨i, foundA⟩ := getElem?_map_fst_finds.mp keepsA.found
    obtain ⟨k, foundB⟩ := getElem?_map_fst_finds.mp keepsB.found
    rw [placeOf_eq foundA, placeOf_eq foundB]
    have order := le_iff_le_of_finds foundB foundA
    simp only at order
    omega
  · exact List.forall₂_map_left_iff.mpr (kept.imp fun _ _ keeps => .of_keeps tells keeps)
  · obtain ⟨f, atI, unit, holds, -⟩ := id smallest
    obtain ⟨c, isC⟩ :=
      exists_find?_eq_some tells (List.mem_of_getElem? atI) added unit holds
    obtain ⟨j, found⟩ := List.mem_iff_getElem?.mp (mem_finds.mpr ⟨f, atI, isC⟩)
    have pick := complete l added j ((owns_iff tells added found).mpr smallest)
    exact List.mem_map.mpr ⟨j, pick, placeOf_eq found⟩

end Search

end DiffScope.Scope
