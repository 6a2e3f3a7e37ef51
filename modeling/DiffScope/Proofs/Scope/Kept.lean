import DiffScope.Proofs.Scope.Smallest

/-! # What is kept of a search

However deep a search goes, what is kept of it is told of units of the tree. Each kept unit accounts
for added lines that it holds, and no line is accounted for twice.
-/

namespace DiffScope.Scope

open DiffScope.Checked DiffScope.Diff DiffScope.Syntax

theorem Owns.unique {candidates : List Candidate} {line i j : Nat} (h : Owns candidates line i)
    (k : Owns candidates line j) : i = j := by
  obtain ⟨c, foundC, holdsC, leastC⟩ := h
  obtain ⟨d, foundD, holdsD, leastD⟩ := k
  have ranks := le_antisymm (leastC j d foundD holdsD) (leastD i c foundC holdsC)
  simp only [Candidate.rank, EmbeddingLike.apply_eq_iff_eq, Prod.mk.injEq] at ranks
  exact ranks.2.2

/-- Of two kept candidates no line belongs to both. -/
theorem Shares.apart {candidates : List Candidate} {added : AddedLines} {picks : List Nat}
    {selected : List Selected} (h : Shares candidates added picks selected) :
    selected.Pairwise fun a b => List.Disjoint a.accountsFor b.accountsFor := by
  refine pairwise_of_forall₂ h.kept h.ascending fun i a j b keepsA keepsB before l inA inB => ?_
  have ownsA := ((keepsA.accounts l).mp inA).2
  have ownsB := ((keepsB.accounts l).mp inB).2
  exact Nat.ne_of_lt before (ownsA.unique ownsB)

namespace Search

variable {s : Search} {maxDepth : Nat} {t : Tree} {selected : List Selected}

/-- A kept candidate is a unit among the nodes, and accounts for some of the added lines that the
unit holds. -/
structure Keeps (s : Search) (nodes : List Focus) (sel : Selected) : Prop where
  node : ∃ f ∈ nodes, s.Describes f sel.candidate
  ordered : sel.accountsFor.Sublist sel.candidate.addedLines
  filled : sel.accountsFor ≠ []

theorem exists_shares_of_select (h : select (s.run maxDepth t).candidates s.added = .ok selected) :
    ∃ picks, Shares (s.run maxDepth t).candidates s.added picks selected := by
  refine shares_of_select h fun c only => ?_
  have found : c ∈ (s.run maxDepth t).candidates := only ▸ List.mem_singleton_self c
  obtain ⟨f, -, is⟩ := exists_find?_of_visit found
  have describes := describes_of_find? is
  refine ⟨describes.filled, fun l holds => ?_⟩
  rw [describes.lines] at holds
  exact (AddedLines.mem_within.mp holds).1

theorem keeps_of_select (h : select (s.run maxDepth t).candidates s.added = .ok selected) :
    ∀ sel ∈ selected, s.Keeps t.nodes sel := by
  intro sel member
  obtain ⟨picks, shares⟩ := exists_shares_of_select h
  obtain ⟨i, -, keeps⟩ := exists_of_mem_right shares.kept member
  obtain ⟨f, node, is⟩ := exists_find?_of_visit (List.mem_of_getElem? keeps.found)
  exact ⟨⟨f, node, describes_of_find? is⟩, keeps.ordered, keeps.nonempty⟩

theorem disjoint_of_select (h : select (s.run maxDepth t).candidates s.added = .ok selected) :
    selected.Pairwise fun a b => List.Disjoint a.accountsFor b.accountsFor := by
  obtain ⟨picks, shares⟩ := exists_shares_of_select h
  exact shares.apart

end Search

end DiffScope.Scope
