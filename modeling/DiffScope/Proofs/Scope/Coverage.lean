import Mathlib.Data.List.Sort
import DiffScope.Proofs.Scope.Kept

/-! # What a selection covers

A selection of candidates covers the added lines that any of them holds, each once, and without any
of those it keeps a line would be left over. Several candidates are only compared if the number of
lines of each of them can be counted.
-/

namespace DiffScope.Scope

open DiffScope.Checked DiffScope.Diff

variable {candidates : List Candidate} {added : AddedLines}

/-- The lines of a candidate can be counted. -/
def Candidate.IsCountable (c : Candidate) : Prop := c.endLine - c.startLine + 1 < countBound

instance (c : Candidate) : Decidable c.IsCountable :=
  inferInstanceAs (Decidable (c.endLine - c.startLine + 1 < countBound))

/-- The lines of all candidates can be counted, unless there is nothing to compare. -/
def Comparable (candidates : List Candidate) : Prop :=
  2 ≤ candidates.length → ∀ c ∈ candidates, c.IsCountable

theorem exists_owns {c : Candidate} {l : Nat} (member : c ∈ candidates) (holds : l ∈ c.addedLines) :
    ∃ i, Owns candidates l i :=
  exists_least_rank Candidate.rank (l ∈ ·.addedLines) member holds

theorem Owns.exists_holds {l i : Nat} (h : Owns candidates l i) :
    ∃ c ∈ candidates, l ∈ c.addedLines := by
  obtain ⟨c, found, holds, -⟩ := h
  exact ⟨c, List.mem_of_getElem? found, holds⟩

/-- The candidate at an index is kept, and accounts for the added lines that it owns in their
order. -/
structure Accounts (candidates : List Candidate) (added : AddedLines) (index : Nat)
    (s : Selected) : Prop where
  found : candidates[index]? = some s.candidate
  lines : ∀ l, l ∈ s.accountsFor ↔ l ∈ added ∧ Owns candidates l index
  ascending : s.accountsFor.Pairwise (· < ·)

/-- What a selection has to be: the candidates that own added lines, as they were found, each with
those lines. So no line is accounted for twice, every added line is accounted for that a candidate
holds, and for each that is kept there is a line for which no other accounts. -/
structure Coverage (candidates : List Candidate) (added : AddedLines) (selected : List Selected) :
    Prop where
  owners : ∃ picks : List Nat, picks.Pairwise (· < ·) ∧
    (∀ i, i ∈ picks ↔ ∃ l ∈ added, Owns candidates l i) ∧
    List.Forall₂ (Accounts candidates added) picks selected
  asFound : (selected.map Selected.candidate).Sublist candidates
  apart : selected.Pairwise fun a b => List.Disjoint a.accountsFor b.accountsFor
  whole : ∀ l, (∃ s ∈ selected, l ∈ s.accountsFor) ↔
    l ∈ added ∧ ∃ c ∈ candidates, l ∈ c.addedLines
  needed : ∀ before s after, selected = before ++ s :: after →
    ∃ l ∈ s.accountsFor, ∀ o ∈ before ++ after, l ∉ o.accountsFor

theorem rightUnique_accounts (candidates : List Candidate) (added : AddedLines) :
    Relator.RightUnique (Accounts candidates added) := by
  intro i a b accountsA accountsB
  have candidate := Option.some.inj (accountsA.found.symm.trans accountsB.found)
  have lines := accountsA.ascending.eq_of_mem_iff accountsB.ascending fun l =>
    (accountsA.lines l).trans (accountsB.lines l).symm
  cases a
  cases b
  exact congrArg₂ Selected.mk candidate lines

/-- There is only one thing that a selection can be. -/
theorem Coverage.unique {a b : List Selected} (h : Coverage candidates added a)
    (k : Coverage candidates added b) : a = b := by
  obtain ⟨picksA, ascendingA, membersA, keptA⟩ := h.owners
  obtain ⟨picksB, ascendingB, membersB, keptB⟩ := k.owners
  obtain rfl : picksA = picksB :=
    ascendingA.eq_of_mem_iff ascendingB fun i => (membersA i).trans (membersB i).symm
  exact (rightUnique_accounts candidates added).forall₂ keptA keptB

namespace Shares

variable {picks : List Nat} {selected : List Selected}

theorem mem_picks_iff (h : Shares candidates added picks selected) (i : Nat) :
    i ∈ picks ↔ ∃ l ∈ added, Owns candidates l i := by
  constructor
  · intro pick
    obtain ⟨s, -, keeps⟩ := exists_of_mem_left h.kept pick
    obtain ⟨l, holds⟩ := List.exists_mem_of_ne_nil _ keeps.nonempty
    exact ⟨l, (keeps.accounts l).mp holds⟩
  · rintro ⟨l, member, owns⟩
    exact h.complete l member i owns

theorem whole (h : Shares candidates added picks selected) (l : Nat) :
    (∃ s ∈ selected, l ∈ s.accountsFor) ↔ l ∈ added ∧ ∃ c ∈ candidates, l ∈ c.addedLines := by
  constructor
  · rintro ⟨s, member, holds⟩
    obtain ⟨i, -, keeps⟩ := exists_of_mem_right h.kept member
    obtain ⟨isAdded, owns⟩ := (keeps.accounts l).mp holds
    exact ⟨isAdded, owns.exists_holds⟩
  · rintro ⟨isAdded, c, member, holds⟩
    obtain ⟨i, owns⟩ := exists_owns member holds
    obtain ⟨s, among, keeps⟩ := exists_of_mem_left h.kept (h.complete l isAdded i owns)
    exact ⟨s, among, (keeps.accounts l).mpr ⟨isAdded, owns⟩⟩

/-- Another line of a kept candidate goes to a candidate that is no larger. -/
theorem exists_accounts (h : Shares candidates added picks selected) {s : Selected}
    (member : s ∈ selected) {l : Nat} (isAdded : l ∈ added) (holds : l ∈ s.candidate.addedLines) :
    ∃ o ∈ selected, l ∈ o.accountsFor ∧
      o.candidate.endLine - o.candidate.startLine ≤ s.candidate.endLine - s.candidate.startLine := by
  obtain ⟨i, -, keeps⟩ := exists_of_mem_right h.kept member
  obtain ⟨j, owns⟩ := exists_owns (List.mem_of_getElem? keeps.found) holds
  obtain ⟨o, among, keeps'⟩ := exists_of_mem_left h.kept (h.complete l isAdded j owns)
  refine ⟨o, among, (keeps'.accounts l).mpr ⟨isAdded, owns⟩, ?_⟩
  obtain ⟨c, found, -, least⟩ := owns
  obtain rfl := Option.some.inj (found.symm.trans keeps'.found)
  have ranks := least i s.candidate keeps.found holds
  simp only [Candidate.rank, Prod.Lex.toLex_le_toLex] at ranks
  omega

theorem asFound (h : Shares candidates added picks selected) :
    (selected.map Selected.candidate).Sublist candidates :=
  sublist_of_forall₂_getElem? h.ascending
    (List.forall₂_map_right_iff.mpr (h.kept.imp fun _ _ keeps => keeps.found))

theorem needed (h : Shares candidates added picks selected) {before after : List Selected}
    {s : Selected} (split : selected = before ++ s :: after) :
    ∃ l ∈ s.accountsFor, ∀ o ∈ before ++ after, l ∉ o.accountsFor := by
  have apart := split ▸ h.apart
  obtain ⟨-, later, earlier⟩ := List.pairwise_append.mp apart
  obtain ⟨i, -, keeps⟩ := exists_of_mem_right h.kept (split ▸ List.mem_append_cons_self)
  obtain ⟨l, holds⟩ := List.exists_mem_of_ne_nil _ keeps.nonempty
  refine ⟨l, holds, fun o other holds' => ?_⟩
  rcases List.mem_append.mp other with early | late
  · exact earlier o early s List.mem_cons_self holds' holds
  · exact (List.pairwise_cons.mp later).1 o late holds holds'

theorem coverage (h : Shares candidates added picks selected)
    (ascending : ∀ c ∈ candidates, c.addedLines.Pairwise (· < ·)) :
    Coverage candidates added selected where
  owners := by
    refine ⟨picks, h.ascending, h.mem_picks_iff, h.kept.imp fun i s keeps => ?_⟩
    have lines := ascending s.candidate (List.mem_of_getElem? keeps.found)
    exact ⟨keeps.found, keeps.accounts, lines.sublist keeps.ordered⟩
  asFound := h.asFound
  apart := h.apart
  whole := h.whole
  needed := fun _ _ _ => h.needed

end Shares

/-! ## Candidates that cannot be compared -/

theorem rankFrom_eq_error {index : Nat} {cs : List Candidate} {c : Candidate} (member : c ∈ cs)
    (h : ¬c.IsCountable) : rankFrom index cs = .error .sum := by
  induction cs generalizing index with
  | nil => cases member
  | cons d ds ih =>
      rw [rankFrom]
      by_cases counts : d.IsCountable
      · have among : c ∈ ds := (List.mem_cons.mp member).resolve_left fun same => h (same ▸ counts)
        rw [Candidate.size_eq_ok_iff.mpr ⟨rfl, counts⟩, ih among]
        rfl
      · have size : d.size = .error .sum := if_neg counts
        rw [size]
        rfl

theorem select_eq_error (h : ¬Comparable candidates) : select candidates added = .error .sum := by
  match candidates, h with
  | [], h => exact absurd (fun several => absurd several (by simp)) h
  | [c], h => exact absurd (fun several => absurd several (by simp)) h
  | c :: d :: cs, h =>
      obtain ⟨e, member, uncounted⟩ : ∃ e ∈ c :: d :: cs, ¬e.IsCountable := by
        by_contra none
        push Not at none
        exact h fun _ => none
      have ranks : rankFrom 0 (c :: d :: cs) = .error .sum := rankFrom_eq_error member uncounted
      change (rankFrom 0 (c :: d :: cs) >>= _) = _
      rw [ranks]
      rfl

theorem exists_select_of_comparable (added : AddedLines) (h : Comparable candidates) :
    ∃ selected, select candidates added = .ok selected := by
  match candidates, h with
  | [], _ => exact ⟨[], rfl⟩
  | [c], _ => exact ⟨_, rfl⟩
  | c :: d :: cs, h => exact exists_select_eq_ok added (h (by simp))

/-! ## Results -/

/-- A selection among several candidates that can be compared comes to the picks. -/
theorem select_cons_cons {c d : Candidate} {cs : List Candidate} (added : AddedLines)
    (h : Comparable (c :: d :: cs)) : select (c :: d :: cs) added =
      .ok ((picked (c :: d :: cs) added).map fun p => ⟨p.1.candidate, p.2⟩) := by
  obtain ⟨ranked, ranks⟩ := exists_rankFrom_eq_ok 0 (h (by simp))
  obtain rfl := rankFrom_eq_ok ranks
  exact bind_eq_ok.mpr ⟨_, ranks, rfl⟩

theorem mergeSort_pair {α : Type} (le : α → α → Bool) (a b : α) :
    [a, b].mergeSort le = if le a b then [a, b] else [b, a] := by
  simp [List.mergeSort, List.merge]

/-- Candidates that can be compared are selected as they have to be. -/
theorem selection_covers_added_lines (candidates : List Candidate) (added : AddedLines)
    (ascending : ∀ c ∈ candidates, c.addedLines.Pairwise (· < ·))
    (lone : ∀ c, candidates = [c] → c.addedLines ≠ [] ∧ ∀ l ∈ c.addedLines, l ∈ added) :
    (Comparable candidates →
      ∃ selected, select candidates added = .ok selected ∧ Coverage candidates added selected) ∧
    (¬Comparable candidates → select candidates added = .error .sum) := by
  refine ⟨fun comparable => ?_, select_eq_error⟩
  obtain ⟨selected, ok⟩ := exists_select_of_comparable added comparable
  obtain ⟨picks, shares⟩ := shares_of_select ok lone
  exact ⟨selected, ok, shares.coverage ascending⟩

/-- A unit from the first line to the third and a longer one that begins within it. -/
def overlapping : List Candidate := [
  ⟨.functionDeclaration, "draw", 2, 5, 20, 90, [2, 3, 5], none⟩,
  ⟨.classDeclaration, "Card", 1, 3, 0, 60, [1, 2, 3], none⟩]

/-- The lines that both hold go to the shorter. -/
theorem overlapping_is_covered : ∃ selected,
    select overlapping (.ofList [1, 2, 3, 5]) = .ok selected ∧
    Coverage overlapping (.ofList [1, 2, 3, 5]) selected ∧
    selected.map Selected.accountsFor = [[5], [1, 2, 3]] := by
  have comparable : Comparable overlapping := fun _ => by decide
  obtain ⟨selected, ok, covers⟩ := (selection_covers_added_lines overlapping (.ofList [1, 2, 3, 5])
    (by decide) (by simp [overlapping])).1 comparable
  refine ⟨selected, ok, covers, ?_⟩
  let draw := overlapping[0].ranked 0
  let card := overlapping[1].ranked 1
  have turns : [draw, card].mergeSort Ranked.precedes = [card, draw] := mergeSort_pair _ _ _
  have given : assign (.ofList [1, 2, 3, 5]) [] [card, draw] = [(card, [1, 2, 3]), (draw, [5])] :=
    rfl
  have picks : picked overlapping (.ofList [1, 2, 3, 5]) = [(draw, [5]), (card, [1, 2, 3])] := by
    change (assign _ [] ([draw, card].mergeSort _)).mergeSort _ = _
    rw [turns, given]
    exact mergeSort_pair _ _ _
  obtain rfl := Except.ok.inj (ok.symm.trans (select_cons_cons _ comparable))
  change ((picked overlapping (.ofList [1, 2, 3, 5])).map _).map _ = _
  rw [picks]
  rfl

/-- Two units of which one takes all lines that can be counted and one more. -/
def beyondCount : List Candidate := [
  ⟨.classDeclaration, "outer", 0, countBound - 1, 0, 60, [1], none⟩,
  ⟨.arrowFunction, "inner", 1, 1, 20, 30, [1], none⟩]

/-- The first line belongs to the smaller unit, but nothing is selected. -/
theorem selection_breaks_off_beyond_count :
    (∀ c ∈ beyondCount, c.addedLines.Pairwise (· < ·)) ∧ Owns beyondCount 1 1 ∧
      ¬∃ selected, select beyondCount (.ofList [1]) = .ok selected := by
  refine ⟨by decide, ⟨_, rfl, by simp, fun j d found _ => ?_⟩, ?_⟩
  · match j, found with
    | 0, found => obtain rfl := Option.some.inj found; decide
    | 1, found => obtain rfl := Option.some.inj found; exact le_rfl
  · have breaks : select beyondCount (.ofList [1]) = .error .sum := rfl
    rintro ⟨selected, ok⟩
    cases breaks.symm.trans ok

end DiffScope.Scope
