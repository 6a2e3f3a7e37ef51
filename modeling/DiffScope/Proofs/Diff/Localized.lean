import Mathlib.Data.List.Sort
import DiffScope.Diff.AddedLines
import DiffScope.Proofs.Checked

/-! # Added lines of a region

The lines of a region are the added lines from its first line on, counted from there, which never
counts beyond the bound. If the region moves down with its lines, they stay what they are.
-/

namespace DiffScope.Diff

open DiffScope.Checked

/-- The line of a region that a line of the file is, counted step by step. -/
def countToRegion (line offset : Nat) : Except Overflow (Option Nat) :=
  if offset = 0 ∨ line < offset then .ok none else do
    return some (← Overflow.plus (← Overflow.minus line offset) 1)

/-- A line that has a number has one in every region. -/
theorem countToRegion_eq_ok {line : Nat} (offset : Nat) (fit : line < countBound) :
    countToRegion line offset = .ok (toRegion? line offset) := by
  unfold countToRegion toRegion?
  split
  next => rfl
  next inside =>
    have behind : offset ≤ line := by omega
    have next : line - offset + 1 < countBound := by omega
    rw [Overflow.minus_eq_ok behind]
    exact congrArg (Functor.map some) (Overflow.plus_eq_ok next)

theorem toFile_eq_ok_iff {line offset n : Nat} :
    toFile line offset = .ok n ↔
      (line + offset < countBound ∧ 1 ≤ line + offset) ∧ n = line + offset - 1 := by
  unfold toFile
  rw [bind_eq_ok]
  constructor
  · rintro ⟨sum, added, less⟩
    obtain ⟨rfl, bound⟩ := plus_eq_ok_iff.mp added
    obtain ⟨rfl, positive⟩ := minus_eq_ok_iff.mp less
    exact ⟨⟨bound, positive⟩, rfl⟩
  · rintro ⟨⟨bound, positive⟩, rfl⟩
    exact ⟨_, plus_eq_ok_iff.mpr ⟨rfl, bound⟩, minus_eq_ok_iff.mpr ⟨rfl, positive⟩⟩

namespace AddedLines

theorem mem_localize {added : AddedLines} {offset l : Nat} :
    l ∈ added.localize offset ↔ 0 < offset ∧ ∃ g ∈ added, offset ≤ g ∧ l = g - offset + 1 := by
  rw [localize, mem_ofList, List.mem_filterMap]
  constructor
  · rintro ⟨⟨g, member, moved⟩, -⟩
    unfold toRegion? at moved
    split at moved
    · cases moved
    · have line := Option.some.inj moved
      exact ⟨by omega, g, member, by omega, line.symm⟩
  · rintro ⟨positive, g, member, behind, rfl⟩
    refine ⟨⟨g, member, ?_⟩, Nat.succ_pos _⟩
    rw [toRegion?, if_neg]
    omega

theorem eq_of_mem_iff {a b : AddedLines} (h : ∀ l, l ∈ a ↔ l ∈ b) : a = b := by
  have lists := List.Pairwise.eq_of_mem_iff a.ascending b.ascending h
  cases a
  cases b
  simp_all

/-- The lines further down, and others. -/
def moved (added : AddedLines) (k : Nat) (others : List Nat) : AddedLines :=
  .ofList (others ++ added.toList.map (· + k))

theorem mem_moved {added : AddedLines} {k : Nat} {others : List Nat} {l : Nat}
    (behind : k < l) (above : ∀ z ∈ others, z ≤ k) :
    l ∈ added.moved k others ↔ ∃ a ∈ added, l = a + k := by
  rw [moved, mem_ofList, List.mem_append, List.mem_map]
  constructor
  · rintro ⟨among | ⟨a, member, rfl⟩, -⟩
    · have low := above l among
      omega
    · exact ⟨a, member, rfl⟩
  · rintro ⟨a, member, rfl⟩
    exact ⟨.inr ⟨a, member, rfl⟩, by omega⟩

/-- In the lines of a block nothing is left of the move, nor of lines before the component. -/
theorem localize_moved (added : AddedLines) {k offset : Nat} {others : List Nat}
    (first : 0 < offset) (above : ∀ z ∈ others, z ≤ k) :
    (added.moved k others).localize (offset + k) = added.localize offset := by
  refine eq_of_mem_iff fun l => ?_
  rw [mem_localize, mem_localize]
  constructor
  · rintro ⟨-, g, member, behind, rfl⟩
    obtain ⟨a, isAdded, rfl⟩ := (mem_moved (by omega) above).mp member
    exact ⟨first, a, isAdded, by omega, by omega⟩
  · rintro ⟨-, a, isAdded, behind, rfl⟩
    refine ⟨by omega, a + k, ?_, by omega, by omega⟩
    exact (mem_moved (by omega) above).mpr ⟨a, isAdded, rfl⟩

end AddedLines

end DiffScope.Diff
