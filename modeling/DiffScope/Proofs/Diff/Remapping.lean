import DiffScope.Proofs.Diff.Localized

/-! # Lines of a region and lines of the file

A line is in a region's set exactly if the line of the file that it stands for is in the file's set. So
the set of a region in a region is that of one region, and to look for lines of a region and number
them as lines of the file is to look for them in the file.
-/

namespace DiffScope.Diff

open DiffScope.Checked

namespace AddedLines

variable {s : AddedLines}

theorem not_mem_zero (s : AddedLines) : 0 ∉ s := fun member =>
  absurd (s.positive 0 member) (Nat.lt_irrefl 0)

/-! ## Membership -/

theorem mem_localize_iff {offset l : Nat} (first : 1 ≤ offset) :
    l ∈ s.localize offset ↔ 1 ≤ l ∧ l + offset - 1 ∈ s := by
  rw [mem_localize]
  constructor
  · rintro ⟨-, g, member, behind, rfl⟩
    refine ⟨Nat.succ_pos _, ?_⟩
    rwa [show g - offset + 1 + offset - 1 = g by omega]
  · rintro ⟨positive, member⟩
    exact ⟨first, _, member, by omega, by omega⟩

/-- No region starts on a line zero. -/
theorem localize_zero (s : AddedLines) : s.localize 0 = .empty := by
  refine eq_of_mem_iff fun l => ?_
  rw [mem_localize]
  constructor
  · rintro ⟨positive, -⟩
    exact absurd positive (Nat.lt_irrefl 0)
  · exact nofun

/-- A region that starts where the file does has its lines. -/
theorem localize_one (s : AddedLines) : s.localize 1 = s := by
  refine eq_of_mem_iff fun l => ?_
  rw [mem_localize_iff (Nat.le_refl 1), Nat.add_sub_cancel]
  exact ⟨fun inside => inside.2, fun member => ⟨s.positive l member, member⟩⟩

theorem localize_localize {outer inner : Nat} (first : 1 ≤ outer) (second : 1 ≤ inner) :
    (s.localize outer).localize inner = s.localize (outer + inner - 1) := by
  refine eq_of_mem_iff fun l => ?_
  rw [mem_localize_iff second, mem_localize_iff first, mem_localize_iff (by omega)]
  constructor
  · rintro ⟨positive, -, member⟩
    rw [show l + inner - 1 + outer - 1 = l + (outer + inner - 1) - 1 by omega] at member
    exact ⟨positive, member⟩
  · rintro ⟨positive, member⟩
    rw [show l + (outer + inner - 1) - 1 = l + inner - 1 + outer - 1 by omega] at member
    exact ⟨positive, by omega, member⟩

/-! ## Ranges -/

theorem pairwise_within (s : AddedLines) (start stop : Nat) :
    (s.within start stop).Pairwise (· < ·) :=
  s.ascending.filter _

theorem intersects_iff {start stop : Nat} :
    s.intersects start stop = true ↔ s.within start stop ≠ [] := by
  rw [intersects, within, ne_eq, List.filter_eq_nil_iff, List.any_eq_true]
  simp

/-- Lines of a region in a range, numbered as lines of the file, are the file's lines in the range
further down. -/
theorem map_within_localize {offset start stop : Nat} (first : 1 ≤ offset) (positive : 1 ≤ start) :
    ((s.localize offset).within start stop).map (fun l => l + offset - 1) =
      s.within (start + offset - 1) (stop + offset - 1) := by
  refine List.Pairwise.eq_of_mem_iff ?_ (s.pairwise_within _ _) fun g => ?_
  · rw [List.pairwise_map]
    refine (pairwise_within _ start stop).imp_of_mem fun {l l'} member _ less => ?_
    obtain ⟨inside, -⟩ := mem_within.mp member
    have counted := (s.localize offset).positive l inside
    omega
  · rw [List.mem_map, mem_within]
    constructor
    · rintro ⟨l, member, rfl⟩
      obtain ⟨inside, low, high⟩ := mem_within.mp member
      exact ⟨((mem_localize_iff first).mp inside).2, by omega, by omega⟩
    · rintro ⟨member, low, high⟩
      refine ⟨g + 1 - offset, mem_within.mpr ⟨?_, by omega, by omega⟩, by omega⟩
      rw [mem_localize_iff first, show g + 1 - offset + offset - 1 = g by omega]
      exact ⟨by omega, member⟩

/-- Each of the lines has a number in the file if the last line of the range leaves room for it. -/
theorem mapM_toFile_within {offset start stop : Nat} (first : 1 ≤ offset) (positive : 1 ≤ start)
    (room : stop + offset < countBound) :
    ((s.localize offset).within start stop).mapM (toFile · offset) =
      .ok (s.within (start + offset - 1) (stop + offset - 1)) := by
  rw [mapM_eq_ok_iff_map fun _ _ => toFile_eq_ok_iff, map_within_localize first positive]
  refine ⟨fun l member => ?_, rfl⟩
  obtain ⟨-, low, high⟩ := mem_within.mp member
  exact ⟨by omega, by omega⟩

/-! ## Bounds -/

/-- Every line of the set has a number. -/
def Fits (s : AddedLines) : Prop := ∀ l ∈ s, l < countBound

/-- The lines of a region, counted step by step. -/
def countLocalized (s : AddedLines) (offset : Nat) : Except Overflow AddedLines := do
  return .ofList (← s.toList.mapM (countToRegion · offset)).reduceOption

/-- In no region is a line counted beyond the bound. -/
theorem countLocalized_eq_ok (fits : s.Fits) (offset : Nat) :
    s.countLocalized offset = .ok (s.localize offset) := by
  have counted : s.toList.mapM (countToRegion · offset) =
      .ok (s.toList.map (toRegion? · offset)) := by
    rw [mapM_eq_ok, List.forall₂_map_right_iff, List.forall₂_same]
    exact fun l member => countToRegion_eq_ok offset (fits l member)
  have lines : (s.toList.map (toRegion? · offset)).reduceOption =
      s.toList.filterMap (toRegion? · offset) := List.filterMap_map
  rw [countLocalized, counted, localize, ← lines]
  rfl

theorem Fits.localize (fits : s.Fits) (offset : Nat) : (s.localize offset).Fits := by
  intro l member
  obtain ⟨first, g, among, behind, rfl⟩ := mem_localize.mp member
  have bound := fits g among
  omega

/-- A region has the lines that are in the file so many lines further down, and no step of counting
them leaves the bound. Its set is that of the file if it starts where the file does, a region in it is
a region of the file, and there is no line zero, nor a line of a region that starts there. As far as
the file has numbers for them, the lines of the region in a range are those that the file has in the
range further down, and the range is met exactly if there are any. -/
theorem regions_have_lines_of_the_file (s : AddedLines) :
    (0 ∉ s ∧ s.localize 0 = .empty ∧ s.localize 1 = s) ∧
    (∀ offset, 1 ≤ offset → ∀ l, l ∈ s.localize offset ↔ 1 ≤ l ∧ l + offset - 1 ∈ s) ∧
    (∀ outer inner, 1 ≤ outer → 1 ≤ inner →
      (s.localize outer).localize inner = s.localize (outer + inner - 1)) ∧
    (∀ offset start stop, 1 ≤ offset → 1 ≤ start → stop + offset < countBound →
      let inFile := s.within (start + offset - 1) (stop + offset - 1)
      ((s.localize offset).within start stop).mapM (toFile · offset) = .ok inFile ∧
      ((s.localize offset).intersects start stop = true ↔ inFile ≠ []) ∧
      (s.intersects (start + offset - 1) (stop + offset - 1) = true ↔ inFile ≠ [])) ∧
    (s.Fits → ∀ offset,
      s.countLocalized offset = .ok (s.localize offset) ∧ (s.localize offset).Fits) := by
  refine ⟨⟨s.not_mem_zero, s.localize_zero, s.localize_one⟩, ?_, ?_, ?_, ?_⟩
  · exact fun offset first l => mem_localize_iff first
  · exact fun outer inner first second => localize_localize first second
  · intro offset start stop first positive room
    refine ⟨mapM_toFile_within first positive room, ?_, intersects_iff⟩
    rw [intersects_iff, ← map_within_localize first positive, ne_eq, ne_eq, List.map_eq_nil_iff]
  · exact fun fits offset => ⟨countLocalized_eq_ok fits offset, fits.localize offset⟩

/-- Two lines near the start of a file and the last line that a file can have. -/
def farLines : AddedLines := .ofList [0, 4, countBound - 1, 7]

theorem regions_have_farLines : farLines.Fits ∧
    ((farLines.localize 4).within 1 4).mapM (toFile · 4) = .ok (farLines.within 4 7) ∧
    (farLines.localize 3).localize 2 = farLines.localize 4 ∧
    4 ∈ farLines.localize 4 ∧
    farLines.countLocalized (countBound - 1) = .ok (farLines.localize (countBound - 1)) := by
  obtain ⟨-, member, nested, ranges, counted⟩ := regions_have_lines_of_the_file farLines
  have fits : farLines.Fits := by
    intro l inside
    obtain ⟨among, -⟩ := mem_ofList.mp inside
    have small : ∀ l ∈ [0, 4, countBound - 1, 7], l < countBound := by decide
    exact small l among
  refine ⟨fits, (ranges 4 1 4 (by decide) (by decide) (by decide)).1,
    nested 3 2 (by decide) (by decide), ?_, (counted fits _).1⟩
  exact (member 4 (by decide) 4).mpr ⟨by decide, mem_ofList.mpr ⟨by decide, by decide⟩⟩

end AddedLines

end DiffScope.Diff
