import DiffScope.Proofs.Snippet.Rows

/-! # What windows cover

The windows of a unit hold the lines of the unit that are no further than the radius from an added
line, each in one window, and no two windows overlap or touch.
-/

namespace DiffScope.Snippet

open DiffScope.Checked

/-! ## Numbers in ascending order -/

section Repetitions

open List

theorem mem_eraseReps_loop {l a : Nat} {as acc : List Nat} :
    l ∈ eraseRepsBy.loop (· == ·) a as acc ↔ l ∈ acc ∨ l = a ∨ l ∈ as := by
  induction as generalizing a acc with
  | nil => simp [eraseRepsBy.loop, or_comm]
  | cons b bs ih =>
      rw [eraseRepsBy.loop]
      split
      next same =>
        obtain rfl := eq_of_beq same
        simp [ih]
      next => simp [ih, or_assoc, or_left_comm]

/-- Of an ascending list what is left has no number twice; what is done comes from the last. -/
theorem pairwise_eraseReps_loop {a : Nat} {as acc : List Nat} (sorted : (a :: as).Pairwise (· ≤ ·))
    (done : acc.Pairwise (· > ·)) (less : ∀ l ∈ acc, l < a) :
    (eraseRepsBy.loop (· == ·) a as acc).Pairwise (· < ·) := by
  induction as generalizing a acc with
  | nil =>
      rw [eraseRepsBy.loop, pairwise_reverse]
      exact pairwise_cons.mpr ⟨less, done⟩
  | cons b bs ih =>
      obtain ⟨least, rest⟩ := pairwise_cons.mp sorted
      rw [eraseRepsBy.loop]
      split
      next same =>
        obtain rfl := eq_of_beq same
        exact ih rest done less
      next other =>
        have different : a ≠ b := by simpa using other
        have before : a < b := Nat.lt_of_le_of_ne (least b mem_cons_self) different
        refine ih rest (pairwise_cons.mpr ⟨less, done⟩) fun l member => ?_
        rcases mem_cons.mp member with rfl | member
        · exact before
        · exact Nat.lt_trans (less l member) before

end Repetitions

theorem mem_ascending {lines : List Nat} {l : Nat} : l ∈ ascending lines ↔ l ∈ lines := by
  have sorted : l ∈ lines.mergeSort (fun a b => a ≤ b) ↔ l ∈ lines := List.mem_mergeSort
  rw [← sorted, ascending]
  cases lines.mergeSort (fun a b => a ≤ b) with
  | nil => rfl
  | cons a as => exact mem_eraseReps_loop.trans (by simp)

theorem pairwise_ascending (lines : List Nat) : (ascending lines).Pairwise (· < ·) := by
  have sorted : (lines.mergeSort (fun a b => a ≤ b)).Pairwise (· ≤ ·) := by
    refine (List.pairwise_mergeSort (fun a b c => ?_) (fun a b => ?_) lines).imp of_decide_eq_true
    · simpa using Nat.le_trans
    · simpa using Nat.le_total a b
  rw [ascending]
  cases found : lines.mergeSort (fun a b => a ≤ b) with
  | nil => exact .nil
  | cons a as => exact pairwise_eraseReps_loop (found ▸ sorted) .nil (by simp)

/-! ## Lines of windows -/

/-- Some of the lines is no further away than the radius. -/
def IsNear (centers : List Nat) (radius line : Nat) : Prop :=
  ∃ c ∈ centers, line ≤ c + radius ∧ c ≤ line + radius

theorem isNear_cons {c : Nat} {centers : List Nat} {radius line : Nat} :
    IsNear (c :: centers) radius line ↔
      (line ≤ c + radius ∧ c ≤ line + radius) ∨ IsNear centers radius line := by
  simp [IsNear]

theorem isNear_map_add {centers : List Nat} {radius n k : Nat} :
    IsNear (centers.map (· + k)) radius (n + k) ↔ IsNear centers radius n := by
  constructor
  · rintro ⟨c, member, above, below⟩
    obtain ⟨a, among, rfl⟩ := List.mem_map.mp member
    exact ⟨a, among, by omega, by omega⟩
  · rintro ⟨a, among, above, below⟩
    exact ⟨a + k, List.mem_map.mpr ⟨a, among, rfl⟩, by omega, by omega⟩

namespace Window

theorem mem_lines_around {startLine endLine radius center l : Nat} :
    l ∈ (around startLine endLine radius center).lines ↔
      (startLine ≤ l ∧ l ≤ endLine ∧ l < countBound) ∧ l ≤ center + radius ∧
        center ≤ l + radius := by
  have bound : 0 < countBound := by decide
  rw [mem_lines]
  dsimp only [around]
  omega

end Window

/-- Windows from the last to the first. They hold lines and leave some out between any two. -/
structure Stacked (ws : List Window) : Prop where
  filled : ∀ w ∈ ws, w.first ≤ w.last
  apart : ws.Pairwise fun later earlier => earlier.last + 1 < later.first

def InWindows (ws : List Window) (line : Nat) : Prop := ∃ w ∈ ws, line ∈ w.lines

theorem inWindows_cons {w : Window} {ws : List Window} {line : Nat} :
    InWindows (w :: ws) line ↔ line ∈ w.lines ∨ InWindows ws line := by
  simp [InWindows]

/-- What a window that is added to others makes of them. -/
structure Extends (ws : List Window) (w : Window) (next : List Window) : Prop where
  stacked : Stacked next
  first : ∀ v ∈ next, v.first ≤ w.first
  lines : ∀ l, InWindows next l ↔ InWindows ws l ∨ l ∈ w.lines

theorem extends_of_append {ws next : List Window} {w : Window} (stacked : Stacked ws)
    (filled : w.first ≤ w.last) (first : ∀ v ∈ ws, v.first ≤ w.first)
    (h : Window.append ws w = .ok next) : Extends ws w next := by
  cases ws with
  | nil =>
      obtain rfl := Except.ok.inj h
      refine ⟨⟨?_, List.pairwise_singleton _ _⟩, ?_, ?_⟩ <;> simp [filled, InWindows]
  | cons top rest =>
      obtain ⟨topFilled, restFilled⟩ := List.forall_mem_cons.mp stacked.filled
      obtain ⟨below, restApart⟩ := List.pairwise_cons.mp stacked.apart
      obtain ⟨topFirst, restFirst⟩ := List.forall_mem_cons.mp first
      obtain ⟨bound, added, h⟩ := bind_eq_ok.mp h
      obtain ⟨rfl, -⟩ := plus_eq_ok_iff.mp added
      obtain rfl := Except.ok.inj h
      split
      next touches =>
        have grown : top.first ≤ max top.last w.last := by omega
        refine ⟨⟨List.forall_mem_cons.mpr ⟨grown, restFilled⟩,
          List.pairwise_cons.mpr ⟨below, restApart⟩⟩,
          List.forall_mem_cons.mpr ⟨topFirst, restFirst⟩, fun l => ?_⟩
        -- the two windows leave out no line between them
        have merged : l ∈ (Window.mk top.first (max top.last w.last)).lines ↔
            l ∈ top.lines ∨ l ∈ w.lines := by
          simp only [Window.mem_lines]
          omega
        rw [inWindows_cons, inWindows_cons, merged, or_right_comm]
      next leaves =>
        have above : ∀ v ∈ top :: rest, v.last + 1 < w.first := by
          refine List.forall_mem_cons.mpr ⟨by omega, fun v member => ?_⟩
          have before := below v member
          omega
        refine ⟨⟨List.forall_mem_cons.mpr ⟨filled, stacked.filled⟩,
          List.pairwise_cons.mpr ⟨above, stacked.apart⟩⟩,
          List.forall_mem_cons.mpr ⟨Nat.le_refl _, first⟩, fun l => ?_⟩
        rw [inWindows_cons, or_comm]

section Run

variable {startLine endLine radius : Nat}

/-- A line of a unit that has a number. -/
def InUnit (startLine endLine line : Nat) : Prop :=
  startLine ≤ line ∧ line ≤ endLine ∧ line < countBound

theorem filled_around {c : Nat} (inside : InUnit startLine endLine c) :
    (Window.around startLine endLine radius c).first ≤
      (Window.around startLine endLine radius c).last := by
  have center : c ∈ (Window.around startLine endLine radius c).lines :=
    Window.mem_lines_around.mpr ⟨inside, Nat.le_add_right _ _, Nat.le_add_right _ _⟩
  obtain ⟨above, below⟩ := Window.mem_lines.mp center
  exact Nat.le_trans above below

theorem first_around_le {c d : Nat} (less : c < d) :
    (Window.around startLine endLine radius c).first ≤
      (Window.around startLine endLine radius d).first := by
  dsimp only [Window.around]
  omega

theorem stacked_of_foldlM {centers : List Nat} {ws found : List Window} (stacked : Stacked ws)
    (ascending : centers.Pairwise (· < ·)) (inside : ∀ c ∈ centers, InUnit startLine endLine c)
    (first : ∀ v ∈ ws, ∀ c ∈ centers, v.first ≤ (Window.around startLine endLine radius c).first)
    (h : centers.foldlM
      (fun ws c => Window.append ws (.around startLine endLine radius c)) ws = .ok found) :
    Stacked found ∧ ∀ l, InWindows found l ↔
      InWindows ws l ∨ InUnit startLine endLine l ∧ IsNear centers radius l := by
  -- The centers ascend, so a window starts behind the starts of all found and can only meet the last.
  induction centers generalizing ws with
  | nil =>
      obtain rfl := Except.ok.inj h
      exact ⟨stacked, by simp [IsNear]⟩
  | cons c cs ih =>
      obtain ⟨least, rest⟩ := List.pairwise_cons.mp ascending
      obtain ⟨here, others⟩ := List.forall_mem_cons.mp inside
      rw [List.foldlM_cons] at h
      obtain ⟨next, appended, h⟩ := bind_eq_ok.mp h
      have grows := extends_of_append stacked (filled_around here)
        (fun v member => first v member c List.mem_cons_self) appended
      obtain ⟨done, lines⟩ := ih grows.stacked rest others (fun v member d among =>
        Nat.le_trans (grows.first v member) (first_around_le (least d among))) h
      refine ⟨done, fun l => ?_⟩
      rw [lines, grows.lines, Window.mem_lines_around, isNear_cons, or_assoc, ← InUnit,
        ← and_or_left]

/-- The windows of a unit hold its lines that are near one of the added lines in it. -/
theorem separate_windows {added : List Nat} {ws : List Window}
    (fit : ∀ a ∈ added, a < countBound)
    (h : windows added startLine endLine radius = .ok ws) :
    Separate ws ∧ ∀ l, InWindows ws l ↔ InUnit startLine endLine l ∧
      IsNear (added.filter fun a => startLine ≤ a && a ≤ endLine) radius l := by
  obtain ⟨found, run, h⟩ := bind_eq_ok.mp h
  obtain rfl := Except.ok.inj h
  have none : Stacked [] := ⟨by simp, .nil⟩
  have inside : ∀ c ∈ ascending (added.filter fun a => startLine ≤ a && a ≤ endLine),
      InUnit startLine endLine c := by
    intro c member
    obtain ⟨isAdded, within⟩ := List.mem_filter.mp (mem_ascending.mp member)
    simp only [Bool.and_eq_true, decide_eq_true_eq] at within
    exact ⟨within.1, within.2, fit c isAdded⟩
  obtain ⟨stacked, lines⟩ := stacked_of_foldlM none (pairwise_ascending _) inside (by simp) run
  refine ⟨⟨fun w member => stacked.filled w (List.mem_reverse.mp member),
    List.pairwise_reverse.mpr stacked.apart⟩, fun l => ?_⟩
  have mirrored : InWindows found.reverse l ↔ InWindows found l := by simp [InWindows]
  rw [mirrored, lines]
  simp [InWindows, IsNear, mem_ascending]

end Run

end DiffScope.Snippet
