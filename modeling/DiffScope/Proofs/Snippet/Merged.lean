import DiffScope.Proofs.Snippet.Spread

/-! # Windows are told by their lines

Windows that leave out lines between any two are told by the lines that they hold. So the windows of
a unit are the longest stretches of its lines near listed ones, and depend on nothing but which lines
of the unit are listed.
-/

namespace DiffScope.Snippet

open DiffScope.Checked

/-! ## The lines of separate windows -/

namespace Separate

variable {v w : Window} {vs ws : List Window} {l : Nat}

theorem tail (separate : Separate (w :: ws)) : Separate ws :=
  ⟨(List.forall_mem_cons.mp separate.filled).2, (List.pairwise_cons.mp separate.apart).2⟩

theorem first_le_last (separate : Separate (w :: ws)) : w.first ≤ w.last :=
  separate.filled w List.mem_cons_self

theorem last_lt_of_inWindows (separate : Separate (w :: ws)) (later : InWindows ws l) :
    w.last + 1 < l := by
  obtain ⟨v, member, shows⟩ := later
  have apart := (List.pairwise_cons.mp separate.apart).1 v member
  exact Nat.lt_of_lt_of_le apart (Window.mem_lines.mp shows).1

theorem inWindows_first (separate : Separate (w :: ws)) : InWindows (w :: ws) w.first :=
  ⟨w, List.mem_cons_self, Window.mem_lines.mpr ⟨Nat.le_refl _, separate.first_le_last⟩⟩

theorem first_le_of_inWindows (separate : Separate (w :: ws)) (shows : InWindows (w :: ws) l) :
    w.first ≤ l := by
  rcases inWindows_cons.mp shows with here | later
  · exact (Window.mem_lines.mp here).1
  · have filled := separate.first_le_last
    have behind := separate.last_lt_of_inWindows later
    omega

/-- The line behind the first window is left out. -/
theorem not_inWindows_behind (separate : Separate (w :: ws)) :
    ¬InWindows (w :: ws) (w.last + 1) := by
  intro shows
  rcases inWindows_cons.mp shows with here | later
  · exact Nat.not_succ_le_self _ (Window.mem_lines.mp here).2
  · exact Nat.lt_irrefl _ (separate.last_lt_of_inWindows later)

theorem inWindows_tail_iff (separate : Separate (w :: ws)) :
    InWindows ws l ↔ InWindows (w :: ws) l ∧ w.last < l := by
  rw [inWindows_cons]
  constructor
  · intro later
    exact ⟨.inr later, Nat.lt_of_succ_lt (separate.last_lt_of_inWindows later)⟩
  · rintro ⟨here | later, behind⟩
    · exact absurd (Window.mem_lines.mp here).2 (Nat.not_le_of_lt behind)
    · exact later

/-- A first window that starts with another does not outlast it if no more lines are held. -/
theorem last_le_last (separate : Separate (v :: vs)) (first : v.first = w.first)
    (subset : ∀ l, InWindows (w :: ws) l → InWindows (v :: vs) l) : w.last ≤ v.last := by
  by_contra longer
  have filled := separate.first_le_last
  have held : v.last + 1 ∈ w.lines := Window.mem_lines.mpr ⟨by omega, by omega⟩
  exact separate.not_inWindows_behind (subset _ (inWindows_cons.mpr (.inl held)))

theorem eq_of_inWindows_iff (separate : Separate vs) (separate' : Separate ws)
    (same : ∀ l, InWindows vs l ↔ InWindows ws l) : vs = ws := by
  induction vs generalizing ws with
  | nil =>
      cases ws with
      | nil => rfl
      | cons w ws =>
          obtain ⟨_, none, -⟩ := (same _).mpr separate'.inWindows_first
          cases none
  | cons v vs ih =>
      cases ws with
      | nil =>
          obtain ⟨_, none, -⟩ := (same _).mp separate.inWindows_first
          cases none
      | cons w ws =>
          have first : v.first = w.first := Nat.le_antisymm
            (separate.first_le_of_inWindows ((same _).mpr separate'.inWindows_first))
            (separate'.first_le_of_inWindows ((same _).mp separate.inWindows_first))
          have last : v.last = w.last := Nat.le_antisymm
            (separate'.last_le_last first.symm fun l => (same l).mp)
            (separate.last_le_last first fun l => (same l).mpr)
          have rest : vs = ws := ih separate.tail separate'.tail fun l => by
            rw [separate.inWindows_tail_iff, separate'.inWindows_tail_iff, same, last]
          obtain rfl : v = w := by
            cases v
            cases w
            exact congrArg₂ Window.mk first last
          rw [rest]

end Separate

/-! ## The windows of a unit -/

section Unit

variable {added : List Nat} {startLine endLine radius : Nat} {ws : List Window}

/-- A line of a unit that is no further than the radius from a listed line of the unit. -/
def NearListed (added : List Nat) (startLine endLine radius line : Nat) : Prop :=
  (startLine ≤ line ∧ line ≤ endLine) ∧
    ∃ a ∈ added, (startLine ≤ a ∧ a ≤ endLine) ∧ line ≤ a + radius ∧ a ≤ line + radius

theorem nearListed_congr {others : List Nat}
    (same : ∀ a, startLine ≤ a → a ≤ endLine → (a ∈ others ↔ a ∈ added)) {n : Nat} :
    NearListed others startLine endLine radius n ↔ NearListed added startLine endLine radius n := by
  refine and_congr_right fun _ => exists_congr fun a => and_congr_left ?_
  rintro ⟨⟨starts, ends⟩, -⟩
  exact same a starts ends

theorem windows_filter : windows (added.filter fun a => startLine ≤ a && a ≤ endLine) startLine
    endLine radius = windows added startLine endLine radius := by
  simp [windows]

theorem separate_of_windows (fit : endLine + 1 < countBound)
    (found : windows added startLine endLine radius = .ok ws) :
    Separate ws ∧ ∀ n, InWindows ws n ↔ NearListed added startLine endLine radius n := by
  have small : ∀ a ∈ added.filter (fun a => startLine ≤ a && a ≤ endLine), a < countBound := by
    intro a member
    have within := List.of_mem_filter member
    simp only [Bool.and_eq_true, decide_eq_true_eq] at within
    omega
  obtain ⟨separate, lines⟩ := separate_windows small (windows_filter.trans found)
  refine ⟨separate, fun n => (lines n).trans ?_⟩
  have numbered : InUnit startLine endLine n ↔ startLine ≤ n ∧ n ≤ endLine :=
    ⟨fun inside => ⟨inside.1, inside.2.1⟩, fun within => ⟨within.1, within.2, by omega⟩⟩
  simp [numbered, NearListed, IsNear, and_assoc]

/-- The windows of a unit lie in it and do not touch. They hold its lines near listed ones, which
tells them from all other windows, and it does not matter how the lines of the unit are listed. -/
theorem windows_hold_the_lines_around (added : List Nat) (startLine : Nat) {endLine : Nat}
    (radius : Nat) (fit : endLine + 1 < countBound) :
    ∃ ws, windows added startLine endLine radius = .ok ws ∧
      (∀ w ∈ ws, startLine ≤ w.first ∧ w.first ≤ w.last ∧ w.last ≤ endLine) ∧
      (ws.Pairwise fun v w => v.last + 2 ≤ w.first) ∧
      (∀ n, InWindows ws n ↔ NearListed added startLine endLine radius n) ∧
      (∀ vs, Separate vs →
        (∀ n, InWindows vs n ↔ NearListed added startLine endLine radius n) → vs = ws) ∧
      (∀ others, (∀ a, startLine ≤ a → a ≤ endLine → (a ∈ others ↔ a ∈ added)) →
        windows others startLine endLine radius = .ok ws) ∧
      (ws = [] ↔ ∀ a ∈ added, ¬(startLine ≤ a ∧ a ≤ endLine)) := by
  obtain ⟨ws, found, inside⟩ := exists_windows_eq_ok added startLine radius fit
  obtain ⟨separate, lines⟩ := separate_of_windows fit found
  refine ⟨ws, found, ?within, separate.apart, lines, ?told, ?listed, ?empty⟩
  case within =>
    intro w member
    obtain ⟨starts, ends⟩ := inside w member
    exact ⟨starts, separate.filled w member, ends⟩
  case told =>
    intro vs separate' lines'
    exact separate'.eq_of_inWindows_iff separate fun n => (lines' n).trans (lines n).symm
  case listed =>
    intro others same
    obtain ⟨vs, found', -⟩ := exists_windows_eq_ok others startLine radius fit
    obtain ⟨separate', lines'⟩ := separate_of_windows fit found'
    obtain rfl : vs = ws := separate'.eq_of_inWindows_iff separate fun n =>
      (lines' n).trans ((nearListed_congr same).trans (lines n).symm)
    exact found'
  case empty =>
    constructor
    · rintro rfl a member within
      have near : NearListed added startLine endLine radius a :=
        ⟨within, a, member, within, Nat.le_add_right _ _, Nat.le_add_right _ _⟩
      obtain ⟨_, none, -⟩ := (lines a).mpr near
      cases none
    · intro none
      cases ws with
      | nil => rfl
      | cons w ws =>
          obtain ⟨-, a, member, within, -⟩ := (lines w.first).mp separate.inWindows_first
          exact absurd within (none a member)

/-- Lines out of order, one of them twice, some outside the unit. Two of the windows overlap and two
touch. -/
theorem windows_of_strewnLines :
    20 + 1 < countBound ∧
      windows [9, 0, 15, 4, 9, 40, 7] 1 20 1 = .ok [⟨3, 10⟩, ⟨14, 16⟩] ∧
      windows [4, 7, 9, 15] 1 20 1 = .ok [⟨3, 10⟩, ⟨14, 16⟩] ∧
      ∀ n, InWindows [⟨3, 10⟩, ⟨14, 16⟩] n ↔ NearListed [9, 0, 15, 4, 9, 40, 7] 1 20 1 n := by
  have fit : 20 + 1 < countBound := by decide
  have separate : Separate [⟨3, 10⟩, ⟨14, 16⟩] := ⟨by decide, by decide⟩
  have lines (n : Nat) : InWindows [⟨3, 10⟩, ⟨14, 16⟩] n ↔
      NearListed [9, 0, 15, 4, 9, 40, 7] 1 20 1 n := by
    simp only [InWindows, NearListed, Window.mem_lines, List.mem_cons, List.not_mem_nil, or_false,
      exists_eq_or_imp, exists_eq_left]
    omega
  obtain ⟨ws, found, -, -, -, told, listed, -⟩ :=
    windows_hold_the_lines_around [9, 0, 15, 4, 9, 40, 7] 1 1 fit
  obtain rfl := told _ separate lines
  refine ⟨fit, found, listed _ fun a starts ends => ?_, lines⟩
  simp only [List.mem_cons, List.not_mem_nil, or_false]
  omega

end Unit

end DiffScope.Snippet
