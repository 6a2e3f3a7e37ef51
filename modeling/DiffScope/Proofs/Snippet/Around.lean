import DiffScope.Proofs.Snippet.Spread

/-! # Lines around the added ones

A unit in windows is shown as rows: each of its lines near an added one, with its number in the file,
and a gap wherever lines are left out.
-/

namespace DiffScope.Snippet

open DiffScope.Checked DiffScope.Text

theorem map_intercalate {α β : Type} (f : α → β) (separator : List α) (parts : List (List α)) :
    (separator.intercalate parts).map f =
      (separator.map f).intercalate (parts.map (List.map f)) := by
  induction parts with
  | nil => rfl
  | cons part parts ih =>
      cases parts with
      | nil => simp [List.intercalate_singleton]
      | cons next parts =>
          simp only [List.intercalate_cons_cons, List.map_append, ih, List.map_cons]

theorem unbroken_trimReturns {text : List Char} (unbroken : '\n' ∉ text) :
    '\n' ∉ trimReturns text := by
  intro member
  have kept := (List.dropWhile_suffix _).subset (List.mem_reverse.mp member)
  exact unbroken (List.mem_reverse.mp kept)

/-- The note on a unit in windows. -/
def windowNote (lineCount windows radius added : Nat) : String :=
  toString lineCount ++ " lines, showing " ++ toString windows ++ " window(s) of +/-"
    ++ toString radius ++ " lines around " ++ toString added ++ " added line(s)"

namespace Policy

variable {p : Policy} {text : List Char} {startLine endLine lineCount : Nat} {added : List Nat}

/-- What a line of the text is shown as. -/
def numberedLine (p : Policy) (text : List Char) (startLine : Nat) (added : List Nat)
    (line : Nat) : NumberedLine where
  isAdded := added.contains line
  label := line + (p.firstLine - 1)
  body := trimReturns ((pieces text)[line - startLine]?.getD [])

theorem unbroken_numberedLine (line : Nat) :
    '\n' ∉ (p.numberedLine text startLine added line).body := by
  refine unbroken_trimReturns ?_
  cases found : (pieces text)[line - startLine]? with
  | none => exact List.not_mem_nil
  | some piece => exact unbroken_of_mem_pieces (List.mem_of_getElem? found)

theorem showLine_eq_ok_iff (first : 0 < p.firstLine) (line : Nat) (row : List Char) :
    p.showLine (pieces text) startLine added line = .ok row ↔
      line + p.firstLine < countBound ∧
        row = (Row.line (p.numberedLine text startLine added line)).text := by
  unfold showLine
  constructor
  · intro h
    obtain ⟨n, labelled, h⟩ := bind_eq_ok.mp h
    obtain ⟨fits, rfl⟩ := (label_eq_ok_iff first).mp labelled
    exact ⟨fits, (Except.ok.inj h).symm⟩
  · rintro ⟨fits, rfl⟩
    exact bind_eq_ok.mpr ⟨_, (label_eq_ok_iff first).mpr ⟨fits, rfl⟩, rfl⟩

/-- A unit is shown in windows exactly if the file has a number behind each line that is shown. -/
theorem showWindows_eq_ok_iff (first : 0 < p.firstLine) {shown : Shown} :
    p.showWindows text startLine endLine lineCount added = .ok shown ↔
      ∃ ws, windows added startLine endLine p.radius = .ok ws ∧
        (∀ w ∈ ws, ∀ l ∈ w.lines, l + p.firstLine < countBound) ∧
        shown = ⟨['\n'].intercalate
            ((windowRows (p.numberedLine text startLine added) ws).map Row.text),
          .lineLimit, some (windowNote lineCount ws.length p.radius added.length)⟩ := by
  have each : ∀ (w : Window) (rows : List (List Char)),
      p.showWindow (pieces text) startLine added w = .ok rows ↔
        (∀ l ∈ w.lines, l + p.firstLine < countBound) ∧
          rows = w.lines.map (Row.text ∘ .line ∘ p.numberedLine text startLine added) :=
    fun w rows => mapM_eq_ok_iff_map (showLine_eq_ok_iff first)
  have joined : ∀ ws : List Window,
      (windowRows (p.numberedLine text startLine added) ws).map Row.text =
        [gapMark].intercalate (ws.map fun w =>
          w.lines.map (Row.text ∘ .line ∘ p.numberedLine text startLine added)) := by
    intro ws
    simp [windowRows, map_intercalate, Row.text, Function.comp_def]
  unfold showWindows
  constructor
  · intro h
    obtain ⟨ws, found, h⟩ := bind_eq_ok.mp h
    obtain ⟨rows, shows, h⟩ := bind_eq_ok.mp h
    obtain ⟨fits, rfl⟩ := (mapM_eq_ok_iff_map each).mp shows
    obtain rfl := Except.ok.inj h
    exact ⟨ws, found, fits, by rw [joined]; rfl⟩
  · rintro ⟨ws, found, fits, rfl⟩
    refine bind_eq_ok.mpr ⟨ws, found, ?_⟩
    exact bind_eq_ok.mpr ⟨_, (mapM_eq_ok_iff_map each).mpr ⟨fits, rfl⟩, by rw [joined]; rfl⟩

theorem unbroken_windowRows {ws : List Window} :
    ∀ row ∈ windowRows (p.numberedLine text startLine added) ws, '\n' ∉ row.text := by
  intro row member
  refine Row.unbroken_text fun l same => ?_
  obtain ⟨n, rfl⟩ := exists_of_line_mem_windowRows (same ▸ member)
  exact unbroken_numberedLine n

/-- Which lines a text in windows shows, and how. -/
structure ShowsAround (p : Policy) (text : List Char) (startLine endLine lineCount : Nat)
    (added : List Nat) (shown : Shown) (ls : List Nat) : Prop where
  ascending : ls.Pairwise (· < ·)
  near : ∀ l, l ∈ ls ↔ (startLine ≤ l ∧ l ≤ endLine) ∧ IsNear added p.radius l
  rows : pieces shown.text =
    (spaced (ls.map (p.numberedLine text startLine added))).map Row.text
  summary : shown.summary = some (windowNote lineCount
    ((spaced (ls.map (p.numberedLine text startLine added))).countP Row.isGap + 1)
    p.radius added.length)

theorem ShowsAround.near_moved {shown : Shown} {ls : List Nat}
    (shows : p.ShowsAround text startLine endLine lineCount added shown ls) (k n : Nat) :
    n ∈ ls.map (· + k) ↔
      (startLine + k ≤ n ∧ n ≤ endLine + k) ∧ IsNear (added.map (· + k)) p.radius n := by
  constructor
  · intro member
    obtain ⟨l, among, rfl⟩ := List.mem_map.mp member
    obtain ⟨within, close⟩ := (shows.near l).mp among
    exact ⟨by omega, isNear_map_add.mpr close⟩
  · rintro ⟨within, close⟩
    obtain ⟨l, rfl⟩ := Nat.exists_eq_add_of_le' (Nat.le_trans (Nat.le_add_left _ _) within.1)
    have among := (shows.near l).mpr ⟨by omega, isNear_map_add.mp close⟩
    exact List.mem_map.mpr ⟨l, among, rfl⟩

/-- If all lines shown have numbers in the file, none of the lines near an added one is too far down
to be shown. -/
theorem inUnit_of_isNear (first : 0 < p.firstLine) {ws : List Window} {radius : Nat}
    (fit : ∀ a ∈ added, a < countBound)
    (inside : ∀ a ∈ added, startLine ≤ a ∧ a ≤ endLine)
    (lines : ∀ l, InWindows ws l ↔ InUnit startLine endLine l ∧ IsNear added radius l)
    (labelled : ∀ w ∈ ws, ∀ l ∈ w.lines, l + p.firstLine < countBound) {l : Nat}
    (within : startLine ≤ l ∧ l ≤ endLine) (near : IsNear added radius l) :
    InUnit startLine endLine l := by
  by_cases small : l < countBound
  · exact ⟨within.1, within.2, small⟩
  · -- the last number there is would be shown, and the file has none behind it
    exfalso
    obtain ⟨a, member, above, below⟩ := near
    have number := fit a member
    have holds : InWindows ws (countBound - 1) := by
      refine (lines _).mpr ⟨?_, a, member, by omega, by omega⟩
      have bounds := inside a member
      exact ⟨by omega, by omega, by omega⟩
    obtain ⟨w, among, shows⟩ := holds
    have label := labelled w among _ shows
    omega

theorem exists_showsAround (first : 0 < p.firstLine) (fit : ∀ a ∈ added, a < countBound)
    (inside : ∀ a ∈ added, startLine ≤ a ∧ a ≤ endLine) (filled : added ≠ []) {shown : Shown}
    (h : p.showWindows text startLine endLine lineCount added = .ok shown) :
    ∃ ls, p.ShowsAround text startLine endLine lineCount added shown ls := by
  obtain ⟨ws, found, labelled, rfl⟩ := (showWindows_eq_ok_iff first).mp h
  obtain ⟨separate, lines⟩ := separate_windows fit found
  have all : added.filter (fun a => startLine ≤ a && a ≤ endLine) = added :=
    List.filter_eq_self.mpr fun a member => by simpa using inside a member
  rw [all] at lines
  have near : ∀ l, InWindows ws l ↔ (startLine ≤ l ∧ l ≤ endLine) ∧ IsNear added p.radius l := by
    refine fun l => (lines l).trans ⟨fun h => ⟨⟨h.1.1, h.1.2.1⟩, h.2⟩, fun h => ⟨?_, h.2⟩⟩
    exact inUnit_of_isNear first fit inside lines labelled h.1 h.2
  have some : ws ≠ [] := by
    rintro rfl
    obtain ⟨a, member⟩ := List.exists_mem_of_ne_nil added filled
    obtain ⟨w, none, -⟩ := (near a).mpr ⟨inside a member, a, member, by omega, by omega⟩
    cases none
  have spread := spaced_windows (f := p.numberedLine text startLine added) (fun _ => rfl) separate
  refine ⟨ws.flatMap Window.lines, pairwise_lines separate, fun l => ?_, ?_, ?_⟩
  · rw [List.mem_flatMap]
    exact near l
  · rw [spread]
    refine pieces_intercalate ?_ (List.forall_mem_map.mpr unbroken_windowRows)
    rw [Ne, List.map_eq_nil_iff]
    exact windowRows_ne_nil separate some
  · rw [spread, countP_windowRows some]

end Policy

end DiffScope.Snippet
