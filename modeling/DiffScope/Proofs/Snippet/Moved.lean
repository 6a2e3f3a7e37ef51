import DiffScope.Proofs.Snippet.Around
import DiffScope.Proofs.Snippet.Limits

/-! # Labels further down

Where the text of a unit stands further down in its file, the same of it is shown, with the labels of
its rows further down.
-/

namespace DiffScope.Snippet

open DiffScope.Checked DiffScope.Text

def Row.moved (k : Nat) : Row → Row
  | gap => gap
  | line l => line { l with label := l.label + k }

/-- The text of rows. -/
def joined (rows : List Row) : List Char := ['\n'].intercalate (rows.map Row.text)

/-- A text is the same as another, or else both are rows that differ in their labels alone. -/
inductive Relabels (k : Nat) : Truncation → List Char → List Char → Prop
  | same {reason : Truncation} {text : List Char} (other : reason ≠ .lineLimit) :
      Relabels k reason text text
  | rows {rows : List Row} (unbroken : ∀ row ∈ rows, '\n' ∉ row.text) :
      Relabels k .lineLimit (joined rows) (joined (rows.map (Row.moved k)))

namespace Policy

/-- The limits for a text that stands further down. -/
def moved (p : Policy) (k : Nat) : Policy := { p with firstLine := p.firstLine + k }

variable {p : Policy} {k : Nat}

theorem ofConfig_moved (c : Config) {firstLine : Nat} (first : 0 < firstLine) :
    ofConfig c (firstLine + k) = (ofConfig c firstLine).moved k := by
  simp only [ofConfig, moved, Nat.max_eq_left (show 1 ≤ firstLine from first),
    Nat.max_eq_left (show 1 ≤ firstLine + k by omega)]

theorem windowRows_moved (first : 0 < p.firstLine) (text : List Char) (startLine : Nat)
    (added : List Nat) (ws : List Window) :
    windowRows ((p.moved k).numberedLine text startLine added) ws =
      (windowRows (p.numberedLine text startLine added) ws).map (Row.moved k) := by
  have each : ∀ n, Row.line ((p.moved k).numberedLine text startLine added n) =
      (Row.line (p.numberedLine text startLine added n)).moved k := by
    intro n
    have label : n + (p.firstLine + k - 1) = n + (p.firstLine - 1) + k := by omega
    simp only [Row.moved, numberedLine, moved, label]
  simp only [windowRows, map_intercalate, List.map_map, List.map_cons, List.map_nil,
    Function.comp_def, each]
  rfl

theorem relabels_of_apply (first : 0 < p.firstLine) {lead raw : List Char}
    {startLine endLine : Nat} {added : List Nat} {s t : Shown}
    (h : p.apply lead raw startLine endLine added = .ok s)
    (h' : (p.moved k).apply lead raw startLine endLine added = .ok t) :
    t.reason = s.reason ∧ t.summary = s.summary ∧ Relabels k s.reason s.text t.text := by
  unfold apply at h h'
  by_cases long : p.maxChars < raw.length
  · rw [if_pos long] at h
    rw [if_pos (show (p.moved k).maxChars < raw.length from long)] at h'
    obtain rfl := Except.ok.inj h
    obtain rfl := Except.ok.inj h'
    exact ⟨rfl, rfl, .same nofun⟩
  · rw [if_neg long] at h
    rw [if_neg (show ¬(p.moved k).maxChars < raw.length from long)] at h'
    obtain ⟨lineCount, counted, h⟩ := bind_eq_ok.mp h
    obtain ⟨lineCount', counted', h'⟩ := bind_eq_ok.mp h'
    obtain rfl := Except.ok.inj (counted.symm.trans counted')
    by_cases tall : p.maxLines < lineCount
    · rw [if_pos tall] at h
      rw [if_pos (show (p.moved k).maxLines < lineCount from tall)] at h'
      obtain ⟨ws, found, -, rfl⟩ := (showWindows_eq_ok_iff first).mp h
      obtain ⟨ws', found', -, rfl⟩ :=
        (showWindows_eq_ok_iff (Nat.lt_of_lt_of_le first (Nat.le_add_right _ k))).mp h'
      obtain rfl := Except.ok.inj (found.symm.trans found')
      refine ⟨rfl, rfl, ?_⟩
      dsimp only
      rw [windowRows_moved first]
      exact .rows unbroken_windowRows
    · rw [if_neg tall] at h
      rw [if_neg (show ¬(p.moved k).maxLines < lineCount from tall)] at h'
      obtain rfl := Except.ok.inj h
      obtain rfl := Except.ok.inj h'
      exact ⟨rfl, rfl, .same nofun⟩

end Policy

end DiffScope.Snippet
