import DiffScope.Snippet.Basic
import DiffScope.Proofs.Checked

/-! # What is shown within the limits

A text is cut off exactly if it has too many characters, shown as numbered lines exactly if it has
too many lines but not too many characters, and otherwise shown as it is. Only numbered lines come
with a note.
-/

namespace DiffScope.Snippet

open DiffScope.Checked

/-- What is shown of a text of so many lines is what the limits say. -/
structure Policy.Allows (p : Policy) (raw : List Char) (lineCount : Nat) (s : Shown) : Prop where
  whole : s.reason = .none → s.text = raw ∧ raw.length ≤ p.maxChars ∧ lineCount ≤ p.maxLines
  cut : s.reason = .charLimit →
    p.maxChars < raw.length ∧ s.text = raw.take p.maxChars ++ cutMark raw.length
  windowed : s.reason = .lineLimit → raw.length ≤ p.maxChars ∧ p.maxLines < lineCount

namespace Policy

theorem reason_of_showWindows {p : Policy} {text : List Char} {startLine endLine lineCount : Nat}
    {added : List Nat} {s : Shown}
    (h : p.showWindows text startLine endLine lineCount added = .ok s) : s.reason = .lineLimit := by
  obtain ⟨ws, -, h⟩ := bind_eq_ok.mp h
  obtain ⟨shown, -, h⟩ := bind_eq_ok.mp h
  obtain rfl := Except.ok.inj h
  rfl

theorem showWindows_of_apply {p : Policy} {lead raw : List Char} {startLine endLine : Nat}
    {added : List Nat} {s : Shown} (h : p.apply lead raw startLine endLine added = .ok s)
    (windowed : s.reason = .lineLimit) :
    p.showWindows (lead ++ raw) startLine endLine (endLine - startLine + 1) added = .ok s := by
  unfold apply at h
  split at h
  next =>
    obtain rfl := Except.ok.inj h
    cases windowed
  next =>
    obtain ⟨lineCount, counted, h⟩ := bind_eq_ok.mp h
    obtain ⟨rfl, -⟩ := plus_eq_ok_iff.mp counted
    split at h
    next => exact h
    next =>
      obtain rfl := Except.ok.inj h
      cases windowed

theorem allows_of_apply {p : Policy} {lead raw : List Char} {startLine endLine : Nat}
    {added : List Nat} {s : Shown} (h : p.apply lead raw startLine endLine added = .ok s) :
    p.Allows raw (endLine - startLine + 1) s := by
  unfold apply at h
  split at h
  next long =>
    obtain rfl := Except.ok.inj h
    exact ⟨nofun, fun _ => ⟨long, rfl⟩, nofun⟩
  next short =>
    obtain ⟨lineCount, counted, h⟩ := bind_eq_ok.mp h
    obtain ⟨rfl, -⟩ := plus_eq_ok_iff.mp counted
    split at h
    next tall =>
      have reason := reason_of_showWindows h
      refine ⟨fun other => ?_, fun other => ?_, fun _ => ⟨Nat.le_of_not_lt short, tall⟩⟩
      · cases reason.symm.trans other
      · cases reason.symm.trans other
    next small =>
      obtain rfl := Except.ok.inj h
      exact ⟨fun _ => ⟨rfl, Nat.le_of_not_lt short, Nat.le_of_not_lt small⟩, nofun, nofun⟩

/-- A note goes with numbered lines and with nothing else. -/
theorem isSome_summary_of_apply {p : Policy} {lead raw : List Char} {startLine endLine : Nat}
    {added : List Nat} {s : Shown} (h : p.apply lead raw startLine endLine added = .ok s) :
    s.summary.isSome = true ↔ s.reason = .lineLimit := by
  unfold apply at h
  split at h
  next =>
    obtain rfl := Except.ok.inj h
    exact ⟨nofun, nofun⟩
  next =>
    obtain ⟨lineCount, -, h⟩ := bind_eq_ok.mp h
    split at h
    next =>
      obtain ⟨ws, -, h⟩ := bind_eq_ok.mp h
      obtain ⟨shown, -, h⟩ := bind_eq_ok.mp h
      obtain rfl := Except.ok.inj h
      exact ⟨fun _ => rfl, fun _ => rfl⟩
    next =>
      obtain rfl := Except.ok.inj h
      exact ⟨nofun, nofun⟩

end Policy

end DiffScope.Snippet
