import Mathlib.Data.List.Basic

/-! # Runs of characters

Characters of a kind are read from a text as far as they go, so a text falls in one way only into a
run of them and a rest that begins with none.
-/

namespace DiffScope.Text

section Runs

variable {p : Char → Bool} {text rest : List Char}

theorem ne_of_kind {c d : Char} (here : p d = true) (there : p c = false) : d ≠ c := by
  rintro rfl
  rw [here] at there
  cases there

/-- Characters of a kind are read as far as they go. -/
theorem span_append (all : ∀ c ∈ text, p c = true) (stops : ∀ c ∈ rest.head?, p c = false) :
    (text ++ rest).takeWhile p = text ∧ (text ++ rest).dropWhile p = rest := by
  rw [List.takeWhile_append_of_pos all, List.dropWhile_append_of_pos all]
  cases rest with
  | nil => simp
  | cons c cs =>
      have other : ¬p c = true := by simp [stops c rfl]
      rw [List.takeWhile_cons_of_neg other, List.dropWhile_cons_of_neg other, List.append_nil]
      exact ⟨rfl, rfl⟩

/-- A run and what is behind it are told by the text. -/
theorem eq_of_run_append_eq {text' rest' : List Char} (all : ∀ c ∈ text, p c = true)
    (stops : ∀ c ∈ rest.head?, p c = false) (all' : ∀ c ∈ text', p c = true)
    (stops' : ∀ c ∈ rest'.head?, p c = false) (same : text ++ rest = text' ++ rest') :
    text = text' ∧ rest = rest' := by
  obtain ⟨run, behind⟩ := span_append all stops
  obtain ⟨run', behind'⟩ := span_append all' stops'
  rw [same] at run behind
  exact ⟨run.symm.trans run', behind.symm.trans behind'⟩

end Runs

end DiffScope.Text
