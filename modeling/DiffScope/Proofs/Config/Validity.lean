import DiffScope.Extract.Extractor

/-! # Settings that can be used

Settings pass their check just when every limit is positive. A radius of zero passes.
-/

namespace DiffScope.Config

open DiffScope.Extract

variable {c d : Config} {e : Error}

/-- Every limit is positive. -/
structure IsValid (c : Config) : Prop where
  maxSnippetChars : 0 < c.maxSnippetChars
  maxBlockLines : 0 < c.maxBlockLines
  maxDepth : 0 < c.maxDepth
  timeoutMs : 0 < c.timeoutMs
  concurrency : 0 < c.concurrency

theorem isValid_iff : c.IsValid ↔ ∀ s : Setting, s.isLimit → 0 < c.get s := by
  constructor
  · intro valid s limit
    cases s with
    | maxSnippetChars => exact valid.maxSnippetChars
    | maxBlockLines => exact valid.maxBlockLines
    | maxDepth => exact valid.maxDepth
    | timeoutMs => exact valid.timeoutMs
    | windowRadius => cases limit
    | concurrency => exact valid.concurrency
  · intro positive
    exact ⟨positive .maxSnippetChars rfl, positive .maxBlockLines rfl, positive .maxDepth rfl,
      positive .timeoutMs rfl, positive .concurrency rfl⟩

theorem Setting.mem_all (s : Setting) : s ∈ Setting.all := by
  cases s <;> decide

/-- What is refused is a limit that is zero. -/
theorem exists_zero_of_validate (refused : c.validate = .error e) :
    ∃ s : Setting, e = .invalidValue s ∧ s.isLimit ∧ c.get s = 0 := by
  unfold validate at refused
  split at refused
  next s found =>
    cases refused
    have zero := List.find?_some found
    rw [Bool.and_eq_true, decide_eq_true_eq] at zero
    exact ⟨s, rfl, zero⟩
  next => cases refused

theorem validate_eq_ok_iff : c.validate = .ok d ↔ c.IsValid ∧ d = c := by
  rw [isValid_iff]
  constructor
  · intro passes
    refine ⟨fun s limit => ?_, eq_of_validate passes⟩
    unfold validate at passes
    split at passes
    next => cases passes
    next none_zero =>
      have positive := List.find?_eq_none.mp none_zero s s.mem_all
      simp only [limit, Bool.true_and, decide_eq_true_eq] at positive
      exact Nat.pos_of_ne_zero positive
  · rintro ⟨positive, rfl⟩
    cases check : d.validate with
    | ok c => rw [eq_of_validate check]
    | error e =>
        obtain ⟨s, -, limit, zero⟩ := exists_zero_of_validate check
        exact absurd (positive s limit) (by omega)

/-! ## Extractors -/

theorem isValid_extractor (x : Extractor) : x.config.IsValid :=
  (validate_eq_ok_iff.mp x.passes).1

theorem exists_extractor_iff :
    (∃ x : Extractor, Extractor.ofConfig c = .ok x ∧ x.config = c) ↔ c.IsValid := by
  constructor
  · rintro ⟨x, -, rfl⟩
    exact isValid_extractor x
  · intro valid
    have made : (⟨c, validate_eq_ok_iff.mpr ⟨valid, rfl⟩⟩ : Extractor).config = c := rfl
    exact ⟨_, Extractor.ofConfig_eq_ok_iff.mpr made, made⟩

end DiffScope.Config
