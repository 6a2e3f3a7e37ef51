import DiffScope.Extract.File

/-!
# Extractors

Whoever looks at changed files has settings that can be used: they are checked once, before the
first file, and not for each file.
-/

namespace DiffScope.Extract

open DiffScope.Project DiffScope.Syntax

/-- Settings that have passed their check. -/
structure Extractor where
  config : Config
  passes : config.validate = .ok config

namespace Extractor

/-- The extractor with these settings, if they can be used. -/
def ofConfig (config : Config) : Except Config.Error Extractor :=
  match passes : config.validate with
  | .ok _ => .ok ⟨config, Config.eq_of_validate passes ▸ passes⟩
  | .error e => .error e

theorem ofConfig_eq_ok_iff {c : Config} {x : Extractor} : ofConfig c = .ok x ↔ x.config = c := by
  constructor
  · intro made
    unfold ofConfig at made
    split at made
    · exact (Except.ok.inj made) ▸ rfl
    · cases made
  · rintro rfl
    unfold ofConfig
    split
    next => rfl
    next refused => exact absurd (x.passes.symm.trans refused) (by simp)

/-- The files below a directory, as this extractor looks at them. -/
def workspace (x : Extractor) (files : Files) (root : Path) (parser : Parser)
    (course : Path → Stage → Course) : Workspace :=
  ⟨files, root, x.config, parser, course⟩

end Extractor

end DiffScope.Extract
