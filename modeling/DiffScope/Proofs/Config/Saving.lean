import Mathlib.Data.List.Nodup
import DiffScope.Proofs.Config.Layers
import DiffScope.Proofs.Text.Utf8
import DiffScope.Proofs.Toml.Tables

/-! # Saved settings

Settings that a document can hold are saved without being checked, and what is read from the file
are these settings. Loading checks them, and so either gives them back or names the first limit that
is zero.
-/

namespace DiffScope.Config

open DiffScope.Project DiffScope.Text DiffScope.Toml

variable {c : Config} {s : Setting}

/-! ## Checking -/

/-- The limits in the order in which they are checked. -/
def checkedLimits : List Setting :=
  [.maxSnippetChars, .maxBlockLines, .maxDepth, .timeoutMs, .concurrency]

/-- A limit that is zero, where those that are checked before it are not. -/
def IsFirstZero (c : Config) (s : Setting) : Prop :=
  ∃ before behind, checkedLimits = before ++ s :: behind ∧
    (∀ t ∈ before, 0 < c.get t) ∧ c.get s = 0

theorem find?_checkedLimits (c : Config) :
    (Setting.all.find? fun s => s.isLimit && c.get s = 0) =
      checkedLimits.find? fun s => c.get s = 0 := by
  have limits : checkedLimits = Setting.all.filter Setting.isLimit := rfl
  simp only [limits, List.find?_filter, Bool.decide_and, Bool.decide_eq_true]

theorem validate_eq_invalidValue_iff :
    c.validate = .error (.invalidValue s) ↔ c.IsFirstZero s := by
  have found : c.validate = .error (.invalidValue s) ↔
      (checkedLimits.find? fun s => c.get s = 0) = some s := by
    rw [validate, find?_checkedLimits]
    split
    next t first => simp [first]
    next none => simp [none]
  rw [found, List.find?_eq_some_iff_append]
  simp only [decide_eq_true_eq, Bool.not_eq_true', decide_eq_false_iff_not]
  constructor
  · rintro ⟨zero, before, behind, order, positive⟩
    exact ⟨before, behind, order, fun t among => Nat.pos_of_ne_zero (positive t among), zero⟩
  · rintro ⟨before, behind, order, positive, zero⟩
    exact ⟨zero, before, behind, order, fun t among => Nat.ne_of_gt (positive t among)⟩

theorem exists_isFirstZero (invalid : ¬c.IsValid) : ∃ s, c.IsFirstZero s := by
  cases check : c.validate with
  | ok d => exact absurd (validate_eq_ok_iff.mp check).1 invalid
  | error e =>
      obtain ⟨s, rfl, -⟩ := exists_zero_of_validate check
      exact ⟨s, validate_eq_invalidValue_iff.mp check⟩

/-! ## The document -/

/-- The table of a group. -/
def countTable (c : Config) (g : Group) : CountTable :=
  ⟨g.name, g.settings.map fun s => (s.name, c.get s)⟩

def document (c : Config) : Toml :=
  table .header ((Group.all.map c.countTable).map fun t => (t.name, t.toToml))

theorem Setting.name_injective : Function.Injective Setting.name := by
  intro s t same
  cases s <;> cases t <;> first | rfl | exact absurd same (by decide)

theorem Group.name_injective : Function.Injective Group.name := by
  intro g h same
  cases g <;> cases h <;> first | rfl | exact absurd same (by decide)

theorem Setting.isBareKey_name (s : Setting) : IsBareKey s.name where
  filled := by cases s <;> decide
  chars := List.all_eq_true.mp (by cases s <;> decide)

theorem Group.isBareKey_name (g : Group) : IsBareKey g.name where
  filled := by cases g <;> decide
  chars := List.all_eq_true.mp (by cases g <;> decide)

theorem tableText_eq (c : Config) (g : Group) : c.tableText g = (c.countTable g).text := by
  simp [tableText, CountTable.text, countTable, CountTable.lineText, List.flatMap_map]

theorem isLegible_countTable (bounds : ∀ s, c.get s ≤ tomlBound) (g : Group) :
    (c.countTable g).IsLegible where
  name := g.isBareKey_name
  keys := by
    rintro _ entry
    obtain ⟨s, -, rfl⟩ := List.mem_map.mp entry
    exact s.isBareKey_name
  bounds := by
    rintro _ entry
    obtain ⟨s, -, rfl⟩ := List.mem_map.mp entry
    exact bounds s
  distinct := by
    have all : Setting.all.Nodup := by decide
    rw [countTable, List.map_map]
    exact (List.nodup_map_iff Setting.name_injective).mpr (all.filter _)

theorem toToml_eq_ok (bounds : ∀ s, c.get s ≤ tomlBound) :
    c.toToml = .ok (CountTable.documentText (Group.all.map c.countTable)) := by
  rw [toToml, if_pos (List.all_eq_true.mpr fun s _ => decide_eq_true (bounds s)),
    CountTable.documentText, List.map_map, funext c.tableText_eq]
  rfl

theorem toToml_eq_error (large : tomlBound < c.get s) : c.toToml = .error .saveFailed := by
  rw [toToml, if_neg]
  intro all
  have bound := of_decide_eq_true (List.all_eq_true.mp all s s.mem_all)
  omega

/-! ## Reading -/

theorem exists_foldlM_eq_some {α β : Type} {step : β → α → Option β} {xs : List α}
    (total : ∀ x ∈ xs, ∀ b, ∃ b', step b x = some b') (b : β) :
    ∃ b', xs.foldlM step b = some b' := by
  induction xs generalizing b with
  | nil => exact ⟨b, rfl⟩
  | cons x xs ih =>
      obtain ⟨first, others⟩ := List.forall_mem_cons.mp total
      obtain ⟨b', step⟩ := first b
      obtain ⟨end', run⟩ := ih others b'
      exact ⟨end', by rw [List.foldlM_cons, step]; exact run⟩

theorem lookup_document (g : Group) :
    lookup g.name ((Group.all.map c.countTable).map fun t => (t.name, t.toToml)) =
      some (c.countTable g).toToml := by
  have among : g ∈ Group.all := by cases g <;> decide
  rw [List.map_map]
  exact lookup_map Group.name_injective among

theorem lookup_countTable (s : Setting) :
    lookup s.name ((c.countTable s.group).entries.map fun e => (e.1, integer e.2)) =
      some (integer (c.get s)) := by
  rw [countTable, List.map_map]
  exact lookup_map Setting.name_injective (Group.mem_settings.mpr rfl)

theorem count?_natural (n : Nat) : Reading.toml.count? (integer n) = some n := by
  simp [Reading.toml, Toml.count?]

theorem entry?_document (c : Config) (s : Setting) :
    Reading.toml.entry? c.document s = some (integer (c.get s)) := by
  have tables : Reading.toml.fields? (Group.all.map Group.name) c.document = some fun name =>
      lookup name ((Group.all.map c.countTable).map fun t => (t.name, t.toToml)) := rfl
  rw [Reading.entry?, tables]
  simp only [Option.bind_eq_bind, Option.bind_some, lookup_document]
  exact lookup_countTable s

theorem exists_readGroup (c : Config) (g : Group) (d : Config) :
    ∃ d', readGroup .toml g (c.countTable g).toToml d = some d' := by
  refine exists_foldlM_eq_some (fun s among d => ?_) d
  obtain rfl := Group.mem_settings.mp among
  simp only [lookup_countTable, count?_natural]
  exact ⟨_, rfl⟩

theorem read_document (c : Config) : read .toml c.document = some c := by
  have whole : ∃ d, read .toml c.document = some d := by
    refine exists_foldlM_eq_some (fun g _ d => ?_) _
    simp only [lookup_document]
    exact exists_readGroup c g d
  obtain ⟨d, run⟩ := whole
  have same : d = c := eq_of_get_eq fun s => by
    have given := (tells_of_read run).given s _ (entry?_document c s)
    rw [count?_natural] at given
    exact (Option.some.inj given).symm
  rw [run, same]

theorem ofDocument_documentText (bounds : ∀ s, c.get s ≤ tomlBound) :
    ofDocument (CountTable.documentText (Group.all.map c.countTable)) = c.validate := by
  have legible : ∀ t ∈ Group.all.map c.countTable, t.IsLegible :=
    List.forall_mem_map.mpr fun g _ => isLegible_countTable bounds g
  have distinct : ((Group.all.map c.countTable).map CountTable.name).Nodup := by
    show (Group.all.map Group.name).Nodup
    decide
  have settings : ofToml? (CountTable.documentText (Group.all.map c.countTable)) = some c := by
    rw [ofToml?, CountTable.ofText?_documentText legible distinct]
    exact read_document c
  rw [ofDocument, settings]

/-! ## Files -/

theorem readStrict_write (fs : Files) (path : Path) (text : List Char) :
    (fs.write path text).readStrict path = .ok text := by
  have strict := strictText?_utf8 (String.ofList text)
  rw [String.toList_ofList] at strict
  have bytes : (fs.write path text).readBytes path = .ok (utf8 (String.ofList text)) := by
    rw [Files.readBytes, Files.write]
    simp only [if_pos]
    rfl
  rw [Files.readStrict, bytes]
  simp only [bind, Except.bind, strict]

theorem ofFile_write (fs : Files) (path : Path) (text : List Char) :
    ofFile (fs.write path text) path = ofDocument text := by
  have stored := readStrict_write fs path text
  rw [ofFile, if_pos (contains_of_readStrict stored), stored]

/-- Settings that a document can hold are saved, and loading the file gives them back if they are
valid, and else names the first limit that is zero. Other settings are not saved. -/
theorem saved_settings_are_loaded_again (c : Config) (fs : Files) (path : Path) :
    ((∀ s, c.get s ≤ tomlBound) → ∃ saved, c.save fs path = .ok saved ∧
      (c.IsValid → ofFile saved path = .ok c) ∧
      (¬c.IsValid → ∃ s, c.IsFirstZero s ∧ ofFile saved path = .error (.invalidValue s))) ∧
    ((∃ s, tomlBound < c.get s) → c.save fs path = .error .saveFailed) := by
  refine ⟨fun bounds => ?_, fun ⟨s, large⟩ => ?_⟩
  · let text := CountTable.documentText (Group.all.map c.countTable)
    have saves : c.save fs path = .ok (fs.write path text) := by
      rw [save, toToml_eq_ok bounds]
      rfl
    have loaded : ofFile (fs.write path text) path = c.validate :=
      (ofFile_write fs path text).trans (ofDocument_documentText bounds)
    refine ⟨_, saves, fun valid => ?_, fun invalid => ?_⟩
    · rw [loaded]
      exact validate_eq_ok_iff.mpr ⟨valid, rfl⟩
    · obtain ⟨s, first⟩ := exists_isFirstZero invalid
      exact ⟨s, first, loaded.trans (validate_eq_invalidValue_iff.mpr first)⟩
  · rw [save, toToml_eq_error large]
    rfl

/-- A depth as large as a document can hold, and no lines around the added ones. -/
def deepConfig : Config :=
  { Config.default with maxDepth := tomlBound, windowRadius := 0 }

/-- Two limits that are zero. -/
def idleConfig : Config :=
  { Config.default with timeoutMs := 0, concurrency := 0 }

theorem deepConfig_and_idleConfig_saved :
    (∃ saved, deepConfig.save ⟨fun _ => .error .notFound⟩ "config.toml".toList = .ok saved ∧
      ofFile saved "config.toml".toList = .ok deepConfig) ∧
    (∃ saved, idleConfig.save ⟨fun _ => .error .notFound⟩ "config.toml".toList = .ok saved ∧
      ofFile saved "config.toml".toList = .error (.invalidValue .timeoutMs)) ∧
    { deepConfig with concurrency := tomlBound + 1 }.save ⟨fun _ => .error .notFound⟩
      "config.toml".toList = .error .saveFailed := by
  refine ⟨?deep, ?idle, ?large⟩
  case deep =>
    have bounds : ∀ s, deepConfig.get s ≤ tomlBound := by intro s; cases s <;> decide
    have valid : deepConfig.IsValid := by constructor <;> decide
    obtain ⟨saved, saves, loads, -⟩ := (saved_settings_are_loaded_again deepConfig _ _).1 bounds
    exact ⟨saved, saves, loads valid⟩
  case idle =>
    have bounds : ∀ s, idleConfig.get s ≤ tomlBound := by intro s; cases s <;> decide
    have invalid : ¬idleConfig.IsValid := fun valid => absurd valid.timeoutMs (by decide)
    obtain ⟨saved, saves, -, names⟩ := (saved_settings_are_loaded_again idleConfig _ _).1 bounds
    obtain ⟨s, first, refused⟩ := names invalid
    have check : idleConfig.validate = .error (.invalidValue .timeoutMs) := by decide
    have same := check.symm.trans (validate_eq_invalidValue_iff.mpr first)
    obtain rfl := Error.invalidValue.inj (Except.error.inj same)
    exact ⟨saved, saves, refused⟩
  case large =>
    exact (saved_settings_are_loaded_again _ _ _).2 ⟨.concurrency, by decide⟩

end DiffScope.Config
