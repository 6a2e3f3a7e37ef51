import Mathlib.Logic.ExistsUnique
import DiffScope.Proofs.Checked
import DiffScope.Proofs.Config.Validity
import DiffScope.Proofs.Text.Trim

/-! # Layers of settings

The defaults lie below the entries of a document, and these below the variables of the environment.
Each layer gives single settings and leaves the others as they are below it. The settings are
checked twice: those of the document before a variable can replace them, and those that result.
-/

namespace DiffScope.Config

open DiffScope.Extract DiffScope.Project DiffScope.Text

variable {c d lower file : Config} {s t : Setting}

theorem eq_of_get_eq (same : ∀ s, c.get s = d.get s) : c = d := by
  cases c
  cases d
  simp only [Config.mk.injEq]
  exact ⟨same .maxSnippetChars, same .maxBlockLines, same .maxDepth, same .timeoutMs,
    same .windowRadius, same .concurrency⟩

theorem get_default (s : Setting) : default.get s = s.default := by
  cases s <;> rfl

/-! ## One layer over another -/

section Lays

variable {α κ : Type} {count? : α → Option Nat} {entry : Setting → Option α}

/-- Settings that come from lower ones and the entries of a layer within some part of it. -/
structure Lays (count? : α → Option Nat) (entry : Setting → Option α) (Within : Setting → Prop)
    (lower c : Config) : Prop where
  given : ∀ s v, Within s → entry s = some v → count? v = some (c.get s)
  kept : ∀ s, (Within s → entry s = none) → c.get s = lower.get s

theorem lays_nothing {Within : Setting → Prop} (none : ∀ s, Within s → entry s = none) :
    Lays count? entry Within c c := by
  refine ⟨fun s v within gives => ?_, fun _ _ => rfl⟩
  exact nomatch (none s within).symm.trans gives

/-- Layers that are laid part by part are laid as a whole. -/
theorem Lays.foldlM {part : Setting → κ} {step : Config → κ → Option Config}
    (lays : ∀ c k d, step c k = some d → Lays count? entry (part · = k) c d) {ks : List κ}
    (run : ks.foldlM step c = some d) : Lays count? entry (part · ∈ ks) c d := by
  induction ks generalizing c with
  | nil =>
      obtain rfl : c = d := Option.some.inj run
      exact lays_nothing fun _ within => absurd within List.not_mem_nil
  | cons k ks ih =>
      rw [List.foldlM_cons] at run
      obtain ⟨between, first, run⟩ := Option.bind_eq_some_iff.mp run
      replace first := lays c k between first
      have rest := ih run
      refine ⟨fun s v within gives => ?_, fun s none => ?_⟩
      · by_cases later : part s ∈ ks
        · exact rest.given s v later gives
        · have now := (List.mem_cons.mp within).resolve_right later
          rw [rest.kept s fun h => absurd h later]
          exact first.given s v now gives
      · rw [rest.kept s fun later => none (List.mem_cons_of_mem k later)]
        exact first.kept s fun now => none (now ▸ List.mem_cons_self)

theorem lays_set {n : Nat} {v : α} (gives : entry t = some v) (counts : count? v = some n) :
    Lays count? entry (id · = t) c (c.set t n) := by
  refine ⟨fun s w within same => ?_, fun s none => ?_⟩
  · obtain rfl : s = t := within
    obtain rfl := Option.some.inj (gives.symm.trans same)
    rw [get_set, if_pos rfl]
    exact counts
  · rw [get_set, if_neg]
    rintro rfl
    exact nomatch (none rfl).symm.trans gives

end Lays

/-! ## Documents -/

section Documents

variable {α : Type} {r : Reading α} {document table : α} {g : Group}

/-- What a document has under the name of a setting in the table of its group. -/
def Reading.entry? (r : Reading α) (document : α) (s : Setting) : Option α := do
  let tables ← r.fields? (Group.all.map Group.name) document
  let table ← tables s.group.name
  let entries ← r.fields? (s.group.settings.map Setting.name) table
  entries s.name

/-- Settings that a document tells: its entries are counts, and what it lacks has its default. -/
structure Reading.Tells (r : Reading α) (document : α) (c : Config) : Prop where
  given : ∀ s v, r.entry? document s = some v → r.count? v = some (c.get s)
  filled : ∀ s, r.entry? document s = none → c.get s = s.default

theorem Group.mem_settings : s ∈ g.settings ↔ s.group = g := by
  simp [Group.settings, s.mem_all]

theorem lays_readGroup {entries : String → Option α}
    (fields : r.fields? (g.settings.map Setting.name) table = some entries)
    (run : readGroup r g table c = some d) :
    Lays r.count? (fun s => entries s.name) (·.group = g) c d := by
  unfold readGroup at run
  rw [fields] at run
  have lays : Lays r.count? (fun s => entries s.name) (id · ∈ g.settings) c d :=
    Lays.foldlM (fun c t d step => ?_) run
  · simpa only [id, Group.mem_settings] using lays
  · split at step
    next v gives =>
      obtain ⟨n, counts, rfl⟩ := Option.map_eq_some_iff.mp step
      exact lays_set gives counts
    next none =>
      obtain rfl := Option.some.inj step
      refine lays_nothing ?_
      rintro s (rfl : s = t)
      exact none

theorem tells_of_read (run : read r document = some c) : r.Tells document c := by
  unfold read at run
  obtain ⟨tables, fields, run⟩ := Option.bind_eq_some_iff.mp run
  have lays : Lays r.count? (r.entry? document) (·.group ∈ Group.all) default c :=
    Lays.foldlM (fun c g d step => ?_) run
  · have all (s : Setting) : s.group ∈ Group.all := by cases s <;> decide
    refine ⟨fun s v => lays.given s v (all s), fun s none => ?_⟩
    rw [lays.kept s fun _ => none, get_default]
  · split at step
    next table found =>
      obtain ⟨entries, inner, -⟩ := Option.bind_eq_some_iff.mp step
      have group := lays_readGroup inner step
      have same : ∀ s : Setting, s.group = g → r.entry? document s = entries s.name := by
        rintro s rfl
        simp [Reading.entry?, fields, found, inner]
      refine ⟨fun s v within gives => ?_, fun s none => group.kept s fun within => ?_⟩
      · exact group.given s v within ((same s within).symm.trans gives)
      · exact (same s within).symm.trans (none within)
    next missing =>
      obtain rfl := Option.some.inj step
      refine lays_nothing ?_
      rintro s rfl
      simp [Reading.entry?, fields, missing]

theorem exists_document_of_ofToml? {text : List Char} (settings : ofToml? text = some c) :
    ∃ document, Toml.ofText? text = some document ∧ Reading.toml.Tells document c := by
  obtain ⟨document, reads, run⟩ := Option.bind_eq_some_iff.mp settings
  exact ⟨document, reads, tells_of_read run⟩

end Documents

/-! ## Variables -/

section Variables

variable {env env' : Environment} {name : String} {n : Nat}

/-- Settings that come from lower ones and the variables: one that spells a count gives its own
setting, and a setting without such a variable stays. -/
structure Overrides (env : Environment) (lower c : Config) : Prop where
  given : ∀ s value n, env.get? s.environmentName = some value → Spells value.toList n →
    c.get s = n
  kept : ∀ s, (∀ value n, env.get? s.environmentName = some value → ¬Spells value.toList n) →
    c.get s = lower.get s

theorem environmentName_injective : Function.Injective Setting.environmentName := by
  intro s t same
  cases s <;> cases t <;> first | rfl | exact absurd same (by decide)

theorem variableCount?_eq_some_iff :
    variableCount? env name = some n ↔
      ∃ value, env.get? name = some value ∧ Spells value.toList n := by
  simp only [variableCount?, Option.bind_eq_some_iff, spells_iff]

theorem variableCount?_eq_none_iff :
    variableCount? env name = none ↔
      ∀ value n, env.get? name = some value → ¬Spells value.toList n := by
  simp only [Option.eq_none_iff_forall_ne_some, Ne, variableCount?_eq_some_iff, not_exists, not_and]
  exact forall_comm

theorem lays_override (env : Environment) (c : Config) :
    Lays some (fun s => variableCount? env s.environmentName) (fun _ => True) c
      (c.override env) := by
  have run : _ = some (c.override env) := List.foldlM_pure
  have lays : Lays some (fun s => variableCount? env s.environmentName) (id · ∈ Setting.all) c
      (c.override env) := Lays.foldlM (fun c t d step => ?_) run
  · simpa only [id, Setting.mem_all] using lays
  · split at step
    next value gives =>
      obtain rfl := Option.some.inj step
      exact lays_set gives rfl
    next none =>
      obtain rfl := Option.some.inj step
      refine lays_nothing ?_
      rintro s (rfl : s = t)
      exact none

theorem get_override (env : Environment) (c : Config) (s : Setting) :
    (c.override env).get s = (variableCount? env s.environmentName).getD (c.get s) := by
  have lays := lays_override env c
  cases count : variableCount? env s.environmentName with
  | some n => exact (Option.some.inj (lays.given s n trivial count)).symm
  | none => exact lays.kept s fun _ => count

theorem overrides_iff : Overrides env lower c ↔ c = lower.override env := by
  constructor
  · intro laid
    refine eq_of_get_eq fun s => ?_
    rw [get_override]
    cases count : variableCount? env s.environmentName with
    | some n =>
        obtain ⟨value, found, spells⟩ := variableCount?_eq_some_iff.mp count
        exact laid.given s value n found spells
    | none => exact laid.kept s (variableCount?_eq_none_iff.mp count)
  · rintro rfl
    refine ⟨fun s value n found spells => ?_, fun s none => ?_⟩
    · rw [get_override, variableCount?_eq_some_iff.mpr ⟨value, found, spells⟩]
      rfl
    · rw [get_override, variableCount?_eq_none_iff.mpr none]
      rfl

theorem existsUnique_overrides (env : Environment) (lower : Config) :
    ∃! c, Overrides env lower c := by
  simp only [overrides_iff]
  exact existsUnique_eq

/-- What a setting is depends on no variable but its own. -/
theorem Overrides.get_eq (laid : Overrides env lower c) (laid' : Overrides env' lower d)
    (agree : env'.get? s.environmentName = env.get? s.environmentName) : d.get s = c.get s := by
  obtain rfl := overrides_iff.mp laid
  obtain rfl := overrides_iff.mp laid'
  simp only [get_override, variableCount?, agree]

end Variables

/-! ## Loading -/

section Loading

variable {fs : Files} {env : Environment} {path : Path} {text : List Char}

theorem contains_of_readStrict (stored : fs.readStrict path = .ok text) :
    fs.contains path = true := by
  obtain ⟨bytes, reads, -⟩ := Checked.bind_eq_ok.mp stored
  obtain ⟨item, found, -⟩ := Checked.bind_eq_ok.mp reads
  simp [Files.contains, found]

theorem ofFile_eq_ok_iff (stored : fs.readStrict path = .ok text)
    (settings : ofToml? text = some file) :
    ofFile fs path = .ok c ↔ file.IsValid ∧ c = file := by
  unfold ofFile
  rw [if_pos (contains_of_readStrict stored), stored]
  simp only [ofDocument, settings]
  exact validate_eq_ok_iff

theorem load_eq_ok_iff (stored : fs.readStrict path = .ok text)
    (settings : ofToml? text = some file) :
    load fs env path = .ok c ↔ file.IsValid ∧ c.IsValid ∧ Overrides env file c := by
  unfold load
  rw [Checked.bind_eq_ok, overrides_iff]
  simp only [ofFile_eq_ok_iff stored settings, validate_eq_ok_iff]
  constructor
  · rintro ⟨_, ⟨valid, rfl⟩, result, rfl⟩
    exact ⟨valid, result, rfl⟩
  · rintro ⟨valid, result, rfl⟩
    exact ⟨file, ⟨valid, rfl⟩, result, rfl⟩

/-- Where there is a file in the usual place, it is as good as one that is asked for. -/
theorem loadUsual_eq_load (there : fs.contains (usualPath env) = true) :
    loadUsual fs env = load fs env (usualPath env) := by
  unfold loadUsual load
  rw [if_pos there]

/-- Without a file in the usual place the variables lie over the defaults. -/
theorem loadUsual_eq_ok_iff_of_missing (missing : fs.contains (usualPath env) = false) :
    loadUsual fs env = .ok c ↔ c.IsValid ∧ Overrides env default c := by
  unfold loadUsual
  rw [if_neg (by simp [missing]), Checked.bind_eq_ok, overrides_iff]
  simp only [Except.ok.injEq, exists_eq_left', validate_eq_ok_iff]
  constructor
  · rintro ⟨valid, rfl⟩
    exact ⟨valid, rfl⟩
  · rintro ⟨valid, rfl⟩
    exact ⟨valid, rfl⟩

/-- Settings are loaded just when those of the document and those that result are valid, where a
variable that spells a count replaces its own setting and no other. Nobody has an extractor whose
limits are not positive. -/
theorem settings_come_in_layers (stored : fs.readStrict path = .ok text)
    (settings : ofToml? text = some file) (env : Environment) :
    (∃ document, Toml.ofText? text = some document ∧ Reading.toml.Tells document file) ∧
    (∃! c, Overrides env file c) ∧
    (∀ c, load fs env path = .ok c ↔ file.IsValid ∧ c.IsValid ∧ Overrides env file c) ∧
    (path = usualPath env → ∀ c,
      loadUsual fs env = .ok c ↔ file.IsValid ∧ c.IsValid ∧ Overrides env file c) ∧
    (∀ name env', (∀ other, other ≠ name → env'.get? other = env.get? other) →
      ∀ c d, Overrides env file c → Overrides env' file d →
        ∀ s : Setting, s.environmentName ≠ name → d.get s = c.get s) ∧
    Function.Injective Setting.environmentName ∧
    (∀ c, (∃ x : Extractor, Extractor.ofConfig c = .ok x ∧ x.config = c) ↔ c.IsValid) ∧
    ∀ x : Extractor, x.config.IsValid := by
  refine ⟨exists_document_of_ofToml? settings, existsUnique_overrides env file,
    fun c => load_eq_ok_iff stored settings, ?usual, ?frame, environmentName_injective,
    fun c => exists_extractor_iff, isValid_extractor⟩
  case usual =>
    rintro rfl c
    rw [loadUsual_eq_load (contains_of_readStrict stored)]
    exact load_eq_ok_iff stored settings
  case frame =>
    intro name env' agree c d laid laid' s other
    exact laid.get_eq laid' (agree s.environmentName other)

/-- A file that gives one setting. -/
def depthText : List Char := "[analysis]\nmax_depth = 64\n".toList

def depthFiles : Files :=
  Directory.files ⟨[(["diff-context".toList, "config.toml".toList],
    .file "[analysis]\nmax_depth = 64\n".toUTF8.toList)]⟩

/-- Two variables that spell counts and one that does not. -/
def shellVariables : Environment :=
  [("DIFF_CONTEXT_MAX_BLOCK_LINES", " +33 "), ("DIFF_CONTEXT_WINDOW_RADIUS", "wide"),
    ("DIFF_CONTEXT_TIMEOUT_MS", "750")]

theorem settings_of_depthText :
    depthFiles.readStrict (usualPath shellVariables) = .ok depthText ∧
    ofToml? depthText = some { Config.default with maxDepth := 64 } ∧
    load depthFiles shellVariables (usualPath shellVariables) =
      .ok { Config.default with maxBlockLines := 33, maxDepth := 64, timeoutMs := 750 } ∧
    loadUsual depthFiles shellVariables =
      .ok { Config.default with maxBlockLines := 33, maxDepth := 64, timeoutMs := 750 } := by
  have stored : depthFiles.readStrict (usualPath shellVariables) = .ok depthText := by
    decide +kernel
  have settings : ofToml? depthText = some { Config.default with maxDepth := 64 } := by
    decide +kernel
  have run : load depthFiles shellVariables (usualPath shellVariables) =
      .ok { Config.default with maxBlockLines := 33, maxDepth := 64, timeoutMs := 750 } := by
    decide +kernel
  obtain ⟨-, -, asked, usual, -⟩ := settings_come_in_layers stored settings shellVariables
  exact ⟨stored, settings, run, (usual rfl _).mpr ((asked _).mp run)⟩

end Loading

end DiffScope.Config
