import Mathlib.Data.List.Nodup
import DiffScope.Report.Encoding
import DiffScope.Proofs.Checked
import DiffScope.Proofs.Json.Values

/-! # Written results are read back

What is written of a result is read back as the same result, on one line or spread over lines. The
members that are written are those of the fields that are there; lists of tags that are empty may as
well be left out.
-/

namespace DiffScope.Json

theorem count?_natural {n : Nat} (fits : n < countBound) : count? (.natural n) = some n :=
  if_pos fits

theorem list?_ofList {α : Type} {f : Json → Option α} {g : α → Json} {as : List α}
    (each : ∀ a ∈ as, f (g a) = some a) : list? f (ofList g as) = some as := by
  rw [ofList, list?]
  induction as with
  | nil => rfl
  | cons a as ih =>
      obtain ⟨first, rest⟩ := List.forall_mem_cons.mp each
      rw [List.map_cons, List.mapM_cons, first, ih rest]
      rfl

theorem onlyCounts_ofList {α : Type} {g : α → Json} {as : List α}
    (each : ∀ a ∈ as, OnlyCounts (g a)) : OnlyCounts (ofList g as) :=
  .array (List.forall_mem_map.mpr each)

theorem onlyCounts_optional {α : Type} {name : String} {g : α → Json} {a : Option α}
    (each : ∀ x ∈ a, OnlyCounts (g x)) : ∀ m ∈ optional name g a, OnlyCounts m.2 := by
  cases a with
  | none => simp [optional]
  | some x => simpa [optional] using each

/-! ## Members that are left out -/

/-- Members under different names are found each under its own. -/
theorem member?_eq_some_iff {members : List (String × Json)}
    (distinct : (members.map Prod.fst).Nodup) {name : String} {j : Json} :
    member? name (object members) = some j ↔ (name, j) ∈ members := by
  rw [member?, Option.map_eq_some_iff]
  constructor
  · rintro ⟨⟨n, k⟩, found, rfl⟩
    obtain rfl : n = name := by simpa using List.find?_some found
    exact List.mem_of_find?_eq_some found
  · intro member
    cases found : members.find? (fun m => m.1 = name) with
    | none =>
        have none := List.find?_eq_none.mp found _ member
        exact absurd (decide_eq_true rfl) none
    | some m =>
        have same : m.1 = name := by simpa using List.find?_some found
        have among := List.mem_of_find?_eq_some found
        obtain rfl := List.inj_on_of_nodup_map distinct among member same
        exact ⟨_, rfl, rfl⟩

theorem member?_eq_none_iff {members : List (String × Json)} {name : String} :
    member? name (object members) = none ↔ name ∉ members.map Prod.fst := by
  rw [member?, Option.map_eq_none_iff, List.find?_eq_none, List.mem_map]
  constructor
  · rintro other ⟨m, member, same⟩
    exact other m member (decide_eq_true same)
  · intro missing m member same
    exact missing ⟨m, member, of_decide_eq_true same⟩

/-- Members under different names are the fields of a record. -/
theorem fields?_object {names : List String} {members : List (String × Json)}
    (distinct : (members.map Prod.fst).Nodup) :
    fields? names (object members) = some fun name => member? name (object members) := by
  refine if_pos (List.all_eq_true.mpr fun name _ => decide_eq_true ?_)
  have once := List.nodup_iff_count_le_one.mp distinct name
  rw [List.count, List.countP_map] at once
  exact once

/-- The members of an object. -/
def members : Json → List (String × Json)
  | object members => members
  | _ => []

theorem nullable_map {α : Type} {f : Json → Option α} {g : α → Json} {a : Option α}
    (there : ∀ x, g x ≠ null) (each : ∀ x ∈ a, f (g x) = some x) :
    nullable (a.map g) f = some a := by
  cases a with
  | none => rfl
  | some x =>
      rw [Option.map_some, nullable]
      · rw [each x rfl, Option.map_some]
      · exact there x

def isEmptyList : Json → Bool
  | array [] => true
  | _ => false

theorem isEmptyList_iff {j : Json} : j.isEmptyList = true ↔ j = array [] := by
  cases j with
  | array items => cases items <;> simp [isEmptyList]
  | _ => simp [isEmptyList]

/-- The members without the empty lists under some names. -/
def withoutEmpty (names : List String) (members : List (String × Json)) : List (String × Json) :=
  members.filter fun m => !(names.contains m.1 && m.2.isEmptyList)

theorem mem_withoutEmpty {names : List String} {members : List (String × Json)} {name : String}
    {j : Json} : (name, j) ∈ withoutEmpty names members ↔
      (name, j) ∈ members ∧ ¬(name ∈ names ∧ j = array []) := by
  rw [withoutEmpty, List.mem_filter, ← isEmptyList_iff]
  simp [Decidable.imp_iff_not_or]

/-- Nothing else can be found out by name than that empty lists are missing. -/
theorem member?_withoutEmpty (names : List String) {members : List (String × Json)}
    (distinct : (members.map Prod.fst).Nodup) (name : String) :
    member? name (object (withoutEmpty names members)) = member? name (object members) ∨
      name ∈ names ∧ member? name (object members) = some (array []) ∧
        member? name (object (withoutEmpty names members)) = none := by
  have sub : (withoutEmpty names members).Sublist members := List.filter_sublist
  have kept {j : Json} : member? name (object (withoutEmpty names members)) = some j ↔
      member? name (object members) = some j ∧ ¬(name ∈ names ∧ j = array []) := by
    rw [member?_eq_some_iff (distinct.sublist (sub.map Prod.fst)), mem_withoutEmpty,
      member?_eq_some_iff distinct]
  cases found : member? name (object (withoutEmpty names members)) with
  | some j => exact .inl (kept.mp found).1.symm
  | none =>
      cases whole : member? name (object members) with
      | none => exact .inl rfl
      | some j =>
          have lost : name ∈ names ∧ j = array [] := by
            by_contra other
            rw [kept.mpr ⟨whole, other⟩] at found
            cases found
          exact .inr ⟨lost.1, congrArg some lost.2, rfl⟩

end DiffScope.Json

namespace DiffScope.Report

open DiffScope.Json DiffScope.Scope DiffScope.Snippet

/-! ## Sections and blocks -/

namespace Section

/-- The numbers of a section are counts. -/
structure Fits (s : Section) : Prop where
  startLine : s.startLine < countBound
  endLine : s.endLine < countBound
  addedLines : ∀ l ∈ s.addedLines, l < countBound

/-- The names of the fields that are there. -/
def names (s : Section) : List String :=
  fieldNames.filter fun name => (name ≠ "summary" || s.summary.isSome) &&
    (name ≠ "component_option" || s.option.isSome)

theorem exists_toJson_eq (s : Section) :
    ∃ members, s.toJson = .object members ∧ members.map Prod.fst = s.names := by
  refine ⟨_, rfl, ?_⟩
  rw [List.map_append, List.map_append, names]
  cases s.summary <;> cases s.option <;> rfl

theorem nodup_names (s : Section) : s.names.Nodup :=
  List.Nodup.filter _ (by decide)

theorem onlyCounts_toJson (s : Section) : OnlyCounts s.toJson := by
  have lines : OnlyCounts (ofList .natural s.addedLines) :=
    onlyCounts_ofList fun l _ => .natural l
  have texts (name : String) (t : Option String) :
      ∀ m ∈ Json.optional name .string t, OnlyCounts m.2 :=
    onlyCounts_optional fun x _ => .string x
  refine .object (List.forall_mem_append.mpr ⟨List.forall_mem_append.mpr ⟨?_, texts _ _⟩, texts _ _⟩)
  simp [lines, OnlyCounts.string, OnlyCounts.natural, OnlyCounts.bool]

theorem fields?_toJson (s : Section) :
    s.toJson.fields? fieldNames = some fun name => s.toJson.member? name := by
  obtain ⟨members, whole, names⟩ := s.exists_toJson_eq
  rw [whole]
  exact fields?_object (names ▸ s.nodup_names)

theorem member?_toJson {s : Section} {name : String} {j : Json}
    (member : (name, j) ∈ s.toJson.members) : s.toJson.member? name = some j := by
  obtain ⟨members, whole, names⟩ := s.exists_toJson_eq
  rw [whole] at member ⊢
  exact (member?_eq_some_iff (names ▸ s.nodup_names)).mpr member

theorem member?_toJson_eq_none {s : Section} {name : String} (missing : name ∉ s.names) :
    s.toJson.member? name = none := by
  obtain ⟨members, whole, names⟩ := s.exists_toJson_eq
  rw [whole]
  exact member?_eq_none_iff.mpr (names ▸ missing)

theorem ofJson?_toJson {s : Section} (fits : s.Fits) : ofJson? s.toJson = some s := by
  have kind : s.toJson.member? "kind" = some (.string s.kind.name) :=
    member?_toJson (by simp [toJson, members])
  have name : s.toJson.member? "name" = some (.string s.name) :=
    member?_toJson (by simp [toJson, members])
  have startLine : s.toJson.member? "start_line" = some (.natural s.startLine) :=
    member?_toJson (by simp [toJson, members])
  have endLine : s.toJson.member? "end_line" = some (.natural s.endLine) :=
    member?_toJson (by simp [toJson, members])
  have addedLines : s.toJson.member? "added_lines" = some (ofList .natural s.addedLines) :=
    member?_toJson (by simp [toJson, members])
  have snippet : s.toJson.member? "snippet" = some (.string s.snippet) :=
    member?_toJson (by simp [toJson, members])
  have truncated : s.toJson.member? "truncated" = some (.bool s.truncated) :=
    member?_toJson (by simp [toJson, members])
  have reason : s.toJson.member? "truncation_reason" = some (.string s.reason.name) :=
    member?_toJson (by simp [toJson, members])
  have summary : s.toJson.member? "summary" = s.summary.map .string := by
    cases h : s.summary with
    | none => exact member?_toJson_eq_none (by simp [names, h])
    | some t => exact member?_toJson (by simp [toJson, members, Json.optional, h])
  have option : s.toJson.member? "component_option" = s.option.map .string := by
    cases h : s.option with
    | none => exact member?_toJson_eq_none (by simp [names, h])
    | some t => exact member?_toJson (by simp [toJson, members, Json.optional, h])
  have lines : list? count? (ofList .natural s.addedLines) = some s.addedLines :=
    list?_ofList fun l member => count?_natural (fits.addedLines l member)
  have text (t : Option String) : nullable (t.map .string) string? = some t :=
    nullable_map nofun fun _ _ => rfl
  rw [ofJson?, s.fields?_toJson]
  dsimp only [Option.bind_eq_bind, Option.bind_some]
  rw [kind, name, startLine, endLine, addedLines, snippet, truncated, reason, summary, option]
  dsimp only [case?, string?, bool?, Option.bind_some]
  rw [Kind.ofName?_name, Truncation.ofName?_name, count?_natural fits.startLine,
    count?_natural fits.endLine, lines, text, text]
  rfl

end Section

namespace Metadata

structure Fits (m : Metadata) : Prop where
  styleCount : m.styleCount < countBound
  customBlockCount : m.customBlockCount < countBound

theorem onlyCounts_toJson (m : Metadata) : OnlyCounts m.toJson := by
  refine .object ?_
  simp [OnlyCounts.natural, OnlyCounts.bool]

theorem ofJson?_toJson {m : Metadata} (fits : m.Fits) : ofJson? m.toJson = some m := by
  have styles := count?_natural fits.styleCount
  have customs := count?_natural fits.customBlockCount
  have distinct : (m.toJson.members.map Prod.fst).Nodup :=
    show fieldNames.Nodup by decide
  have fields : m.toJson.fields? fieldNames = some fun name => m.toJson.member? name :=
    fields?_object distinct
  rw [ofJson?, fields]
  simp [toJson, member?, bool?, styles, customs]

end Metadata

/-! ## Results -/

namespace Result

structure Fits (r : Result) : Prop where
  sections : ∀ s ∈ r.sections, s.Fits
  durationMs : r.durationMs < countBound
  component : ∀ m ∈ r.component, m.Fits

/-- The names of the fields that are there. -/
def names (r : Result) : List String :=
  fieldNames.filter fun name => name ≠ "component" || r.component.isSome

theorem exists_toJson_eq (r : Result) : ∃ members, r.toJson = .object members ∧
    members.map Prod.fst = r.names ∧ ("sections", ofList Section.toJson r.sections) ∈ members := by
  refine ⟨_, rfl, ?_, by simp⟩
  rw [List.map_append, names]
  cases r.component <;> rfl

theorem nodup_names (r : Result) : r.names.Nodup :=
  List.Nodup.filter _ (by decide)

theorem onlyCounts_toJson (r : Result) : OnlyCounts r.toJson := by
  have told : OnlyCounts (ofList Section.toJson r.sections) :=
    onlyCounts_ofList fun s _ => s.onlyCounts_toJson
  have tags (ts : List String) : OnlyCounts (ofList .string ts) :=
    onlyCounts_ofList fun t _ => .string t
  have blocks : ∀ m ∈ Json.optional "component" Metadata.toJson r.component, OnlyCounts m.2 :=
    onlyCounts_optional fun m _ => m.onlyCounts_toJson
  refine .object (List.forall_mem_append.mpr ⟨?_, blocks⟩)
  simp [told, tags, OnlyCounts.string, OnlyCounts.natural]

theorem fields?_toJson (r : Result) :
    r.toJson.fields? fieldNames = some fun name => r.toJson.member? name := by
  obtain ⟨members, whole, names, -⟩ := r.exists_toJson_eq
  rw [whole]
  exact fields?_object (names ▸ r.nodup_names)

theorem ofJson?_toJson {r : Result} (fits : r.Fits) : ofJson? r.toJson = some r := by
  have told : list? Section.ofJson? (ofList Section.toJson r.sections) = some r.sections :=
    list?_ofList fun s member => Section.ofJson?_toJson (fits.sections s member)
  have tags (ts : List String) : list? string? (ofList .string ts) = some ts :=
    list?_ofList fun _ _ => rfl
  have duration := count?_natural fits.durationMs
  rw [ofJson?, r.fields?_toJson]
  cases r with
  | mk filePath sections errors warnings durationMs component =>
      cases component with
      | none =>
          simp [toJson, Json.optional, member?, string?, withDefault, nullable, told, tags, duration]
      | some m =>
          have blocks : nullable (some m.toJson) Metadata.ofJson? = some (some m) :=
            congrArg (Option.map some) (Metadata.ofJson?_toJson (fits.component m rfl))
          simp [toJson, Json.optional, member?, string?, withDefault, told, tags, duration, blocks]

/-- Lists of tags that are empty may as well be missing. -/
theorem ofJson?_withoutEmpty {names : List String} (tags : names ⊆ ["errors", "warnings"])
    {members : List (String × Json)} (distinct : (members.map Prod.fst).Nodup) :
    ofJson? (.object (withoutEmpty names members)) = ofJson? (.object members) := by
  have others : ∀ name, name ∉ ["errors", "warnings"] →
      member? name (.object (withoutEmpty names members)) = member? name (.object members) := by
    intro name other
    rcases member?_withoutEmpty names distinct name with same | ⟨among, -⟩
    · exact same
    · exact absurd (tags among) other
  have lists : ∀ name,
      withDefault (member? name (.object (withoutEmpty names members))) (list? string?) [] =
        withDefault (member? name (.object members)) (list? string?) [] := by
    intro name
    rcases member?_withoutEmpty names distinct name with same | ⟨-, empty, missing⟩
    · rw [same]
    · rw [empty, missing]
      rfl
  have sub : (withoutEmpty names members).Sublist members := List.filter_sublist
  rw [ofJson?, ofJson?, fields?_object distinct,
    fields?_object (distinct.sublist (sub.map Prod.fst))]
  simp [lists, others]

/-- The result that a text tells of. -/
def ofText? (text : String) : Option Result := (Json.ofText? text.toList).bind ofJson?

/-- What can be read of a result that was written: the result itself; the fields that are there and
no others; and again the result, where any of its empty lists of tags are left out. -/
structure ReadsBack (r : Result) (write : Json → String) : Prop where
  same : ofText? (write r.toJson) = some r
  present : ∃ members items, Json.ofText? (write r.toJson).toList = some (.object members) ∧
    members.map Prod.fst = r.names ∧ ("sections", .array items) ∈ members ∧
    List.Forall₂ (fun s item => ∃ ms, item = .object ms ∧ ms.map Prod.fst = s.names)
      r.sections items
  lenient : ∀ members, Json.ofText? (write r.toJson).toList = some (.object members) →
    ∀ names, names ⊆ ["errors", "warnings"] →
      ofText? (write (.object (withoutEmpty names members))) = some r

theorem readsBack_of_reads {r : Result} (fits : r.Fits) {write : Json → String}
    (reads : ∀ j, OnlyCounts j → Json.ofText? (write j).toList = some j) : r.ReadsBack write := by
  obtain ⟨members, whole, names, told⟩ := r.exists_toJson_eq
  have text := reads _ r.onlyCounts_toJson
  refine ⟨?_, ?_, fun members' text' tags among => ?_⟩
  · rw [ofText?, text]
    exact ofJson?_toJson fits
  · refine ⟨members, _, whole ▸ text, names, told, ?_⟩
    rw [List.forall₂_map_right_iff, List.forall₂_same]
    exact fun s _ => s.exists_toJson_eq
  · rw [text, whole] at text'
    obtain rfl := Json.object.inj (Option.some.inj text')
    have counts : OnlyCounts (.object (withoutEmpty tags members)) := by
      cases whole ▸ r.onlyCounts_toJson with
      | object each => exact .object fun m member => each m (List.mem_filter.mp member).1
    rw [ofText?, reads _ counts]
    change ofJson? (.object (withoutEmpty tags members)) = some r
    rw [ofJson?_withoutEmpty among (names ▸ r.nodup_names), ← whole]
    exact ofJson?_toJson fits

/-- A result is read back from what is written of it, on one line or spread over lines. The summary
and the option of a section and the blocks of a component are left out exactly where there are none,
and empty lists of errors and warnings may be left out. -/
theorem written_results_are_read_back (r : Result) (fits : r.Fits) :
    r.ReadsBack Json.compact ∧ r.ReadsBack Json.pretty ∧
    (∀ name, name ∈ r.names ↔
      name ∈ fieldNames ∧ (name = "component" → r.component.isSome)) ∧
    ∀ s ∈ r.sections, ∀ name, name ∈ s.names ↔
      name ∈ Section.fieldNames ∧ (name = "summary" → s.summary.isSome) ∧
        (name = "component_option" → s.option.isSome) := by
  refine ⟨readsBack_of_reads fits fun _ => ofText?_compact,
    readsBack_of_reads fits fun _ => ofText?_pretty, fun name => ?_, fun s _ name => ?_⟩
  · simp [names, List.mem_filter, Decidable.imp_iff_not_or]
  · simp [Section.names, List.mem_filter, Decidable.imp_iff_not_or]

/-- A result with the greatest counts, with quotes, control characters and one character that no
single unit holds. -/
def farthest : Result where
  filePath := "src/\u0001\"🌍\".vue"
  sections := [{
    kind := .arrowFunction
    name := "🌍"
    startLine := 0
    endLine := countBound - 1
    addedLines := [0, countBound - 1]
    snippet := "\t() => \"\\\u001f\"\r\n"
    truncated := true
    reason := .lineLimit
    summary := none
    option := some "methods" }]
  errors := []
  warnings := ["depth_exceeded: \u007f"]
  durationMs := countBound - 1
  component := some ⟨true, false, true, countBound - 1, 0⟩

theorem farthest_fits : farthest.Fits := by
  refine ⟨?_, by decide, ?_⟩
  · intro s member
    obtain rfl := List.mem_singleton.mp member
    exact ⟨by decide, by decide, by decide⟩
  · intro m among
    cases among
    exact ⟨by decide, by decide⟩

theorem farthest_is_read_back : farthest.Fits ∧ farthest.ReadsBack Json.compact ∧
    farthest.ReadsBack Json.pretty ∧ "component" ∈ farthest.names ∧
    ∀ s ∈ farthest.sections, "summary" ∉ s.names ∧ "component_option" ∈ s.names := by
  obtain ⟨compact, pretty, -, -⟩ := written_results_are_read_back farthest farthest_fits
  exact ⟨farthest_fits, compact, pretty, by decide, by decide⟩

end Result

end DiffScope.Report
