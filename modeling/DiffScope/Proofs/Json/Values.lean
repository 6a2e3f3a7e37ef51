import Mathlib.Tactic.SplitIfs
import DiffScope.Proofs.Json.Tokens

/-! # Written values are read back

A value whose numbers are counts is read back from its text, on one line or spread over lines. Each
part of a value is read from the start of whatever text goes on behind it; what is left to spend is
always enough for the text that is left.
-/

namespace DiffScope.Json

open DiffScope.Text

/-- All numbers of a value are counts. -/
inductive OnlyCounts : Json → Prop
  | null : OnlyCounts .null
  | bool (b : Bool) : OnlyCounts (.bool b)
  | natural (n : Nat) : OnlyCounts (.natural n)
  | string (s : String) : OnlyCounts (.string s)
  | array {items : List Json} (each : ∀ j ∈ items, OnlyCounts j) : OnlyCounts (.array items)
  | object {members : List (String × Json)} (each : ∀ m ∈ members, OnlyCounts m.2) :
      OnlyCounts (.object members)

/-! ## Layouts -/

/-- A layout puts nothing but blanks between the parts of a value, and a colon behind a name. -/
structure Layout.IsLegible (l : Layout) : Prop where
  breaks : ∀ level, ∀ c ∈ l.breakAt level, isGap c = true
  colon : ∃ gap : List Char, l.colon = ':' :: gap ∧ ∀ c ∈ gap, isGap c = true

theorem Layout.isLegible_flat : Layout.flat.IsLegible where
  breaks := by simp [flat]
  colon := ⟨[], rfl, by simp⟩

theorem Layout.isLegible_spread : Layout.spread.IsLegible where
  breaks := by
    intro level c member
    rcases List.mem_cons.mp member with rfl | blank
    · rfl
    · obtain ⟨-, rfl⟩ := List.mem_replicate.mp blank
      rfl
  colon := ⟨[' '], rfl, by simp [isGap]⟩

section Gaps

variable {gap : List Char}

theorem skipGap_cons {c : Char} (filled : isGap c = false) (text : List Char) :
    skipGap (c :: text) = c :: text := by
  rw [skipGap, List.dropWhile_cons, filled]
  rfl

theorem skipGap_append (blank : ∀ c ∈ gap, isGap c = true) (text : List Char) :
    skipGap (gap ++ text) = skipGap text :=
  List.dropWhile_append_of_pos blank

theorem skipGap_append_cons (blank : ∀ c ∈ gap, isGap c = true) {c : Char}
    (filled : isGap c = false) (text : List Char) : skipGap (gap ++ c :: text) = c :: text := by
  rw [skipGap_append blank, skipGap_cons filled]

theorem readValue_append (blank : ∀ c ∈ gap, isGap c = true) (fuel : Nat) (text : List Char) :
    readValue fuel (gap ++ text) = readValue fuel text := by
  cases fuel with
  | zero => rfl
  | succ fuel => rw [readValue, readValue, skipGap_append blank]

theorem EndsNumber.append {text : List Char} (blank : ∀ c ∈ gap, isGap c = true)
    (ends : EndsNumber text) : EndsNumber (gap ++ text) := by
  cases gap with
  | nil => exact ends
  | cons c cs =>
      refine .cons ?_ _
      have blanks : isGap c = true := blank c List.mem_cons_self
      simp only [isGap, Bool.or_eq_true, decide_eq_true_eq] at blanks
      rcases blanks with ((rfl | rfl) | rfl) | rfl <;> decide

theorem endsNumber_closing (blank : ∀ c ∈ gap, isGap c = true) {c : Char}
    (closes : c = ']' ∨ c = '\x7d') (rest : List Char) : EndsNumber (gap ++ c :: rest) := by
  refine .append blank (.cons ?_ rest)
  rcases closes with rfl | rfl <;> decide

end Gaps

/-! ## Strings and numbers -/

theorem isGap_of_isDigit {d : Char} (digit : d.isDigit = true) : isGap d = false := by
  have other {c : Char} : c.isDigit = false → d ≠ c := ne_of_kind digit
  simp [isGap, other (c := ' ') rfl, other (c := '\n') rfl, other (c := '\r') rfl,
    other (c := '\t') rfl]

theorem readValue_quote (fuel : Nat) (s : String) (rest : List Char) :
    readValue (fuel + 1) (quote s ++ rest) = some (.string s, rest) := by
  simp [readValue, quote, skipGap_cons, isGap, readString_flatMap]

theorem readValue_toDigits (fuel n : Nat) {rest : List Char} (ends : EndsNumber rest) :
    readValue (fuel + 1) (Nat.toDigits 10 n ++ rest) = some (.natural n, rest) := by
  have number := readNumber_toDigits n ends
  cases found : Nat.toDigits 10 n with
  | nil => exact absurd found Nat.toDigits_ne_nil
  | cons d ds =>
      have digit := isDigit_toDigits n d (found ▸ List.mem_cons_self)
      have other {c : Char} : c.isDigit = false → d ≠ c := ne_of_kind digit
      rw [found, List.cons_append] at number
      simp [readValue, skipGap_cons (isGap_of_isDigit digit), other (c := '"') rfl,
        other (c := '[') rfl, other (c := '\x7b') rfl, after?, (other (c := 'n') rfl).symm,
        (other (c := 't') rfl).symm, (other (c := 'f') rfl).symm, number]

/-- A written value begins with a character that is no blank and closes no array. -/
theorem exists_render_eq_cons (l : Layout) (level : Nat) {j : Json} (counts : OnlyCounts j) :
    ∃ c cs, render l level j = c :: cs ∧ isGap c = false ∧ c ≠ ']' := by
  cases counts with
  | null => exact ⟨'n', _, by rw [render]; rfl, rfl, by decide⟩
  | bool b =>
      cases b with
      | true => exact ⟨'t', _, by rw [render]; rfl, rfl, by decide⟩
      | false => exact ⟨'f', _, by rw [render]; rfl, rfl, by decide⟩
  | natural n =>
      cases found : Nat.toDigits 10 n with
      | nil => exact absurd found Nat.toDigits_ne_nil
      | cons d ds =>
          have digit := isDigit_toDigits n d (found ▸ List.mem_cons_self)
          exact ⟨d, ds, by rw [render, found], isGap_of_isDigit digit, ne_of_kind digit rfl⟩
  | string s => exact ⟨'"', _, by rw [render]; rfl, rfl, by decide⟩
  | array =>
      rw [render, bracket]
      split_ifs <;> exact ⟨'[', _, rfl, rfl, by decide⟩
  | object =>
      rw [render, bracket]
      split_ifs <;> exact ⟨'\x7b', _, rfl, rfl, by decide⟩

/-! ## Lists of parts -/

/-- The items of an array up to its end, and the text behind it. -/
def itemsText (l : Layout) (level : Nat) (gap : List Char) (js : List Json) (rest : List Char) :
    List Char :=
  [','].intercalate ((renderItems l level js).map (l.breakAt level ++ ·)) ++ (gap ++ ']' :: rest)

/-- The members of an object up to its end, and the text behind it. -/
def membersText (l : Layout) (level : Nat) (gap : List Char) (ms : List (String × Json))
    (rest : List Char) : List Char :=
  [','].intercalate ((renderMembers l level ms).map (l.breakAt level ++ ·))
    ++ (gap ++ '\x7d' :: rest)

section Parts

variable (l : Layout) (level : Nat) (gap rest : List Char)

theorem itemsText_singleton (j : Json) : itemsText l level gap [j] rest =
    l.breakAt level ++ (render l level j ++ (gap ++ ']' :: rest)) := by
  simp [itemsText, renderItems, List.intercalate_singleton]

theorem itemsText_cons (j k : Json) (js : List Json) :
    itemsText l level gap (j :: k :: js) rest =
      l.breakAt level ++ (render l level j ++ ',' :: itemsText l level gap (k :: js) rest) := by
  simp [itemsText, renderItems, List.intercalate_cons_cons]

theorem exists_itemsText_eq (j : Json) (js : List Json) :
    ∃ text, itemsText l level gap (j :: js) rest =
      l.breakAt level ++ (render l level j ++ text) := by
  cases js with
  | nil => exact ⟨_, itemsText_singleton l level gap rest j⟩
  | cons k js => exact ⟨_, itemsText_cons l level gap rest j k js⟩

theorem length_lt_itemsText (js : List Json) :
    rest.length < (itemsText l level gap js rest).length := by
  simp only [itemsText, List.length_append, List.length_cons]
  omega

theorem membersText_singleton (m : String × Json) : membersText l level gap [m] rest =
    l.breakAt level ++
      (quote m.1 ++ (l.colon ++ (render l level m.2 ++ (gap ++ '\x7d' :: rest)))) := by
  simp [membersText, renderMembers, List.intercalate_singleton]

theorem membersText_cons (m n : String × Json) (ms : List (String × Json)) :
    membersText l level gap (m :: n :: ms) rest = l.breakAt level ++
      (quote m.1 ++ (l.colon ++ (render l level m.2 ++
        ',' :: membersText l level gap (n :: ms) rest))) := by
  simp [membersText, renderMembers, List.intercalate_cons_cons]

theorem exists_membersText_eq (m : String × Json) (ms : List (String × Json)) :
    ∃ text, membersText l level gap (m :: ms) rest = l.breakAt level ++ '"' :: text := by
  cases ms with
  | nil => exact ⟨_, membersText_singleton l level gap rest m⟩
  | cons n ms => exact ⟨_, membersText_cons l level gap rest m n ms⟩

theorem length_lt_membersText (ms : List (String × Json)) :
    rest.length < (membersText l level gap ms rest).length := by
  simp only [membersText, List.length_append, List.length_cons]
  omega

theorem render_array (j : Json) (js : List Json) : render l level (.array (j :: js)) ++ rest =
    '[' :: itemsText l (level + 1) (l.breakAt level) (j :: js) rest := by
  simp [render, bracket, itemsText, renderItems]

theorem render_object (m : String × Json) (ms : List (String × Json)) :
    render l level (.object (m :: ms)) ++ rest =
      '\x7b' :: membersText l (level + 1) (l.breakAt level) (m :: ms) rest := by
  simp [render, bracket, membersText, renderMembers]

end Parts

/-! ## Values -/

mutual

/-- A written value is read back from the start of any text in which no number goes on behind it. -/
theorem readValue_render {l : Layout} (legible : l.IsLegible) {j : Json} (counts : OnlyCounts j)
    (level fuel : Nat) (enough : (render l level j).length ≤ fuel) {rest : List Char}
    (ends : EndsNumber rest) : readValue fuel (render l level j ++ rest) = some (j, rest) := by
  obtain ⟨c, cs, opens, -, -⟩ := exists_render_eq_cons l level counts
  obtain ⟨fuel, rfl⟩ : ∃ f, fuel = f + 1 := by
    rw [opens] at enough
    exact Nat.exists_eq_add_of_le' (Nat.le_trans (Nat.le_add_left 1 _) enough)
  match j, counts with
  | .null, _ => rfl
  | .bool true, _ => rfl
  | .bool false, _ => rfl
  | .natural n, _ => exact readValue_toDigits fuel n ends
  | .string s, _ => exact readValue_quote fuel s rest
  | .array [], _ => rfl
  | .array (j :: js), .array each =>
      have whole := render_array l level rest j js
      have size := congrArg List.length whole
      rw [List.length_append, List.length_cons] at size
      have items := readItems_itemsText legible (legible.breaks level) (List.cons_ne_nil j js) each
        (level + 1) fuel rest (by omega) []
      -- The first item shows that the array is not empty.
      obtain ⟨text, starts⟩ := exists_itemsText_eq l (level + 1) (l.breakAt level) rest j js
      obtain ⟨c, cs, first, filled, other⟩ :=
        exists_render_eq_cons l (level + 1) (each j List.mem_cons_self)
      rw [first, List.cons_append] at starts
      have opening := skipGap_append_cons (legible.breaks (level + 1)) filled (cs ++ text)
      rw [whole, readValue, skipGap_cons rfl]
      simpa [starts, opening, other] using items
  | .object [], _ => rfl
  | .object (m :: ms), .object each =>
      have whole := render_object l level rest m ms
      have size := congrArg List.length whole
      rw [List.length_append, List.length_cons] at size
      have members := readMembers_membersText legible (legible.breaks level)
        (List.cons_ne_nil m ms) each (level + 1) fuel rest (by omega) []
      obtain ⟨text, starts⟩ := exists_membersText_eq l (level + 1) (l.breakAt level) rest m ms
      have opening := skipGap_append_cons (legible.breaks (level + 1)) (c := '"') rfl text
      rw [whole, readValue, skipGap_cons rfl]
      simpa [starts, opening] using members

/-- Written items are read back behind those already read. -/
theorem readItems_itemsText {l : Layout} (legible : l.IsLegible) {gap : List Char}
    (blank : ∀ c ∈ gap, isGap c = true) {js : List Json} (filled : js ≠ [])
    (counts : ∀ j ∈ js, OnlyCounts j) (level fuel : Nat) (rest : List Char)
    (enough : (itemsText l level gap js rest).length ≤ fuel + rest.length) (items : List Json) :
    readItems fuel items (itemsText l level gap js rest) =
      some (.array (items.reverse ++ js), rest) := by
  match js with
  | [] => exact absurd rfl filled
  | [j] =>
      rw [itemsText_singleton] at enough ⊢
      simp only [List.length_append, List.length_cons] at enough
      obtain ⟨fuel, rfl⟩ : ∃ f, fuel = f + 1 := Nat.exists_eq_add_of_le' (by omega)
      have value := readValue_render legible (counts j List.mem_cons_self) level fuel (by omega)
        (endsNumber_closing blank (.inl rfl) rest)
      simp [readItems, readValue_append (legible.breaks level), value,
        skipGap_append_cons blank (c := ']') rfl]
  | j :: k :: js =>
      have more := length_lt_itemsText l level gap rest (k :: js)
      rw [itemsText_cons] at enough ⊢
      simp only [List.length_append, List.length_cons] at enough
      obtain ⟨fuel, rfl⟩ : ∃ f, fuel = f + 1 := Nat.exists_eq_add_of_le' (by omega)
      have comma : EndsNumber (',' :: itemsText l level gap (k :: js) rest) := .cons (by decide) _
      have value := readValue_render legible (counts j List.mem_cons_self) level fuel (by omega)
        comma
      have others := readItems_itemsText legible blank (List.cons_ne_nil k js)
        (fun i member => counts i (List.mem_cons_of_mem j member)) level fuel rest (by omega)
        (j :: items)
      simp [readItems, readValue_append (legible.breaks level), value, skipGap_cons (c := ',') rfl,
        others]

/-- Written members are read back behind those already read. -/
theorem readMembers_membersText {l : Layout} (legible : l.IsLegible) {gap : List Char}
    (blank : ∀ c ∈ gap, isGap c = true) {ms : List (String × Json)} (filled : ms ≠ [])
    (counts : ∀ m ∈ ms, OnlyCounts m.2) (level fuel : Nat) (rest : List Char)
    (enough : (membersText l level gap ms rest).length ≤ fuel + rest.length)
    (members : List (String × Json)) :
    readMembers fuel members (membersText l level gap ms rest) =
      some (.object (members.reverse ++ ms), rest) := by
  obtain ⟨behind, colon, blanks⟩ := legible.colon
  match ms with
  | [] => exact absurd rfl filled
  | [m] =>
      rw [membersText_singleton, colon] at enough ⊢
      simp only [List.length_append, List.length_cons] at enough
      obtain ⟨fuel, rfl⟩ : ∃ f, fuel = f + 1 := Nat.exists_eq_add_of_le' (by omega)
      have value := readValue_render legible (counts m List.mem_cons_self) level fuel (by omega)
        (endsNumber_closing blank (.inr rfl) rest)
      simp [readMembers, skipGap_append (legible.breaks level), quote, skipGap_cons (c := '"') rfl,
        readString_flatMap, skipGap_cons (c := ':') rfl, readValue_append blanks, value,
        skipGap_append_cons blank (c := '\x7d') rfl]
  | m :: n :: ms =>
      have more := length_lt_membersText l level gap rest (n :: ms)
      rw [membersText_cons, colon] at enough ⊢
      simp only [List.length_append, List.length_cons] at enough
      obtain ⟨fuel, rfl⟩ : ∃ f, fuel = f + 1 := Nat.exists_eq_add_of_le' (by omega)
      have comma : EndsNumber (',' :: membersText l level gap (n :: ms) rest) := .cons (by decide) _
      have value := readValue_render legible (counts m List.mem_cons_self) level fuel (by omega)
        comma
      have others := readMembers_membersText legible blank (List.cons_ne_nil n ms)
        (fun i member => counts i (List.mem_cons_of_mem _ member)) level fuel rest (by omega)
        (m :: members)
      simp [readMembers, skipGap_append (legible.breaks level), quote, skipGap_cons (c := '"') rfl,
        readString_flatMap, skipGap_cons (c := ':') rfl, readValue_append blanks, value,
        skipGap_cons (c := ',') rfl, others]

end

/-- Every value whose numbers are counts is read back from what is written of it. -/
theorem ofText?_render {l : Layout} (legible : l.IsLegible) {j : Json} (counts : OnlyCounts j)
    (level : Nat) : ofText? (render l level j) = some j := by
  have nothing : EndsNumber [] := by simp [EndsNumber]
  have value := readValue_render legible counts level _ (Nat.le_succ _) nothing
  rw [List.append_nil] at value
  rw [ofText?, value]
  rfl

theorem ofText?_compact {j : Json} (counts : OnlyCounts j) :
    ofText? j.compact.toList = some j := by
  rw [compact, String.toList_ofList]
  exact ofText?_render Layout.isLegible_flat counts 0

theorem ofText?_pretty {j : Json} (counts : OnlyCounts j) : ofText? j.pretty.toList = some j := by
  rw [pretty, String.toList_ofList]
  exact ofText?_render Layout.isLegible_spread counts 0

end DiffScope.Json
