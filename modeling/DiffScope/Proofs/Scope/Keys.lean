import DiffScope.Proofs.Scope.Options
import DiffScope.Proofs.Text.Trim

/-! # What string keys are called

A unit under a string key, and one below an option with a string key, is called by the value of the
key less the quotes at the ends of the value. That is the value itself just when there are none.
-/

namespace DiffScope.Scope

open DiffScope.Syntax DiffScope.Text

/-! ## Quotes at the ends of a text -/

/-- A text that neither begins nor ends with a quote. -/
structure IsBare (text : List Char) : Prop where
  starts : ∀ c ∈ text.head?, isQuote c = false
  stops : ∀ c ∈ text.getLast?, isQuote c = false

section Ends

variable {core lead trail body : List Char} {quote : Char}

theorem IsBare.trimQuotes_append (bare : IsBare core) (before : ∀ c ∈ lead, isQuote c = true)
    (behind : ∀ c ∈ trail, isQuote c = true) : trimQuotes (lead ++ core ++ trail) = core :=
  rdropWhile_dropWhile_append before behind bare.starts bare.stops

/-- Of a text between quotes the quotes at the ends of the text go with those around it. -/
theorem exists_bare_between (delimits : isQuote quote = true) (body : List Char) :
    ∃ lead core trail, body = lead ++ core ++ trail ∧ (∀ c ∈ lead, isQuote c = true) ∧
      (∀ c ∈ trail, isQuote c = true) ∧ IsBare core ∧
      trimQuotes (quote :: (body ++ [quote])) = core := by
  obtain ⟨lead, trail, whole, before, behind⟩ := exists_ends_around isQuote body
  have bare : IsBare (trimQuotes body) :=
    ⟨(ends_rdropWhile_dropWhile isQuote body).1, (ends_rdropWhile_dropWhile isQuote body).2⟩
  change body = lead ++ trimQuotes body ++ trail at whole
  generalize trimQuotes body = core at whole bare
  refine ⟨lead, core, trail, whole, before, behind, bare, ?_⟩
  have before' : ∀ c ∈ quote :: lead, isQuote c = true :=
    List.forall_mem_cons.mpr ⟨delimits, before⟩
  have behind' : ∀ c ∈ trail ++ [quote], isQuote c = true :=
    List.forall_mem_append.mpr ⟨behind, by simpa using delimits⟩
  have trimmed := bare.trimQuotes_append before' behind'
  simpa [whole] using trimmed

theorem IsBare.trimQuotes_between (bare : IsBare body) (delimits : isQuote quote = true) :
    trimQuotes (quote :: (body ++ [quote])) = body := by
  have single : ∀ c ∈ [quote], isQuote c = true := by simpa using delimits
  exact bare.trimQuotes_append single single

end Ends

/-! ## Nodes that name units -/

/-- The node that a unit is called by: its own name, or the key, field or target that it is assigned
to. -/
inductive IsNamedBy (f : Focus) : Tree → Prop
  | own {name : Tree} (found : f.tree.child? "name" = some name) : IsNamedBy f name
  | assigned {parent name : Tree} {value label : String} (unnamed : f.tree.child? "name" = none)
      (above : f.parent? = some parent) (holds : (parent.kind, value, label) ∈ namedValues)
      (inside : f.isIn value = true) (found : parent.child? label = some name) : IsNamedBy f name

theorem find?_namedValues_iff {kind : String} {v : String × String × String} :
    (namedValues.find? fun v => v.1 = kind) = some v ↔ v ∈ namedValues ∧ v.1 = kind := by
  constructor
  · intro found
    exact ⟨List.mem_of_find?_eq_some found, by simpa using List.find?_some found⟩
  · rintro ⟨member, rfl⟩
    revert v
    decide

theorem nameNode?_eq_some_iff {f : Focus} {name : Tree} :
    nameNode? f = some name ↔ IsNamedBy f name := by
  unfold nameNode?
  constructor
  · intro h
    split at h
    next own found =>
      obtain rfl := Option.some.inj h
      exact .own found
    next unnamed =>
      obtain ⟨parent, above, h⟩ := Option.bind_eq_some_iff.mp h
      obtain ⟨⟨kind, value, label⟩, known, h⟩ := Option.bind_eq_some_iff.mp h
      obtain ⟨member, rfl⟩ := find?_namedValues_iff.mp known
      dsimp only at h
      split at h
      next inside => exact .assigned unnamed above member inside h
      next => cases h
  · intro h
    cases h with
    | own found => simp [found]
    | @assigned parent _ value label unnamed above holds inside found =>
        have known := find?_namedValues_iff.mpr ⟨holds, rfl⟩
        simp [unnamed, above, known, inside, found]

theorem nameOf_eq {s : Source} {f : Focus} {name : Tree} (named : IsNamedBy f name) :
    nameOf s f = keyText s name := by
  rw [nameOf, nameNode?_eq_some_iff.mpr named]

theorem optionOf_eq {s : Source} {f : Focus} {between beyond : List Tree} {object key : Tree}
    {name : String} (nearest : Nearest f.above between object beyond) (near : between.length + 1 ≤ 8)
    (named : IsKeyOf (lastOnWay f.tree between) key) (text : keyText s key = .ok name) :
    optionOf s f = .ok (some name) :=
  optionOf_eq_ok_some_iff.mpr ⟨between, object, beyond, nearest, near, key, named, text⟩

/-! ## String keys -/

/-- A key that is a string, spelt as its value between two quotes. -/
structure IsStringKey (s : Source) (key : Tree) (quote : Char) (body : List Char) : Prop where
  kind : key.kind = "string"
  delimits : isQuote quote = true
  spelt : s.get? key.start key.stop = some (quote :: (body ++ [quote]))
  plain : ∀ c ∈ body, c ≠ quote ∧ c ≠ '\\' ∧ c ≠ '\n' ∧ c ≠ '\r'

theorem IsStringKey.keyText_eq {s : Source} {key : Tree} {quote : Char} {body : List Char}
    (string : IsStringKey s key quote body) :
    keyText s key = .ok (String.ofList (trimQuotes (quote :: (body ++ [quote])))) :=
  keyText_eq_ok_iff.mpr ⟨_, string.spelt, by rw [if_pos string.kind]⟩

/-- A unit with a string for its name or key, and one below an option with a string for its key, is
called by the value of the string without the quotes at the ends of the value. That is the value just
when it neither begins nor ends with a quote. -/
theorem string_keys_yield_bare_values (s : Source) {key : Tree} {quote : Char} {body : List Char}
    (string : IsStringKey s key quote body) :
    ∃ lead core trail, body = lead ++ core ++ trail ∧ (∀ c ∈ lead, isQuote c = true) ∧
      (∀ c ∈ trail, isQuote c = true) ∧ IsBare core ∧
      (∀ f, IsNamedBy f key → nameOf s f = .ok (String.ofList core) ∧
        (nameOf s f = .ok (String.ofList body) ↔ IsBare body)) ∧
      ∀ f between object beyond, Nearest f.above between object beyond →
        between.length + 1 ≤ 8 → IsKeyOf (lastOnWay f.tree between) key →
          optionOf s f = .ok (some (String.ofList core)) ∧
            (optionOf s f = .ok (some (String.ofList body)) ↔ IsBare body) := by
  obtain ⟨lead, core, trail, whole, before, behind, bare, trimmed⟩ :=
    exists_bare_between string.delimits body
  have text : keyText s key = .ok (String.ofList core) := by
    rw [string.keyText_eq, trimmed]
  have value : String.ofList core = String.ofList body ↔ IsBare body := by
    rw [String.ofList_inj]
    constructor
    · rintro rfl
      exact bare
    · intro bareBody
      exact trimmed.symm.trans (bareBody.trimQuotes_between string.delimits)
  refine ⟨lead, core, trail, whole, before, behind, bare, ?name, ?option⟩
  case name =>
    intro f named
    rw [nameOf_eq named, text]
    refine ⟨rfl, ?_⟩
    rw [Except.ok.injEq]
    exact value
  case option =>
    intro f between object beyond nearest near named
    rw [optionOf_eq nearest near named text]
    refine ⟨rfl, ?_⟩
    rw [Except.ok.injEq, Option.some_inj]
    exact value

/-- A component whose only option is a function under a string key of five characters. -/
def keyTree : Syntax.Tree :=
  let node kind fields start stop := Syntax.Tree.node ⟨kind, true, false, false, fields, start, stop⟩
  let mark text start stop := Syntax.Tree.node ⟨text, false, false, false, [], start, stop⟩ []
  node "program" [] 0 35 [
    node "export_statement" [] 0 34 [
      mark "export" 0 6,
      mark "default" 7 14,
      node "object" ["value"] 15 33 [
        mark "\x7b" 15 16,
        node "pair" [] 17 31 [
          node "string" ["key"] 17 22 [
            mark "\"" 17 18,
            node "string_fragment" [] 18 21 [],
            mark "\"" 21 22],
          mark ":" 22 23,
          node "arrow_function" ["value"] 24 31 [
            node "formal_parameters" ["parameters"] 24 26 [mark "(" 24 25, mark ")" 25 26],
            mark "=>" 27 29,
            node "number" ["body"] 30 31 []]],
        mark "\x7d" 32 33],
      mark ";" 33 34]]

theorem exists_arrow_in_keyTree : ∃ f ∈ keyTree.nodes, ∃ key between object beyond,
    IsNamedBy f key ∧ Nearest f.above between object beyond ∧ between.length + 1 ≤ 8 ∧
      IsKeyOf (lastOnWay f.tree between) key ∧ key.kind = "string" ∧ key.start = 17 ∧
      key.stop = 22 := by
  have inside : keyTree.nodes[12]? = some keyTree.nodes[12] := rfl
  have object : isOptions keyTree.nodes[4].tree keyTree.nodes[4].above = true := rfl
  have pair : keyTree.nodes[6].tree.kind ≠ "object" := by decide
  refine ⟨_, List.mem_of_getElem? inside, keyTree.nodes[7].tree, [keyTree.nodes[6].tree],
    keyTree.nodes[4].tree, keyTree.nodes[4].above, nameNode?_eq_some_iff.mp rfl, ?_, by decide,
    .pair rfl rfl, rfl, rfl, rfl⟩
  refine (Nearest.cons_iff_of_other ?_).mpr ⟨[], rfl, ?_⟩
  · exact fun options => pair options.kind
  · exact (Nearest.cons_iff_of_options (isOptions_iff.mp object)).mpr ⟨rfl, rfl, rfl⟩

/-- The component where the value of the key has a quote inside. -/
def innerQuoteText : Source := .ofText "export default \x7b \"a'b\": () => 1 \x7d;\n".toList

theorem name_of_innerQuote : ∃ f ∈ keyTree.nodes, ∃ key,
    IsStringKey innerQuoteText key '"' "a'b".toList ∧ IsBare "a'b".toList ∧
    IsNamedBy f key ∧ nameOf innerQuoteText f = .ok "a'b" ∧
    optionOf innerQuoteText f = .ok (some "a'b") := by
  obtain ⟨f, member, key, between, object, beyond, named, nearest, near, below, kind, start, stop⟩ :=
    exists_arrow_in_keyTree
  have spelt : innerQuoteText.get? key.start key.stop = some ('"' :: ("a'b".toList ++ ['"'])) := by
    rw [start, stop]
    decide
  have string : IsStringKey innerQuoteText key '"' "a'b".toList :=
    ⟨kind, by decide, spelt, by simp⟩
  have bare : IsBare "a'b".toList := ⟨by rintro c ⟨⟩; decide, by rintro c ⟨⟩; decide⟩
  obtain ⟨_, _, _, -, -, -, -, name, option⟩ := string_keys_yield_bare_values innerQuoteText string
  exact ⟨f, member, key, string, bare, named, (name f named).2.mpr bare,
    (option f between object beyond nearest near below).2.mpr bare⟩

/-- The component where the value of the key begins and ends with a quote. -/
def outerQuotesText : Source := .ofText "export default \x7b \"'a'\": () => 1 \x7d;\n".toList

/-- The quotes of the value are lost from the name and from the option. -/
theorem quotes_of_a_value_are_lost : ∃ f ∈ keyTree.nodes, ∃ key between object beyond,
    IsStringKey outerQuotesText key '"' "'a'".toList ∧ IsNamedBy f key ∧
    Nearest f.above between object beyond ∧ between.length + 1 ≤ 8 ∧
    IsKeyOf (lastOnWay f.tree between) key ∧
    nameOf outerQuotesText f ≠ .ok "'a'" ∧ optionOf outerQuotesText f ≠ .ok (some "'a'") := by
  obtain ⟨f, member, key, between, object, beyond, named, nearest, near, below, kind, start, stop⟩ :=
    exists_arrow_in_keyTree
  have spelt : outerQuotesText.get? key.start key.stop = some ('"' :: ("'a'".toList ++ ['"'])) := by
    rw [start, stop]
    decide
  have string : IsStringKey outerQuotesText key '"' "'a'".toList :=
    ⟨kind, by decide, spelt, by simp⟩
  have text : keyText outerQuotesText key = .ok "a" := by
    rw [string.keyText_eq]
    rfl
  refine ⟨f, member, key, between, object, beyond, string, named, nearest, near, below, ?_, ?_⟩
  · rw [nameOf_eq named, text]
    simp
  · rw [optionOf_eq nearest near below text]
    simp

end DiffScope.Scope
