import Mathlib.Data.List.TakeWhile
import DiffScope.Proofs.Component.Tags
import DiffScope.Proofs.Text.Lower

/-! # Contents are read to their ends

The tag that closes a block is found behind the block's content: nothing in the content closes the
block, and in a template every template that is opened is closed before.
-/

namespace DiffScope.Component

open DiffScope.Text

/-! ## Marks across the end of a text -/

/-- A mark with one bracket does not reach out of a text over another bracket. -/
theorem prefix_of_prefix_append {inside text rest : List Char} (single : '<' ∉ inside)
    (filled : text ≠ []) (opens : rest.head? = some '<')
    (h : '<' :: inside <+: text ++ rest) : '<' :: inside <+: text := by
  rcases List.prefix_or_prefix_of_prefix h (List.prefix_append text rest) with within | ⟨beyond, whole⟩
  · exact within
  · cases beyond with
    | nil =>
        rw [List.append_nil] at whole
        exact whole ▸ List.prefix_rfl
    | cons d ds =>
        exfalso
        rw [← whole, List.prefix_append_right_inj] at h
        obtain ⟨tail, rfl⟩ := h
        obtain rfl := Option.some.inj opens
        cases text with
        | nil => exact filled rfl
        | cons c cs =>
            obtain ⟨-, rfl⟩ := List.cons.inj whole
            exact single (List.mem_append_right _ List.mem_cons_self)

theorem bracketless_lower {name : List Char} (tagChars : ∀ c ∈ name, isTagChar c = true) :
    '<' ∉ lower name := by
  intro member
  obtain ⟨c, among, lowered⟩ := List.mem_map.mp member
  obtain rfl := eq_of_toLower_eq lowered (by decide)
  cases tagChars '<' among

/-! ## Blocks other than templates -/

/-- Behind the name of a closing tag may be blanks, and then there is its bracket. -/
theorem afterClosing?_append (spelt text : List Char) :
    afterClosing? (lower spelt) ('<' :: '/' :: (spelt ++ text)) = after? ['>'] (trimStart text) := by
  have named : '<' :: '/' :: lower spelt = lower ('<' :: '/' :: spelt) := rfl
  have opens : '<' :: '/' :: (spelt ++ text) = '<' :: '/' :: spelt ++ text := rfl
  rw [afterClosing?, named, opens, afterLower?_append]
  rfl

theorem afterClosing?_closingTag (name rest : List Char) :
    afterClosing? (lower name) (closingTag name ++ rest) = some rest := by
  have closes : closingTag name ++ rest = '<' :: '/' :: (name ++ '>' :: rest) := by
    simp [closingTag]
  rw [closes, afterClosing?_append]
  rfl

/-- A tag of a name stands at the beginning of the text, with nothing but blanks between the name and
the bracket. Capitals and small letters are the same in the name. -/
def IsClosingTag (name text rest : List Char) : Prop :=
  ∃ spelt blanks, lower spelt = name ∧ (∀ c ∈ blanks, isBlank c = true) ∧
    text = '<' :: '/' :: (spelt ++ (blanks ++ '>' :: rest))

/-- A name with letters of any size, behind brackets and slashes, which have none. -/
theorem exists_spelt_of_lower_eq (marks : List Char) {name opening : List Char}
    (sizeless : ∀ c ∈ marks, c.toNat < 97) (h : lower opening = marks ++ name) :
    ∃ spelt, lower spelt = name ∧ opening = marks ++ spelt := by
  induction marks generalizing opening with
  | nil => exact ⟨opening, h, rfl⟩
  | cons m ms ih =>
      obtain ⟨small, others⟩ := List.forall_mem_cons.mp sizeless
      obtain ⟨c, cs, rfl, first, behind⟩ := List.map_eq_cons_iff.mp h
      obtain ⟨spelt, named, rfl⟩ := ih others behind
      exact ⟨spelt, named, by rw [eq_of_toLower_eq first small]; rfl⟩

theorem isClosingTag_of_afterClosing? {name text rest : List Char}
    (found : afterClosing? name text = some rest) : IsClosingTag name text rest := by
  obtain ⟨behind, opens, closed⟩ := Option.bind_eq_some_iff.mp found
  obtain ⟨opening, lowered, rfl⟩ := afterLower?_eq_some_iff.mp opens
  obtain ⟨spelt, named, rfl⟩ := exists_spelt_of_lower_eq ['<', '/'] (by simp) lowered
  refine ⟨spelt, behind.takeWhile isBlank, named, fun c => List.mem_takeWhile_imp, ?_⟩
  have parts := List.takeWhile_append_dropWhile (p := isBlank) (l := behind)
  rw [← trimStart, after?_eq_some_iff.mp closed] at parts
  conv_lhs => rw [← parts]
  rfl

section Closing

variable {name : List Char}

theorem afterClosing?_eq_none {content rest : List Char} (bracketless : '<' ∉ name)
    (filled : content ≠ []) (open_ : ¬HasClosing name content) (opens : rest.head? = some '<') :
    afterClosing? name (content ++ rest) = none := by
  rw [Option.eq_none_iff_forall_ne_some]
  intro behind found
  obtain ⟨spelt, blanks, named, blank, whole⟩ := isClosingTag_of_afterClosing? found
  have starts : '<' :: '/' :: (spelt ++ (blanks ++ ['>'])) <+: content ++ rest :=
    ⟨behind, by simp [whole]⟩
  have single : '<' ∉ '/' :: (spelt ++ (blanks ++ ['>'])) := by
    intro member
    simp only [List.mem_cons, List.mem_append, List.not_mem_nil, or_false] at member
    rcases member with slash | member | member | close
    · cases slash
    · exact bracketless (named ▸ List.mem_map.mpr ⟨'<', member, rfl⟩)
    · cases blank '<' member
    · cases close
  exact open_ ⟨spelt, blanks, named, blank,
    (prefix_of_prefix_append single filled opens starts).isInfix⟩

theorem HasClosing.mono {text inside : List Char} (h : HasClosing name inside)
    (within : inside <:+: text) : HasClosing name text := by
  obtain ⟨spelt, blanks, named, blank, tag⟩ := h
  exact ⟨spelt, blanks, named, blank, tag.trans within⟩

/-- The search leaves behind it what nothing closes. -/
theorem findClosing?_append_of_none {front rest : List Char}
    (none : ∀ here, here ≠ [] → here <:+ front → afterClosing? name (here ++ rest) = none) :
    findClosing? name (front ++ rest) = findClosing? name rest := by
  induction front with
  | nil => rfl
  | cons c cs ih =>
      have here := none (c :: cs) (List.cons_ne_nil c cs) List.suffix_rfl
      rw [List.cons_append] at here ⊢
      rw [findClosing?, here]
      exact ih fun later filled inside => none later filled (inside.trans (List.suffix_cons c cs))

/-- A block is not closed in a content that does not close it. -/
theorem findClosing?_append {content rest : List Char} (bracketless : '<' ∉ name)
    (open_ : ¬HasClosing name content) (opens : rest.head? = some '<') :
    findClosing? name (content ++ rest) = findClosing? name rest :=
  findClosing?_append_of_none fun _ filled inside =>
    afterClosing?_eq_none bracketless filled (fun closed => open_ (closed.mono inside.isInfix)) opens

theorem findClosing?_closingTag (name rest : List Char) :
    findClosing? (lower name) (closingTag name ++ rest) = some (closingTag name ++ rest, rest) := by
  have here := afterClosing?_closingTag name rest
  rw [closingTag, List.cons_append] at here ⊢
  rw [findClosing?, here]

end Closing

/-! ## Templates -/

section Templates

theorem Unmarked.of_cons {c : Char} {cs : List Char} (h : Unmarked (c :: cs)) : Unmarked cs where
  comment inside := h.comment (inside.trans (List.suffix_cons c cs).isInfix)
  opening inside := h.opening (inside.trans (List.suffix_cons _ (lower cs)).isInfix)
  closing inside := h.closing (inside.trans (List.suffix_cons _ (lower cs)).isInfix)

/-- In text of a template there is no mark, not even one that reaches out of the text. -/
theorem templateMarkAt?_eq_none {text rest : List Char} (filled : text ≠ [])
    (unmarked : Unmarked text) (opens : rest.head? = some '<') :
    templateMarkAt? (text ++ rest) = none := by
  have comment : afterComment? (text ++ rest) = none := by
    have none : after? "<!--".toList (text ++ rest) = none := by
      rw [after?_eq_none_iff]
      intro starts
      exact unmarked.comment (prefix_of_prefix_append (by decide) filled opens starts).isInfix
    rw [afterComment?, none]
    rfl
  have lowered : (lower rest).head? = some '<' := by
    rw [lower, List.head?_map, opens]
    rfl
  have filledLower : lower text ≠ [] := fun empty => filled (List.map_eq_nil_iff.mp empty)
  have tag : ∀ inside, '<' ∉ inside → ¬('<' :: inside <:+: lower text) →
      afterLower? ('<' :: inside) (text ++ rest) = none := by
    intro inside single free
    rw [Option.eq_none_iff_forall_ne_some]
    intro behind found
    have starts := prefix_lower_of_afterLower? found
    rw [lower, List.map_append, ← lower, ← lower] at starts
    exact free (prefix_of_prefix_append single filledLower lowered starts).isInfix
  have closing := tag "/template".toList (by decide) unmarked.closing
  have opening := tag "template".toList (by decide) unmarked.opening
  unfold templateMarkAt?
  rw [comment]
  dsimp only
  rw [show "</template".toList = '<' :: "/template".toList from rfl, closing]
  dsimp only
  rw [show "<template".toList = '<' :: "template".toList from rfl, opening]

theorem findTemplateClosing?_mark {depth : Nat} {text rest : List Char} {mark : TemplateMark} :
    templateMarkAt? text = some (mark, rest) →
    findTemplateClosing? depth text = match mark with
      | .neutral => findTemplateClosing? depth rest
      | .opening => findTemplateClosing? (depth + 1) rest
      | .closing => if depth ≤ 1 then some (text, rest)
          else findTemplateClosing? (depth - 1) rest := by
  intro h
  cases text with
  | nil => cases h
  | cons c cs =>
      rw [findTemplateClosing?]
      split
      next other => cases h.symm.trans other
      all_goals
        next same =>
          obtain ⟨rfl, rfl⟩ := Prod.mk.inj (Option.some.inj (h.symm.trans same))
          rfl

theorem findTemplateClosing?_unmarked {depth : Nat} {text rest : List Char}
    (unmarked : Unmarked text) (opens : rest.head? = some '<') :
    findTemplateClosing? depth (text ++ rest) = findTemplateClosing? depth rest := by
  induction text with
  | nil => rfl
  | cons c cs ih =>
      have none := templateMarkAt?_eq_none (List.cons_ne_nil c cs) unmarked opens
      rw [List.cons_append] at none ⊢
      rw [findTemplateClosing?]
      split
      next => exact ih unmarked.of_cons
      all_goals
        next other => cases none.symm.trans other

theorem templateMarkAt?_comment (c : WrittenComment) (rest : List Char) :
    templateMarkAt? (c.text ++ rest) = some (.neutral, rest) := by
  rw [templateMarkAt?, afterComment?_text]

/-- Behind a bracket and the name of a template stands neither a comment nor a closing tag. -/
theorem templateMarkAt?_opening {name text : List Char}
    (template : lower name = "template".toList) :
    templateMarkAt? ('<' :: (name ++ text)) =
      (tagEnd? text).map fun e => (if e.closesItself then .neutral else .opening, e.rest) := by
  obtain ⟨c, cs, rfl, first, -⟩ := List.map_eq_cons_iff.mp template
  have bang : '!' ≠ c := by
    rintro rfl
    cases first
  have slash : '/' ≠ c.toLower := by
    rw [first]
    decide
  have comment : afterComment? ('<' :: (c :: cs ++ text)) = none := by
    simp [afterComment?, after?, bang]
  have closing : afterLower? "</template".toList ('<' :: (c :: cs ++ text)) = none := by
    simp [afterLower?, slash]
  have opening : afterLower? "<template".toList ('<' :: (c :: cs ++ text)) = some text := by
    rw [show "<template".toList = lower ('<' :: (c :: cs)) from
      congrArg (List.cons '<') template.symm]
    exact afterLower?_append ('<' :: (c :: cs)) text
  unfold templateMarkAt?
  rw [comment]
  dsimp only
  rw [closing]
  dsimp only
  rw [opening]

theorem templateMarkAt?_closing {name text : List Char}
    (template : lower name = "template".toList) :
    templateMarkAt? ('<' :: '/' :: (name ++ text)) =
      (tagEnd? text).map fun e => (.closing, e.rest) := by
  have comment : afterComment? ('<' :: '/' :: (name ++ text)) = none := by
    simp [afterComment?, after?]
  have closing : afterLower? "</template".toList ('<' :: '/' :: (name ++ text)) = some text := by
    rw [show "</template".toList = lower ('<' :: '/' :: name) from
      congrArg (fun n => '<' :: '/' :: n) template.symm]
    exact afterLower?_append ('<' :: '/' :: name) text
  unfold templateMarkAt?
  rw [comment]
  dsimp only
  rw [closing]

theorem templateMarkAt?_tag {t : WrittenTag} (template : lower t.name = "template".toList)
    (closesItself : Bool) (rest : List Char) :
    templateMarkAt? (t.text ++ (tagEndText closesItself ++ rest)) =
      some (if closesItself then .neutral else .opening, rest) := by
  have parts : t.text ++ (tagEndText closesItself ++ rest) =
      '<' :: (t.name ++ (attributesText t.attributes ++ (tagEndText closesItself ++ rest))) := by
    simp [WrittenTag.text]
  rw [parts, templateMarkAt?_opening template, tagEnd?_attributesText, Option.map_some]

/-- A closing tag may have blanks behind its name. -/
theorem templateMarkAt?_closingTag {name gap : List Char}
    (template : lower name = "template".toList) (blank : ∀ c ∈ gap, isBlank c = true)
    (rest : List Char) :
    templateMarkAt? (closingTag (name ++ gap) ++ rest) = some (.closing, rest) := by
  have parts : closingTag (name ++ gap) ++ rest = '<' :: '/' :: (name ++ (gap ++ '>' :: rest)) := by
    simp [closingTag]
  rw [parts, templateMarkAt?_closing template, tagEnd?_blanks blank, Option.map_some]

/-- A template's content leaves as many templates open as there were. -/
theorem findTemplateClosing?_append {content : List Char} (template : TemplateText content)
    {depth : Nat} (open_ : 1 ≤ depth) {rest : List Char} (opens : rest.head? = some '<') :
    findTemplateClosing? depth (content ++ rest) = findTemplateClosing? depth rest := by
  -- The depth varies, as the inside of a nested template is read one template deeper.
  induction template generalizing depth rest with
  | plain unmarked => exact findTemplateClosing?_unmarked unmarked opens
  | comment unmarked c behind ih =>
      simp only [List.append_assoc]
      rw [findTemplateClosing?_unmarked unmarked rfl,
        findTemplateClosing?_mark (templateMarkAt?_comment c _)]
      exact ih open_ opens
  | closed unmarked t named behind ih =>
      simp only [List.append_assoc]
      rw [findTemplateClosing?_unmarked unmarked rfl,
        findTemplateClosing?_mark (templateMarkAt?_tag named true _)]
      exact ih open_ opens
  | nested unmarked t named inside closes blank behind within ih =>
      simp only [List.append_assoc]
      rw [findTemplateClosing?_unmarked unmarked rfl,
        findTemplateClosing?_mark (templateMarkAt?_tag named false _)]
      rw [if_neg Bool.false_ne_true]
      dsimp only
      rw [within (Nat.succ_pos depth) rfl,
        findTemplateClosing?_mark (templateMarkAt?_closingTag closes blank _)]
      dsimp only
      rw [if_neg (by omega)]
      exact ih open_ opens

end Templates

/-! ## Blocks -/

/-- A block ends behind its content. -/
theorem blockEnd?_text (b : WrittenBlock) (rest : List Char) :
    blockEnd? (b.tag.opening b.closesItself) (b.inner ++ (b.tail ++ rest)) =
      some (b.tail ++ rest, rest) := by
  unfold WrittenBlock.inner WrittenBlock.tail WrittenBlock.closesItself
  cases content : b.content with
  | none => rfl
  | some text =>
      have closable := b.closable text content
      change blockEnd? (b.tag.opening false) (text ++ (closingTag b.tag.name ++ rest)) =
        some (closingTag b.tag.name ++ rest, rest)
      have stays : ¬(b.tag.opening false).closesItself = true := Bool.false_ne_true
      have name : (b.tag.opening false).name = lower b.tag.name := rfl
      unfold IsContent at closable
      rw [blockEnd?, if_neg stays, name]
      by_cases template : lower b.tag.name = "template".toList
      · have closes := templateMarkAt?_closingTag template (List.forall_mem_nil _) rest
        rw [List.append_nil] at closes
        rw [if_pos template] at closable
        rw [if_pos template, findTemplateClosing?_append closable (Nat.le_refl 1) rfl,
          findTemplateClosing?_mark closes]
        rfl
      · rw [if_neg template] at closable
        rw [if_neg template, findClosing?_append (bracketless_lower b.tag.chars) closable rfl,
          findClosing?_closingTag]

end DiffScope.Component
