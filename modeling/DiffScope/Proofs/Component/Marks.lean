import DiffScope.Proofs.Component.Contents

/-! # What marks look like

The marks in the text of a component told by what they look like: a comment by the first end behind its
beginning, a tag by the first end that is in no quotes. A mark is read at a place exactly if one stands
there, and what is left is the text behind it.
-/

namespace DiffScope.Component

open DiffScope.Text

/-! ## Comments -/

theorem exists_body_of_afterFirst? {text rest : List Char}
    (found : afterFirst? "-->".toList text = some rest) :
    ∃ body, ¬"-->".toList <:+: body ∧ text = body ++ ("-->".toList ++ rest) := by
  induction text with
  | nil => cases found
  | cons c cs ih =>
      rw [afterFirst?] at found
      split at found
      next here =>
        obtain rfl := Option.some.inj found
        refine ⟨[], by decide, ?_⟩
        rw [List.nil_append]
        exact after?_eq_some_iff.mp here
      next none =>
        obtain ⟨body, unended, rfl⟩ := ih found
        refine ⟨c :: body, fun inside => ?_, rfl⟩
        rcases List.infix_cons_iff.mp inside with first | later
        · rw [after?_eq_none_iff] at none
          exact none (first.trans (List.prefix_append (c :: body) _))
        · exact unended later

theorem afterComment?_eq_some_iff {text rest : List Char} :
    afterComment? text = some rest ↔ ∃ c : WrittenComment, text = c.text ++ rest := by
  constructor
  · intro found
    obtain ⟨inner, opened, closed⟩ := Option.bind_eq_some_iff.mp found
    obtain rfl := after?_eq_some_iff.mp opened
    obtain ⟨body, unended, rfl⟩ := exists_body_of_afterFirst? closed
    exact ⟨⟨body, unended⟩, by simp only [WrittenComment.text, List.append_assoc]⟩
  · rintro ⟨c, rfl⟩
    exact afterComment?_text c rest

/-! ## Ends of tags -/

/-- A text between a tag's name and its end: values in quotes, which may hold an end, and other
characters, which are none. -/
inductive InTag : List Char → Prop
  | nil : InTag []
  | char {c : Char} {cs : List Char} (plain : c ∉ ['>', '"', '\x27']) (behind : InTag cs) :
      InTag (c :: cs)
  | quoted {quote : Char} {value cs : List Char} (quotes : quote = '"' ∨ quote = '\x27')
      (quotable : quote ∉ value) (behind : InTag cs) : InTag (quote :: (value ++ quote :: cs))

/-- A tag ends behind the text, and closes itself if there is a slash at the end of the text. -/
structure Inside (text inner : List Char) (closesItself : Bool) (rest : List Char) : Prop where
  text : text = inner ++ '>' :: rest
  inTag : InTag inner
  closesItself : closesItself = true ↔ inner.getLast? = some '/'

/-- A tag ends behind its name. There is nothing between, or a slash, or text behind a blank. -/
def EndsTag (text : List Char) (closesItself : Bool) (rest : List Char) : Prop :=
  ∃ inner, Inside text inner closesItself rest ∧
    (inner = [] ∨ inner = ['/'] ∨ ∃ c ∈ inner.head?, isBlank c = true)

theorem InTag.head?_ne {text : List Char} (h : InTag text) : text.head? ≠ some '>' := by
  cases h with
  | nil => exact nofun
  | char plain =>
      intro same
      obtain rfl := Option.some.inj same
      simp at plain
  | quoted quotes =>
      intro same
      obtain rfl := Option.some.inj same
      simp at quotes

section Slash

variable {c quote : Char} {cs value : List Char}

theorem getLast?_cons_eq_slash_iff (other : ¬(c = '/' ∧ cs = [])) :
    (c :: cs).getLast? = some '/' ↔ cs.getLast? = some '/' := by
  cases cs with
  | nil =>
      have other : c ≠ '/' := fun slash => other ⟨slash, rfl⟩
      simp [other]
  | cons d ds => rw [List.getLast?_cons_cons]

theorem getLast?_quoted_eq_slash_iff (quotes : quote = '"' ∨ quote = '\x27') :
    (quote :: (value ++ quote :: cs)).getLast? = some '/' ↔ cs.getLast? = some '/' := by
  have other : ¬(quote = '/' ∧ cs = []) := by
    rintro ⟨rfl, -⟩
    simp at quotes
  rw [← List.cons_append, List.getLast?_append_cons, getLast?_cons_eq_slash_iff other]

end Slash

/-- The end of a tag is the first that is in no quotes. -/
theorem findTagEnd?_of_inTag {inner : List Char} (inTag : InTag inner) (rest : List Char) :
    ∃ e, findTagEnd? (inner ++ '>' :: rest) = some e ∧ e.rest = rest ∧
      (e.closesItself = true ↔ inner.getLast? = some '/') := by
  induction inTag with
  | nil => exact ⟨_, findTagEnd?_tagEndText false rest, rfl, by simp⟩
  | @char c cs plain behind ih =>
      simp only [List.mem_cons, List.not_mem_nil, or_false, not_or] at plain
      obtain ⟨bracket, double, single⟩ := plain
      by_cases last : c = '/' ∧ cs = []
      · obtain ⟨rfl, rfl⟩ := last
        exact ⟨_, findTagEnd?_tagEndText true rest, rfl, by simp⟩
      · have next : c = '/' → (cs ++ '>' :: rest).head? ≠ some '>' := by
          intro slash
          obtain ⟨d, ds, rfl⟩ := List.exists_cons_of_ne_nil fun empty => last ⟨slash, empty⟩
          exact behind.head?_ne
        have passes := findTagEnd?_unquoted (tagEndAt?_of_ne bracket next) (by simp [double, single])
        rw [List.cons_append, passes]
        obtain ⟨e, found, left, slash⟩ := ih
        exact ⟨e, found, left, slash.trans (getLast?_cons_eq_slash_iff last).symm⟩
  | @quoted quote value cs quotes quotable behind ih =>
      rw [List.cons_append, List.append_assoc, List.cons_append, findTagEnd?_quoted quotes quotable]
      obtain ⟨e, found, left, slash⟩ := ih
      exact ⟨e, found, left, slash.trans (getLast?_quoted_eq_slash_iff quotes).symm⟩

theorem inside_of_tagEndAt? {text : List Char} {e : TagEnd} (here : tagEndAt? text = some e) :
    Inside text (if e.closesItself then ['/'] else []) e.closesItself e.rest := by
  unfold tagEndAt? at here
  split at here
  next rest =>
    obtain rfl := Option.some.inj here
    exact ⟨rfl, .char (by decide) .nil, by simp⟩
  next rest =>
    obtain rfl := Option.some.inj here
    exact ⟨rfl, .nil, by simp⟩
  next => cases here

theorem exists_value_of_afterQuote? {quote : Char} {text rest : List Char}
    (found : afterQuote? quote text = some rest) :
    ∃ value, quote ∉ value ∧ text = value ++ quote :: rest := by
  induction text with
  | nil => cases found
  | cons c cs ih =>
      rw [afterQuote?] at found
      split at found
      next same =>
        obtain rfl := Option.some.inj found
        exact ⟨[], List.not_mem_nil, by rw [same]; rfl⟩
      next other =>
        obtain ⟨value, quotable, rfl⟩ := ih found
        exact ⟨c :: value, by simp [quotable, Ne.symm other], rfl⟩

theorem exists_inside_of_findTagEnd? {text : List Char} {e : TagEnd}
    (found : findTagEnd? text = some e) : ∃ inner, Inside text inner e.closesItself e.rest := by
  fun_induction findTagEnd? text with
  | case1 => cases found
  | case2 c cs e' here =>
      obtain rfl := Option.some.inj found
      exact ⟨_, inside_of_tagEndAt? here⟩
  | case3 c cs none quotes rest quoted ih =>
      obtain ⟨inner, text, inTag, slash⟩ := ih found
      obtain ⟨value, quotable, rfl⟩ := exists_value_of_afterQuote? quoted
      refine ⟨_, ?_, .quoted quotes quotable inTag,
        slash.trans (getLast?_quoted_eq_slash_iff quotes).symm⟩
      simp [text]
  | case4 => cases found
  | case5 c cs none unquoted ih =>
      obtain ⟨inner, text, inTag, slash⟩ := ih found
      have other : ¬(c = '/' ∧ inner = []) := by
        rintro ⟨rfl, rfl⟩
        rw [text] at none
        cases none
      have plain : c ∉ ['>', '"', '\x27'] := by
        intro member
        rcases List.mem_cons.mp member with rfl | quotes
        · cases none
        · exact unquoted (by simpa using quotes)
      refine ⟨c :: inner, ?_, .char plain inTag,
        slash.trans (getLast?_cons_eq_slash_iff other).symm⟩
      rw [text, List.cons_append]

/-- A tag ends where its end is read. -/
theorem exists_tagEnd?_iff {text rest : List Char} {closesItself : Bool} :
    (∃ e, tagEnd? text = some e ∧ e.closesItself = closesItself ∧ e.rest = rest) ↔
      EndsTag text closesItself rest := by
  constructor
  · rintro ⟨e, found, rfl, rfl⟩
    cases text with
    | nil => cases found
    | cons c cs =>
        rw [tagEnd?] at found
        split at found
        next blank =>
          rw [← findTagEnd?_cons (isPlain_of_isBlank blank)] at found
          obtain ⟨inner, inside⟩ := exists_inside_of_findTagEnd? found
          refine ⟨inner, inside, .inr (.inr ⟨c, ?_, blank⟩)⟩
          cases inner with
          | nil =>
              obtain ⟨rfl, -⟩ := List.cons.inj inside.text
              cases blank
          | cons d ds =>
              obtain ⟨rfl, -⟩ := List.cons.inj inside.text
              rfl
        next =>
          refine ⟨_, inside_of_tagEndAt? found, ?_⟩
          cases e.closesItself with
          | false => exact .inl rfl
          | true => exact .inr (.inl rfl)
  · rintro ⟨inner, ⟨rfl, inTag, slash⟩, rfl | rfl | ⟨c, first, blank⟩⟩
    · have itself : closesItself = false := by simpa using slash
      exact ⟨_, rfl, itself.symm, rfl⟩
    · have itself : closesItself = true := by simpa using slash
      exact ⟨_, rfl, itself.symm, rfl⟩
    · obtain ⟨cs, rfl⟩ := List.head?_eq_some_iff.mp first
      obtain ⟨e, found, left, slash'⟩ := findTagEnd?_of_inTag inTag rest
      refine ⟨e, ?_, Bool.eq_iff_iff.mpr (slash'.trans slash.symm), left⟩
      rw [List.cons_append] at found ⊢
      rw [tagEnd?_of_isBlank blank, found]

/-! ## Tags that close a block -/

theorem afterClosing?_eq_some_iff {name text rest : List Char} :
    afterClosing? name text = some rest ↔ IsClosingTag name text rest := by
  refine ⟨isClosingTag_of_afterClosing?, ?_⟩
  rintro ⟨spelt, blanks, rfl, blank, rfl⟩
  have trimmed : trimStart (blanks ++ '>' :: rest) = '>' :: rest := by
    refine (span_append blank fun c first => ?_).2
    obtain rfl := Option.some.inj first
    decide
  rw [afterClosing?_append, trimmed]
  rfl

/-! ## Marks in templates -/

/-- A mark of a template stands at the beginning of the text. -/
inductive IsTemplateMark : TemplateMark → List Char → List Char → Prop
  | comment (c : WrittenComment) (rest : List Char) : IsTemplateMark .neutral (c.text ++ rest) rest
  | opening {name text rest : List Char} (template : lower name = "template".toList)
      (ends : EndsTag text false rest) : IsTemplateMark .opening ('<' :: (name ++ text)) rest
  | closed {name text rest : List Char} (template : lower name = "template".toList)
      (ends : EndsTag text true rest) : IsTemplateMark .neutral ('<' :: (name ++ text)) rest
  /-- A slash before the end of a closing tag means nothing. -/
  | closing {name text rest : List Char} {closesItself : Bool}
      (template : lower name = "template".toList) (ends : EndsTag text closesItself rest) :
      IsTemplateMark .closing ('<' :: '/' :: (name ++ text)) rest

theorem isTemplateMark_of_templateMarkAt? {mark : TemplateMark} {text rest : List Char}
    (found : templateMarkAt? text = some (mark, rest)) : IsTemplateMark mark text rest := by
  unfold templateMarkAt? at found
  split at found
  next behind comment =>
    obtain ⟨rfl, rfl⟩ := Prod.mk.inj (Option.some.inj found)
    obtain ⟨c, rfl⟩ := afterComment?_eq_some_iff.mp comment
    exact .comment c _
  next =>
    split at found
    next behind closing =>
      obtain ⟨e, ends, same⟩ := Option.map_eq_some_iff.mp found
      obtain ⟨rfl, rfl⟩ := Prod.mk.inj same
      obtain ⟨opening, lowered, rfl⟩ := afterLower?_eq_some_iff.mp closing
      obtain ⟨name, template, rfl⟩ :=
        exists_spelt_of_lower_eq ['<', '/'] (by simp) lowered
      exact .closing template (exists_tagEnd?_iff.mp ⟨e, ends, rfl, rfl⟩)
    next =>
      split at found
      next behind opening =>
        obtain ⟨e, ends, same⟩ := Option.map_eq_some_iff.mp found
        obtain ⟨rfl, rfl⟩ := Prod.mk.inj same
        obtain ⟨opening, lowered, rfl⟩ := afterLower?_eq_some_iff.mp opening
        obtain ⟨name, template, rfl⟩ :=
          exists_spelt_of_lower_eq ['<'] (by simp) lowered
        cases itself : e.closesItself with
        | false => exact .opening template (exists_tagEnd?_iff.mp ⟨e, ends, itself, rfl⟩)
        | true => exact .closed template (exists_tagEnd?_iff.mp ⟨e, ends, itself, rfl⟩)
      next => cases found

/-- A mark of a template is read exactly where one stands. -/
theorem templateMarkAt?_eq_some_iff {mark : TemplateMark} {text rest : List Char} :
    templateMarkAt? text = some (mark, rest) ↔ IsTemplateMark mark text rest := by
  refine ⟨isTemplateMark_of_templateMarkAt?, fun stands => ?_⟩
  cases stands with
  | comment c => exact templateMarkAt?_comment c rest
  | opening template ends =>
      obtain ⟨e, found, itself, rfl⟩ := exists_tagEnd?_iff.mpr ends
      rw [templateMarkAt?_opening template, found, Option.map_some, itself]
      rfl
  | closed template ends =>
      obtain ⟨e, found, itself, rfl⟩ := exists_tagEnd?_iff.mpr ends
      rw [templateMarkAt?_opening template, found, Option.map_some, itself]
      rfl
  | closing template ends =>
      obtain ⟨e, found, -, rfl⟩ := exists_tagEnd?_iff.mpr ends
      rw [templateMarkAt?_closing template, found]
      rfl

end DiffScope.Component
