import DiffScope.Proofs.Component.Marks

/-! # Where a block closes

The content of a block goes on to the first tag of its name that closes. In a template the marks are
read one behind another, those that open a template and those that close one are counted, and the
content goes on to the mark at which no template is open any more. A block whose end is not found has
no such tag behind it.
-/

namespace DiffScope.Component

open DiffScope.Text

/-! ## Blocks other than templates -/

section Closing

variable {name text stop rest : List Char}

theorem not_hasClosing_nil : ¬HasClosing name [] := by
  rintro ⟨spelt, blanks, -, -, inside⟩
  cases List.infix_nil.mp inside

/-- What closes a block begins at the first character of a text or behind it. -/
theorem hasClosing_cons_iff {c : Char} {cs : List Char} :
    HasClosing name (c :: cs) ↔ (∃ rest, IsClosingTag name (c :: cs) rest) ∨ HasClosing name cs := by
  constructor
  · rintro ⟨spelt, blanks, named, blank, inside⟩
    rcases List.infix_cons_iff.mp inside with ⟨rest, here⟩ | later
    · exact .inl ⟨rest, spelt, blanks, named, blank, by simp [← here]⟩
    · exact .inr ⟨spelt, blanks, named, blank, later⟩
  · rintro (⟨rest, spelt, blanks, named, blank, here⟩ | later)
    · exact ⟨spelt, blanks, named, blank, [], rest, by simp [here]⟩
    · exact later.mono (List.suffix_cons c cs).isInfix

theorem IsClosingTag.append (h : IsClosingTag name text rest) (behind : List Char) :
    IsClosingTag name (text ++ behind) (rest ++ behind) := by
  obtain ⟨spelt, blanks, named, blank, rfl⟩ := h
  exact ⟨spelt, blanks, named, blank, by simp⟩

/-- The search stops at a closing tag, and none stands before. -/
theorem exists_content_of_findClosing? (found : findClosing? name text = some (stop, rest)) :
    ∃ content, text = content ++ stop ∧ IsClosingTag name stop rest ∧ ¬HasClosing name content := by
  induction text with
  | nil => cases found
  | cons c cs ih =>
      rw [findClosing?] at found
      split at found
      next behind here =>
        obtain ⟨rfl, rfl⟩ := Prod.mk.inj (Option.some.inj found)
        exact ⟨[], rfl, isClosingTag_of_afterClosing? here, not_hasClosing_nil⟩
      next none =>
        obtain ⟨content, rfl, closes, first⟩ := ih found
        refine ⟨c :: content, rfl, closes, fun closed => ?_⟩
        rcases hasClosing_cons_iff.mp closed with ⟨behind, here⟩ | later
        · cases none.symm.trans (afterClosing?_eq_some_iff.mpr (here.append stop))
        · exact first later

theorem not_hasClosing_of_findClosing? (failed : findClosing? name text = none) :
    ¬HasClosing name text := by
  induction text with
  | nil => exact not_hasClosing_nil
  | cons c cs ih =>
      rw [findClosing?] at failed
      split at failed
      next => cases failed
      next none =>
        intro closed
        rcases hasClosing_cons_iff.mp closed with ⟨rest, here⟩ | later
        · cases none.symm.trans (afterClosing?_eq_some_iff.mpr here)
        · exact ih failed later

end Closing

/-! ## Templates -/

/-- How many more templates are open behind a mark. -/
def TemplateMark.change : TemplateMark → Int
  | neutral => 0
  | opening => 1
  | closing => -1

/-- How many more templates are open behind marks. -/
def nesting : List TemplateMark → Int
  | [] => 0
  | mark :: marks => mark.change + nesting marks

/-- The marks of a template up to a place, each the first behind the one before. -/
inductive Passes : List Char → List TemplateMark → List Char → Prop
  | stop (text : List Char) : Passes text [] text
  | skip {c : Char} {cs rest : List Char} {marks : List TemplateMark}
      (unmarked : ∀ mark behind, ¬IsTemplateMark mark (c :: cs) behind)
      (later : Passes cs marks rest) : Passes (c :: cs) marks rest
  | mark {text behind rest : List Char} {mark : TemplateMark} {marks : List TemplateMark}
      (stands : IsTemplateMark mark text behind) (later : Passes behind marks rest) :
      Passes text (mark :: marks) rest

/-- Behind the marks stands one that closes, at which for the first time none of the templates is
open any more. -/
structure Settles (depth : Nat) (text : List Char) (marks : List TemplateMark)
    (stop rest : List Char) : Prop where
  passes : Passes text marks stop
  closes : IsTemplateMark .closing stop rest
  opened : ∀ earlier, earlier <+: marks → 0 < depth + nesting earlier
  settled : depth + nesting marks + TemplateMark.closing.change = 0

/-- Some of the templates are open wherever in the text. -/
def StaysOpen (depth : Nat) (text : List Char) : Prop :=
  ∀ marks rest, Passes text marks rest → 0 < depth + nesting marks

section Templates

variable {depth depth' : Nat} {text behind stop rest : List Char} {mark : TemplateMark}
  {marks : List TemplateMark}

theorem unmarked_of_templateMarkAt? (none : templateMarkAt? text = none) (mark : TemplateMark)
    (behind : List Char) : ¬IsTemplateMark mark text behind := by
  intro stands
  cases none.symm.trans (templateMarkAt?_eq_some_iff.mpr stands)

theorem Settles.cons (h : Settles depth' behind marks stop rest) (deep : 0 < depth)
    (change : (depth' : Int) = depth + mark.change) (stands : IsTemplateMark mark text behind) :
    Settles depth text (mark :: marks) stop rest where
  passes := .mark stands h.passes
  closes := h.closes
  opened earlier begins := by
    rcases List.prefix_cons_iff.mp begins with rfl | ⟨later, rfl, inner⟩
    · simpa [nesting] using deep
    · have := h.opened later inner
      rw [nesting]
      omega
  settled := by
    have := h.settled
    rw [nesting]
    omega

theorem exists_settles_of_findTemplateClosing? (deep : 0 < depth)
    (found : findTemplateClosing? depth text = some (stop, rest)) :
    ∃ marks, Settles depth text marks stop rest := by
  fun_induction findTemplateClosing? depth text with
  | case1 => cases found
  | case2 depth c cs none ih =>
      obtain ⟨marks, settles⟩ := ih deep found
      have passes := Passes.skip (unmarked_of_templateMarkAt? none) settles.passes
      exact ⟨marks, { settles with passes }⟩
  | case3 depth c cs behind here ih =>
      obtain ⟨marks, settles⟩ := ih deep found
      exact ⟨_, settles.cons deep (by simp [TemplateMark.change])
        (isTemplateMark_of_templateMarkAt? here)⟩
  | case4 depth c cs behind here ih =>
      obtain ⟨marks, settles⟩ := ih (Nat.succ_pos depth) found
      exact ⟨_, settles.cons deep (by simp [TemplateMark.change])
        (isTemplateMark_of_templateMarkAt? here)⟩
  | case5 depth c cs behind here last =>
      obtain ⟨rfl, rfl⟩ := Prod.mk.inj (Option.some.inj found)
      obtain rfl : depth = 1 := by omega
      refine ⟨[], .stop _, isTemplateMark_of_templateMarkAt? here, fun earlier begins => ?_, rfl⟩
      rw [List.prefix_nil.mp begins]
      exact Int.one_pos
  | case6 depth c cs behind here more ih =>
      obtain ⟨marks, settles⟩ := ih (by omega) found
      exact ⟨_, settles.cons deep (by rw [TemplateMark.change]; omega)
        (isTemplateMark_of_templateMarkAt? here)⟩

theorem StaysOpen.cons (h : StaysOpen depth' behind) (deep : 0 < depth)
    (change : (depth' : Int) = depth + mark.change)
    (here : templateMarkAt? text = some (mark, behind)) : StaysOpen depth text := by
  intro marks rest passes
  cases passes with
  | stop => simpa [nesting] using deep
  | skip unmarked => exact absurd (isTemplateMark_of_templateMarkAt? here) (unmarked _ _)
  | mark stands later =>
      rw [← templateMarkAt?_eq_some_iff, here] at stands
      obtain ⟨rfl, rfl⟩ := Prod.mk.inj (Option.some.inj stands)
      have := h _ _ later
      rw [nesting]
      omega

theorem staysOpen_of_findTemplateClosing? (deep : 0 < depth)
    (failed : findTemplateClosing? depth text = none) : StaysOpen depth text := by
  fun_induction findTemplateClosing? depth text with
  | case1 depth =>
      intro marks rest passes
      cases passes with
      | stop => simpa [nesting] using deep
      | mark stands => cases templateMarkAt?_eq_some_iff.mpr stands
  | case2 depth c cs none ih =>
      intro marks rest passes
      cases passes with
      | stop => simpa [nesting] using deep
      | skip _ later => exact ih deep failed _ _ later
      | mark stands => exact absurd stands (unmarked_of_templateMarkAt? none _ _)
  | case3 depth c cs behind here ih =>
      exact StaysOpen.cons (ih deep failed) deep (by simp [TemplateMark.change]) here
  | case4 depth c cs behind here ih =>
      exact StaysOpen.cons (ih (Nat.succ_pos depth) failed) deep (by simp [TemplateMark.change]) here
  | case5 => cases failed
  | case6 depth c cs behind here more ih =>
      exact StaysOpen.cons (ih (by omega) failed) deep (by rw [TemplateMark.change]; omega) here

end Templates

/-! ## Blocks -/

/-- A block of the name is closed behind its content, and not before. -/
def ClosesBehind (name content stop rest : List Char) : Prop :=
  if name = "template".toList then ∃ marks, Settles 1 (content ++ stop) marks stop rest
  else IsClosingTag name stop rest ∧ ¬HasClosing name content

/-- A block of the name is not closed in the text. -/
def NeverCloses (name text : List Char) : Prop :=
  if name = "template".toList then StaysOpen 1 text else ¬HasClosing name text

section Blocks

variable {tag : Opening} {begin stop rest : List Char}

theorem closesBehind_of_blockEnd? (found : blockEnd? tag begin = some (stop, rest))
    (stays : tag.closesItself = false) : ClosesBehind tag.name (before begin stop) stop rest := by
  have whole := before_append (suffix_blockEnd? found).2
  rw [blockEnd?, stays, if_neg Bool.false_ne_true] at found
  rw [ClosesBehind, whole]
  split at found
  next template =>
    rw [if_pos template]
    exact exists_settles_of_findTemplateClosing? Nat.one_pos found
  next other =>
    rw [if_neg other]
    obtain ⟨content, rfl, closes, first⟩ := exists_content_of_findClosing? found
    rw [List.append_cancel_right whole]
    exact ⟨closes, first⟩

theorem neverCloses_of_blockEnd? (failed : blockEnd? tag begin = none) :
    tag.closesItself = false ∧ NeverCloses tag.name begin := by
  rw [blockEnd?] at failed
  rw [NeverCloses]
  split at failed
  next => cases failed
  next stays =>
    refine ⟨Bool.eq_false_iff.mpr stays, ?_⟩
    split at failed
    next template =>
      rw [if_pos template]
      exact staysOpen_of_findTemplateClosing? Nat.one_pos failed
    next other =>
      rw [if_neg other]
      exact not_hasClosing_of_findClosing? failed

end Blocks

end DiffScope.Component
