import DiffScope.Proofs.Component.Moved
import DiffScope.Proofs.Component.Writing
import DiffScope.Proofs.Text.Spans

/-! # Reading written tags

What is written of a comment or a tag is read back, and what is left is the text behind it.
-/

namespace DiffScope.Component

open DiffScope.Text

/-! ## Beginnings -/

theorem after?_append (start rest : List Char) : after? start (start ++ rest) = some rest :=
  after?_eq_some_iff.mpr rfl

theorem after?_eq_none_iff {start text : List Char} :
    after? start text = none ↔ ¬start <+: text := by
  rw [Option.eq_none_iff_forall_ne_some]
  constructor
  · rintro none ⟨rest, rfl⟩
    exact none rest (after?_append start rest)
  · intro free rest found
    exact free ⟨rest, (after?_eq_some_iff.mp found).symm⟩

theorem afterLower?_eq_some_iff {start text rest : List Char} :
    afterLower? start text = some rest ↔ ∃ spelt, lower spelt = start ∧ text = spelt ++ rest := by
  induction start generalizing text with
  | nil =>
      rw [afterLower?]
      constructor
      · intro h
        exact ⟨[], rfl, Option.some.inj h⟩
      · rintro ⟨spelt, empty, rfl⟩
        rw [List.map_eq_nil_iff.mp empty]
        rfl
  | cons p ps ih =>
      cases text with
      | nil =>
          rw [afterLower?]
          constructor
          · intro h
            cases h
          · rintro ⟨spelt, lowered, empty⟩
            obtain ⟨rfl, -⟩ := List.append_eq_nil_iff.mp empty.symm
            cases lowered
      | cons c cs =>
          rw [afterLower?]
          constructor
          · intro h
            split at h
            next same =>
              obtain ⟨spelt, lowered, rfl⟩ := ih.mp h
              exact ⟨c :: spelt, by rw [lower, List.map_cons, ← lower, lowered, same], rfl⟩
            next => cases h
          · rintro ⟨spelt, lowered, whole⟩
            cases spelt with
            | nil => cases lowered
            | cons d ds =>
                obtain ⟨rfl, rfl⟩ := List.cons.inj whole
                obtain ⟨same, others⟩ := List.cons.inj lowered
                rw [if_pos same.symm]
                exact ih.mpr ⟨ds, others, rfl⟩

theorem afterLower?_append (spelt rest : List Char) :
    afterLower? (lower spelt) (spelt ++ rest) = some rest :=
  afterLower?_eq_some_iff.mpr ⟨spelt, rfl, rfl⟩

theorem prefix_lower_of_afterLower? {start text rest : List Char}
    (h : afterLower? start text = some rest) : start <+: lower text := by
  obtain ⟨spelt, rfl, rfl⟩ := afterLower?_eq_some_iff.mp h
  exact ⟨lower rest, (List.map_append ..).symm⟩

/-! ## Comments -/

/-- The first end of a comment is where its body ends. -/
theorem afterFirst?_append {body : List Char} (unended : ¬"-->".toList <:+: body)
    (rest : List Char) : afterFirst? "-->".toList (body ++ ("-->".toList ++ rest)) = some rest := by
  induction body with
  | nil => rfl
  | cons c cs ih =>
      have none : after? "-->".toList (c :: cs ++ ("-->".toList ++ rest)) = none := by
        rw [after?_eq_none_iff]
        rintro ⟨left, whole⟩
        -- an end that begins in the body does not reach over the hyphens behind it
        match cs, unended with
        | [], _ => simp at whole
        | [d], _ => simp at whole
        | d :: e :: t, unended =>
            refine unended (List.IsPrefix.isInfix ⟨t, ?_⟩)
            obtain ⟨rfl, rfl, rfl, -⟩ : '-' = c ∧ '-' = d ∧ '>' = e ∧ left = t ++ _ := by
              simpa using whole
            rfl
      rw [List.cons_append] at none ⊢
      rw [afterFirst?, none]
      exact ih fun inside => unended (inside.trans (List.suffix_cons c cs).isInfix)

theorem afterComment?_text (c : WrittenComment) (rest : List Char) :
    afterComment? (c.text ++ rest) = some rest := by
  rw [afterComment?, WrittenComment.text, List.append_assoc, List.append_assoc, after?_append]
  exact afterFirst?_append c.unended rest

/-! ## The end of a tag -/

/-- A character that is neither a quote nor in the end of a tag. -/
def isPlain (c : Char) : Bool := c ∉ ['/', '>', '"', '\x27']

/-- No tag ends at a character that is no bracket, nor a slash before one. -/
theorem tagEndAt?_of_ne {c : Char} {cs : List Char} (first : c ≠ '>')
    (next : c = '/' → cs.head? ≠ some '>') : tagEndAt? (c :: cs) = none := by
  unfold tagEndAt?
  split
  next same =>
    obtain ⟨rfl, rfl⟩ := List.cons.inj same
    exact absurd rfl (next rfl)
  next same =>
    obtain ⟨rfl, -⟩ := List.cons.inj same
    exact absurd rfl first
  next => rfl

theorem findTagEnd?_unquoted {c : Char} {cs : List Char} (none : tagEndAt? (c :: cs) = none)
    (unquoted : ¬(c = '"' ∨ c = '\x27')) : findTagEnd? (c :: cs) = findTagEnd? cs := by
  rw [findTagEnd?, none]
  exact if_neg unquoted

theorem findTagEnd?_cons {c : Char} (plain : isPlain c = true) (cs : List Char) :
    findTagEnd? (c :: cs) = findTagEnd? cs := by
  refine findTagEnd?_unquoted (tagEndAt?_of_ne ?_ ?_) ?_
  · rintro rfl
    cases plain
  · rintro rfl
    cases plain
  · rintro (rfl | rfl) <;> cases plain

theorem findTagEnd?_append {text : List Char} (plain : ∀ c ∈ text, isPlain c = true)
    (rest : List Char) : findTagEnd? (text ++ rest) = findTagEnd? rest := by
  induction text with
  | nil => rfl
  | cons c cs ih =>
      obtain ⟨first, others⟩ := List.forall_mem_cons.mp plain
      rw [List.cons_append, findTagEnd?_cons first, ih others]

theorem afterQuote?_append {quote : Char} {value : List Char} (quotable : quote ∉ value)
    (rest : List Char) : afterQuote? quote (value ++ quote :: rest) = some rest := by
  induction value with
  | nil => exact if_pos rfl
  | cons c cs ih =>
      rw [List.mem_cons, not_or] at quotable
      rw [List.cons_append, afterQuote?, if_neg (Ne.symm quotable.1)]
      exact ih quotable.2

/-- A value in quotes is passed over, whatever it holds. -/
theorem findTagEnd?_quoted {quote : Char} {value : List Char} (quotes : quote = '"' ∨ quote = '\x27')
    (quotable : quote ∉ value) (rest : List Char) :
    findTagEnd? (quote :: (value ++ quote :: rest)) = findTagEnd? rest := by
  have none : tagEndAt? (quote :: (value ++ quote :: rest)) = none := by
    refine tagEndAt?_of_ne ?_ ?_ <;> rintro rfl <;> simp at quotes
  rw [findTagEnd?, none]
  dsimp only
  rw [if_pos quotes]
  split
  next rest' found =>
    rw [afterQuote?_append quotable] at found
    rw [Option.some.inj found]
  next failed =>
    rw [afterQuote?_append quotable] at failed
    cases failed

theorem isPlain_of_isBlank {c : Char} (blank : isBlank c = true) : isPlain c = true := by
  rw [isPlain, decide_eq_true_eq]
  intro member
  simp only [List.mem_cons, List.not_mem_nil, or_false] at member
  rcases member with rfl | rfl | rfl | rfl <;> cases blank

theorem isPlain_of_isNameChar {c : Char} (named : isNameChar c = true) : isPlain c = true := by
  rw [isPlain, decide_eq_true_eq]
  intro member
  simp only [List.mem_cons, List.not_mem_nil, or_false] at member
  rcases member with rfl | rfl | rfl | rfl <;> cases named

theorem findTagEnd?_attribute (a : WrittenAttribute) (rest : List Char) :
    findTagEnd? (a.text ++ rest) = findTagEnd? rest := by
  rw [WrittenAttribute.text, List.append_assoc,
    findTagEnd?_append fun c member => isPlain_of_isBlank (a.blank c member), List.append_assoc,
    findTagEnd?_append fun c member => isPlain_of_isNameChar (a.nameChars c member)]
  unfold WrittenAttribute.valueText
  cases value : a.value with
  | none => rfl
  | some v =>
      simp only [List.cons_append, List.append_assoc, List.nil_append]
      rw [findTagEnd?_cons (by decide), findTagEnd?_quoted (.inl rfl) (a.quotable v value)]

theorem findTagEnd?_attributesText (attributes : List WrittenAttribute) (rest : List Char) :
    findTagEnd? (attributesText attributes ++ rest) = findTagEnd? rest := by
  induction attributes with
  | nil => rfl
  | cons a as ih =>
      rw [attributesText, List.flatMap_cons, List.append_assoc, findTagEnd?_attribute,
        ← attributesText, ih]

theorem findTagEnd?_tagEndText (closesItself : Bool) (rest : List Char) :
    findTagEnd? (tagEndText closesItself ++ rest) =
      some ⟨tagEndText closesItself ++ rest, closesItself, rest⟩ := by
  cases closesItself with
  | false =>
      change findTagEnd? ('>' :: rest) = _
      rw [findTagEnd?, show tagEndAt? ('>' :: rest) = some ⟨'>' :: rest, false, rest⟩ from rfl]
      rfl
  | true =>
      change findTagEnd? ('/' :: '>' :: rest) = _
      rw [findTagEnd?,
        show tagEndAt? ('/' :: '>' :: rest) = some ⟨'/' :: '>' :: rest, true, rest⟩ from rfl]
      rfl

/-- Behind a tag's name a blank is like any other part of its attributes. -/
theorem tagEnd?_of_isBlank {c : Char} (blank : isBlank c = true) (cs : List Char) :
    tagEnd? (c :: cs) = findTagEnd? (c :: cs) := by
  rw [tagEnd?, if_pos blank, findTagEnd?_cons (isPlain_of_isBlank blank)]

/-- A tag without attributes ends behind the blanks that follow its name. -/
theorem tagEnd?_blanks {gap : List Char} (blank : ∀ c ∈ gap, isBlank c = true) (rest : List Char) :
    tagEnd? (gap ++ '>' :: rest) = some ⟨'>' :: rest, false, rest⟩ := by
  cases gap with
  | nil => rfl
  | cons c cs =>
      rw [List.cons_append, tagEnd?_of_isBlank (blank c List.mem_cons_self), ← List.cons_append,
        findTagEnd?_append fun d member => isPlain_of_isBlank (blank d member)]
      exact findTagEnd?_tagEndText false rest

/-- A tag ends behind its attributes. -/
theorem tagEnd?_attributesText (attributes : List WrittenAttribute) (closesItself : Bool)
    (rest : List Char) :
    tagEnd? (attributesText attributes ++ (tagEndText closesItself ++ rest)) =
      some ⟨tagEndText closesItself ++ rest, closesItself, rest⟩ := by
  cases attributes with
  | nil => cases closesItself <;> rfl
  | cons a as =>
      have ends := findTagEnd?_attributesText (a :: as) (tagEndText closesItself ++ rest)
      rw [findTagEnd?_tagEndText] at ends
      obtain ⟨c, gap, opens⟩ := List.exists_cons_of_ne_nil a.apart
      have blank : isBlank c = true := a.blank c (opens ▸ List.mem_cons_self)
      have begins : attributesText (a :: as) =
          c :: (gap ++ (a.name ++ a.valueText) ++ attributesText as) := by
        simp [attributesText, WrittenAttribute.text, opens]
      rw [begins, List.cons_append] at ends ⊢
      rw [tagEnd?_of_isBlank blank, ends]

/-! ## Attributes -/

theorem isNameChar_of_isBlank {c : Char} (blank : isBlank c = true) : isNameChar c = false := by
  simp [isNameChar, blank]

theorem isBlank_of_isNameChar {c : Char} (named : isNameChar c = true) : isBlank c = false := by
  simp only [isNameChar, Bool.and_eq_true, Bool.not_eq_true'] at named
  exact named.1

theorem head?_attributesText {attributes : List WrittenAttribute} {c : Char}
    (first : c ∈ (attributesText attributes).head?) : isBlank c = true := by
  cases attributes with
  | nil => cases first
  | cons a as =>
      obtain ⟨d, gap, opens⟩ := List.exists_cons_of_ne_nil a.apart
      simp only [attributesText, List.flatMap_cons, WrittenAttribute.text, opens,
        List.cons_append, List.head?_cons, Option.mem_some_iff] at first
      exact first ▸ a.blank d (opens ▸ List.mem_cons_self)

/-- Behind a bare attribute no value is read. -/
theorem value?_attributesText (attributes : List WrittenAttribute) :
    value? (attributesText attributes) = none := by
  cases attributes with
  | nil => rfl
  | cons a as =>
      obtain ⟨n, ns, opens⟩ := List.exists_cons_of_ne_nil a.named
      have named : isNameChar n = true := a.nameChars n (opens ▸ List.mem_cons_self)
      have begins : attributesText (a :: as) =
          a.gap ++ (n :: (ns ++ a.valueText ++ attributesText as)) := by
        simp [attributesText, WrittenAttribute.text, opens]
      have trimmed : trimStart (attributesText (a :: as)) =
          n :: (ns ++ a.valueText ++ attributesText as) := by
        rw [begins]
        refine (span_append a.blank ?_).2
        simpa using isBlank_of_isNameChar named
      unfold value?
      rw [trimmed]
      split
      next same =>
        obtain ⟨rfl, -⟩ := List.cons.inj same
        cases named
      next => rfl

theorem value?_quoted {value : List Char} (quotable : '"' ∉ value) (rest : List Char) :
    value? ('=' :: '"' :: (value ++ '"' :: rest)) = some (value, rest) := by
  change quotedValue? '"' (value ++ '"' :: rest) = _
  have all : ∀ c ∈ value, decide (c ≠ '"') = true := fun c member =>
    decide_eq_true fun same => quotable (same ▸ member)
  have whole : (value ++ '"' :: rest).takeWhile (fun c => decide (c ≠ '"')) = value :=
    (span_append all (by simp)).1
  rw [quotedValue?, afterQuote?_append quotable, Option.map_some, whole]

/-- No name goes on behind an attribute's name. -/
theorem head?_valueText_append (a : WrittenAttribute) (attributes : List WrittenAttribute) {c : Char}
    (first : c ∈ (a.valueText ++ attributesText attributes).head?) : isNameChar c = false := by
  unfold WrittenAttribute.valueText at first
  cases value : a.value with
  | none =>
      rw [value] at first
      exact isNameChar_of_isBlank (head?_attributesText first)
  | some v =>
      rw [value] at first
      obtain rfl : '=' = c := by simpa using first
      decide

theorem attributesIn_attributesText {attributes : List WrittenAttribute} {fuel : Nat}
    (enough : (attributesText attributes).length ≤ fuel) :
    attributesIn fuel (attributesText attributes) = attributes.map WrittenAttribute.meant := by
  induction attributes generalizing fuel with
  | nil => cases fuel <;> rfl
  | cons a as ih =>
      obtain ⟨n, ns, opens⟩ := List.exists_cons_of_ne_nil a.named
      have gapped : 0 < a.gap.length := List.length_pos_iff.mpr a.apart
      have named : isNameChar n = true := a.nameChars n (opens ▸ List.mem_cons_self)
      have parts : attributesText (a :: as) =
          a.gap ++ (a.name ++ (a.valueText ++ attributesText as)) := by
        simp [attributesText, WrittenAttribute.text]
      have skipped : (attributesText (a :: as)).dropWhile (fun c => !isNameChar c) =
          a.name ++ (a.valueText ++ attributesText as) := by
        rw [parts]
        refine (span_append (fun c member => ?_) fun c first => ?_).2
        · simp [isNameChar_of_isBlank (a.blank c member)]
        · rw [opens, List.cons_append, List.head?_cons, Option.mem_some_iff] at first
          simp [← first, named]
      have name := span_append a.nameChars fun c first => head?_valueText_append a as first
      have size : (attributesText as).length < (attributesText (a :: as)).length := by
        rw [parts]
        simp only [List.length_append]
        omega
      obtain ⟨fuel, rfl⟩ : ∃ n, fuel = n + 1 := ⟨fuel - 1, by omega⟩
      have rest : attributesIn fuel (attributesText as) = as.map WrittenAttribute.meant :=
        ih (by omega)
      rw [opens] at skipped
      rw [attributesIn, skipped]
      dsimp only [List.cons_append]
      rw [← List.cons_append, ← opens, name.1, name.2, List.map_cons, WrittenAttribute.meant]
      cases value : a.value with
      | none =>
          have bare : a.valueText ++ attributesText as = attributesText as := by
            rw [WrittenAttribute.valueText, value]
            rfl
          rw [bare, value?_attributesText]
          exact congrArg _ rest
      | some v =>
          have quoted : a.valueText ++ attributesText as =
              '=' :: '"' :: (v ++ '"' :: attributesText as) := by
            simp [WrittenAttribute.valueText, value]
          rw [quoted, value?_quoted (a.quotable v value)]
          exact congrArg _ rest

theorem attributes_attributesText (written : List WrittenAttribute) :
    attributes (attributesText written) = written.map WrittenAttribute.meant :=
  attributesIn_attributesText (Nat.le_refl _)

/-! ## Tags -/

theorem before_append_right (text rest : List Char) : before (text ++ rest) rest = text := by
  rw [before, List.length_append, Nat.add_sub_cancel, List.take_left]

theorem isTagChar_of_isBlank {c : Char} (blank : isBlank c = true) : isTagChar c = false := by
  cases tagged : isTagChar c with
  | false => rfl
  | true =>
      exfalso
      delta isTagChar Char.isAlphanum Char.isAlpha Char.isUpper Char.isLower Char.isDigit at tagged
      simp only [Bool.or_eq_true, Bool.and_eq_true, decide_eq_true_eq, ge_iff_le,
        UInt32.le_iff_toNat_le] at tagged
      simp only [isBlank, Bool.or_eq_true, Bool.and_eq_true, decide_eq_true_eq] at blank
      rcases tagged with tagged | rfl
      · simp at tagged
        omega
      · revert blank
        decide

/-- No tag's name goes on behind it. -/
theorem head?_attributesText_append (attributes : List WrittenAttribute) (closesItself : Bool)
    (rest : List Char) {c : Char}
    (first : c ∈ (attributesText attributes ++ (tagEndText closesItself ++ rest)).head?) :
    isTagChar c = false := by
  cases attributes with
  | nil =>
      cases closesItself with
      | false =>
          obtain rfl : '>' = c := by simpa [attributesText, tagEndText] using first
          decide
      | true =>
          obtain rfl : '/' = c := by simpa [attributesText, tagEndText] using first
          decide
  | cons a as =>
      have blank : c ∈ (attributesText (a :: as)).head? → isBlank c = true := head?_attributesText
      refine isTagChar_of_isBlank (blank ?_)
      cases whole : attributesText (a :: as) with
      | nil => simp [attributesText, WrittenAttribute.text, a.apart] at whole
      | cons d ds =>
          rw [whole] at first
          exact first

theorem WrittenTag.chars (t : WrittenTag) : ∀ c ∈ t.name, isTagChar c = true := by
  refine List.forall_mem_cons.mpr ⟨?_, t.tagChars⟩
  rw [isTagChar, Char.isAlphanum, t.letter]
  rfl

theorem openingAt?_text (t : WrittenTag) (closesItself : Bool) (rest : List Char) :
    openingAt? (t.text ++ (tagEndText closesItself ++ rest)) =
      some (t.opening closesItself, rest) := by
  have name := span_append t.chars fun c first =>
    head?_attributesText_append t.attributes closesItself rest first
  have opens : t.text ++ (tagEndText closesItself ++ rest) =
      '<' :: t.initial :: (t.others ++
        (attributesText t.attributes ++ (tagEndText closesItself ++ rest))) := by
    simp [WrittenTag.text, WrittenTag.name]
  rw [opens, openingAt?, if_pos t.letter]
  dsimp only
  rw [← List.cons_append, ← WrittenTag.name, name.1, name.2, tagEnd?_attributesText, Option.map_some,
    before_append_right, attributes_attributesText]
  rfl

theorem afterComment?_tag (t : WrittenTag) (rest : List Char) :
    afterComment? (t.text ++ rest) = none := by
  have letter : '!' ≠ t.initial := by
    rintro same
    cases same ▸ t.letter
  simp [afterComment?, WrittenTag.text, WrittenTag.name, after?, letter]

theorem markAt?_tag (t : WrittenTag) (closesItself : Bool) (rest : List Char) :
    markAt? (t.text ++ (tagEndText closesItself ++ rest)) =
      some (.opening (t.opening closesItself), rest) := by
  rw [markAt?, afterComment?_tag, openingAt?_text]
  rfl

theorem markAt?_comment (c : WrittenComment) (rest : List Char) :
    markAt? (c.text ++ rest) = some (.comment, rest) := by
  rw [markAt?, afterComment?_text]

end DiffScope.Component
