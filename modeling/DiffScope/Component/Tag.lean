import DiffScope.Text.Blank
import DiffScope.Text.Lines

/-!
# Tags

The marks in the text of a component: comments, and tags with their attributes. A quoted value may
hold any character but its quote. Every reader answers what is left of the text behind what it
read.
-/

namespace DiffScope.Component

open DiffScope.Text

/-- A character that a tag's name goes on with. -/
def isTagChar (c : Char) : Bool :=
  c.isAlphanum || c = '-'

/-- What is left behind a beginning, capitals and small letters being the same. -/
def afterLower? : List Char → List Char → Option (List Char)
  | [], rest => some rest
  | _ :: _, [] => none
  | p :: ps, c :: cs => if p = c.toLower then afterLower? ps cs else none

/-- What is left behind the first place where a beginning stands. -/
def afterFirst? (start : List Char) : List Char → Option (List Char)
  | [] => after? start []
  | c :: cs =>
    match after? start (c :: cs) with
    | some rest => some rest
    | none => afterFirst? start cs

theorem length_after? {start text rest : List Char} (h : after? start text = some rest) :
    rest.length + start.length = text.length := by
  rw [after?_eq_some_iff] at h
  simp [h, Nat.add_comm]

theorem length_afterLower? {start text rest : List Char} (h : afterLower? start text = some rest) :
    rest.length + start.length = text.length := by
  induction start generalizing text with
  | nil => simp_all [afterLower?]
  | cons p ps ih =>
    cases text with
    | nil => simp [afterLower?] at h
    | cons c cs =>
      simp only [afterLower?] at h
      split at h
      · have := ih h
        simp only [List.length_cons]
        omega
      · simp at h

theorem length_afterFirst? {start text rest : List Char} (h : afterFirst? start text = some rest) :
    rest.length ≤ text.length := by
  induction text with
  | nil =>
    have := length_after? h
    omega
  | cons c cs ih =>
    simp only [afterFirst?] at h
    split at h
    next r hr =>
      have := length_after? hr
      simp_all
      omega
    · exact Nat.le_succ_of_le (ih h)

def afterComment? (text : List Char) : Option (List Char) :=
  (after? "<!--".toList text).bind (afterFirst? "-->".toList)

theorem length_afterComment? {text rest : List Char} (h : afterComment? text = some rest) :
    rest.length < text.length := by
  obtain ⟨inner, hi, hr⟩ := Option.bind_eq_some_iff.mp h
  have h1 := length_after? hi
  have h2 := length_afterFirst? hr
  have h3 : "<!--".toList.length = 4 := by decide
  omega

/-! ## The end of a tag -/

def afterQuote? (quote : Char) : List Char → Option (List Char)
  | [] => none
  | c :: cs => if c = quote then some cs else afterQuote? quote cs

theorem length_afterQuote? {quote : Char} {text rest : List Char}
    (h : afterQuote? quote text = some rest) : rest.length < text.length := by
  induction text with
  | nil => simp [afterQuote?] at h
  | cons c cs ih =>
    simp only [afterQuote?] at h
    split at h
    · simp_all
    · exact Nat.lt_succ_of_lt (ih h)

/-- The end of a tag: where its attributes stop, whether it closes itself, and what is left behind
it. -/
structure TagEnd where
  /-- The text from the end of the attributes on. -/
  stop : List Char
  closesItself : Bool
  rest : List Char

/-- The end of a tag right here. -/
def tagEndAt? : List Char → Option TagEnd
  | '/' :: '>' :: rest => some ⟨'/' :: '>' :: rest, true, rest⟩
  | '>' :: rest => some ⟨'>' :: rest, false, rest⟩
  | _ => none

/-- The end of a tag from inside its attributes. -/
def findTagEnd? : List Char → Option TagEnd
  | [] => none
  | c :: cs =>
    match tagEndAt? (c :: cs) with
    | some e => some e
    | none =>
      if c = '"' ∨ c = '\x27' then
        match _h : afterQuote? c cs with
        | some rest => findTagEnd? rest
        | none => none
      else findTagEnd? cs
  termination_by text => text.length
  decreasing_by
    · exact Nat.lt_succ_of_lt (length_afterQuote? _h)
    · exact Nat.lt_succ_self _

/-- The end of a tag behind its name. -/
def tagEnd? : List Char → Option TagEnd
  | [] => none
  | c :: cs => if isBlank c then findTagEnd? cs else tagEndAt? (c :: cs)

theorem length_tagEndAt? {text : List Char} {e : TagEnd} (h : tagEndAt? text = some e) :
    e.rest.length < text.length := by
  unfold tagEndAt? at h
  split at h
  · simp only [Option.some.injEq] at h
    subst h
    simp only [List.length_cons]
    omega
  · simp only [Option.some.injEq] at h
    subst h
    exact Nat.lt_succ_self _
  · simp at h

theorem length_findTagEnd? {text : List Char} {e : TagEnd} (h : findTagEnd? text = some e) :
    e.rest.length < text.length := by
  fun_induction findTagEnd? text with
  | case1 => simp at h
  | case2 c cs e' he =>
    simp only [Option.some.injEq] at h
    exact h ▸ length_tagEndAt? he
  | case3 c cs _ _ rest hr ih => exact Nat.lt_trans (ih h) (Nat.lt_succ_of_lt (length_afterQuote? hr))
  | case4 => simp at h
  | case5 c cs _ _ ih => exact Nat.lt_succ_of_lt (ih h)

theorem length_tagEnd? {text : List Char} {e : TagEnd} (h : tagEnd? text = some e) :
    e.rest.length < text.length := by
  cases text with
  | nil => simp [tagEnd?] at h
  | cons c cs =>
    simp only [tagEnd?] at h
    split at h
    · exact Nat.lt_succ_of_lt (length_findTagEnd? h)
    · exact length_tagEndAt? h

/-! ## Attributes -/

/-- A character of an attribute's name. -/
def isNameChar (c : Char) : Bool :=
  !isBlank c && c ∉ ['"', '\x27', '<', '>', '/', '=']

/-- A character of a value without quotes. -/
def isValueChar (c : Char) : Bool :=
  !isBlank c && c ∉ ['"', '\x27', '=', '<', '>', '\x60']

/-- A value in quotes, behind its first quote, and what is left. -/
def quotedValue? (quote : Char) (text : List Char) : Option (List Char × List Char) :=
  (afterQuote? quote text).map (text.takeWhile (· ≠ quote), ·)

/-- The value of an attribute behind its name, and what is left. -/
def value? (text : List Char) : Option (List Char × List Char) :=
  match trimStart text with
  | '=' :: rest =>
    match trimStart rest with
    | '"' :: rest => quotedValue? '"' rest
    | '\x27' :: rest => quotedValue? '\x27' rest
    | rest =>
      match rest.takeWhile isValueChar with
      | [] => none
      | value => some (value, rest.dropWhile isValueChar)
  | _ => none

/-- An attribute: its name in small letters, and its value. -/
structure Attribute where
  name : List Char
  value : Option (List Char)
  deriving DecidableEq, Repr

/-- The attributes in a text, of which so many characters are looked at. -/
def attributesIn : Nat → List Char → List Attribute
  | 0, _ => []
  | fuel + 1, text =>
    match text.dropWhile (fun c => !isNameChar c) with
    | [] => []
    | text =>
      let name := lower (text.takeWhile isNameChar)
      let behind := text.dropWhile isNameChar
      match value? behind with
      | some (value, rest) => ⟨name, some value⟩ :: attributesIn fuel rest
      | none => ⟨name, none⟩ :: attributesIn fuel behind

def attributes (text : List Char) : List Attribute :=
  attributesIn text.length text

/-! ## Tags that open a block -/

/-- A tag that opens a block. -/
structure Opening where
  /-- The name in small letters. -/
  name : List Char
  attributes : List Attribute
  closesItself : Bool
  deriving DecidableEq, Repr

/-- The part of a text before one of its rests. -/
def before (text rest : List Char) : List Char :=
  text.take (text.length - rest.length)

/-- An opening tag right here, and what is left behind it. -/
def openingAt? : List Char → Option (Opening × List Char)
  | '<' :: c :: cs =>
    if c.isAlpha then
      let text := c :: cs
      let behind := text.dropWhile isTagChar
      (tagEnd? behind).map fun e =>
        (⟨lower (text.takeWhile isTagChar), attributes (before behind e.stop), e.closesItself⟩, e.rest)
    else none
  | _ => none

/-- A mark in the text between blocks. -/
inductive Mark where
  | comment
  | opening (tag : Opening)
  deriving Repr

/-- A mark right here, and what is left behind it. -/
def markAt? (text : List Char) : Option (Mark × List Char) :=
  match afterComment? text with
  | some rest => some (.comment, rest)
  | none => (openingAt? text).map fun (tag, rest) => (.opening tag, rest)

theorem length_dropWhile_le (p : Char → Bool) (text : List Char) :
    (text.dropWhile p).length ≤ text.length :=
  (List.dropWhile_suffix p).length_le

theorem length_openingAt? {text rest : List Char} {tag : Opening}
    (h : openingAt? text = some (tag, rest)) : rest.length < text.length := by
  unfold openingAt? at h
  split at h
  next c cs =>
    split at h
    · obtain ⟨e, he, hr⟩ := Option.map_eq_some_iff.mp h
      have h1 := length_tagEnd? he
      have h2 := length_dropWhile_le isTagChar (c :: cs)
      simp only [Prod.mk.injEq] at hr
      rw [← hr.2]
      simp only [List.length_cons] at *
      omega
    · simp at h
  · simp at h

/-- A mark takes up some of the text. -/
theorem length_markAt? {text rest : List Char} {mark : Mark}
    (h : markAt? text = some (mark, rest)) : rest.length < text.length := by
  unfold markAt? at h
  split at h
  next r hr =>
    simp only [Option.some.injEq, Prod.mk.injEq] at h
    exact h.2 ▸ length_afterComment? hr
  · obtain ⟨⟨tag, r⟩, ht, hr⟩ := Option.map_eq_some_iff.mp h
    simp only [Prod.mk.injEq] at hr
    exact hr.2 ▸ length_openingAt? ht

/-! ## Tags that close a block -/

/-- What is left behind a closing tag of a name right here. -/
def afterClosing? (name : List Char) (text : List Char) : Option (List Char) := do
  let rest ← afterLower? ('<' :: '/' :: name) text
  after? ['>'] (trimStart rest)

/-- Where the first closing tag of a name stands, and what is left behind it. -/
def findClosing? (name : List Char) : List Char → Option (List Char × List Char)
  | [] => none
  | c :: cs =>
    match afterClosing? name (c :: cs) with
    | some rest => some (c :: cs, rest)
    | none => findClosing? name cs

/-! ## Templates in templates -/

/-- A mark inside a template. -/
inductive TemplateMark where
  /-- A comment, or a template that closes itself. -/
  | neutral
  | opening
  | closing
  deriving DecidableEq, Repr

/-- A mark of a template right here, and what is left behind it. -/
def templateMarkAt? (text : List Char) : Option (TemplateMark × List Char) :=
  match afterComment? text with
  | some rest => some (.neutral, rest)
  | none =>
    match afterLower? "</template".toList text with
    | some rest => (tagEnd? rest).map fun e => (.closing, e.rest)
    | none =>
      match afterLower? "<template".toList text with
      | some rest =>
        (tagEnd? rest).map fun e => (if e.closesItself then .neutral else .opening, e.rest)
      | none => none

/-- A mark of a template takes up some of the text. -/
theorem length_templateMarkAt? {text rest : List Char} {mark : TemplateMark}
    (h : templateMarkAt? text = some (mark, rest)) : rest.length < text.length := by
  unfold templateMarkAt? at h
  split at h
  next r hr =>
    simp only [Option.some.injEq, Prod.mk.injEq] at h
    exact h.2 ▸ length_afterComment? hr
  · split at h
    next r hr =>
      obtain ⟨e, he, heq⟩ := Option.map_eq_some_iff.mp h
      simp only [Prod.mk.injEq] at heq
      have h1 := length_tagEnd? he
      have h2 := length_afterLower? hr
      rw [← heq.2]
      omega
    · split at h
      next r hr =>
        obtain ⟨e, he, heq⟩ := Option.map_eq_some_iff.mp h
        simp only [Prod.mk.injEq] at heq
        have h1 := length_tagEnd? he
        have h2 := length_afterLower? hr
        rw [← heq.2]
        omega
      · simp at h

theorem length_afterClosing? {name text rest : List Char} (h : afterClosing? name text = some rest) :
    rest.length < text.length := by
  obtain ⟨inner, hi, hr⟩ := Option.bind_eq_some_iff.mp h
  have h1 := length_afterLower? hi
  have h2 := length_after? hr
  have h3 := length_dropWhile_le isBlank inner
  simp only [trimStart] at h2
  simp only [List.length_cons, List.length_nil] at *
  omega

/-- What is left behind a closing tag is less than what is left from it on, which is no more than
the text. -/
theorem length_findClosing? {name text start rest : List Char}
    (h : findClosing? name text = some (start, rest)) :
    rest.length < start.length ∧ start.length ≤ text.length := by
  induction text with
  | nil => simp [findClosing?] at h
  | cons c cs ih =>
    simp only [findClosing?] at h
    split at h
    next r hr =>
      simp only [Option.some.injEq, Prod.mk.injEq] at h
      obtain ⟨rfl, rfl⟩ := h
      exact ⟨length_afterClosing? hr, Nat.le_refl _⟩
    · exact ⟨(ih h).1, Nat.le_succ_of_le (ih h).2⟩

end DiffScope.Component
