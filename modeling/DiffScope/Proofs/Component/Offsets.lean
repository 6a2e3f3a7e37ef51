import DiffScope.Proofs.Component.Closings
import DiffScope.Proofs.Text.Offsets

/-! # Blocks read by bytes

The end of a block can be looked for by bytes: that of a template in the part of the file behind the
tag, and that of another block in a copy of the file with small letters, again and again behind the
names that do not close. The bytes at which the file, the part and the copy are cut are boundaries of
characters of the file, and what is found are the places told by what is left of the file.
-/

namespace DiffScope.Component

open DiffScope.Text
open String (utf8Len)

/-! ## Reading by bytes -/

/-- A cut of a text inside a character, behind its end or before where another cut was made. -/
structure BadCut where
  text : List Char
  offset : Nat

def cutFrom (text : List Char) (n : Nat) : Except BadCut (List Char) :=
  match from? text n with
  | some rest => .ok rest
  | none => .error ⟨text, n⟩

def cut (text : List Char) (start stop : Nat) : Except BadCut (List Char) := do
  let inner ← cutFrom text start
  let rest ← cutFrom text stop
  if start ≤ stop then .ok (before inner rest) else .error ⟨text, stop⟩

theorem utf8Len_le_of_find? {start text : List Char} {n : Nat} (found : find? start text = some n) :
    n + utf8Len start ≤ utf8Len text := by
  obtain ⟨front, rest, rfl, rfl, -⟩ := exists_front_of_find? found
  simp only [String.utf8Len_append]
  omega

/-- The bytes up to the bracket of a closing tag and with it, where a text begins behind so many bytes
with nothing but blanks before the bracket. -/
def bracketEnd? (text : List Char) (behind : Nat) : Option Nat :=
  if (trimStart text).head? = some '>' then
    some (behind + (utf8Len text - utf8Len (trimStart text)) + 1)
  else none

/-- The bytes before a closing tag and those before what is behind it, in a text with small letters
behind so many bytes. -/
def closingBytes? (lowered name : List Char) (search : Nat) : Except BadCut (Option (Nat × Nat)) :=
  match _h : from? lowered search with
  | none => .ok none
  | some text =>
    match _h' : find? ('<' :: '/' :: name) text with
    | none => .ok none
    | some found =>
      let behind := search + found + utf8Len ('<' :: '/' :: name)
      match cutFrom lowered behind with
      | .error bad => .error bad
      | .ok rest =>
        match bracketEnd? rest behind with
        | some closeEnd => .ok (some (search + found, closeEnd))
        | none => closingBytes? lowered name behind
  termination_by utf8Len lowered - search
  decreasing_by
    obtain ⟨front, rfl, rfl⟩ := from?_eq_some_iff.mp _h
    have fits := utf8Len_le_of_find? _h'
    have filled := Char.utf8Size_pos '<'
    simp only [String.utf8Len_append, String.utf8Len_cons] at fits ⊢
    omega

/-- The bytes before the end of a block's content and before the end of the block. -/
def endBytes? (source : List Char) (tag : Opening) (openEnd : Nat) :
    Except BadCut (Option (Nat × Nat)) :=
  if tag.closesItself then .ok (some (openEnd, openEnd))
  else if tag.name = "template".toList then do
    let text ← cutFrom source openEnd
    .ok ((findTemplateClosing? 1 text).map fun (stop, rest) =>
      (openEnd + offsetOf text stop, openEnd + offsetOf text rest))
  else closingBytes? (lower source) tag.name openEnd

/-- A block's content, with the bytes before the end of the content and before the end of the
block. -/
structure ByteBlock where
  content : List Char
  contentEnd : Nat
  closeEnd : Nat

/-- The block behind its tag. -/
def blockBytes? (source : List Char) (tag : Opening) (openEnd : Nat) :
    Except BadCut (Option ByteBlock) := do
  match ← endBytes? source tag openEnd with
  | none => .ok none
  | some (contentEnd, closeEnd) =>
    let content ← cut source openEnd contentEnd
    .ok (some ⟨content, contentEnd, closeEnd⟩)

/-! ## Cuts at places of the text -/

theorem cutFrom_offsetOf {text rest : List Char} (left : rest <:+ text) :
    cutFrom text (offsetOf text rest) = .ok rest := by
  rw [cutFrom, from?_offsetOf left]

theorem cut_offsetOf {text inner rest : List Char} (left : inner <:+ text) (behind : rest <:+ inner) :
    cut text (offsetOf text inner) (offsetOf text rest) = .ok (before inner rest) := by
  have order : offsetOf text inner ≤ offsetOf text rest := by
    rw [← offsetOf_add_offsetOf left behind]
    exact Nat.le_add_right _ _
  rw [cut, cutFrom_offsetOf left, cutFrom_offsetOf (behind.trans left)]
  exact if_pos order

/-! ## Closing tags by bytes -/

section Closing

variable {source text name front spelt rest : List Char}

theorem findClosing?_of_unnamed (free : ¬('<' :: '/' :: name <:+: lower text)) :
    findClosing? name text = none := by
  rw [Option.eq_none_iff_forall_ne_some]
  rintro ⟨stop, rest⟩ found
  obtain ⟨content, rfl, ⟨spelt, blanks, rfl, -, rfl⟩, -⟩ := exists_content_of_findClosing? found
  exact free ⟨lower content, lower (blanks ++ '>' :: rest), by simp [lower]⟩

theorem findClosing?_append_of_unnamed
    (free : ∀ here, here ≠ [] → here <:+ lower front → ¬('<' :: '/' :: name <+: here ++ lower text)) :
    findClosing? name (front ++ text) = findClosing? name text := by
  refine findClosing?_append_of_none fun here filled inside => ?_
  rw [Option.eq_none_iff_forall_ne_some]
  intro rest found
  obtain ⟨behind, opens, -⟩ := Option.bind_eq_some_iff.mp found
  have begins := prefix_lower_of_afterLower? opens
  rw [lower, List.map_append, ← lower, ← lower] at begins
  exact free (lower here) (by simpa [lower] using filled) (inside.map Char.toLower) begins

/-- A name that does not close is passed over, as there is no bracket in it. -/
theorem findClosing?_spelt (bracketless : '<' ∉ lower spelt) :
    findClosing? (lower spelt) ('<' :: '/' :: (spelt ++ text)) =
      match after? ['>'] (trimStart text) with
      | some rest => some ('<' :: '/' :: (spelt ++ text), rest)
      | none => findClosing? (lower spelt) text := by
  have here := afterClosing?_append spelt text
  rw [findClosing?, here]
  cases after? ['>'] (trimStart text) with
  | some rest => rfl
  | none =>
      change findClosing? _ ('/' :: spelt ++ text) = _
      refine findClosing?_append_of_unnamed fun here filled inside => ?_
      obtain ⟨c, cs, rfl⟩ := List.exists_cons_of_ne_nil filled
      rw [List.cons_append, List.cons_prefix_cons]
      rintro ⟨rfl, -⟩
      rcases List.mem_cons.mp (inside.mem List.mem_cons_self) with slash | member
      · cases slash
      · exact bracketless member

/-- The name of a closing tag is found in the copy where the search of the file comes to it. -/
theorem exists_spelt_of_find? {n : Nat} (found : find? ('<' :: '/' :: name) (lower text) = some n) :
    ∃ front spelt behind, text = front ++ '<' :: '/' :: (spelt ++ behind) ∧ lower spelt = name ∧
      utf8Len front = n ∧
      findClosing? name text = findClosing? name ('<' :: '/' :: (spelt ++ behind)) := by
  obtain ⟨_, _, whole, size, first⟩ := exists_front_of_find? found
  obtain ⟨front, inner, rfl, rfl, parts⟩ := List.map_eq_append_iff.mp whole
  obtain ⟨opening, behind, rfl, lowered, rfl⟩ := List.map_eq_append_iff.mp parts
  obtain ⟨spelt, named, rfl⟩ := exists_spelt_of_lower_eq ['<', '/'] (by simp) lowered
  refine ⟨front, spelt, behind, rfl, named, (utf8Len_lower front).symm.trans size, ?_⟩
  refine findClosing?_append_of_unnamed fun here filled inside => ?_
  have free := first here filled inside
  rw [← lowered, ← List.map_append] at free
  rwa [← lowered]

theorem bracketEnd?_lower (left : text <:+ source) :
    bracketEnd? (lower text) (offsetOf source text) =
      (after? ['>'] (trimStart text)).map (offsetOf source) := by
  have trimmed : trimStart text <:+ text := List.dropWhile_suffix _
  have blanks : offsetOf source text + (utf8Len text - utf8Len (trimStart text)) =
      offsetOf source (trimStart text) := offsetOf_add_offsetOf left trimmed
  rw [bracketEnd?, trimStart_lower, utf8Len_lower, utf8Len_lower, blanks]
  cases closes : after? ['>'] (trimStart text) with
  | some rest =>
      have bracket := after?_eq_some_iff.mp closes
      have closed := offsetOf_add_utf8Len (bracket ▸ trimmed.trans left)
      rw [if_pos (by rw [bracket]; rfl), bracket, Option.map_some, ← closed]
      rfl
  | none =>
      refine if_neg ?_
      rw [lower, List.head?_map, Option.map_eq_some_iff]
      rintro ⟨c, first, lowered⟩
      obtain rfl := eq_of_toLower_eq lowered (by decide)
      obtain ⟨rest, bracket⟩ := List.head?_eq_some_iff.mp first
      cases closes.symm.trans (after?_eq_some_iff.mpr bracket)

/-- What is found by bytes in the copy with small letters is what is found in the file. -/
theorem closingBytes?_eq (bracketless : '<' ∉ name) (left : text <:+ source) :
    closingBytes? (lower source) name (offsetOf source text) =
      .ok ((findClosing? name text).map fun (stop, rest) =>
        (offsetOf source stop, offsetOf source rest)) := by
  -- The search begins again behind a name that does not close, so what is left gets shorter.
  induction size : text.length using Nat.strong_induction_on generalizing text with
  | _ n ih =>
      subst size
      have begun : from? (lower source) (offsetOf source text) = some (lower text) := by
        rw [from?_lower, from?_offsetOf left, Option.map_some]
      rw [closingBytes?]
      split
      next failed => cases failed.symm.trans begun
      next _ placed =>
        obtain rfl := Option.some.inj (placed.symm.trans begun)
        split
        next failed =>
          rw [findClosing?_of_unnamed (not_infix_of_find? failed), Option.map_none]
        next found =>
          obtain ⟨front, spelt, behind, rfl, rfl, rfl, same⟩ := exists_spelt_of_find? found
          have opened : '<' :: '/' :: spelt ++ behind <:+ source :=
            (List.suffix_append front _).trans left
          have named : behind <:+ source := (List.suffix_append _ behind).trans opened
          have opening := offsetOf_add_utf8Len left
          have passed : offsetOf source ('<' :: '/' :: (spelt ++ behind)) +
              utf8Len ('<' :: '/' :: lower spelt) = offsetOf source behind := by
            rw [show '<' :: '/' :: lower spelt = lower ('<' :: '/' :: spelt) from rfl, utf8Len_lower]
            exact offsetOf_add_utf8Len opened
          have cuts : cutFrom (lower source) (offsetOf source behind) = .ok (lower behind) := by
            rw [cutFrom, from?_lower, from?_offsetOf named, Option.map_some]
          rw [same, findClosing?_spelt bracketless]
          simp only [opening, passed, cuts, bracketEnd?_lower named]
          cases after? ['>'] (trimStart behind) with
          | some rest => rfl
          | none =>
              refine ih behind.length ?_ named rfl
              simp only [List.length_append, List.length_cons]
              omega

end Closing

/-! ## Blocks by bytes -/

theorem bracketless_of_markAt? {text begin : List Char} {tag : Opening}
    (mark : markAt? text = some (.opening tag, begin)) : '<' ∉ tag.name := by
  unfold markAt? at mark
  split at mark
  next => cases mark
  next =>
    obtain ⟨⟨tag', rest⟩, opens, same⟩ := Option.map_eq_some_iff.mp mark
    cases same
    unfold openingAt? at opens
    split at opens
    next c cs =>
      split at opens
      next =>
        obtain ⟨e, -, same⟩ := Option.map_eq_some_iff.mp opens
        cases same
        exact bracketless_lower fun d => List.mem_takeWhile_imp
      next => cases opens
    next => cases opens

section Blocks

variable {source begin : List Char} {tag : Opening}

theorem endBytes?_eq (bracketless : '<' ∉ tag.name) (left : begin <:+ source) :
    endBytes? source tag (offsetOf source begin) =
      .ok ((blockEnd? tag begin).map fun (stop, rest) =>
        (offsetOf source stop, offsetOf source rest)) := by
  rw [endBytes?, blockEnd?]
  split
  next => rfl
  next =>
    split
    next =>
      rw [cutFrom_offsetOf left]
      change Except.ok _ = _
      cases found : findTemplateClosing? 1 begin with
      | none => rfl
      | some ends =>
          obtain ⟨stop, rest⟩ := ends
          obtain ⟨behind, inside⟩ := suffix_findTemplateClosing? found
          simp only [Option.map_some, offsetOf_add_offsetOf left inside,
            offsetOf_add_offsetOf left (behind.trans inside)]
    next => exact closingBytes?_eq bracketless left

/-- A block that is read by bytes is the one that is read by what is left of the file. -/
theorem blockBytes?_eq (bracketless : '<' ∉ tag.name) (left : begin <:+ source) :
    blockBytes? source tag (offsetOf source begin) =
      .ok ((blockEnd? tag begin).map fun (stop, rest) =>
        ⟨before begin stop, offsetOf source stop, offsetOf source rest⟩) := by
  rw [blockBytes?, endBytes?_eq bracketless left]
  cases found : blockEnd? tag begin with
  | none => rfl
  | some ends =>
      obtain ⟨stop, rest⟩ := ends
      have inside := (suffix_blockEnd? found).2
      change (cut source (offsetOf source begin) (offsetOf source stop) >>= _) = _
      rw [cut_offsetOf left inside]
      rfl

end Blocks

end DiffScope.Component
