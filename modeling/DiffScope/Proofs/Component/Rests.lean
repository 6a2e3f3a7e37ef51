import Mathlib.Data.List.Basic
import DiffScope.Component.Layout

/-! # What readers leave

What a reader leaves is the end of the text that it was given, so that a place in a file can be told
by what is left of the file there.
-/

namespace DiffScope.Component

open DiffScope.Text

theorem suffix_after? {start text rest : List Char} (h : after? start text = some rest) :
    rest <:+ text := by
  rw [after?_eq_some_iff] at h
  exact ⟨start, h.symm⟩

theorem suffix_afterLower? {start text rest : List Char} (h : afterLower? start text = some rest) :
    rest <:+ text := by
  induction start generalizing text with
  | nil => exact Option.some.inj h ▸ List.suffix_rfl
  | cons p ps ih =>
      cases text with
      | nil => cases h
      | cons c cs =>
          rw [afterLower?] at h
          split at h
          · exact (ih h).trans (List.suffix_cons c cs)
          · cases h

theorem suffix_afterFirst? {start text rest : List Char} (h : afterFirst? start text = some rest) :
    rest <:+ text := by
  induction text with
  | nil => exact suffix_after? h
  | cons c cs ih =>
      rw [afterFirst?] at h
      split at h
      next here => exact Option.some.inj h ▸ suffix_after? here
      next => exact (ih h).trans (List.suffix_cons c cs)

theorem suffix_afterComment? {text rest : List Char} (h : afterComment? text = some rest) :
    rest <:+ text := by
  obtain ⟨inner, opened, closed⟩ := Option.bind_eq_some_iff.mp h
  exact (suffix_afterFirst? closed).trans (suffix_after? opened)

/-! ## The end of a tag -/

theorem suffix_afterQuote? {quote : Char} {text rest : List Char}
    (h : afterQuote? quote text = some rest) : rest <:+ text := by
  induction text with
  | nil => cases h
  | cons c cs ih =>
      rw [afterQuote?] at h
      split at h
      · exact Option.some.inj h ▸ List.suffix_cons c cs
      · exact (ih h).trans (List.suffix_cons c cs)

theorem suffix_tagEndAt? {text : List Char} {e : TagEnd} (h : tagEndAt? text = some e) :
    e.rest <:+ text := by
  unfold tagEndAt? at h
  split at h
  next rest =>
    obtain rfl := Option.some.inj h
    exact (List.suffix_cons '>' rest).trans (List.suffix_cons '/' _)
  next rest =>
    obtain rfl := Option.some.inj h
    exact List.suffix_cons '>' rest
  next => cases h

theorem suffix_findTagEnd? {text : List Char} {e : TagEnd} (h : findTagEnd? text = some e) :
    e.rest <:+ text := by
  fun_induction findTagEnd? text with
  | case1 => cases h
  | case2 c cs found here =>
      obtain rfl := Option.some.inj h
      exact suffix_tagEndAt? here
  | case3 c cs _ _ rest quoted ih =>
      exact ((ih h).trans (suffix_afterQuote? quoted)).trans (List.suffix_cons c cs)
  | case4 => cases h
  | case5 c cs _ _ ih => exact (ih h).trans (List.suffix_cons c cs)

theorem suffix_tagEnd? {text : List Char} {e : TagEnd} (h : tagEnd? text = some e) :
    e.rest <:+ text := by
  cases text with
  | nil => cases h
  | cons c cs =>
      rw [tagEnd?] at h
      split at h
      · exact (suffix_findTagEnd? h).trans (List.suffix_cons c cs)
      · exact suffix_tagEndAt? h

/-! ## Marks -/

theorem suffix_openingAt? {text rest : List Char} {tag : Opening}
    (h : openingAt? text = some (tag, rest)) : rest <:+ text := by
  unfold openingAt? at h
  split at h
  next c cs =>
    split at h
    · obtain ⟨e, ends, same⟩ := Option.map_eq_some_iff.mp h
      obtain ⟨-, rfl⟩ := Prod.mk.inj same
      have name : (c :: cs).dropWhile isTagChar <:+ c :: cs := List.dropWhile_suffix _
      exact ((suffix_tagEnd? ends).trans name).trans (List.suffix_cons '<' _)
    · cases h
  next => cases h

theorem suffix_markAt? {text rest : List Char} {mark : Mark}
    (h : markAt? text = some (mark, rest)) : rest <:+ text := by
  unfold markAt? at h
  split at h
  next behind comment =>
    obtain ⟨-, rfl⟩ := Prod.mk.inj (Option.some.inj h)
    exact suffix_afterComment? comment
  next =>
    obtain ⟨⟨tag, behind⟩, opens, same⟩ := Option.map_eq_some_iff.mp h
    obtain ⟨-, rfl⟩ := Prod.mk.inj same
    exact suffix_openingAt? opens

theorem suffix_templateMarkAt? {text rest : List Char} {mark : TemplateMark}
    (h : templateMarkAt? text = some (mark, rest)) : rest <:+ text := by
  unfold templateMarkAt? at h
  split at h
  next behind comment =>
    obtain ⟨-, rfl⟩ := Prod.mk.inj (Option.some.inj h)
    exact suffix_afterComment? comment
  next =>
    split at h
    next behind closing =>
      obtain ⟨e, ends, same⟩ := Option.map_eq_some_iff.mp h
      obtain ⟨-, rfl⟩ := Prod.mk.inj same
      exact (suffix_tagEnd? ends).trans (suffix_afterLower? closing)
    next =>
      split at h
      next behind opening =>
        obtain ⟨e, ends, same⟩ := Option.map_eq_some_iff.mp h
        obtain ⟨-, rfl⟩ := Prod.mk.inj same
        exact (suffix_tagEnd? ends).trans (suffix_afterLower? opening)
      next => cases h

/-! ## The end of a block -/

theorem suffix_afterClosing? {name text rest : List Char}
    (h : afterClosing? name text = some rest) : rest <:+ text := by
  obtain ⟨inner, named, closed⟩ := Option.bind_eq_some_iff.mp h
  have blanks : trimStart inner <:+ inner := List.dropWhile_suffix _
  exact ((suffix_after? closed).trans blanks).trans (suffix_afterLower? named)

theorem suffix_findClosing? {name text start rest : List Char}
    (h : findClosing? name text = some (start, rest)) : rest <:+ start ∧ start <:+ text := by
  induction text with
  | nil => cases h
  | cons c cs ih =>
      rw [findClosing?] at h
      split at h
      next behind here =>
        obtain ⟨rfl, rfl⟩ := Prod.mk.inj (Option.some.inj h)
        exact ⟨suffix_afterClosing? here, List.suffix_rfl⟩
      next => exact ⟨(ih h).1, (ih h).2.trans (List.suffix_cons c cs)⟩

theorem suffix_findTemplateClosing? {depth : Nat} {text start rest : List Char}
    (h : findTemplateClosing? depth text = some (start, rest)) :
    rest <:+ start ∧ start <:+ text := by
  fun_induction findTemplateClosing? depth text with
  | case1 => cases h
  | case2 depth c cs _ ih => exact ⟨(ih h).1, (ih h).2.trans (List.suffix_cons c cs)⟩
  | case3 depth c cs behind mark ih =>
      exact ⟨(ih h).1, (ih h).2.trans (suffix_templateMarkAt? mark)⟩
  | case4 depth c cs behind mark ih =>
      exact ⟨(ih h).1, (ih h).2.trans (suffix_templateMarkAt? mark)⟩
  | case5 depth c cs behind mark _ =>
      obtain ⟨rfl, rfl⟩ := Prod.mk.inj (Option.some.inj h)
      exact ⟨suffix_templateMarkAt? mark, List.suffix_rfl⟩
  | case6 depth c cs behind mark _ ih =>
      exact ⟨(ih h).1, (ih h).2.trans (suffix_templateMarkAt? mark)⟩

/-- A block ends in the text behind its tag, and what is left is left of where it ends. -/
theorem suffix_blockEnd? {tag : Opening} {text stop rest : List Char}
    (h : blockEnd? tag text = some (stop, rest)) : rest <:+ stop ∧ stop <:+ text := by
  unfold blockEnd? at h
  split at h
  · obtain ⟨rfl, rfl⟩ := Prod.mk.inj (Option.some.inj h)
    exact ⟨List.suffix_rfl, List.suffix_rfl⟩
  · split at h
    · exact suffix_findTemplateClosing? h
    · exact suffix_findClosing? h

/-! ## Places told by rests -/

theorem before_append {text rest : List Char} (h : rest <:+ text) :
    before text rest ++ rest = text := by
  obtain ⟨start, rfl⟩ := h
  rw [before, List.length_append, Nat.add_sub_cancel, List.take_left]

end DiffScope.Component
