import DiffScope.Component.Layout

/-! # Written components

A component as it is meant: blocks with their tags and contents, and between them comments and text
without tags. A value in quotes may hold anything but its quote. The content of a block must not hold
what would close the block, and in a template other templates are closed again.
-/

namespace DiffScope.Component

open DiffScope.Text

/-! ## Tags -/

/-- An attribute behind blanks, with its value in double quotes if it has one. -/
structure WrittenAttribute where
  gap : List Char
  name : List Char
  value : Option (List Char)
  apart : gap ≠ []
  blank : ∀ c ∈ gap, isBlank c = true
  named : name ≠ []
  nameChars : ∀ c ∈ name, isNameChar c = true
  quotable : ∀ v, value = some v → '"' ∉ v

namespace WrittenAttribute

def valueText (a : WrittenAttribute) : List Char :=
  match a.value with
  | none => []
  | some v => '=' :: '"' :: (v ++ ['"'])

def text (a : WrittenAttribute) : List Char := a.gap ++ (a.name ++ a.valueText)

/-- What should be read of the attribute. -/
def meant (a : WrittenAttribute) : Attribute := ⟨lower a.name, a.value⟩

end WrittenAttribute

/-- The text of attributes. -/
def attributesText (attributes : List WrittenAttribute) : List Char :=
  attributes.flatMap WrittenAttribute.text

/-- A tag that opens a block or a template. -/
structure WrittenTag where
  initial : Char
  others : List Char
  attributes : List WrittenAttribute
  letter : initial.isAlpha = true
  tagChars : ∀ c ∈ others, isTagChar c = true

namespace WrittenTag

def name (t : WrittenTag) : List Char := t.initial :: t.others

/-- The tag but for its end. -/
def text (t : WrittenTag) : List Char := '<' :: (t.name ++ attributesText t.attributes)

/-- What should be read of the tag. -/
def opening (t : WrittenTag) (closesItself : Bool) : Opening :=
  ⟨lower t.name, t.attributes.map WrittenAttribute.meant, closesItself⟩

end WrittenTag

/-- The end of a tag. -/
def tagEndText (closesItself : Bool) : List Char := if closesItself then ['/', '>'] else ['>']

/-- The tag that closes a block or a template. -/
def closingTag (name : List Char) : List Char := '<' :: '/' :: (name ++ ['>'])

structure WrittenComment where
  body : List Char
  unended : ¬"-->".toList <:+: body

def WrittenComment.text (c : WrittenComment) : List Char :=
  "<!--".toList ++ (c.body ++ "-->".toList)

/-! ## Contents -/

/-- A text in a template without what could be a comment or a tag of a template. -/
structure Unmarked (text : List Char) : Prop where
  comment : ¬"<!--".toList <:+: text
  opening : ¬"<template".toList <:+: lower text
  closing : ¬"</template".toList <:+: lower text

/-- A text in which every comment ends and every template is closed. -/
inductive TemplateText : List Char → Prop
  | plain {before : List Char} (unmarked : Unmarked before) : TemplateText before
  | comment {before rest : List Char} (unmarked : Unmarked before) (c : WrittenComment)
      (behind : TemplateText rest) : TemplateText (before ++ (c.text ++ rest))
  | closed {before rest : List Char} (unmarked : Unmarked before) (t : WrittenTag)
      (template : lower t.name = "template".toList) (behind : TemplateText rest) :
      TemplateText (before ++ (t.text ++ (tagEndText true ++ rest)))
  | nested {before inner rest closing gap : List Char} (unmarked : Unmarked before)
      (t : WrittenTag) (template : lower t.name = "template".toList) (inside : TemplateText inner)
      (closes : lower closing = "template".toList) (blank : ∀ c ∈ gap, isBlank c = true)
      (behind : TemplateText rest) :
      TemplateText
        (before ++ (t.text ++ (tagEndText false ++ (inner ++ (closingTag (closing ++ gap) ++ rest)))))

/-- A tag in the text closes a block of the name. -/
def HasClosing (name text : List Char) : Prop :=
  ∃ spelt blanks, lower spelt = name ∧ (∀ c ∈ blanks, isBlank c = true) ∧
    '<' :: '/' :: (spelt ++ (blanks ++ ['>'])) <:+: text

/-- A text that can be the content of a block of the name. -/
def IsContent (name text : List Char) : Prop :=
  if name = "template".toList then TemplateText text else ¬HasClosing name text

/-! ## Components -/

/-- A block with its content, or one that closes itself. -/
structure WrittenBlock where
  tag : WrittenTag
  content : Option (List Char)
  closable : ∀ text, content = some text → IsContent (lower tag.name) text

namespace WrittenBlock

def closesItself (b : WrittenBlock) : Bool := b.content.isNone

/-- The block up to its content. -/
def head (b : WrittenBlock) : List Char := b.tag.text ++ tagEndText b.closesItself

def inner (b : WrittenBlock) : List Char := b.content.getD []

/-- The block behind its content. -/
def tail (b : WrittenBlock) : List Char :=
  if b.closesItself then [] else closingTag b.tag.name

def text (b : WrittenBlock) : List Char := b.head ++ (b.inner ++ b.tail)

/-- What block it is, which its name decides and for scripts whether they are for setup. -/
def kind (b : WrittenBlock) : BlockKind :=
  if lower b.tag.name = "template".toList then .template
  else if lower b.tag.name = "script".toList then
    if b.tag.attributes.any (fun a => lower a.name = "setup".toList) then .scriptSetup else .script
  else if lower b.tag.name = "style".toList then .style
  else .custom (String.ofList (lower b.tag.name))

/-- The value of the first attribute that is called so, if it has one. -/
def lang (b : WrittenBlock) : Option (List Char) :=
  (b.tag.attributes.find? fun a => lower a.name = "lang".toList).bind WrittenAttribute.value

/-- What should be read of the block behind a text. -/
def region (b : WrittenBlock) (above : List Char) : Region where
  kind := b.kind
  lang := b.lang
  content := b.inner
  startLine := newlines (above ++ b.head) + 1
  endLine := newlines (above ++ b.head ++ b.inner) + 1

end WrittenBlock

/-- A part of a component. -/
inductive Piece where
  | text (chars : List Char) (untagged : '<' ∉ chars)
  | comment (c : WrittenComment)
  | block (b : WrittenBlock)

namespace Piece

def chars : Piece → List Char
  | text chars _ => chars
  | comment c => c.text
  | block b => b.text

def block? : Piece → Option WrittenBlock
  | block b => some b
  | _ => none

end Piece

/-- The text of parts. -/
def piecesText (pieces : List Piece) : List Char := pieces.flatMap Piece.chars

/-- What should be read of parts behind a text. -/
def regionsOf (above : List Char) : List Piece → List Region
  | [] => []
  | .block b :: pieces => b.region above :: regionsOf (above ++ b.text) pieces
  | p :: pieces => regionsOf (above ++ p.chars) pieces

/-- A component with at most one template, one plain script and one setup script. -/
structure WrittenComponent where
  pieces : List Piece
  single : (pieces.filterMap Piece.block?).Pairwise fun a b => a.kind.isUnique → b.kind ≠ a.kind

namespace WrittenComponent

def text (w : WrittenComponent) : List Char := piecesText w.pieces

def regions (w : WrittenComponent) : List Region := regionsOf [] w.pieces

end WrittenComponent

end DiffScope.Component
