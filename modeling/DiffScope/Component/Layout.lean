import DiffScope.Component.Tag
import DiffScope.Report.Result

/-!
# Blocks of a component

A component file is a row of blocks, each with a tag that opens it and one that closes it, or with a
tag that closes itself. Between blocks there may be comments and any other text. There is at most one
template, one plain script and one setup script.
-/

namespace DiffScope.Component

open DiffScope.Report DiffScope.Text

/-- A kind of block. -/
inductive BlockKind where
  | template
  | script
  | scriptSetup
  | style
  | custom (tag : String)
  deriving DecidableEq, Repr

namespace BlockKind

def ofOpening (tag : Opening) : BlockKind :=
  match String.ofList tag.name with
  | "template" => template
  | "script" => if tag.attributes.any (·.name = "setup".toList) then scriptSetup else script
  | "style" => style
  | name => custom name

def name : BlockKind → String
  | template => "template"
  | script => "script"
  | scriptSetup => "script setup"
  | style => "style"
  | custom tag => "custom:" ++ tag

def isScript : BlockKind → Bool
  | script | scriptSetup => true
  | _ => false

def isUnique : BlockKind → Bool
  | template | script | scriptSetup => true
  | _ => false

/-- Whether the block is neither template, script nor style. -/
def isCustom : BlockKind → Bool
  | custom _ => true
  | _ => false

end BlockKind

/-- A block. Its first line is the rest of the line of the tag that opens it. -/
structure Region where
  kind : BlockKind
  lang : Option (List Char)
  /-- What stands between the tags. -/
  content : List Char
  /-- The line of the file that the content starts on. -/
  startLine : Nat
  /-- The line of the file that the content ends on. -/
  endLine : Nat
  deriving DecidableEq, Repr

/-- The line of a text on which one of its rests begins. -/
def lineOf (source rest : List Char) : Nat :=
  newlines (before source rest) + 1

/-- Where the closing tag of a template stands, and what is left behind it, when so many templates
are open. -/
def findTemplateClosing? (depth : Nat) : List Char → Option (List Char × List Char)
  | [] => none
  | c :: cs =>
    match _h : templateMarkAt? (c :: cs) with
    | none => findTemplateClosing? depth cs
    | some (.neutral, rest) => findTemplateClosing? depth rest
    | some (.opening, rest) => findTemplateClosing? (depth + 1) rest
    | some (.closing, rest) =>
      if depth ≤ 1 then some (c :: cs, rest) else findTemplateClosing? (depth - 1) rest
  termination_by text => text.length
  decreasing_by
    · exact Nat.lt_succ_self _
    all_goals exact length_templateMarkAt? _h

theorem length_findTemplateClosing? {depth : Nat} {text start rest : List Char}
    (h : findTemplateClosing? depth text = some (start, rest)) :
    rest.length < start.length ∧ start.length ≤ text.length := by
  fun_induction findTemplateClosing? depth text with
  | case1 => simp at h
  | case2 depth c cs _ ih => exact ⟨(ih h).1, Nat.le_succ_of_le (ih h).2⟩
  | case3 depth c cs r hm ih =>
    exact ⟨(ih h).1, Nat.le_trans (ih h).2 (Nat.le_of_lt (length_templateMarkAt? hm))⟩
  | case4 depth c cs r hm ih =>
    exact ⟨(ih h).1, Nat.le_trans (ih h).2 (Nat.le_of_lt (length_templateMarkAt? hm))⟩
  | case5 depth c cs r hm _ =>
    simp only [Option.some.injEq, Prod.mk.injEq] at h
    obtain ⟨rfl, rfl⟩ := h
    exact ⟨length_templateMarkAt? hm, Nat.le_refl _⟩
  | case6 depth c cs r hm _ ih =>
    exact ⟨(ih h).1, Nat.le_trans (ih h).2 (Nat.le_of_lt (length_templateMarkAt? hm))⟩

/-- Where the content of a block ends, and what is left behind the block. -/
def blockEnd? (tag : Opening) (text : List Char) : Option (List Char × List Char) :=
  if tag.closesItself then some (text, text)
  else if tag.name = "template".toList then findTemplateClosing? 1 text
  else findClosing? tag.name text

theorem length_blockEnd? {tag : Opening} {text stop rest : List Char}
    (h : blockEnd? tag text = some (stop, rest)) : rest.length ≤ text.length := by
  unfold blockEnd? at h
  split at h
  · simp only [Option.some.injEq, Prod.mk.injEq] at h
    exact h.2 ▸ Nat.le_refl _
  · split at h
    · have := length_findTemplateClosing? h
      omega
    · have := length_findClosing? h
      omega

/-- The block that a tag opens, when its content starts and ends at rests of the file. -/
def Region.of (source : List Char) (tag : Opening) (start stop : List Char) : Region where
  kind := .ofOpening tag
  lang := (tag.attributes.find? (·.name = "lang".toList)).bind (·.value)
  content := before start stop
  startLine := lineOf source start
  endLine := lineOf source stop

/-- The word for a kind of which there is more than one block. -/
def duplicateName (kind : BlockKind) (tag : Opening) : String :=
  if kind = .scriptSetup then kind.name else String.ofList tag.name

/-- The blocks in the rest of a file, behind blocks that were found. -/
def regionsFrom (source : List Char) (found : List Region) :
    List Char → Except LayoutError (List Region)
  | [] => .ok found.reverse
  | c :: cs =>
    match _h : markAt? (c :: cs) with
    | none => regionsFrom source found cs
    | some (.comment, rest) => regionsFrom source found rest
    | some (.opening tag, start) =>
      match _h' : blockEnd? tag start with
      | none => .error (.unclosed (String.ofList tag.name) (lineOf source (c :: cs)))
      | some (stop, rest) =>
        let region := Region.of source tag start stop
        if region.kind.isUnique && found.any (·.kind = region.kind) then
          .error (.duplicate (duplicateName region.kind tag) (lineOf source (c :: cs)))
        else regionsFrom source (region :: found) rest
  termination_by text => text.length
  decreasing_by
    · exact Nat.lt_succ_self _
    · exact length_markAt? _h
    · exact Nat.lt_of_le_of_lt (length_blockEnd? _h') (length_markAt? _h)

/-- The blocks of a component file. -/
def regions (source : List Char) : Except LayoutError (List Region) :=
  regionsFrom source [] source

def metadataOf (rs : List Region) : Metadata where
  hasTemplate := rs.any (·.kind = .template)
  hasScript := rs.any (·.kind = .script)
  hasScriptSetup := rs.any (·.kind = .scriptSetup)
  styleCount := rs.countP (·.kind = .style)
  customBlockCount := rs.countP (·.kind.isCustom)

end DiffScope.Component
