import DiffScope.Proofs.Component.Contents

/-! # Splitting undoes writing

A component falls into the blocks that it was written from, each with its kind, its language and its
content on the lines where the content was written.
-/

namespace DiffScope.Component

open DiffScope.Text

theorem lineOf_append_right (above rest : List Char) :
    lineOf (above ++ rest) rest = newlines above + 1 := by
  rw [lineOf, before_append_right]

theorem ofOpening_opening (b : WrittenBlock) (closesItself : Bool) :
    BlockKind.ofOpening (b.tag.opening closesItself) = b.kind := by
  have setup : (b.tag.opening closesItself).attributes.any (·.name = "setup".toList) =
      b.tag.attributes.any (fun a => lower a.name = "setup".toList) := by
    rw [WrittenTag.opening, List.any_map]
    rfl
  have named : ∀ {name : List Char} {word : String},
      String.ofList name = word ↔ name = word.toList := by
    intro name word
    rw [← String.toList_inj, String.toList_ofList]
  unfold BlockKind.ofOpening WrittenBlock.kind
  rw [setup, show (b.tag.opening closesItself).name = lower b.tag.name from rfl]
  generalize lower b.tag.name = name
  split
  next same =>
    obtain rfl := named.mp same
    rfl
  next same =>
    obtain rfl := named.mp same
    rfl
  next same =>
    obtain rfl := named.mp same
    rfl
  next template script style =>
    rw [named] at template script style
    rw [if_neg template, if_neg script, if_neg style]

/-- The language of a block is that of the first attribute that says one. -/
theorem lang_opening (b : WrittenBlock) (closesItself : Bool) :
    ((b.tag.opening closesItself).attributes.find? (·.name = "lang".toList)).bind (·.value) =
      b.lang := by
  rw [WrittenTag.opening, List.find?_map, Option.bind_map]
  rfl

/-- A block behind a text is read as it is meant. -/
theorem region_of_text (b : WrittenBlock) (above rest : List Char) :
    Region.of (above ++ (b.text ++ rest)) (b.tag.opening b.closesItself)
      (b.inner ++ (b.tail ++ rest)) (b.tail ++ rest) = b.region above := by
  have upToHead : above ++ (b.text ++ rest) = (above ++ b.head) ++ (b.inner ++ (b.tail ++ rest)) := by
    simp [WrittenBlock.text]
  have upToInner : above ++ (b.text ++ rest) = (above ++ b.head ++ b.inner) ++ (b.tail ++ rest) := by
    simp [WrittenBlock.text]
  rw [Region.of, ofOpening_opening, lang_opening, before_append_right]
  conv_lhs =>
    enter [4]
    rw [upToHead, lineOf_append_right]
  conv_lhs =>
    enter [5]
    rw [upToInner, lineOf_append_right]
  rfl

theorem markAt?_block (b : WrittenBlock) (rest : List Char) :
    markAt? (b.text ++ rest) =
      some (.opening (b.tag.opening b.closesItself), b.inner ++ (b.tail ++ rest)) := by
  have parts : b.text ++ rest =
      b.tag.text ++ (tagEndText b.closesItself ++ (b.inner ++ (b.tail ++ rest))) := by
    simp [WrittenBlock.text, WrittenBlock.head]
  rw [parts, markAt?_tag]

/-- Parts of a component are read behind blocks of other kinds, as far as kinds are unique. -/
theorem regionsFrom_pieces (above : List Char) {found : List Region} (pieces : List Piece)
    (single : (pieces.filterMap Piece.block?).Pairwise fun a b => a.kind.isUnique → b.kind ≠ a.kind)
    (others : ∀ r ∈ found, ∀ b ∈ pieces.filterMap Piece.block?, r.kind.isUnique → b.kind ≠ r.kind) :
    regionsFrom (above ++ piecesText pieces) found (piecesText pieces) =
      .ok (found.reverse ++ regionsOf above pieces) := by
  -- Each part goes over to the text above, and a block to those found as well.
  induction pieces generalizing above found with
  | nil => simp [piecesText, regionsFrom, regionsOf]
  | cons p ps ih =>
      have parts : piecesText (p :: ps) = p.chars ++ piecesText ps := List.flatMap_cons
      have below : above ++ (p.chars ++ piecesText ps) = above ++ p.chars ++ piecesText ps :=
        (List.append_assoc ..).symm
      rw [parts]
      cases p with
      | text chars untagged =>
          rw [Piece.chars] at below ⊢
          rw [regionsFrom_append untagged, below, ih (above ++ chars) single others]
          rfl
      | comment c =>
          rw [Piece.chars] at below ⊢
          rw [regionsFrom_comment (markAt?_comment c _), below, ih (above ++ c.text) single others]
          rfl
      | block b =>
          obtain ⟨unlike, rest⟩ := List.pairwise_cons.mp single
          have once : ¬((b.region above).kind.isUnique &&
              found.any (·.kind = (b.region above).kind)) = true := by
            intro twice
            rw [Bool.and_eq_true, List.any_eq_true] at twice
            obtain ⟨unique, r, member, same⟩ := twice
            have kind := of_decide_eq_true same
            exact others r member b List.mem_cons_self (kind ▸ unique) kind.symm
          have further : ∀ r ∈ b.region above :: found, ∀ b' ∈ ps.filterMap Piece.block?,
              r.kind.isUnique → b'.kind ≠ r.kind := by
            refine List.forall_mem_cons.mpr ⟨unlike, fun r member b' among => ?_⟩
            exact others r member b' (List.mem_cons_of_mem b among)
          rw [Piece.chars] at below ⊢
          rw [regionsFrom_opening (markAt?_block b _), blockEnd?_text]
          dsimp only
          rw [region_of_text, if_neg once, below, ih (above ++ b.text) rest further, regionsOf,
            List.reverse_cons, List.append_assoc]
          rfl

/-- Splitting a component gives the blocks that it was written from. -/
theorem splitting_undoes_writing (w : WrittenComponent) : regions w.text = .ok w.regions :=
  regionsFrom_pieces [] w.pieces w.single (by simp)

/-- The tag of a slot in a template. -/
def slotTag : WrittenTag where
  initial := 't'
  others := "emplate".toList
  attributes := [{
    gap := [' ']
    name := "title".toList
    value := some "a > b".toList
    apart := by decide
    blank := List.all_eq_true.mp rfl
    named := by decide
    nameChars := List.all_eq_true.mp rfl
    quotable := by
      rintro v ⟨⟩
      decide }]
  letter := rfl
  tagChars := List.all_eq_true.mp rfl

/-- A template with a slot, and a comment. -/
def slotComponent : WrittenComponent where
  pieces := [
    .block {
      tag := ⟨'t', "emplate".toList, [], rfl, List.all_eq_true.mp rfl⟩
      content := some ([] ++ (slotTag.text ++ (tagEndText false ++
        (['x'] ++ (closingTag ("template".toList ++ [' ']) ++ ['\n'])))))
      closable := by
        have empty : Unmarked [] := ⟨by decide, by decide, by decide⟩
        have letter : Unmarked ['x'] := ⟨by decide, by decide, by decide⟩
        have newline : Unmarked ['\n'] := ⟨by decide, by decide, by decide⟩
        intro text same
        obtain rfl := Option.some.inj same
        exact TemplateText.nested empty slotTag (by decide) (.plain letter) (by decide)
          (List.all_eq_true.mp rfl) (.plain newline) },
    .comment ⟨" <script> ".toList, by decide +kernel⟩]
  single := List.pairwise_singleton _ _

example : slotComponent.text =
    "<template><template title=\"a > b\">x</template >\n</template><!-- <script> -->".toList := by rfl

example : slotComponent.regions =
    [⟨.template, none, "<template title=\"a > b\">x</template >\n".toList, 1, 2⟩] := by rfl

end DiffScope.Component
