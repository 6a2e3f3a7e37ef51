import Mathlib.Logic.Relation
import DiffScope.Proofs.Component.Offsets
import DiffScope.Proofs.Component.Stretches

/-! # Blocks close at the right place

Behind the content of every block that a scan finds stands the tag that closes the block, and no tag
before it does. Where a scan ends at a block that is not closed, no tag of the file behind closes it.
Read by bytes the blocks are the same, with every cut at the boundary of a character.
-/

namespace DiffScope.Component

open DiffScope.Report DiffScope.Text

/-! ## Blocks in a file -/

/-- A block with its tag, and what is left of the file at its places. -/
structure Block where
  tag : Opening
  /-- From the tag on. -/
  opens : List Char
  /-- From behind the tag on. -/
  begin : List Char
  /-- From the end of the content on. -/
  stop : List Char
  /-- From behind the block on. -/
  rest : List Char

namespace Block

def region (source : List Char) (b : Block) : Region := .of source b.tag b.begin b.stop

/-- The block stands in a file, with its content between its tag and what closes it. -/
structure ClosesIn (source : List Char) (b : Block) : Prop where
  inside : b.opens <:+ source
  opening : markAt? b.opens = some (.opening b.tag, b.begin)
  content : b.begin = (b.region source).content ++ b.stop
  empty : b.tag.closesItself = true → b.stop = b.begin ∧ b.rest = b.begin
  closing : b.tag.closesItself = false →
    ClosesBehind b.tag.name (b.region source).content b.stop b.rest

/-- The other block opens in what is left behind this one. -/
def Precedes (b later : Block) : Prop := later.opens <:+ b.rest

theorem closesIn_of {source text begin stop rest : List Char} {tag : Opening}
    (inside : text <:+ source) (mark : markAt? text = some (.opening tag, begin))
    (ends : blockEnd? tag begin = some (stop, rest)) :
    ClosesIn source ⟨tag, text, begin, stop, rest⟩ where
  inside := inside
  opening := mark
  content := (before_append (suffix_blockEnd? ends).2).symm
  empty itself := by
    rw [blockEnd?, if_pos itself] at ends
    obtain ⟨rfl, rfl⟩ := Prod.mk.inj (Option.some.inj ends)
    exact ⟨rfl, rfl⟩
  closing := closesBehind_of_blockEnd? ends

end Block

/-! ## Scans -/

namespace Scan

/-- The blocks that a scan has found stand one behind another before what is left of the file. -/
structure Closes (source : List Char) (s : Scan) (blocks : List Block) : Prop where
  left : s.rest <:+ source
  regions : blocks.map (Block.region source) = s.found
  closed : ∀ b ∈ blocks, b.ClosesIn source
  apart : blocks.Pairwise fun later earlier => earlier.Precedes later
  passed : ∀ b ∈ blocks, s.rest <:+ b.rest

theorem closes_start (source : List Char) : (start source).Closes source [] :=
  ⟨List.suffix_rfl, rfl, by simp, .nil, by simp⟩

section Steps

variable {source : List Char} {s t : Scan} {blocks : List Block}

theorem Closes.goOn {found : List Region} {text rest : List Char}
    (h : Closes source ⟨found, text⟩ blocks) (less : rest <:+ text) :
    Closes source ⟨found, rest⟩ blocks where
  left := less.trans h.left
  regions := h.regions
  closed := h.closed
  apart := h.apart
  passed b member := less.trans (h.passed b member)

theorem Closes.step (h : s.Closes source blocks) (step : Step source s t) :
    ∃ blocks', t.Closes source blocks' := by
  cases step with
  | skip => exact ⟨blocks, h.goOn (List.suffix_cons _ _)⟩
  | comment mark => exact ⟨blocks, h.goOn (suffix_markAt? mark)⟩
  | @block found text begin stop rest tag mark ends single =>
      obtain ⟨behind, inside⟩ := suffix_blockEnd? ends
      have next := h.goOn (behind.trans (inside.trans (suffix_markAt? mark)))
      refine ⟨⟨tag, text, begin, stop, rest⟩ :: blocks, next.left, ?_, ?_, ?_, ?_⟩
      · exact congrArg _ h.regions
      · exact List.forall_mem_cons.mpr ⟨Block.closesIn_of h.left mark ends, h.closed⟩
      · exact List.pairwise_cons.mpr ⟨h.passed, h.apart⟩
      · exact List.forall_mem_cons.mpr ⟨List.suffix_rfl, next.passed⟩

theorem exists_closes_of_steps (steps : Relation.ReflTransGen (Step source) (start source) s) :
    ∃ blocks, s.Closes source blocks := by
  induction steps with
  | refl => exact ⟨[], closes_start source⟩
  | tail _ step ih =>
      obtain ⟨blocks, closes⟩ := ih
      exact closes.step step

/-- A scan that comes to an end takes steps to a place where it ends. -/
theorem Runs.exists_steps {n : Nat} {result : Except LayoutError (List Region)}
    (runs : Runs source n s result) :
    ∃ t, Relation.ReflTransGen (Step source) s t ∧ Ends source t result := by
  induction runs with
  | ends ends => exact ⟨_, .refl, ends⟩
  | step step _ ih =>
      obtain ⟨t, steps, ends⟩ := ih
      exact ⟨t, .head step steps, ends⟩

theorem exists_steps (source : List Char) : ∃ s,
    Relation.ReflTransGen (Step source) (start source) s ∧ Ends source s (regions source) := by
  obtain ⟨n, runs⟩ := exists_runs source [] source
  exact runs.exists_steps

end Steps

end Scan

theorem exists_blocks_of_regions {source : List Char} {rs : List Region}
    (ok : regions source = .ok rs) : ∃ blocks : List Block,
      blocks.map (Block.region source) = rs ∧ (∀ b ∈ blocks, b.ClosesIn source) ∧
      blocks.Pairwise Block.Precedes := by
  obtain ⟨s, steps, ends⟩ := Scan.exists_steps source
  obtain ⟨blocks, closes⟩ := Scan.exists_closes_of_steps steps
  rw [ok] at ends
  cases ends with
  | done =>
      refine ⟨blocks.reverse, ?_, ?_, List.pairwise_reverse.mpr closes.apart⟩
      · rw [List.map_reverse, closes.regions]
      · exact fun b member => closes.closed b (List.mem_reverse.mp member)

theorem exists_opening_of_unclosed {source : List Char} {name : String} {line : Nat}
    (unclosed : regions source = .error (.unclosed name line)) : ∃ s tag begin,
      Relation.ReflTransGen (Scan.Step source) (.start source) s ∧
      markAt? s.rest = some (.opening tag, begin) ∧ tag.closesItself = false ∧
      NeverCloses tag.name begin ∧ name = String.ofList tag.name ∧ line = lineOf source s.rest := by
  obtain ⟨s, steps, ends⟩ := Scan.exists_steps source
  generalize result : regions source = outcome at ends
  cases ends with
  | done => cases unclosed.symm.trans result
  | duplicate => cases unclosed.symm.trans result
  | unclosed mark failed =>
      cases unclosed.symm.trans result
      obtain ⟨stays, never⟩ := neverCloses_of_blockEnd? failed
      exact ⟨_, _, _, steps, mark, stays, never, rfl, rfl⟩

/-- Where the blocks of a file are told, each stands in the file behind the ones before, and the tag
behind its content is the one that closes it. Where a block is told not to be closed, its tag stands
on the line that is told, where the scan of the file comes to it, and nothing behind closes it. Every
block of the file is the same when it is read by bytes, with no bad cut and with its ends at boundaries
of characters, which are the same in the copy of the file with small letters. -/
theorem blocks_close_at_their_own_tags (source : List Char) :
    (∀ rs, regions source = .ok rs → ∃ blocks : List Block,
      blocks.map (Block.region source) = rs ∧ (∀ b ∈ blocks, b.ClosesIn source) ∧
      blocks.Pairwise Block.Precedes) ∧
    (∀ name line, regions source = .error (.unclosed name line) → ∃ s tag begin,
      Relation.ReflTransGen (Scan.Step source) (.start source) s ∧
      markAt? s.rest = some (.opening tag, begin) ∧ tag.closesItself = false ∧
      NeverCloses tag.name begin ∧ name = String.ofList tag.name ∧ line = lineOf source s.rest) ∧
    (∀ text tag begin, text <:+ source → markAt? text = some (.opening tag, begin) →
      blockBytes? source tag (offsetOf source begin) =
        .ok ((blockEnd? tag begin).map fun (stop, rest) =>
          ⟨before begin stop, offsetOf source stop, offsetOf source rest⟩) ∧
      IsBoundary source (offsetOf source begin) ∧
      ∀ stop rest, blockEnd? tag begin = some (stop, rest) →
        IsBoundary source (offsetOf source stop) ∧ IsBoundary source (offsetOf source rest)) ∧
    ∀ n, IsBoundary (lower source) n ↔ IsBoundary source n := by
  refine ⟨fun rs => exists_blocks_of_regions, fun name line => exists_opening_of_unclosed, ?_,
    fun n => isBoundary_lower_iff⟩
  intro text tag begin inside mark
  have left := (suffix_markAt? mark).trans inside
  refine ⟨blockBytes?_eq (bracketless_of_markAt? mark) left, isBoundary_offsetOf left, ?_⟩
  intro stop rest ends
  obtain ⟨behind, within⟩ := suffix_blockEnd? ends
  exact ⟨isBoundary_offsetOf (within.trans left),
    isBoundary_offsetOf (behind.trans (within.trans left))⟩

/-- A script with the beginning of a tag that only nearly closes it, behind a character of two bytes,
and a template with other templates and a comment in it. -/
def nearMissText : List Char :=
  "é<script>\nlet a = '</script-x>'\n</Script >\n".toList ++
    "<template>\n<!-- </template> --><template><template/></template>\n</TEMPLATE>\n".toList

def nearMissBlocks : List Region :=
  [⟨.script, none, "\nlet a = '</script-x>'\n".toList, 1, 3⟩,
    ⟨.template, none,
      "\n<!-- </template> --><template><template/></template>\n".toList, 4, 6⟩]

theorem regions_nearMissText : regions nearMissText = .ok nearMissBlocks := by
  decide +kernel

def scriptTag : Opening := ⟨"script".toList, [], false⟩

theorem markAt?_nearMissText :
    markAt? (nearMissText.drop 1) = some (.opening scriptTag, nearMissText.drop 9) := by
  have comment : afterComment? (nearMissText.drop 1) = none := by decide +kernel
  have opens : openingAt? (nearMissText.drop 1) = some (scriptTag, nearMissText.drop 9) := by
    decide +kernel
  rw [markAt?, comment, opens]
  rfl

theorem blockEnd?_nearMissText :
    blockEnd? scriptTag (nearMissText.drop 9) = some (nearMissText.drop 32, nearMissText.drop 42) := by
  decide +kernel

/-- A component with a block that is not closed. -/
def openDocsText : List Char := "<style>p</style>\n<docs>\n</docs-x> </doc>\n".toList

theorem regions_openDocsText : regions openDocsText = .error (.unclosed "docs" 2) := by
  decide +kernel

theorem closings_of_nearMissText :
    (regions nearMissText = .ok nearMissBlocks ∧ ∃ blocks : List Block,
      blocks.map (Block.region nearMissText) = nearMissBlocks ∧
      (∀ b ∈ blocks, b.ClosesIn nearMissText) ∧ blocks.Pairwise Block.Precedes) ∧
    (regions openDocsText = .error (.unclosed "docs" 2) ∧ ∃ s tag begin,
      Relation.ReflTransGen (Scan.Step openDocsText) (.start openDocsText) s ∧
      markAt? s.rest = some (.opening tag, begin) ∧ tag.closesItself = false ∧
      NeverCloses tag.name begin ∧ "docs" = String.ofList tag.name ∧
      2 = lineOf openDocsText s.rest) ∧
    blockBytes? nearMissText scriptTag 10 =
      .ok (some ⟨"\nlet a = '</script-x>'\n".toList, 33, 43⟩) ∧
    IsBoundary nearMissText 33 ∧ IsBoundary nearMissText 43 := by
  obtain ⟨closed, -, bytes, -⟩ := blocks_close_at_their_own_tags nearMissText
  obtain ⟨-, unclosed, -, -⟩ := blocks_close_at_their_own_tags openDocsText
  obtain ⟨same, -, ends⟩ := bytes _ _ _ (List.drop_suffix 1 _) markAt?_nearMissText
  obtain ⟨stop, rest⟩ := ends _ _ blockEnd?_nearMissText
  obtain ⟨begins, stops, leaves, content⟩ :
      offsetOf nearMissText (nearMissText.drop 9) = 10 ∧
      offsetOf nearMissText (nearMissText.drop 32) = 33 ∧
      offsetOf nearMissText (nearMissText.drop 42) = 43 ∧
      before (nearMissText.drop 9) (nearMissText.drop 32) =
        "\nlet a = '</script-x>'\n".toList := by decide +kernel
  rw [blockEnd?_nearMissText, begins, Option.map_some] at same
  dsimp only at same
  rw [stops, leaves, content] at same
  rw [stops] at stop
  rw [leaves] at rest
  exact ⟨⟨regions_nearMissText, closed _ regions_nearMissText⟩,
    ⟨regions_openDocsText, unclosed _ _ regions_openDocsText⟩, same, stop, rest⟩

end DiffScope.Component
