import Mathlib.Data.List.Nodup
import DiffScope.Proofs.Component.Closed

/-! # No kind is told twice

A scan never finds two templates, two plain scripts or two setup scripts, so that what is told of the
blocks of a file in summary adds up to their number. Where a block is refused, there is an earlier one
of its kind.
-/

namespace DiffScope.Component

open DiffScope.Report DiffScope.Text

/-! ## Kinds and their names -/

namespace BlockKind

theorem isUnique_iff {k : BlockKind} :
    k.isUnique = true ↔ k ∈ [template, script, scriptSetup] := by
  cases k <;> simp [isUnique]

/-- A block that there is one of is called by its tag, but for a setup script. -/
theorem name_eq_of_ofOpening {tag : Opening} (unique : (ofOpening tag).isUnique = true)
    (other : ofOpening tag ≠ scriptSetup) : (ofOpening tag).name = String.ofList tag.name := by
  revert unique other
  unfold ofOpening
  split
  next same => exact fun _ _ => same.symm
  next same =>
    split
    · exact fun _ other => absurd rfl other
    · exact fun _ _ => same.symm
  next => exact fun unique => absurd unique Bool.false_ne_true
  next => exact fun unique => absurd unique Bool.false_ne_true

end BlockKind

theorem duplicateName_eq {tag : Opening} (unique : (BlockKind.ofOpening tag).isUnique = true) :
    duplicateName (.ofOpening tag) tag = (BlockKind.ofOpening tag).name := by
  rw [duplicateName]
  split
  · rfl
  next other => exact (BlockKind.name_eq_of_ofOpening unique other).symm

/-! ## Distinct kinds -/

/-- Of templates, plain scripts and setup scripts there is at most one each. -/
def IsDistinct (rs : List Region) : Prop :=
  ((rs.map Region.kind).filter BlockKind.isUnique).Nodup

namespace IsDistinct

variable {rs : List Region} {r : Region}

theorem nil : IsDistinct [] := List.nodup_nil

theorem reverse (h : IsDistinct rs) : IsDistinct rs.reverse := by
  rw [IsDistinct, List.map_reverse, List.filter_reverse, List.nodup_reverse]
  exact h

theorem cons (h : IsDistinct rs) (single : ¬IsDuplicate rs r) : IsDistinct (r :: rs) := by
  rw [IsDistinct, List.map_cons, List.filter_cons]
  split
  next unique =>
    refine List.nodup_cons.mpr ⟨fun member => single ?_, h⟩
    obtain ⟨earlier, among, same⟩ := List.mem_map.mp (List.mem_of_mem_filter member)
    rw [IsDuplicate, unique, Bool.true_and, List.any_eq_true]
    exact ⟨earlier, among, decide_eq_true same⟩
  next => exact h

theorem countP_le_one (h : IsDistinct rs) {k : BlockKind} (unique : k.isUnique = true) :
    rs.countP (·.kind = k) ≤ 1 := by
  have once := List.nodup_iff_count_le_one.mp h k
  rw [List.count_filter unique, List.count, List.countP_map] at once
  exact once

end IsDistinct

namespace Scan

variable {source : List Char} {s t : Scan}

theorem Step.isDistinct (step : Step source s t) (h : IsDistinct s.found) : IsDistinct t.found := by
  cases step with
  | skip => exact h
  | comment => exact h
  | block mark ends single => exact h.cons single

theorem isDistinct_of_steps (steps : Relation.ReflTransGen (Step source) (start source) s) :
    IsDistinct s.found := by
  induction steps with
  | refl => exact .nil
  | tail _ step ih => exact step.isDistinct ih

end Scan

/-! ## Summaries -/

/-- The number of blocks that a summary tells of. -/
def blockCount (m : Metadata) : Nat :=
  m.hasTemplate.toNat + m.hasScript.toNat + m.hasScriptSetup.toNat + m.styleCount +
    m.customBlockCount

theorem toNat_any_eq_countP {rs : List Region} {p : Region → Bool} (once : rs.countP p ≤ 1) :
    (rs.any p).toNat = rs.countP p := by
  cases some : rs.any p with
  | true =>
      have positive := List.countP_pos_iff.mpr (List.any_eq_true.mp some)
      exact Nat.le_antisymm positive once
  | false =>
      rw [List.any_eq_false] at some
      exact (List.countP_eq_zero.mpr some).symm

/-- Every block is of one of five kinds. -/
theorem countP_kinds (rs : List Region) :
    rs.countP (·.kind = .template) + rs.countP (·.kind = .script) +
      rs.countP (·.kind = .scriptSetup) + rs.countP (·.kind = .style) +
      rs.countP (·.kind.isCustom) = rs.length := by
  induction rs with
  | nil => rfl
  | cons r rs ih =>
      simp only [List.countP_cons, List.length_cons, ← ih]
      cases r.kind <;> simp [BlockKind.isCustom] <;> omega

theorem IsDistinct.blockCount_metadataOf {rs : List Region} (h : IsDistinct rs) :
    blockCount (metadataOf rs) = rs.length := by
  rw [← countP_kinds, blockCount, metadataOf]
  simp only [toNat_any_eq_countP (h.countP_le_one (k := .template) rfl),
    toNat_any_eq_countP (h.countP_le_one (k := .script) rfl),
    toNat_any_eq_countP (h.countP_le_one (k := .scriptSetup) rfl)]

/-! ## Blocks that are refused -/

/-- A scan of a file comes by blocks of which none is one too many, and then to another one, which
closes as they do, of a kind that is called so and told of one of them. -/
structure Repeats (source : List Char) (earlier : List Block) (later : Block) (name : String) :
    Prop where
  reached : Relation.ReflTransGen (Scan.Step source) (.start source)
    ⟨(earlier.map (Block.region source)).reverse, later.opens⟩
  closed : ∀ b ∈ earlier ++ [later], b.ClosesIn source
  apart : (earlier ++ [later]).Pairwise Block.Precedes
  distinct : IsDistinct (earlier.map (Block.region source))
  unique : (later.region source).kind ∈ [.template, .script, .scriptSetup]
  twice : ∃ b ∈ earlier, (b.region source).kind = (later.region source).kind
  name : name = (later.region source).kind.name

theorem exists_repeats_of_duplicate {source : List Char} {name : String} {line : Nat}
    (refused : regions source = .error (.duplicate name line)) :
    ∃ earlier later, Repeats source earlier later name ∧ line = lineOf source later.opens := by
  obtain ⟨s, steps, ends⟩ := Scan.exists_steps source
  obtain ⟨blocks, closes⟩ := Scan.exists_closes_of_steps steps
  have distinct := Scan.isDistinct_of_steps steps
  generalize result : regions source = outcome at ends
  cases ends with
  | done => cases refused.symm.trans result
  | unclosed => cases refused.symm.trans result
  | @duplicate found text begin stop rest tag mark ends twice =>
      cases refused.symm.trans result
      obtain ⟨unique, some⟩ := Bool.and_eq_true_iff.mp twice
      obtain ⟨r, among, same⟩ := List.any_eq_true.mp some
      have found_eq : found = blocks.map (Block.region source) := closes.regions.symm
      subst found_eq
      obtain ⟨b, member, rfl⟩ := List.mem_map.mp among
      let later : Block := ⟨tag, text, begin, stop, rest⟩
      refine ⟨blocks.reverse, later, ⟨?_, ?_, ?_, ?_, ?_, ?_, ?_⟩, rfl⟩
      · rw [List.map_reverse, List.reverse_reverse]
        exact steps
      · refine List.forall_mem_append.mpr ⟨fun b member => ?_, List.forall_mem_singleton.mpr ?_⟩
        · exact closes.closed b (List.mem_reverse.mp member)
        · exact Block.closesIn_of closes.left mark ends
      · rw [List.pairwise_append]
        refine ⟨List.pairwise_reverse.mpr closes.apart, List.pairwise_singleton _ _, ?_⟩
        intro b member c last
        rw [List.mem_singleton.mp last]
        exact closes.passed b (List.mem_reverse.mp member)
      · rw [List.map_reverse]
        exact distinct.reverse
      · exact BlockKind.isUnique_iff.mp unique
      · exact ⟨b, List.mem_reverse.mpr member, of_decide_eq_true same⟩
      · exact duplicateName_eq unique

theorem isDistinct_of_regions {source : List Char} {rs : List Region}
    (ok : regions source = .ok rs) : IsDistinct rs := by
  obtain ⟨s, steps, ends⟩ := Scan.exists_steps source
  have distinct := Scan.isDistinct_of_steps steps
  rw [ok] at ends
  cases ends with
  | done => exact distinct.reverse

/-- Where the blocks of a file are told, at most one of them is a template, one a plain script and one
a setup script, and their summary tells of each block once. Where a block is told to be one too many,
it closes and so does an earlier block of its kind, it opens on the line that is told, and the blocks
before it are not too many. -/
theorem kinds_of_blocks_are_told_once (source : List Char) :
    (∀ rs, regions source = .ok rs →
      (∀ k ∈ [BlockKind.template, .script, .scriptSetup], rs.countP (·.kind = k) ≤ 1) ∧
      blockCount (metadataOf rs) = rs.length) ∧
    ∀ name line, regions source = .error (.duplicate name line) →
      ∃ earlier later, Repeats source earlier later name ∧ line = lineOf source later.opens := by
  refine ⟨fun rs ok => ?_, fun name line => exists_repeats_of_duplicate⟩
  have distinct := isDistinct_of_regions ok
  refine ⟨fun k unique => ?_, distinct.blockCount_metadataOf⟩
  exact distinct.countP_le_one (BlockKind.isUnique_iff.mpr unique)

/-- A component with two setup scripts, one of which is written in capitals. -/
def twoSetupsText : List Char :=
  "<script>a</script>\n<script setup>b</script>\n<docs/>\n<SCRIPT lang=\"ts\" SETUP>c</SCRIPT>\n".toList

theorem regions_twoSetupsText :
    regions twoSetupsText = .error (.duplicate "script setup" 4) := by
  decide +kernel

theorem kinds_of_cardText :
    (regions cardText = .ok cardBlocks ∧
      (∀ k ∈ [BlockKind.template, .script, .scriptSetup], cardBlocks.countP (·.kind = k) ≤ 1) ∧
      blockCount (metadataOf cardBlocks) = 2) ∧
    regions twoSetupsText = .error (.duplicate "script setup" 4) ∧
    ∃ earlier later, Repeats twoSetupsText earlier later "script setup" ∧
      4 = lineOf twoSetupsText later.opens := by
  obtain ⟨told, -⟩ := kinds_of_blocks_are_told_once cardText
  obtain ⟨-, refused⟩ := kinds_of_blocks_are_told_once twoSetupsText
  exact ⟨⟨regions_cardText, told _ regions_cardText⟩, regions_twoSetupsText,
    refused _ _ regions_twoSetupsText⟩

end DiffScope.Component
