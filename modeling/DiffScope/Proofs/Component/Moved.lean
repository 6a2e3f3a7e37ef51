import DiffScope.Proofs.Component.Regions

/-! # Blocks further down

A text without tags before a component moves every block down by its line feeds, and changes nothing
else about the blocks.
-/

namespace DiffScope.Report

def LayoutError.moved (k : Nat) : LayoutError → LayoutError
  | unclosed tag line => unclosed tag (line + k)
  | duplicate tag line => duplicate tag (line + k)

end DiffScope.Report

namespace DiffScope.Component

open DiffScope.Report DiffScope.Text

def Region.moved (k : Nat) (r : Region) : Region :=
  { r with startLine := r.startLine + k, endLine := r.endLine + k }

/-! ## Text without tags -/

theorem markAt?_of_ne {c : Char} (other : c ≠ '<') (cs : List Char) : markAt? (c :: cs) = none := by
  have comment : afterComment? (c :: cs) = none := by
    simp [afterComment?, after?, Ne.symm other]
  have opening : openingAt? (c :: cs) = none := by
    unfold openingAt?
    split
    next same =>
      obtain ⟨rfl, -⟩ := List.cons.inj same
      exact absurd rfl other
    next => rfl
  rw [markAt?, comment, opening]
  rfl

/-! ## Steps through a file -/

section Steps

variable {source : List Char} {found : List Region} {text start stop rest : List Char}
variable {tag : Opening}

theorem regionsFrom_skip {c : Char} {cs : List Char} (mark : markAt? (c :: cs) = none) :
    regionsFrom source found (c :: cs) = regionsFrom source found cs := by
  rw [regionsFrom]
  split
  next => rfl
  next other => cases mark.symm.trans other
  next other => cases mark.symm.trans other

theorem regionsFrom_comment (mark : markAt? text = some (.comment, rest)) :
    regionsFrom source found text = regionsFrom source found rest := by
  cases text with
  | nil => cases mark
  | cons c cs =>
      rw [regionsFrom]
      split
      next other => cases mark.symm.trans other
      next rest' other =>
        obtain ⟨-, rfl⟩ := Prod.mk.inj (Option.some.inj (mark.symm.trans other))
        rfl
      next other => cases mark.symm.trans other

/-- What becomes of a file from a tag on. -/
theorem regionsFrom_opening (mark : markAt? text = some (.opening tag, start)) :
    regionsFrom source found text =
      match blockEnd? tag start with
      | none => .error (.unclosed (String.ofList tag.name) (lineOf source text))
      | some (stop, rest) =>
        if (Region.of source tag start stop).kind.isUnique &&
            found.any (·.kind = (Region.of source tag start stop).kind) then
          .error (.duplicate (duplicateName (Region.of source tag start stop).kind tag)
            (lineOf source text))
        else regionsFrom source (Region.of source tag start stop :: found) rest := by
  cases text with
  | nil => cases mark
  | cons c cs =>
      rw [regionsFrom]
      split
      next other => cases mark.symm.trans other
      next other => cases mark.symm.trans other
      next tag' start' same =>
        obtain ⟨here, rfl⟩ := Prod.mk.inj (Option.some.inj (mark.symm.trans same))
        obtain rfl := Mark.opening.inj here
        split
        next ends => rw [ends]
        next ends => rw [ends]

/-- Text without tags before a text has no blocks. -/
theorem regionsFrom_append {plain : List Char} (untagged : '<' ∉ plain) (text : List Char) :
    regionsFrom source found (plain ++ text) = regionsFrom source found text := by
  induction plain with
  | nil => rfl
  | cons c cs ih =>
      rw [List.mem_cons, not_or] at untagged
      have mark := markAt?_of_ne (Ne.symm untagged.1) (cs ++ text)
      rw [List.cons_append, regionsFrom_skip mark, ih untagged.2]

end Steps

/-! ## Moving -/

section Moving

variable {source : List Char}

theorem lineOf_append (above : List Char) {rest : List Char} (left : rest <:+ source) :
    lineOf (above ++ source) rest = lineOf source rest + newlines above := by
  have length := left.length_le
  have split : (above ++ source).length - rest.length =
      above.length + (source.length - rest.length) := by
    rw [List.length_append]
    omega
  rw [lineOf, lineOf, before, before, split, List.take_length_add_append, newlines, newlines,
    newlines, List.count_append]
  omega

theorem Region.of_append (above : List Char) (tag : Opening) {start stop : List Char}
    (started : start <:+ source) (stopped : stop <:+ start) :
    Region.of (above ++ source) tag start stop =
      (Region.of source tag start stop).moved (newlines above) := by
  simp only [Region.of, Region.moved, lineOf_append above started,
    lineOf_append above (stopped.trans started)]

/-- What is found in a file, with all its lines further down. -/
def movedLayout (k : Nat) : Except LayoutError (List Region) → Except LayoutError (List Region)
  | .ok rs => .ok (rs.map (Region.moved k))
  | .error e => .error (e.moved k)

theorem any_kind_map_moved (k : Nat) (found : List Region) (kind : BlockKind) :
    (found.map (Region.moved k)).any (·.kind = kind) = found.any (·.kind = kind) := by
  rw [List.any_map]
  rfl

theorem regionsFrom_moved (above : List Char) {found : List Region} {text : List Char}
    (left : text <:+ source) :
    regionsFrom (above ++ source) (found.map (Region.moved (newlines above))) text =
      movedLayout (newlines above) (regionsFrom source found text) := by
  fun_induction regionsFrom source found text with
  | case1 found => rw [regionsFrom, movedLayout, List.map_reverse]
  | case2 found c cs mark ih =>
      rw [regionsFrom_skip mark, ih ((List.suffix_cons c cs).trans left)]
  | case3 found c cs rest mark ih =>
      rw [regionsFrom_comment mark, ih ((suffix_markAt? mark).trans left)]
  | case4 found c cs tag start mark ends =>
      rw [regionsFrom_opening mark, ends, lineOf_append above left]
      rfl
  | case5 found c cs tag start mark stop rest ends region duplicate =>
      have started := (suffix_markAt? mark).trans left
      have same : Region.of (above ++ source) tag start stop = region.moved (newlines above) :=
        Region.of_append above tag started (suffix_blockEnd? ends).2
      have twice : ((region.moved (newlines above)).kind.isUnique &&
          (found.map (Region.moved (newlines above))).any
            (·.kind = (region.moved (newlines above)).kind)) = true := by
        rw [any_kind_map_moved]
        exact duplicate
      rw [regionsFrom_opening mark, ends]
      dsimp only
      rw [same, if_pos twice, lineOf_append above left]
      rfl
  | case6 found c cs tag start mark stop rest ends region single ih =>
      obtain ⟨behind, inside⟩ := suffix_blockEnd? ends
      have started := (suffix_markAt? mark).trans left
      have same : Region.of (above ++ source) tag start stop = region.moved (newlines above) :=
        Region.of_append above tag started inside
      have once : ¬((region.moved (newlines above)).kind.isUnique &&
          (found.map (Region.moved (newlines above))).any
            (·.kind = (region.moved (newlines above)).kind)) = true := by
        rw [any_kind_map_moved]
        exact single
      rw [regionsFrom_opening mark, ends]
      dsimp only
      rw [same, if_neg once]
      exact ih ((behind.trans inside).trans started)

/-- A file has the same blocks behind text without tags, only further down. -/
theorem regions_append {above : List Char} (untagged : '<' ∉ above) (source : List Char) :
    regions (above ++ source) = movedLayout (newlines above) (regions source) := by
  rw [regions, regionsFrom_append untagged]
  have none : [] = ([] : List Region).map (Region.moved (newlines above)) := rfl
  rw [none]
  exact regionsFrom_moved above List.suffix_rfl

end Moving

theorem metadataOf_map_moved (k : Nat) (rs : List Region) :
    metadataOf (rs.map (Region.moved k)) = metadataOf rs := by
  simp only [metadataOf, List.any_map, List.countP_map]
  rfl

end DiffScope.Component
