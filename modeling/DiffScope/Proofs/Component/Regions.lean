import DiffScope.Proofs.Component.Rests

/-! # Blocks stand where they say

The content of a block is a stretch of the file, from the line on which it is said to start to the
line on which it is said to end, and no block starts on a line before that on which an earlier one
ends.
-/

namespace DiffScope.Component

open DiffScope.Text

/-- A block's content stands in the file behind the lines before the one that it starts on, and goes
on to the line that it ends on. -/
def Region.SitsIn (source : List Char) (r : Region) : Prop :=
  ∃ pre post, source = pre ++ r.content ++ post ∧ r.startLine = newlines pre + 1 ∧
    r.endLine = r.startLine + newlines r.content

theorem Region.sitsIn_of {source start stop : List Char} (tag : Opening)
    (started : start <:+ source) (stopped : stop <:+ start) : (Region.of source tag start stop).SitsIn source := by
  have whole := before_append started
  have inner := before_append stopped
  have outer := before_append (stopped.trans started)
  have joined : before source stop ++ stop = before source start ++ before start stop ++ stop := by
    rw [outer, List.append_assoc, inner, whole]
  have parts := List.append_cancel_right joined
  refine ⟨before source start, stop, ?_, rfl, ?_⟩
  · change source = before source start ++ before start stop ++ stop
    rw [← parts, outer]
  · change newlines (before source stop) + 1 =
      newlines (before source start) + 1 + newlines (before start stop)
    rw [parts, newlines, newlines, newlines, List.count_append]
    omega

theorem sitsIn_of_regionsFrom {source text : List Char} {found rs : List Region}
    (h : regionsFrom source found text = .ok rs) (left : text <:+ source)
    (sit : ∀ r ∈ found, r.SitsIn source) : ∀ r ∈ rs, r.SitsIn source := by
  fun_induction regionsFrom source found text with
  | case1 found =>
      obtain rfl := Except.ok.inj h
      intro r member
      exact sit r (List.mem_reverse.mp member)
  | case2 found c cs _ ih => exact ih h ((List.suffix_cons c cs).trans left) sit
  | case3 found c cs rest mark ih => exact ih h ((suffix_markAt? mark).trans left) sit
  | case4 => cases h
  | case5 => cases h
  | case6 found c cs tag start mark stop rest ends region _ ih =>
      obtain ⟨behind, inside⟩ := suffix_blockEnd? ends
      have started := (suffix_markAt? mark).trans left
      refine ih h ((behind.trans inside).trans started) ?_
      exact List.forall_mem_cons.mpr ⟨Region.sitsIn_of tag started inside, sit⟩

/-- Every block of a component stands in the file where it says. -/
theorem sitsIn_of_regions {source : List Char} {rs : List Region} (h : regions source = .ok rs) :
    ∀ r ∈ rs, r.SitsIn source :=
  sitsIn_of_regionsFrom h List.suffix_rfl (by simp)

/-! ## Blocks follow one another -/

/-- The less of a file is left, the further down the place is. -/
theorem lineOf_le {source text rest : List Char} (less : rest.length ≤ text.length) :
    lineOf source text ≤ lineOf source rest := by
  have longer : source.length - text.length ≤ source.length - rest.length := by omega
  have inner : before source text <+: before source rest := List.take_prefix_take_left longer
  exact Nat.succ_le_succ (inner.sublist.count_le '\n')

theorem pairwise_of_regionsFrom {source text : List Char} {found rs : List Region}
    (h : regionsFrom source found text = .ok rs)
    (above : ∀ r ∈ found, r.endLine ≤ lineOf source text)
    (ordered : found.Pairwise fun later earlier => earlier.endLine ≤ later.startLine) :
    rs.Pairwise fun earlier later => earlier.endLine ≤ later.startLine := by
  fun_induction regionsFrom source found text with
  | case1 found =>
      obtain rfl := Except.ok.inj h
      exact List.pairwise_reverse.mpr ordered
  | case2 found c cs _ ih =>
      refine ih h (fun r member => ?_) ordered
      exact Nat.le_trans (above r member) (lineOf_le (Nat.le_succ _))
  | case3 found c cs rest mark ih =>
      refine ih h (fun r member => ?_) ordered
      exact Nat.le_trans (above r member) (lineOf_le (Nat.le_of_lt (length_markAt? mark)))
  | case4 => cases h
  | case5 => cases h
  | case6 found c cs tag start mark stop rest ends region _ ih =>
      obtain ⟨behind, inside⟩ := suffix_blockEnd? ends
      have opened : (c :: cs).length ≥ start.length := Nat.le_of_lt (length_markAt? mark)
      have starts : ∀ r ∈ found, r.endLine ≤ region.startLine := fun r member =>
        Nat.le_trans (above r member) (lineOf_le opened)
      have stops : region.startLine ≤ region.endLine := lineOf_le inside.length_le
      have leaves : region.endLine ≤ lineOf source rest := lineOf_le behind.length_le
      refine ih h ?_ (List.pairwise_cons.mpr ⟨starts, ordered⟩)
      intro r member
      rcases List.mem_cons.mp member with rfl | member
      · exact leaves
      · exact Nat.le_trans (starts r member) (Nat.le_trans stops leaves)

/-- No block of a component starts before an earlier one ends. -/
theorem pairwise_regions {source : List Char} {rs : List Region} (h : regions source = .ok rs) :
    rs.Pairwise fun earlier later => earlier.endLine ≤ later.startLine :=
  pairwise_of_regionsFrom h (by simp) .nil

end DiffScope.Component
