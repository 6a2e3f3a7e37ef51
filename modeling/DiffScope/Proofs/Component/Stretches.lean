import DiffScope.Proofs.Component.Moved
import DiffScope.Proofs.Text.Pieces

/-! # Blocks are stretches of the file

A file is scanned for blocks mark by mark, and every step of the scan leaves less of the file, so that
the scan of any file ends. What it finds stands in the file one behind another, each block on the
lines that it says, and the lines of a block's content are lines of the file but for what the file has
before the content in its first line and behind it in its last.
-/

namespace DiffScope.Component

open DiffScope.Report DiffScope.Text

/-! ## Scans -/

/-- What a scan of a file has come to. -/
structure Scan where
  /-- The blocks found, the last of them first. -/
  found : List Region
  /-- What is left of the file. -/
  rest : List Char

/-- A block is one too many of its kind. -/
def IsDuplicate (found : List Region) (r : Region) : Prop :=
  (r.kind.isUnique && found.any (·.kind = r.kind)) = true

namespace Scan

def start (source : List Char) : Scan := ⟨[], source⟩

/-- One step of a scan. -/
inductive Step (source : List Char) : Scan → Scan → Prop
  | skip {found : List Region} {c : Char} {cs : List Char} (mark : markAt? (c :: cs) = none) :
      Step source ⟨found, c :: cs⟩ ⟨found, cs⟩
  | comment {found : List Region} {text rest : List Char}
      (mark : markAt? text = some (.comment, rest)) : Step source ⟨found, text⟩ ⟨found, rest⟩
  | block {found : List Region} {text begin stop rest : List Char} {tag : Opening}
      (mark : markAt? text = some (.opening tag, begin))
      (ends : blockEnd? tag begin = some (stop, rest))
      (single : ¬IsDuplicate found (.of source tag begin stop)) :
      Step source ⟨found, text⟩ ⟨.of source tag begin stop :: found, rest⟩

/-- A scan ends where nothing is left, or at a tag whose block is not closed or is one too many. -/
inductive Ends (source : List Char) : Scan → Except LayoutError (List Region) → Prop
  | done {found : List Region} : Ends source ⟨found, []⟩ (.ok found.reverse)
  | unclosed {found : List Region} {text begin : List Char} {tag : Opening}
      (mark : markAt? text = some (.opening tag, begin)) (ends : blockEnd? tag begin = none) :
      Ends source ⟨found, text⟩ (.error (.unclosed (String.ofList tag.name) (lineOf source text)))
  | duplicate {found : List Region} {text begin stop rest : List Char} {tag : Opening}
      (mark : markAt? text = some (.opening tag, begin))
      (ends : blockEnd? tag begin = some (stop, rest))
      (twice : IsDuplicate found (.of source tag begin stop)) :
      Ends source ⟨found, text⟩ (.error
        (.duplicate (duplicateName (Region.of source tag begin stop).kind tag) (lineOf source text)))

/-- So many steps of a scan, and what it ends with. -/
inductive Runs (source : List Char) : Nat → Scan → Except LayoutError (List Region) → Prop
  | ends {s : Scan} {result : Except LayoutError (List Region)} (ends : Ends source s result) :
      Runs source 0 s result
  | step {n : Nat} {s t : Scan} {result : Except LayoutError (List Region)}
      (step : Step source s t) (rest : Runs source n t result) : Runs source (n + 1) s result

theorem Step.shrinks {source : List Char} {s t : Scan} (h : Step source s t) :
    t.rest.length < s.rest.length := by
  cases h with
  | skip => exact Nat.lt_succ_self _
  | comment mark => exact length_markAt? mark
  | block mark ends => exact Nat.lt_of_le_of_lt (length_blockEnd? ends) (length_markAt? mark)

theorem Runs.steps_le {source : List Char} {n : Nat} {s : Scan}
    {result : Except LayoutError (List Region)} (h : Runs source n s result) :
    n ≤ s.rest.length := by
  induction h with
  | ends => exact Nat.zero_le _
  | step step _ ih => exact Nat.lt_of_le_of_lt ih step.shrinks

/-- Every scan comes to an end, with what is answered for the file. -/
theorem exists_runs (source : List Char) (found : List Region) (text : List Char) :
    ∃ n, Runs source n ⟨found, text⟩ (regionsFrom source found text) := by
  fun_induction regionsFrom source found text with
  | case1 found => exact ⟨0, .ends .done⟩
  | case2 found c cs mark ih =>
      obtain ⟨n, runs⟩ := ih
      exact ⟨n + 1, .step (.skip mark) runs⟩
  | case3 found c cs rest mark ih =>
      obtain ⟨n, runs⟩ := ih
      exact ⟨n + 1, .step (.comment mark) runs⟩
  | case4 found c cs tag begin mark ends => exact ⟨0, .ends (.unclosed mark ends)⟩
  | case5 found c cs tag begin mark stop rest ends region twice =>
      exact ⟨0, .ends (.duplicate mark ends twice)⟩
  | case6 found c cs tag begin mark stop rest ends region single ih =>
      obtain ⟨n, runs⟩ := ih
      exact ⟨n + 1, .step (.block mark ends single) runs⟩

/-- There is no other way for a scan to end. -/
theorem Runs.result_eq {source : List Char} {n : Nat} {s : Scan}
    {result : Except LayoutError (List Region)} (h : Runs source n s result) :
    result = regionsFrom source s.found s.rest := by
  induction h with
  | ends ends =>
      cases ends with
      | done => rw [regionsFrom]
      | unclosed mark ends => rw [regionsFrom_opening mark, ends]
      | duplicate mark ends twice => rw [regionsFrom_opening mark, ends]; exact (if_pos twice).symm
  | step step _ ih =>
      rw [ih]
      cases step with
      | skip mark => exact (regionsFrom_skip mark).symm
      | comment mark => exact (regionsFrom_comment mark).symm
      | block mark ends single => rw [regionsFrom_opening mark, ends]; exact (if_neg single).symm

end Scan

/-! ## Places -/

/-- A block, and the text of the file above its content. -/
structure Place where
  above : List Char
  region : Region

namespace Place

/-- The text of the file down to where the content ends. -/
def upTo (p : Place) : List Char := p.above ++ p.region.content

/-- The block stands there in a file, on the lines that it says. -/
structure IsIn (source : List Char) (p : Place) : Prop where
  text : p.upTo <+: source
  startLine : p.region.startLine = newlines p.above + 1
  endLine : p.region.endLine = p.region.startLine + newlines p.region.content

/-- The content of a block ends before that of another begins. -/
def Precedes (p q : Place) : Prop := p.upTo <+: q.above

theorem Precedes.endLine_le {source : List Char} {p q : Place} (h : p.Precedes q)
    (first : p.IsIn source) (second : q.IsIn source) : p.region.endLine ≤ q.region.startLine := by
  have less : newlines p.upTo ≤ newlines q.above := h.sublist.count_le '\n'
  rw [upTo, newlines_append] at less
  rw [first.endLine, first.startLine, second.startLine]
  omega

end Place

theorem prefix_before {text rest : List Char} (source : List Char) (h : rest <:+ text) :
    before source text <+: before source rest := by
  have shorter := h.length_le
  exact List.take_prefix_take_left (by omega)

theorem before_append_before {source text rest : List Char} (h : rest <:+ text)
    (left : text <:+ source) : before source text ++ before text rest = before source rest := by
  have whole := before_append left
  have inner := before_append h
  have outer := before_append (h.trans left)
  have joined : before source text ++ before text rest ++ rest = before source rest ++ rest := by
    rw [outer, List.append_assoc, inner, whole]
  exact List.append_cancel_right joined

theorem Place.isIn_of {source begin stop : List Char} (tag : Opening) (started : begin <:+ source)
    (stopped : stop <:+ begin) :
    Place.IsIn source ⟨before source begin, .of source tag begin stop⟩ := by
  have joined : before source begin ++ before begin stop = before source stop :=
    before_append_before stopped started
  refine ⟨?_, rfl, ?_⟩
  · change before source begin ++ before begin stop <+: source
    rw [joined]
    exact List.take_prefix _ _
  · change newlines (before source stop) + 1 =
      newlines (before source begin) + 1 + newlines (before begin stop)
    rw [← joined, newlines_append]
    omega

namespace Scan

/-- The blocks that a scan has found stand in the part of the file that it is through with. -/
structure Lays (source : List Char) (s : Scan) (places : List Place) : Prop where
  left : s.rest <:+ source
  regions : places.map Place.region = s.found
  stand : ∀ p ∈ places, p.IsIn source
  apart : places.Pairwise fun later earlier => earlier.Precedes later
  passed : ∀ p ∈ places, p.upTo <+: before source s.rest

theorem lays_start (source : List Char) : (start source).Lays source [] :=
  ⟨List.suffix_rfl, rfl, by simp, .nil, by simp⟩

section Steps

variable {source : List Char} {s t : Scan} {places : List Place}

theorem Lays.goOn {found : List Region} {text rest : List Char}
    (h : Lays source ⟨found, text⟩ places) (less : rest <:+ text) :
    Lays source ⟨found, rest⟩ places where
  left := less.trans h.left
  regions := h.regions
  stand := h.stand
  apart := h.apart
  passed p member := (h.passed p member).trans (prefix_before source less)

/-- What a step finds stands behind what was found before. -/
theorem Lays.step (h : s.Lays source places) (step : Step source s t) :
    ∃ places', t.Lays source places' := by
  cases step with
  | skip => exact ⟨places, h.goOn (List.suffix_cons _ _)⟩
  | comment mark => exact ⟨places, h.goOn (suffix_markAt? mark)⟩
  | @block found text begin stop rest tag mark ends single =>
      have opened := suffix_markAt? mark
      obtain ⟨behind, inside⟩ := suffix_blockEnd? ends
      have started : begin <:+ source := opened.trans h.left
      have next := h.goOn (behind.trans (inside.trans opened))
      let place : Place := ⟨before source begin, .of source tag begin stop⟩
      have above : ∀ p ∈ places, p.Precedes place := fun p member =>
        (h.passed p member).trans (prefix_before source opened)
      have passed : place.upTo <+: before source rest := by
        change before source begin ++ before begin stop <+: _
        rw [before_append_before inside started]
        exact prefix_before source behind
      refine ⟨place :: places, next.left, ?_, ?_, ?_, ?_⟩
      · exact congrArg _ h.regions
      · exact List.forall_mem_cons.mpr ⟨Place.isIn_of tag started inside, h.stand⟩
      · exact List.pairwise_cons.mpr ⟨above, h.apart⟩
      · exact List.forall_mem_cons.mpr ⟨passed, next.passed⟩

theorem exists_places_of_runs {n : Nat} {result : Except LayoutError (List Region)}
    (runs : Runs source n s result) (h : s.Lays source places) {rs : List Region}
    (ok : result = .ok rs) : ∃ places : List Place, places.map Place.region = rs ∧
      (∀ p ∈ places, p.IsIn source) ∧ places.Pairwise Place.Precedes := by
  induction runs generalizing places with
  | ends ends =>
      cases ends with
      | done =>
          obtain rfl := Except.ok.inj ok
          refine ⟨places.reverse, ?_, ?_, List.pairwise_reverse.mpr h.apart⟩
          · rw [List.map_reverse, h.regions]
          · exact fun p member => h.stand p (List.mem_reverse.mp member)
      | unclosed => cases ok
      | duplicate => cases ok
  | step step _ ih =>
      obtain ⟨_, next⟩ := h.step step
      exact ih next ok

end Steps

end Scan

/-! ## Lines of blocks -/

/-- A line of a text, counted from one. -/
def lineAt? (text : List Char) (n : Nat) : Option (List Char) := (pieces text)[n - 1]?

/-- Each line of a block's content is on the line of the file with the number behind as many more. It
is the whole of that line, but for what the file has before the content in its first line and behind
the content in its last. -/
def Region.LinesIn (source : List Char) (r : Region) : Prop :=
  ∀ k, 1 ≤ k → k ≤ (pieces r.content).length → ∃ line front back,
    lineAt? r.content k = some line ∧
    lineAt? source (r.startLine + k - 1) = some (front ++ line ++ back) ∧
    (k ≠ 1 → front = []) ∧ (k ≠ (pieces r.content).length → back = [])

theorem Place.IsIn.linesIn {source : List Char} {p : Place} (h : p.IsIn source) :
    p.region.LinesIn source := by
  intro k first last
  obtain ⟨post, whole⟩ := h.text
  rw [upTo, List.append_assoc] at whole
  have lines := length_pieces p.region.content
  have inside : k - 1 ≤ newlines p.region.content := by omega
  have bound : k - 1 < (pieces p.region.content).length := by omega
  have piece := List.getElem?_eq_getElem bound
  have place : p.region.startLine + k - 1 - 1 = newlines p.above + (k - 1) := by
    rw [h.startLine]
    omega
  have between := getElem?_pieces_between p.above post inside piece
  rw [whole, ← place] at between
  rw [← List.append_assoc] at between
  refine ⟨_, _, _, piece, between, fun later => ?_, fun earlier => ?_⟩
  · exact if_neg (by omega)
  · exact if_neg (by omega)

/-- The scan of a file ends after no more steps than the file has characters. The blocks that are
found stand in the file one behind another, on the lines that they say, none starts on a line before
that on which an earlier one ends, and the lines of their contents are lines of the file. -/
theorem blocks_are_stretches_of_the_file (source : List Char) :
    (∃ n, Scan.Runs source n (.start source) (regions source)) ∧
    (∀ n result, Scan.Runs source n (.start source) result →
      n ≤ source.length ∧ result = regions source) ∧
    ∀ rs, regions source = .ok rs → ∃ places : List Place, places.map Place.region = rs ∧
      (∀ p ∈ places, p.IsIn source) ∧ places.Pairwise Place.Precedes ∧
      (rs.Pairwise fun earlier later => earlier.endLine ≤ later.startLine) ∧
      ∀ r ∈ rs, r.LinesIn source := by
  obtain ⟨n, runs⟩ := Scan.exists_runs source [] source
  refine ⟨⟨n, runs⟩, fun m result runs => ⟨runs.steps_le, runs.result_eq⟩, fun rs ok => ?_⟩
  obtain ⟨places, regions, stand, apart⟩ :=
    Scan.exists_places_of_runs runs (Scan.lays_start source) ok
  refine ⟨places, regions, stand, apart, ?_, fun r member => ?_⟩
  · rw [← regions, List.pairwise_map]
    refine apart.imp_of_mem fun {p q} inP inQ precedes => ?_
    exact precedes.endLine_le (stand p inP) (stand q inQ)
  · obtain ⟨p, among, rfl⟩ := List.mem_map.mp (regions ▸ member)
    exact (stand p among).linesIn

/-- A component with two script blocks that meet on a line. -/
def cardText : List Char :=
  "<script>function flip() {}\n</script><script setup>\nlet a\n</script>\n".toList

def cardBlocks : List Region :=
  [⟨.script, none, "function flip() {}\n".toList, 1, 2⟩,
    ⟨.scriptSetup, none, "\nlet a\n".toList, 2, 4⟩]

theorem regions_cardText : regions cardText = .ok cardBlocks := by
  decide +kernel

theorem stretches_of_cardText : regions cardText = .ok cardBlocks ∧
    ∃ places : List Place, places.map Place.region = cardBlocks ∧
      (∀ p ∈ places, p.IsIn cardText) ∧ places.Pairwise Place.Precedes ∧
      (cardBlocks.Pairwise fun earlier later => earlier.endLine ≤ later.startLine) ∧
      ∀ r ∈ cardBlocks, r.LinesIn cardText := by
  obtain ⟨-, -, geometry⟩ := blocks_are_stretches_of_the_file cardText
  exact ⟨regions_cardText, geometry cardBlocks regions_cardText⟩

end DiffScope.Component
