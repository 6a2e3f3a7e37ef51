import Mathlib.Data.List.Forall2
import Mathlib.Data.Prod.Lex
import Mathlib.Order.WellFounded
import DiffScope.Scope.Selection
import DiffScope.Proofs.Checked

/-! # Who accounts for a line

Candidates are ranked by size, then by first line, then by where they were found. An added line
belongs to the candidate of least rank that holds it, and a selection keeps exactly the candidates
to which a line belongs, in the order in which they were found.
-/

namespace DiffScope.Scope

open DiffScope.Diff DiffScope.Checked

/-- What decides between candidates: lines from the first to the last, the first line, and which of
the candidates it is. -/
def Candidate.rank (c : Candidate) (index : Nat) : Nat ×ₗ Nat ×ₗ Nat :=
  toLex (c.endLine - c.startLine + 1, toLex (c.startLine, index))

/-- Among the candidates, the one at an index has the least rank of those that hold the line. -/
def Owns (candidates : List Candidate) (line index : Nat) : Prop :=
  ∃ c, candidates[index]? = some c ∧ line ∈ c.addedLines ∧
    ∀ (j : Nat) (d : Candidate), candidates[j]? = some d → line ∈ d.addedLines →
      c.rank index ≤ d.rank j

/-- A kept candidate is the one at an index, and accounts for the added lines that it owns. -/
structure Keeps (candidates : List Candidate) (added : AddedLines) (index : Nat)
    (s : Selected) : Prop where
  found : candidates[index]? = some s.candidate
  accounts : ∀ l, l ∈ s.accountsFor ↔ l ∈ added ∧ Owns candidates l index
  ordered : s.accountsFor.Sublist s.candidate.addedLines
  nonempty : s.accountsFor ≠ []

/-- The candidates kept are those at some indices, in the order in which they were found. -/
structure Shares (candidates : List Candidate) (added : AddedLines) (picks : List Nat)
    (selected : List Selected) : Prop where
  ascending : picks.Pairwise (· < ·)
  kept : List.Forall₂ (Keeps candidates added) picks selected
  complete : ∀ l ∈ added, ∀ i, Owns candidates l i → i ∈ picks

/-! ## Ranking -/

/-- Of the elements of a list that have a property, one has the least rank. -/
theorem exists_least_rank {α : Type} (rank : α → Nat → Nat ×ₗ Nat ×ₗ Nat) (P : α → Prop)
    {as : List α} {a : α} (member : a ∈ as) (holds : P a) :
    ∃ i b, as[i]? = some b ∧ P b ∧
      ∀ (j : Nat) (c : α), as[j]? = some c → P c → rank b i ≤ rank c j := by
  obtain ⟨i, atI⟩ := List.mem_iff_getElem?.mp member
  let ranks : Set (Nat ×ₗ Nat ×ₗ Nat) :=
    {r | ∃ (j : Nat) (b : α), as[j]? = some b ∧ P b ∧ r = rank b j}
  have some : ranks.Nonempty := ⟨_, i, a, atI, holds, rfl⟩
  obtain ⟨_, ⟨j, b, atJ, holds, rfl⟩, least⟩ := wellFounded_lt.has_min ranks some
  exact ⟨j, b, atJ, holds, fun k c atK holds => not_lt.mp (least _ ⟨k, c, atK, holds, rfl⟩)⟩

/-- The rank of a candidate that was given its turn. -/
def Ranked.rank (r : Ranked) : Nat ×ₗ Nat ×ₗ Nat :=
  toLex (r.size, toLex (r.candidate.startLine, r.index))

theorem Ranked.precedes_iff {a b : Ranked} : a.precedes b = true ↔ a.rank ≤ b.rank := by
  simp [Ranked.precedes, Ranked.rank, Prod.Lex.toLex_le_toLex]

/-- The candidate at an index with what decides its turn. -/
def Candidate.ranked (c : Candidate) (index : Nat) : Ranked :=
  ⟨c.endLine - c.startLine + 1, index, c⟩

theorem Candidate.size_eq_ok_iff {c : Candidate} {n : Nat} :
    c.size = .ok n ↔ n = c.endLine - c.startLine + 1 ∧ c.endLine - c.startLine + 1 < countBound :=
  plus_eq_ok_iff

theorem rankFrom_eq_ok {index : Nat} {cs : List Candidate} {rs : List Ranked}
    (h : rankFrom index cs = .ok rs) : rs = (cs.zipIdx index).map fun c => c.1.ranked c.2 := by
  induction cs generalizing index rs with
  | nil => exact (Except.ok.inj h).symm
  | cons c cs ih =>
      obtain ⟨size, sized, h⟩ := bind_eq_ok.mp h
      obtain ⟨rest, later, h⟩ := bind_eq_ok.mp h
      obtain rfl := Except.ok.inj h
      obtain ⟨rfl, -⟩ := Candidate.size_eq_ok_iff.mp sized
      rw [List.zipIdx_cons, List.map_cons, ← ih later]
      rfl

theorem exists_rankFrom_eq_ok (index : Nat) {cs : List Candidate}
    (fit : ∀ c ∈ cs, c.endLine - c.startLine + 1 < countBound) :
    ∃ rs, rankFrom index cs = .ok rs := by
  induction cs generalizing index with
  | nil => exact ⟨[], rfl⟩
  | cons c cs ih =>
      obtain ⟨rest, later⟩ := ih (index + 1) fun d member => fit d (List.mem_cons_of_mem c member)
      have sized := Candidate.size_eq_ok_iff.mpr ⟨rfl, fit c List.mem_cons_self⟩
      exact ⟨_, bind_eq_ok.mpr ⟨_, sized, bind_eq_ok.mpr ⟨rest, later, rfl⟩⟩⟩

/-! ## Giving lines to candidates in their turn -/

/-- The added lines that a candidate accounts for behind others. -/
def freshBehind (added : AddedLines) (earlier : List Ranked) (r : Ranked) : List Nat :=
  r.candidate.addedLines.filter fun l =>
    added.contains l && !earlier.any fun e => e.candidate.addedLines.contains l

/-- Lines are covered as far as they are added and held by candidates whose turn has been. -/
def Covers (added : AddedLines) (earlier : List Ranked) (covered : List Nat) : Prop :=
  ∀ l ∈ added, l ∈ covered ↔ ∃ e ∈ earlier, l ∈ e.candidate.addedLines

theorem Covers.fresh {added : AddedLines} {earlier : List Ranked} {covered : List Nat}
    (h : Covers added earlier covered) (r : Ranked) :
    (r.candidate.addedLines.filter fun l => added.contains l && !covered.contains l) =
      freshBehind added earlier r := by
  apply List.filter_congr
  intro l _
  cases contains : added.contains l with
  | false => rfl
  | true =>
      have known := h l (AddedLines.contains_iff.mp contains)
      have same : covered.contains l =
          earlier.any fun e => e.candidate.addedLines.contains l := by
        rw [Bool.eq_iff_iff]
        simpa using known
      rw [same]

theorem mem_freshBehind {added : AddedLines} {earlier : List Ranked} {r : Ranked} {l : Nat} :
    l ∈ freshBehind added earlier r ↔
      l ∈ r.candidate.addedLines ∧ l ∈ added ∧ ∀ e ∈ earlier, l ∉ e.candidate.addedLines := by
  simp [freshBehind, AddedLines.contains_iff]

theorem Covers.append {added : AddedLines} {earlier : List Ranked} {covered : List Nat}
    (h : Covers added earlier covered) (r : Ranked) :
    Covers added (earlier ++ [r]) (freshBehind added earlier r ++ covered) := by
  intro l member
  rw [List.mem_append, mem_freshBehind, h l member]
  constructor
  · rintro (⟨holds, -, -⟩ | ⟨e, among, holds⟩)
    · exact ⟨r, by simp, holds⟩
    · exact ⟨e, List.mem_append_left _ among, holds⟩
  · rintro ⟨e, among, holds⟩
    by_cases old : ∃ e ∈ earlier, l ∈ e.candidate.addedLines
    · exact .inr old
    · have new : ∀ e ∈ earlier, l ∉ e.candidate.addedLines :=
        fun e among holds => old ⟨e, among, holds⟩
      rcases List.mem_append.mp among with among | last
      · exact absurd holds (new e among)
      · rw [List.mem_singleton] at last
        exact .inl ⟨last ▸ holds, member, new⟩

/-- The first candidate is given what lines of it are left, and the others go on behind it. -/
theorem mem_assign_cons {added : AddedLines} {earlier rs : List Ranked} {covered : List Nat}
    (h : Covers added earlier covered) {q r : Ranked} {lines : List Nat} :
    (r, lines) ∈ assign added covered (q :: rs) ↔
      (r = q ∧ lines = freshBehind added earlier q ∧ lines ≠ []) ∨
        (r, lines) ∈ assign added (freshBehind added earlier q ++ covered) rs := by
  rw [assign, h.fresh q]
  cases fresh : freshBehind added earlier q with
  | nil =>
      rw [List.isEmpty_nil, if_pos rfl, List.nil_append]
      exact ⟨.inr, fun h => h.resolve_left fun ⟨_, empty, filled⟩ => filled empty⟩
  | cons l ls =>
      rw [List.isEmpty_cons, if_neg Bool.false_ne_true, List.mem_cons, Prod.mk.injEq]
      constructor
      · rintro (⟨rfl, rfl⟩ | later)
        · exact .inl ⟨rfl, rfl, List.cons_ne_nil _ _⟩
        · exact .inr later
      · rintro (⟨rfl, rfl, -⟩ | later)
        · exact .inl ⟨rfl, rfl⟩
        · exact .inr later

/-- Exactly the candidates with lines that none before them hold are given lines, and those. -/
theorem mem_assign {added : AddedLines} {earlier rs : List Ranked} {covered : List Nat}
    (h : Covers added earlier covered) {r : Ranked} {lines : List Nat} :
    (r, lines) ∈ assign added covered rs ↔
      ∃ before after, rs = before ++ r :: after ∧
        lines = freshBehind added (earlier ++ before) r ∧ lines ≠ [] := by
  induction rs generalizing earlier covered with
  | nil => simp [assign]
  | cons q rs ih =>
      rw [mem_assign_cons h, ih (h.append q)]
      constructor
      · rintro (⟨rfl, fresh, some⟩ | ⟨before, after, rfl, fresh, some⟩)
        · exact ⟨[], rs, rfl, by rw [List.append_nil]; exact fresh, some⟩
        · exact ⟨q :: before, after, rfl, by rw [List.append_cons]; exact fresh, some⟩
      · rintro ⟨before, after, split, fresh, some⟩
        cases before with
        | nil =>
            rw [List.nil_append, List.cons.injEq] at split
            obtain ⟨rfl, rfl⟩ := split
            rw [List.append_nil] at fresh
            exact .inl ⟨rfl, fresh, some⟩
        | cons b before =>
            rw [List.cons_append, List.cons.injEq] at split
            obtain ⟨rfl, rfl⟩ := split
            rw [List.append_cons] at fresh
            exact .inr ⟨before, after, rfl, fresh, some⟩

/-- Those that are given lines keep their order. -/
theorem map_fst_assign (added : AddedLines) (covered : List Nat) (rs : List Ranked) :
    ((assign added covered rs).map Prod.fst).Sublist rs := by
  induction rs generalizing covered with
  | nil => exact .slnil
  | cons r rs ih =>
      rw [assign]
      split
      · exact (ih covered).cons r
      · exact (ih _).cons_cons r

/-! ## The selection -/

/-- The candidates in their turn. -/
def inTurn (candidates : List Candidate) : List Ranked :=
  (candidates.zipIdx.map fun c => c.1.ranked c.2).mergeSort Ranked.precedes

theorem mem_inTurn {candidates : List Candidate} {r : Ranked} :
    r ∈ inTurn candidates ↔ ∃ c, candidates[r.index]? = some c ∧ r = c.ranked r.index := by
  rw [inTurn, List.mem_mergeSort, List.mem_map]
  constructor
  · rintro ⟨⟨c, i⟩, member, rfl⟩
    exact ⟨c, List.mem_zipIdx_iff_getElem?.mp member, rfl⟩
  · rintro ⟨c, found, same⟩
    exact ⟨(c, r.index), List.mem_zipIdx_iff_getElem?.mpr found, same.symm⟩

theorem pairwise_inTurn (candidates : List Candidate) :
    (inTurn candidates).Pairwise fun a b => a.rank ≤ b.rank := by
  have sorted := @List.pairwise_mergeSort _ Ranked.precedes
    (fun a b c ab bc => Ranked.precedes_iff.mpr
      (le_trans (Ranked.precedes_iff.mp ab) (Ranked.precedes_iff.mp bc)))
    (fun a b => by
      rw [Bool.or_eq_true, Ranked.precedes_iff, Ranked.precedes_iff]
      exact le_total a.rank b.rank)
    (candidates.zipIdx.map fun c => c.1.ranked c.2)
  exact sorted.imp Ranked.precedes_iff.mp

theorem nodup_inTurn (candidates : List Candidate) :
    ((inTurn candidates).map Ranked.index).Nodup := by
  have perm := (List.mergeSort_perm (candidates.zipIdx.map fun c => c.1.ranked c.2)
    Ranked.precedes).map Ranked.index
  rw [inTurn, perm.nodup_iff, List.map_map]
  change (candidates.zipIdx.map Prod.snd).Nodup
  rw [List.zipIdx_map_snd]
  exact List.nodup_range'

theorem Ranked.index_eq_of_rank_eq {a b : Ranked} (same : a.rank = b.rank) : a.index = b.index := by
  simp only [Ranked.rank, EmbeddingLike.apply_eq_iff_eq, Prod.mk.injEq] at same
  exact same.2.2

/-- No two candidates have the same rank, so those whose turn has been rank strictly before. -/
theorem rank_lt_of_inTurn {candidates : List Candidate} {before after : List Ranked} {e r : Ranked}
    (turns : inTurn candidates = before ++ r :: after) (early : e ∈ before) : e.rank < r.rank := by
  have sorted := turns ▸ pairwise_inTurn candidates
  have distinct := turns ▸ nodup_inTurn candidates
  have le : e.rank ≤ r.rank := (List.pairwise_append.mp sorted).2.2 e early r List.mem_cons_self
  rw [List.map_append, List.map_cons, List.nodup_append] at distinct
  have apart : e.index ≠ r.index :=
    distinct.2.2 e.index (List.mem_map_of_mem early) r.index List.mem_cons_self
  exact lt_of_le_of_ne le fun same => apart (Ranked.index_eq_of_rank_eq same)

/-- The lines that a candidate is given in its turn are those that it owns. -/
theorem mem_freshBehind_inTurn {candidates : List Candidate} {added : AddedLines}
    {before after : List Ranked} {r : Ranked} (turns : inTurn candidates = before ++ r :: after)
    (l : Nat) :
    l ∈ freshBehind added before r ↔ l ∈ added ∧ Owns candidates l r.index := by
  obtain ⟨c, found, same⟩ := mem_inTurn.mp (show r ∈ inTurn candidates by rw [turns]; simp)
  have own : r.candidate = c := congrArg Ranked.candidate same
  rw [mem_freshBehind]
  constructor
  · rintro ⟨holds, member, none⟩
    refine ⟨member, c, found, own ▸ holds, fun j d other holds' => ?_⟩
    have among : d.ranked j ∈ before ++ r :: after := turns ▸ mem_inTurn.mpr ⟨d, other, rfl⟩
    change (c.ranked r.index).rank ≤ (d.ranked j).rank
    rw [← same]
    rcases List.mem_append.mp among with early | late
    · exact absurd holds' (none _ early)
    · obtain ⟨-, sorted, -⟩ := List.pairwise_append.mp (turns ▸ pairwise_inTurn candidates)
      rcases List.mem_cons.mp late with here | late
      · rw [← here]
      · exact (List.pairwise_cons.mp sorted).1 _ late
  · rintro ⟨member, d, found', holds, least⟩
    obtain rfl := Option.some.inj (found.symm.trans found')
    refine ⟨own ▸ holds, member, fun e early holds' => ?_⟩
    -- A candidate before this one that held the line would rank before it, against its being least.
    obtain ⟨d, other, same'⟩ := mem_inTurn.mp
      (show e ∈ inTurn candidates by rw [turns]; exact List.mem_append_left _ early)
    have its : e.candidate = d := congrArg Ranked.candidate same'
    have le : r.rank ≤ e.rank := by
      rw [same, same']
      exact least e.index d other (its ▸ holds')
    exact absurd (rank_lt_of_inTurn turns early) (not_lt_of_ge le)

/-- The picks of a selection, in the order in which they were found. -/
def picked (candidates : List Candidate) (added : AddedLines) : List (Ranked × List Nat) :=
  (assign added [] (inTurn candidates)).mergeSort fun a b => a.1.index ≤ b.1.index

theorem mem_picked {candidates : List Candidate} {added : AddedLines} {r : Ranked}
    {lines : List Nat} :
    (r, lines) ∈ picked candidates added ↔
      ∃ before after, inTurn candidates = before ++ r :: after ∧
        lines = freshBehind added before r ∧ lines ≠ [] := by
  have start : Covers added [] [] := fun l _ => by simp
  rw [picked, List.mem_mergeSort, mem_assign start]
  rfl

theorem pairwise_picked (candidates : List Candidate) (added : AddedLines) :
    (picked candidates added).Pairwise fun a b => a.1.index < b.1.index := by
  have sorted := @List.pairwise_mergeSort _
    (fun a b : Ranked × List Nat => decide (a.1.index ≤ b.1.index))
    (fun a b c ab bc => by simp only [decide_eq_true_eq] at *; omega)
    (fun a b => by simp only [Bool.or_eq_true, decide_eq_true_eq]; omega)
    (assign added [] (inTurn candidates))
  have perm := (List.mergeSort_perm (assign added [] (inTurn candidates))
    fun a b => a.1.index ≤ b.1.index).map fun p => p.1.index
  have distinct : ((picked candidates added).map fun p => p.1.index).Nodup := by
    rw [picked, perm.nodup_iff]
    have sub := (map_fst_assign added [] (inTurn candidates)).map Ranked.index
    rw [List.map_map] at sub
    exact (nodup_inTurn candidates).sublist sub
  have apart := List.pairwise_map.mp distinct
  refine (sorted.and apart).imp fun {a b} h => ?_
  have le := of_decide_eq_true h.1
  exact Nat.lt_of_le_of_ne le h.2

/-- What is kept of several candidates. -/
theorem shares_picked (candidates : List Candidate) (added : AddedLines) :
    Shares candidates added ((picked candidates added).map fun p => p.1.index)
      ((picked candidates added).map fun p => ⟨p.1.candidate, p.2⟩) where
  ascending := List.pairwise_map.mpr (pairwise_picked candidates added)
  kept := by
    rw [List.forall₂_map_left_iff, List.forall₂_map_right_iff, List.forall₂_same]
    rintro ⟨r, lines⟩ member
    obtain ⟨before, after, turns, rfl, filled⟩ := mem_picked.mp member
    obtain ⟨c, found, same⟩ := mem_inTurn.mp (show r ∈ inTurn candidates by rw [turns]; simp)
    have own : r.candidate = c := congrArg Ranked.candidate same
    exact ⟨own ▸ found, mem_freshBehind_inTurn turns, List.filter_sublist, filled⟩
  complete := by
    intro l member i owns
    obtain ⟨c, found, -⟩ := id owns
    have turn : c.ranked i ∈ inTurn candidates := mem_inTurn.mpr ⟨c, found, rfl⟩
    obtain ⟨before, after, turns⟩ := List.append_of_mem turn
    have fresh := (mem_freshBehind_inTurn turns l).mpr ⟨member, owns⟩
    refine List.mem_map.mpr ⟨(c.ranked i, freshBehind added before (c.ranked i)), ?_, rfl⟩
    exact mem_picked.mpr ⟨before, after, turns, rfl, List.ne_nil_of_mem fresh⟩

theorem owns_singleton {c : Candidate} {line index : Nat} :
    Owns [c] line index ↔ index = 0 ∧ line ∈ c.addedLines := by
  constructor
  · rintro ⟨d, found, holds, -⟩
    rw [List.getElem?_singleton] at found
    split at found
    next first => exact ⟨first, Option.some.inj found ▸ holds⟩
    next => cases found
  · rintro ⟨rfl, holds⟩
    refine ⟨c, rfl, holds, fun j d found _ => ?_⟩
    rw [List.getElem?_singleton] at found
    split at found
    next first => rw [first, Option.some.inj found]
    next => cases found

/-- A single candidate is kept as it is, which is the rule if it holds added lines and no others. -/
theorem shares_singleton {c : Candidate} {added : AddedLines} (filled : c.addedLines ≠ [])
    (lines : ∀ l ∈ c.addedLines, l ∈ added) :
    Shares [c] added [0] [⟨c, c.addedLines⟩] where
  ascending := List.pairwise_singleton _ _
  kept := by
    refine .cons ⟨rfl, fun l => ?_, .refl _, filled⟩ .nil
    rw [owns_singleton]
    exact ⟨fun holds => ⟨lines l holds, rfl, holds⟩, fun h => h.2.2⟩
  complete := by
    intro l _ i owns
    exact List.mem_singleton.mpr (owns_singleton.mp owns).1

/-- A selection gives every added line to the candidate that owns it. -/
theorem shares_of_select {candidates : List Candidate} {added : AddedLines}
    {selected : List Selected} (h : select candidates added = .ok selected)
    (lone : ∀ c, candidates = [c] → c.addedLines ≠ [] ∧ ∀ l ∈ c.addedLines, l ∈ added) :
    ∃ picks, Shares candidates added picks selected := by
  match candidates, h with
  | [], h =>
      obtain rfl := Except.ok.inj h
      refine ⟨[], .nil, .nil, fun l _ i owns => ?_⟩
      obtain ⟨c, found, -⟩ := owns
      cases found
  | [c], h =>
      obtain rfl := Except.ok.inj h
      obtain ⟨filled, lines⟩ := lone c rfl
      exact ⟨[0], shares_singleton filled lines⟩
  | c :: d :: cs, h =>
      obtain ⟨ranked, ranks, h⟩ := bind_eq_ok.mp h
      obtain rfl := rankFrom_eq_ok ranks
      obtain rfl := Except.ok.inj h
      exact ⟨_, shares_picked (c :: d :: cs) added⟩

/-- Only candidates are kept. -/
theorem candidate_mem_of_select {candidates : List Candidate} {added : AddedLines}
    {selected : List Selected} (h : select candidates added = .ok selected) {sel : Selected}
    (member : sel ∈ selected) : sel.candidate ∈ candidates := by
  match candidates, h with
  | [], h =>
      obtain rfl := Except.ok.inj h
      cases member
  | [c], h =>
      obtain rfl := Except.ok.inj h
      obtain rfl := List.mem_singleton.mp member
      exact List.mem_cons_self
  | c :: d :: cs, h =>
      obtain ⟨ranked, ranks, h⟩ := bind_eq_ok.mp h
      obtain rfl := rankFrom_eq_ok ranks
      obtain rfl := Except.ok.inj h
      have kept := (shares_picked (c :: d :: cs) added).kept
      obtain ⟨i, -, keeps⟩ := exists_of_mem_right kept member
      exact List.mem_of_getElem? keeps.found

/-- A selection comes to an end if the sizes of its candidates stay within their bound. -/
theorem exists_select_eq_ok {candidates : List Candidate} (added : AddedLines)
    (fit : ∀ c ∈ candidates, c.endLine - c.startLine + 1 < countBound) :
    ∃ selected, select candidates added = .ok selected := by
  match candidates, fit with
  | [], _ => exact ⟨[], rfl⟩
  | [c], _ => exact ⟨_, rfl⟩
  | c :: d :: cs, fit =>
      obtain ⟨ranked, ranks⟩ := exists_rankFrom_eq_ok 0 fit
      exact ⟨_, bind_eq_ok.mpr ⟨ranked, ranks, rfl⟩⟩

end DiffScope.Scope
