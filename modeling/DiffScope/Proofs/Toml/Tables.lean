import DiffScope.Proofs.Toml.Counts

/-! # Written tables are read back

A document of tables, each a header with a line for each of its counts, is read as these tables, if no
name stands twice and every count lies within 64 bits with sign.
-/

namespace DiffScope.Toml

open DiffScope.Text

/-! ## Keys -/

/-- A name that is written as a key without quotes. -/
structure IsBareKey (name : String) : Prop where
  filled : name.toList ≠ []
  chars : ∀ c ∈ name.toList, isKeyChar c = true

theorem IsBareKey.exists_eq_cons {name : String} (bare : IsBareKey name) :
    ∃ c cs, isKeyChar c = true ∧ name.toList = c :: cs := by
  obtain ⟨c, cs, same⟩ := List.exists_cons_of_ne_nil bare.filled
  exact ⟨c, cs, bare.chars c (same ▸ List.mem_cons_self), same⟩

theorem isGap_eq_false {p : Char → Bool} {c : Char} (here : p c = true) (space : p ' ' = false)
    (tab : p '\t' = false) : isGap c = false := by
  simp [isGap, ne_of_kind here space, ne_of_kind here tab]

theorem skipGap_cons {c : Char} (filled : isGap c = false) (text : List Char) :
    skipGap (c :: text) = c :: text := by
  rw [skipGap, List.dropWhile_cons, filled]
  rfl

section Keys

variable {name : String} {rest : List Char} (bare : IsBareKey name)

include bare

theorem skipGap_name (rest : List Char) :
    skipGap (name.toList ++ rest) = name.toList ++ rest := by
  obtain ⟨c, cs, key, same⟩ := bare.exists_eq_cons
  rw [same, List.cons_append, skipGap_cons (isGap_eq_false key rfl rfl)]

theorem readKeyPart_name (ends : ∀ c ∈ rest.head?, isKeyChar c = false) :
    readKeyPart (name.toList ++ rest) = some (name, rest) := by
  obtain ⟨front, behind⟩ := span_append bare.chars ends
  have noString : readKeyString (name.toList ++ rest) = none := by
    obtain ⟨c, cs, key, same⟩ := bare.exists_eq_cons
    rw [readKeyString, same]
    dsimp only [List.cons_append, List.head?_cons]
    split
    next quote => exact absurd (Option.some.inj quote) (ne_of_kind key rfl)
    next quote => exact absurd (Option.some.inj quote) (ne_of_kind key rfl)
    next => rfl
  rw [readKeyPart, noString, front, behind, Option.orElse_none]
  split
  next none => exact absurd none bare.filled
  next => rw [String.ofList_toList]

theorem readKey_name (fuel : Nat) (ends : ∀ c ∈ rest.head?, isKeyChar c = false)
    (whole : ∀ c ∈ (skipGap rest).head?, c ≠ '.') :
    readKey (fuel + 1) (name.toList ++ rest) = some ([name], skipGap rest) := by
  rw [readKey, skipGap_name bare, readKeyPart_name bare ends]
  simp only [Option.bind_eq_bind, Option.bind_some]
  split
  next same => exact absurd rfl (whole '.' (by rw [same]; rfl))
  next => rfl

/-! ## Lines -/

theorem readHeader_line (rest : List Char) :
    readHeader ('[' :: (name.toList ++ ']' :: '\n' :: rest)) =
      some (⟨[name], false, []⟩, rest) := by
  have key : readKey depthBound (name.toList ++ ']' :: '\n' :: rest) =
      some ([name], ']' :: '\n' :: rest) :=
    readKey_name bare _ (by rintro c ⟨⟩; decide) (by rintro c ⟨⟩; decide)
  obtain ⟨c, cs, first, same⟩ := bare.exists_eq_cons
  have single : c ≠ '[' := ne_of_kind first rfl
  unfold readHeader
  split
  next twice =>
    rw [same] at twice
    exact absurd (List.cons.inj (List.cons.inj twice).2).1 single
  next once =>
    rw [← (List.cons.inj once).2, key]
    rfl
  next none => exact absurd rfl (none _)

theorem readEntry_line (n : Nat) (rest : List Char) (bound : n ≤ 9223372036854775807) :
    readEntry (name.toList ++ (" = ".toList ++ countLine n rest)) =
      some (([], name, integer n), rest) := by
  have key : readKey depthBound (name.toList ++ (" = ".toList ++ countLine n rest)) =
      some ([name], '=' :: ' ' :: countLine n rest) :=
    readKey_name bare _ (by rintro c ⟨⟩; decide) (by rintro c ⟨⟩; decide)
  obtain ⟨d, ds, digit, -, -, line⟩ := exists_countLine_eq n rest
  have gap : skipGap (' ' :: countLine n rest) = countLine n rest := by
    rw [line]
    exact skipGap_cons (isGap_eq_false digit rfl rfl) _
  rw [readEntry, key]
  simp only [Option.bind_eq_bind, Option.bind_some, after?, if_pos, gap,
    readValue_countLine n rest _ _ bound]
  rfl

end Keys

/-! ## Blocks -/

/-- A table of counts under a name. -/
structure CountTable where
  name : String
  entries : List (String × Nat)

namespace CountTable

def lineText (e : String × Nat) : List Char :=
  e.1.toList ++ (" = ".toList ++ (Nat.toDigits 10 e.2 ++ ['\n']))

def text (t : CountTable) : List Char :=
  '[' :: (t.name.toList ++ ']' :: '\n' :: t.entries.flatMap lineText)

def documentText (ts : List CountTable) : List Char :=
  ['\n'].intercalate (ts.map text)

/-- The table as a value. -/
def toToml (t : CountTable) : Toml :=
  table .header (t.entries.map fun e => (e.1, integer e.2))

/-- The table as it is read from a document. -/
def block (t : CountTable) : Block :=
  ⟨[t.name], false, t.entries.map fun e => ([], e.1, integer e.2)⟩

/-- Names are keys without quotes and stand once, and counts can be held. -/
structure IsLegible (t : CountTable) : Prop where
  name : IsBareKey t.name
  keys : ∀ e ∈ t.entries, IsBareKey e.1
  bounds : ∀ e ∈ t.entries, e.2 ≤ 9223372036854775807
  distinct : (t.entries.map Prod.fst).Nodup

end CountTable

/-- A block with its values in the order in which they were read. -/
def Block.closed (b : Block) : Block := ⟨b.path, b.isRow, b.entries.reverse⟩

section Steps

variable {name : String} {done : List Block} {current : Block} (fuel : Nat) (rest : List Char)

theorem readBlocks_header (bare : IsBareKey name) :
    readBlocks (fuel + 1) done current ('[' :: (name.toList ++ ']' :: '\n' :: rest)) =
      readBlocks fuel (current.closed :: done) ⟨[name], false, []⟩ rest := by
  rw [readBlocks, skipGap_cons rfl]
  simp only [readHeader_line bare, Block.closed]

theorem readBlocks_newline :
    readBlocks (fuel + 1) done current ('\n' :: rest) = readBlocks fuel done current rest := by
  have ends : endLine? ('\n' :: rest) = some rest := rfl
  rw [readBlocks, skipGap_cons rfl]
  simp [ends]

theorem readBlocks_line {n : Nat} (bare : IsBareKey name) (bound : n ≤ 9223372036854775807) :
    readBlocks (fuel + 1) done current (CountTable.lineText (name, n) ++ rest) =
      readBlocks fuel done
        ⟨current.path, current.isRow, ([], name, integer n) :: current.entries⟩ rest := by
  have text : CountTable.lineText (name, n) ++ rest =
      name.toList ++ (" = ".toList ++ countLine n rest) := by
    simp [CountTable.lineText, countLine]
  have entry := readEntry_line bare n rest bound
  obtain ⟨c, cs, first, same⟩ := bare.exists_eq_cons
  have other {d : Char} : isKeyChar d = false → c ≠ d := ne_of_kind first
  have blank := skipGap_name bare (" = ".toList ++ countLine n rest)
  rw [same, List.cons_append] at entry blank
  rw [text, same, List.cons_append]
  generalize cs ++ (" = ".toList ++ countLine n rest) = behind at entry blank ⊢
  rw [readBlocks, blank]
  simp [other (d := '[') rfl, other (d := '#') rfl, other (d := '\n') rfl, other (d := '\r') rfl,
    entry]

end Steps

namespace CountTable

variable {t : CountTable} {ts : List CountTable} {done : List Block} {current : Block}

theorem readBlocks_lines {entries : List (String × Nat)} (keys : ∀ e ∈ entries, IsBareKey e.1)
    (bounds : ∀ e ∈ entries, e.2 ≤ 9223372036854775807) (fuel : Nat) (rest : List Char) :
    readBlocks (fuel + entries.length) done current (entries.flatMap lineText ++ rest) =
      readBlocks fuel done ⟨current.path, current.isRow,
        (entries.map fun e => ([], e.1, integer e.2)).reverse ++ current.entries⟩ rest := by
  induction entries generalizing current with
  | nil => rfl
  | cons e entries ih =>
      obtain ⟨key, keys⟩ := List.forall_mem_cons.mp keys
      obtain ⟨bound, bounds⟩ := List.forall_mem_cons.mp bounds
      rw [List.flatMap_cons, List.append_assoc, List.length_cons, ← Nat.add_assoc,
        readBlocks_line _ _ key bound, ih keys bounds]
      simp

theorem readBlocks_text (legible : t.IsLegible) (fuel : Nat) (rest : List Char) :
    readBlocks (fuel + (t.entries.length + 1)) done current (t.text ++ rest) =
      readBlocks fuel (current.closed :: done) ⟨[t.name], false, t.block.entries.reverse⟩ rest := by
  have whole : t.text ++ rest =
      '[' :: (t.name.toList ++ ']' :: '\n' :: (t.entries.flatMap lineText ++ rest)) := by
    simp [text]
  rw [whole, ← Nat.add_assoc, readBlocks_header _ _ legible.name,
    readBlocks_lines legible.keys legible.bounds, List.append_nil]
  rfl

theorem length_lt_text (t : CountTable) : t.entries.length < t.text.length := by
  have lines : t.entries.length ≤ (t.entries.flatMap lineText).length := by
    induction t.entries with
    | nil => exact Nat.le_refl _
    | cons e entries ih =>
        simp only [List.flatMap_cons, List.length_append, List.length_cons, lineText]
        omega
  simp only [text, List.length_append, List.length_cons]
  omega

theorem documentText_cons (t : CountTable) (ts : List CountTable) :
    documentText (t :: ts) = t.text ++ (if ts = [] then [] else '\n' :: documentText ts) := by
  cases ts with
  | nil => simp [documentText]
  | cons u us => simp [documentText, List.intercalate_cons_cons]

theorem readBlocks_documentText (legible : ∀ t ∈ ts, t.IsLegible) {fuel : Nat}
    (enough : (documentText ts).length < fuel) :
    readBlocks fuel done current (documentText ts) =
      some (done.reverse ++ current.closed :: ts.map block) := by
  induction ts generalizing done current fuel with
  | nil =>
      obtain ⟨fuel, rfl⟩ := Nat.exists_eq_succ_of_ne_zero (Nat.ne_of_gt (Nat.zero_lt_of_lt enough))
      simp [documentText, readBlocks, skipGap, Block.closed]
  | cons t ts ih =>
      obtain ⟨first, others⟩ := List.forall_mem_cons.mp legible
      have lines := length_lt_text t
      rw [documentText_cons, List.length_append] at enough
      obtain ⟨left, rfl⟩ := Nat.exists_eq_add_of_le' (show t.entries.length + 1 ≤ fuel by omega)
      have read : (⟨[t.name], false, t.block.entries.reverse⟩ : Block).closed = t.block := by
        simp [Block.closed, block]
      have rest : readBlocks left (current.closed :: done) ⟨[t.name], false, t.block.entries.reverse⟩
          (if ts = [] then [] else '\n' :: documentText ts) =
            some ((current.closed :: done).reverse ++ t.block :: ts.map block) := by
        by_cases last : ts = []
        · rw [if_pos last, List.length_nil] at enough
          rw [if_pos last]
          subst last
          have ends : readBlocks left (current.closed :: done)
              ⟨[t.name], false, t.block.entries.reverse⟩ [] = some _ :=
            ih others (show 0 < left by omega)
          rwa [read] at ends
        · rw [if_neg last] at enough ⊢
          rw [List.length_cons] at enough
          obtain ⟨left, rfl⟩ := Nat.exists_eq_add_of_le' (show 1 ≤ left by omega)
          rw [readBlocks_newline, ih others (by omega), read]
      rw [documentText_cons, readBlocks_text first, rest]
      simp

end CountTable

/-! ## Members -/

section Members

variable {key : String} {value : Toml} {ms : Members}

theorem lookup_eq_none_iff : lookup key ms = none ↔ key ∉ ms.map Prod.fst := by
  simp only [lookup, Option.map_eq_none_iff, List.find?_eq_none, decide_eq_true_eq, List.mem_map,
    not_exists, not_and]

/-- A value under a fresh key comes last. -/
theorem put_of_fresh (fresh : key ∉ ms.map Prod.fst) : put key value ms = ms ++ [(key, value)] := by
  induction ms with
  | nil => rfl
  | cons m ms ih =>
      rw [List.map_cons, List.mem_cons, not_or] at fresh
      rw [put, if_neg (Ne.symm fresh.1), ih fresh.2, List.cons_append]

theorem lookup_map {α : Type} {name : α → String} {f : α → Toml} {xs : List α}
    (distinct : Function.Injective name) {x : α} (among : x ∈ xs) :
    lookup (name x) (xs.map fun x => (name x, f x)) = some (f x) := by
  have there : (xs.find? fun y => name y = name x).isSome :=
    List.find?_isSome.mpr ⟨x, among, decide_eq_true rfl⟩
  obtain ⟨y, found⟩ := Option.isSome_iff_exists.mp there
  have same := List.find?_some found
  obtain rfl := distinct (of_decide_eq_true same)
  have first : xs.find? ((fun m : String × Toml => m.1 = name y) ∘ fun x => (name x, f x)) =
      some y := found
  rw [lookup, List.find?_map, first]
  rfl

theorem addAll_entries {entries : List (String × Toml)}
    (distinct : ((ms ++ entries).map Prod.fst).Nodup) :
    addAll ms (entries.map fun e => ([], e.1, e.2)) = some (ms ++ entries) := by
  induction entries generalizing ms with
  | nil => simp [addAll]
  | cons e entries ih =>
      have fresh : e.1 ∉ ms.map Prod.fst := by
        rw [List.map_append, List.nodup_append] at distinct
        exact fun there => distinct.2.2 _ there _ List.mem_cons_self rfl
      have one : add e.1 e.2 [] ms = some (ms ++ [e]) := by
        rw [add, lookup_eq_none_iff.mpr fresh, put_of_fresh fresh]
        rfl
      rw [List.append_cons] at distinct ⊢
      rw [List.map_cons, addAll, one]
      exact ih distinct

end Members

namespace CountTable

variable {t : CountTable} {ts : List CountTable} {ms : Members}

theorem withBlock_block (legible : t.IsLegible) (fresh : t.name ∉ ms.map Prod.fst) :
    ms.withBlock t.block = some (ms ++ [(t.name, t.toToml)]) := by
  have values : addAll [] t.block.entries =
      some (t.entries.map fun e => (e.1, integer e.2)) := by
    have distinct : ((t.entries.map fun e => (e.1, integer e.2)).map Prod.fst).Nodup := by
      simpa [Function.comp_def] using legible.distinct
    have added : addAll [] ((t.entries.map fun e => (e.1, integer e.2)).map fun e =>
        ([], e.1, e.2)) = some _ := addAll_entries distinct
    simpa [block, Function.comp_def] using added
  have named : t.block.path = [t.name] := rfl
  have single : t.block.isRow = false := rfl
  simp [Members.withBlock, named, single, values, atHeader, lookup_eq_none_iff.mpr fresh,
    put_of_fresh fresh, toToml]

theorem ofBlocks_blocks (legible : ∀ t ∈ ts, t.IsLegible)
    (distinct : ((ms.map Prod.fst) ++ ts.map name).Nodup) :
    (ts.map block).foldlM Members.withBlock ms =
      some (ms ++ ts.map fun t => (t.name, t.toToml)) := by
  induction ts generalizing ms with
  | nil => simp
  | cons t ts ih =>
      obtain ⟨first, others⟩ := List.forall_mem_cons.mp legible
      have fresh : t.name ∉ ms.map Prod.fst := fun there =>
        (List.nodup_append.mp distinct).2.2 _ there _ List.mem_cons_self rfl
      have distinct' : ((ms ++ [(t.name, t.toToml)]).map Prod.fst ++ ts.map name).Nodup := by
        simpa using distinct
      rw [List.map_cons, List.map_cons, List.append_cons, List.foldlM_cons,
        withBlock_block first fresh]
      exact ih others distinct'

/-- Written tables are read back. -/
theorem ofText?_documentText (legible : ∀ t ∈ ts, t.IsLegible) (distinct : (ts.map name).Nodup) :
    ofText? (documentText ts) = some (table .header (ts.map fun t => (t.name, t.toToml))) := by
  have noMark : (documentText ts).head? ≠ some '\uFEFF' := by
    cases ts with
    | nil => simp [documentText]
    | cons t ts => simp [documentText_cons, text]
  have blocks : readBlocks ((documentText ts).length + 1) [] ⟨[], false, []⟩ (documentText ts) =
      some (⟨[], false, []⟩ :: ts.map block) :=
    readBlocks_documentText legible (Nat.lt_succ_self _)
  have whole : ofBlocks (⟨[], false, []⟩ :: ts.map block) =
      some ([] ++ ts.map fun t => (t.name, t.toToml)) :=
    ofBlocks_blocks legible distinct
  rw [ofText?, if_neg noMark]
  exact Option.bind_eq_some_iff.mpr
    ⟨_, blocks, Option.bind_eq_some_iff.mpr ⟨_, whole, rfl⟩⟩

end CountTable

end DiffScope.Toml
