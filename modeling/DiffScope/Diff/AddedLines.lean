import DiffScope.Overflow

/-!
# Added lines

The lines of a file that a diff brings in: a set of positive line numbers, kept in ascending order.
A set moves into the lines of a region of the file, and lines of a region move back.
-/

namespace DiffScope.Diff

/-- Puts a line into its place in an ascending list, unless it is there. -/
def insertLine (line : Nat) : List Nat → List Nat
  | [] => [line]
  | l :: ls =>
    if line < l then line :: l :: ls
    else if line = l then l :: ls
    else l :: insertLine line ls

theorem mem_insertLine {a line : Nat} {ls : List Nat} :
    a ∈ insertLine line ls ↔ a = line ∨ a ∈ ls := by
  induction ls with
  | nil => simp [insertLine]
  | cons l ls ih =>
    simp only [insertLine]
    split
    · simp
    · split
      · subst_vars; simp
      · simp only [List.mem_cons, ih]
        constructor <;> rintro (h | h | h) <;> simp [h]

theorem pairwise_insertLine (line : Nat) {ls : List Nat} (h : ls.Pairwise (· < ·)) :
    (insertLine line ls).Pairwise (· < ·) := by
  induction ls with
  | nil => simp [insertLine]
  | cons l ls ih =>
    obtain ⟨hl, hs⟩ := List.pairwise_cons.mp h
    simp only [insertLine]
    split
    next hlt =>
      refine List.pairwise_cons.mpr ⟨fun a ha => ?_, h⟩
      rcases List.mem_cons.mp ha with rfl | ha
      · exact hlt
      · exact Nat.lt_trans hlt (hl a ha)
    next hge =>
      split
      · exact h
      next hne =>
        refine List.pairwise_cons.mpr ⟨fun a ha => ?_, ih hs⟩
        rcases mem_insertLine.mp ha with rfl | ha
        · omega
        · exact hl a ha

/-- A set of line numbers. -/
structure AddedLines where
  toList : List Nat
  ascending : toList.Pairwise (· < ·)
  positive : ∀ l ∈ toList, 0 < l
  deriving DecidableEq, Repr

namespace AddedLines

def empty : AddedLines := ⟨[], List.Pairwise.nil, by simp⟩

instance : Inhabited AddedLines := ⟨empty⟩

/-- The set with one more line; there is no line zero. -/
def insert (s : AddedLines) (line : Nat) : AddedLines :=
  if h : 0 < line then
    ⟨insertLine line s.toList, pairwise_insertLine line s.ascending, fun l hl => by
      rcases mem_insertLine.mp hl with rfl | hl
      · exact h
      · exact s.positive l hl⟩
  else s

def ofList (lines : List Nat) : AddedLines :=
  lines.foldr (fun l s => s.insert l) empty

def contains (s : AddedLines) (line : Nat) : Bool :=
  s.toList.contains line

def size (s : AddedLines) : Nat := s.toList.length

def isEmpty (s : AddedLines) : Bool := s.toList.isEmpty

/-- The lines from one to another, both included. -/
def within (s : AddedLines) (start stop : Nat) : List Nat :=
  s.toList.filter fun l => start ≤ l && l ≤ stop

/-- Whether a line from one to another is in the set. -/
def intersects (s : AddedLines) (start stop : Nat) : Bool :=
  s.toList.any fun l => start ≤ l && l ≤ stop

end AddedLines

/-- The line of a region that a line of the file is; the region's first line is a line of the file
numbered `offset`. -/
def toRegion? (line offset : Nat) : Option Nat :=
  if offset = 0 ∨ line < offset then none else some (line - offset + 1)

/-- The line of the file that a line of a region is. -/
def toFile (line offset : Nat) : Except Overflow Nat := do
  Overflow.minus (← Overflow.plus line offset) 1

namespace AddedLines

/-- The lines of a region among the lines of the file. -/
def localize (s : AddedLines) (offset : Nat) : AddedLines :=
  ofList (s.toList.filterMap (toRegion? · offset))

/-! ## Membership -/

instance : Membership Nat AddedLines := ⟨fun s l => l ∈ s.toList⟩

theorem mem_def {s : AddedLines} {l : Nat} : l ∈ s ↔ l ∈ s.toList := Iff.rfl

theorem mem_insert {s : AddedLines} {l line : Nat} :
    l ∈ s.insert line ↔ (l = line ∧ 0 < line) ∨ l ∈ s := by
  unfold insert
  split
  next h => simp [mem_def, mem_insertLine, h]
  next h =>
    constructor
    · exact .inr
    · rintro (⟨_, h'⟩ | h')
      · exact absurd h' h
      · exact h'

/-- The set of a list holds the positive numbers of the list. -/
theorem mem_ofList {lines : List Nat} {l : Nat} : l ∈ ofList lines ↔ l ∈ lines ∧ 0 < l := by
  induction lines with
  | nil => simp [ofList, mem_def, empty]
  | cons a as ih =>
    have : ofList (a :: as) = (ofList as).insert a := rfl
    rw [this, mem_insert, ih, List.mem_cons]
    constructor
    · rintro (⟨rfl, h⟩ | ⟨h, h'⟩)
      · exact ⟨.inl rfl, h⟩
      · exact ⟨.inr h, h'⟩
    · rintro ⟨rfl | h, h'⟩
      · exact .inl ⟨rfl, h'⟩
      · exact .inr ⟨h, h'⟩

theorem contains_iff {s : AddedLines} {l : Nat} : s.contains l = true ↔ l ∈ s := by
  simp [contains, mem_def]

theorem mem_within {s : AddedLines} {start stop l : Nat} :
    l ∈ s.within start stop ↔ l ∈ s ∧ start ≤ l ∧ l ≤ stop := by
  simp [within, mem_def]

end AddedLines

end DiffScope.Diff
