import Mathlib.Data.List.Forall2
import Mathlib.Logic.Relation
import DiffScope.Overflow

/-! # Checked computations

A computation that can fail gives a value exactly when each of its steps does. These lemmas take
a run apart step by step, so that nothing has to be unfolded to the cases of failure.
-/

namespace DiffScope.Checked

variable {ε α β : Type}

theorem bind_eq_ok {x : Except ε α} {f : α → Except ε β} {b : β} :
    (x >>= f) = .ok b ↔ ∃ a, x = .ok a ∧ f a = .ok b := by
  cases x with
  | error e => simp [bind, Except.bind]
  | ok a => simp [bind, Except.bind]

/-- A list is gone through without failure exactly when every element is. -/
theorem mapM_eq_ok {f : α → Except ε β} {xs : List α} {ys : List β} :
    xs.mapM f = .ok ys ↔ List.Forall₂ (fun x y => f x = .ok y) xs ys := by
  induction xs generalizing ys with
  | nil =>
      rw [List.mapM_nil, List.forall₂_nil_left_iff]
      exact ⟨fun h => (Except.ok.inj h).symm, fun h => h ▸ rfl⟩
  | cons x xs ih =>
      rw [List.mapM_cons, List.forall₂_cons_left_iff, bind_eq_ok]
      constructor
      · rintro ⟨y, first, h⟩
        obtain ⟨rest, later, h⟩ := bind_eq_ok.mp h
        exact ⟨y, rest, first, ih.mp later, (Except.ok.inj h).symm⟩
      · rintro ⟨y, rest, first, later, rfl⟩
        exact ⟨y, first, bind_eq_ok.mpr ⟨rest, ih.mpr later, rfl⟩⟩

theorem exists_mapM_eq_ok {f : α → Except ε β} {xs : List α}
    (h : ∀ x ∈ xs, ∃ y, f x = .ok y) : ∃ ys, xs.mapM f = .ok ys := by
  induction xs with
  | nil => exact ⟨[], rfl⟩
  | cons x xs ih =>
      obtain ⟨y, first⟩ := h x List.mem_cons_self
      obtain ⟨ys, rest⟩ := ih fun z member => h z (List.mem_cons_of_mem x member)
      exact ⟨y :: ys, mapM_eq_ok.mpr (.cons first (mapM_eq_ok.mp rest))⟩

/-- Where each element has a value that is known, the list of the values is. -/
theorem mapM_eq_ok_iff_map {f : α → Except ε β} {g : α → β} {P : α → Prop}
    (h : ∀ x y, f x = .ok y ↔ P x ∧ y = g x) {xs : List α} {ys : List β} :
    xs.mapM f = .ok ys ↔ (∀ x ∈ xs, P x) ∧ ys = xs.map g := by
  rw [mapM_eq_ok]
  induction xs generalizing ys with
  | nil =>
      rw [List.forall₂_nil_left_iff]
      simp
  | cons x xs ih =>
      rw [List.forall₂_cons_left_iff, List.forall_mem_cons, List.map_cons]
      constructor
      · rintro ⟨y, rest, first, others, rfl⟩
        obtain ⟨holds, rfl⟩ := (h x y).mp first
        obtain ⟨all, rfl⟩ := ih.mp others
        exact ⟨⟨holds, all⟩, rfl⟩
      · rintro ⟨⟨holds, all⟩, rfl⟩
        exact ⟨_, _, (h _ _).mpr ⟨holds, rfl⟩, ih.mpr ⟨all, rfl⟩, rfl⟩

/-! ## Lists that correspond -/

section Corresponding

variable {γ : Type} {R : α → β → Prop} {S : β → γ → Prop}
variable {xs xs' : List α} {ys : List β} {zs : List γ}

theorem exists_getElem?_left (h : List.Forall₂ R xs ys) {k : Nat} {x : α}
    (found : xs[k]? = some x) : ∃ y, ys[k]? = some y ∧ R x y := by
  induction h generalizing k with
  | nil => cases found
  | cons related rest ih =>
      cases k with
      | zero => exact ⟨_, rfl, Option.some.inj found ▸ related⟩
      | succ k => exact ih found

theorem exists_getElem?_right (h : List.Forall₂ R xs ys) {k : Nat} {y : β}
    (found : ys[k]? = some y) : ∃ x, xs[k]? = some x ∧ R x y :=
  exists_getElem?_left h.flip found

theorem exists_of_mem_left (h : List.Forall₂ R xs ys) {x : α} (member : x ∈ xs) :
    ∃ y ∈ ys, R x y := by
  obtain ⟨k, found⟩ := List.mem_iff_getElem?.mp member
  obtain ⟨y, found, related⟩ := exists_getElem?_left h found
  exact ⟨y, List.mem_of_getElem? found, related⟩

theorem exists_of_mem_right (h : List.Forall₂ R xs ys) {y : β} (member : y ∈ ys) :
    ∃ x ∈ xs, R x y :=
  exists_of_mem_left h.flip member

/-- Where every element has two values that correspond, so do the lists of the values. -/
theorem exists_forall₂_of_forall {T : β → γ → Prop} {S : α → γ → Prop}
    (h : ∀ x ∈ xs, ∃ y z, R x y ∧ S x z ∧ T y z) :
    ∃ ys zs, List.Forall₂ R xs ys ∧ List.Forall₂ S xs zs ∧ List.Forall₂ T ys zs := by
  induction xs with
  | nil => exact ⟨[], [], .nil, .nil, .nil⟩
  | cons x xs ih =>
      obtain ⟨first, rest⟩ := List.forall_mem_cons.mp h
      obtain ⟨y, z, left, right, both⟩ := first
      obtain ⟨ys, zs, lefts, rights, all⟩ := ih rest
      exact ⟨y :: ys, z :: zs, .cons left lefts, .cons right rights, .cons both all⟩

theorem forall₂_comp (h : List.Forall₂ R xs ys) (k : List.Forall₂ S ys zs) :
    List.Forall₂ (Relation.Comp R S) xs zs := by
  induction h generalizing zs with
  | nil => cases k; exact .nil
  | cons related _ ih =>
      cases k with
      | cons next rest => exact .cons ⟨_, related, next⟩ (ih rest)

/-- What holds between the elements of a list holds of a list that corresponds to it. -/
theorem pairwise_of_forall₂ {P : α → α → Prop} {Q : β → β → Prop} (h : List.Forall₂ R xs ys)
    (pairs : xs.Pairwise P)
    (carries : ∀ x y x' y', R x y → R x' y' → P x x' → Q y y') : ys.Pairwise Q := by
  induction h with
  | nil => exact .nil
  | cons related rest ih =>
      obtain ⟨first, pairs⟩ := List.pairwise_cons.mp pairs
      refine List.pairwise_cons.mpr ⟨fun y' member => ?_, ih pairs⟩
      obtain ⟨x', among, related'⟩ := exists_of_mem_right rest member
      exact carries _ _ _ _ related related' (first x' among)

/-- Elements at ascending indices of a list are some of it, in its order. -/
theorem sublist_of_forall₂_getElem? {indices : List Nat} (ascending : indices.Pairwise (· < ·))
    (h : List.Forall₂ (fun i x => xs[i]? = some x) indices xs') : xs'.Sublist xs := by
  obtain ⟨places, rfl, rfl⟩ :
      ∃ places : List (Fin xs.length), places.map Fin.val = indices ∧ xs' = places.map (xs[·]) := by
    clear ascending
    induction h with
    | nil => exact ⟨[], rfl, rfl⟩
    | cons found _ ih =>
        obtain ⟨bound, rfl⟩ := List.getElem?_eq_some_iff.mp found
        obtain ⟨places, rfl, rfl⟩ := ih
        exact ⟨⟨_, bound⟩ :: places, rfl, rfl⟩
  rw [List.pairwise_map] at ascending
  exact List.map_getElem_sublist ascending

/-- Lists that correspond still do when both are sorted, if elements that correspond have the same
place in the order. -/
theorem forall₂_mergeSort {le : α → α → Bool} {le' : β → β → Bool} (h : List.Forall₂ R xs ys)
    (agrees : ∀ x y x' y', R x y → R x' y' → le x x' = le' y y') :
    List.Forall₂ R (xs.mergeSort le) (ys.mergeSort le') := by
  obtain ⟨zs, rfl, rfl, related⟩ :
      ∃ zs : List (α × β), zs.map Prod.fst = xs ∧ zs.map Prod.snd = ys ∧ ∀ z ∈ zs, R z.1 z.2 := by
    induction h with
    | nil => exact ⟨[], rfl, rfl, by simp⟩
    | cons first _ ih =>
        obtain ⟨zs, rfl, rfl, related⟩ := ih
        exact ⟨(_, _) :: zs, rfl, rfl, List.forall_mem_cons.mpr ⟨first, related⟩⟩
  let order (a b : α × β) : Bool := le a.1 b.1
  have left : (zs.mergeSort order).map Prod.fst = (zs.map Prod.fst).mergeSort le :=
    List.map_mergeSort fun _ _ _ _ => rfl
  have right : (zs.mergeSort order).map Prod.snd = (zs.map Prod.snd).mergeSort le' :=
    List.map_mergeSort fun a inA b inB => agrees _ _ _ _ (related a inA) (related b inB)
  rw [← left, ← right, List.forall₂_map_left_iff, List.forall₂_map_right_iff, List.forall₂_same]
  exact fun z member => related z (List.mem_mergeSort.mp member)

end Corresponding

/-! ## Bounded sums and differences -/

theorem plus_eq_ok_iff {a b c : Nat} :
    Overflow.plus a b = .ok c ↔ c = a + b ∧ a + b < countBound := by
  unfold Overflow.plus
  split <;> rename_i h
  · simp [h, eq_comm]
  · simp [h]

theorem minus_eq_ok_iff {a b c : Nat} :
    Overflow.minus a b = .ok c ↔ c = a - b ∧ b ≤ a := by
  unfold Overflow.minus
  split <;> rename_i h
  · simp [h, eq_comm]
  · simp [h]

end DiffScope.Checked
