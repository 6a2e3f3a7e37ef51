import Mathlib.Data.String.Basic

/-! # The order of bytes

Texts are in the order of their characters exactly if their encodings are in the order of their bytes:
the encodings of two characters differ in a byte that both have, and the lesser character has the
lesser byte there.
-/

namespace DiffScope.Text

/-! ## Characters -/

/-- A byte with the leading digits of a number, and bytes with the digits behind them. -/
def led (mark : Nat) : Nat → Nat → List UInt8
  | 0, v => [UInt8.ofNat (v + mark)]
  | behind + 1, v => led mark behind (v / 64) ++ [UInt8.ofNat (v % 64 + 128)]

theorem cons_ofNat_lt {a b : Nat} (less : a < b) (small : b < 256) (xs ys : List UInt8) :
    UInt8.ofNat a :: xs < UInt8.ofNat b :: ys := by
  rw [List.cons_lt_cons_iff, UInt8.lt_iff_toNat_lt, UInt8.toNat_ofNat', UInt8.toNat_ofNat']
  exact .inl (by omega)

theorem exists_led_eq_cons (mark behind v : Nat) :
    ∃ rest, led mark behind v = UInt8.ofNat (v / 64 ^ behind + mark) :: rest := by
  induction behind generalizing v with
  | zero =>
      rw [pow_zero, Nat.div_one]
      exact ⟨[], rfl⟩
  | succ behind ih =>
      obtain ⟨rest, same⟩ := ih (v / 64)
      rw [Nat.div_div_eq_div_mul, ← pow_succ'] at same
      exact ⟨rest ++ [_], by rw [led, same, List.cons_append]⟩

theorem led_append_lt_of_lead_lt {mark mark' behind behind' m n : Nat}
    (less : m / 64 ^ behind + mark < n / 64 ^ behind' + mark')
    (small : n / 64 ^ behind' + mark' < 256) (xs ys : List UInt8) :
    led mark behind m ++ xs < led mark' behind' n ++ ys := by
  obtain ⟨rest, same⟩ := exists_led_eq_cons mark behind m
  obtain ⟨rest', same'⟩ := exists_led_eq_cons mark' behind' n
  rw [same, same']
  exact cons_ofNat_lt less small _ _

theorem led_append_lt {mark behind m n : Nat} (less : m < n) (small : n / 64 ^ behind + mark < 256)
    (xs ys : List UInt8) : led mark behind m ++ xs < led mark behind n ++ ys := by
  induction behind generalizing m n xs ys with
  | zero =>
      rw [pow_zero, Nat.div_one] at small
      exact cons_ofNat_lt (by omega) small xs ys
  | succ behind ih =>
      rw [pow_succ', ← Nat.div_div_eq_div_mul] at small
      simp only [led, List.append_assoc]
      rcases (Nat.div_le_div_right less.le : m / 64 ≤ n / 64).lt_or_eq with before | same
      · exact ih before small _ _
      · rw [same]
        exact List.append_left_lt (cons_ofNat_lt (by omega) (by omega) xs ys)

theorem val_lt (c : Char) : c.val.toNat < 0x110000 := by
  rcases c.valid with small | ⟨-, small⟩
  · exact small.trans (by decide)
  · exact small

theorem utf8EncodeChar_eq (c : Char) : String.utf8EncodeChar c =
    if c.val.toNat ≤ 0x7F then led 0 0 c.val.toNat
    else if c.val.toNat ≤ 0x7FF then led 0xC0 1 c.val.toNat
    else if c.val.toNat ≤ 0xFFFF then led 0xE0 2 c.val.toNat
    else led 0xF0 3 c.val.toNat := by
  have bound := val_lt c
  simp only [String.utf8EncodeChar, led, Nat.div_div_eq_div_mul]
  split
  · rfl
  · split
    · rw [Nat.mod_eq_of_lt (by omega)]
      rfl
    · split
      · rw [Nat.mod_eq_of_lt (by omega)]
        rfl
      · rw [Nat.mod_eq_of_lt (by omega)]
        rfl

/-- What follows two characters does not change the order of their encodings. -/
theorem utf8EncodeChar_append_lt {c d : Char} (less : c < d) (xs ys : List UInt8) :
    String.utf8EncodeChar c ++ xs < String.utf8EncodeChar d ++ ys := by
  have values : c.val.toNat < d.val.toNat := less
  have bound := val_lt d
  rw [utf8EncodeChar_eq, utf8EncodeChar_eq]
  -- Encodings of the same length are compared digit by digit, others by their first byte.
  split <;> repeat' split
  all_goals
    first
    | exact led_append_lt values (by omega) xs ys
    | exact led_append_lt_of_lead_lt (by omega) (by omega) xs ys

/-! ## Texts -/

theorem flatMap_utf8EncodeChar_lt {s t : List Char} (less : s < t) :
    s.flatMap String.utf8EncodeChar < t.flatMap String.utf8EncodeChar := by
  induction less with
  | @nil d rest =>
      obtain ⟨first, others, same⟩ :=
        List.exists_cons_of_ne_nil (String.utf8EncodeChar_ne_nil (c := d))
      rw [List.flatMap_nil, List.flatMap_cons, same]
      exact .nil
  | rel less =>
      rw [List.flatMap_cons, List.flatMap_cons]
      exact utf8EncodeChar_append_lt less _ _
  | cons _ ih =>
      rw [List.flatMap_cons, List.flatMap_cons]
      exact List.append_left_lt ih

/-- The bytes of a text in UTF-8. -/
def utf8 (text : String) : List UInt8 := text.toUTF8.data.toList

theorem utf8_eq (text : String) : utf8 text = text.toList.flatMap String.utf8EncodeChar := by
  rw [utf8, String.toUTF8_eq_toByteArray, ← String.utf8Encode_toList, List.utf8Encode,
    List.data_toByteArray, List.toList_toArray]

theorem utf8_lt {a b : String} (less : a < b) : utf8 a < utf8 b := by
  rw [utf8_eq, utf8_eq]
  exact flatMap_utf8EncodeChar_lt (String.lt_iff_toList_lt.mp less)

/-- Texts are in the order of their bytes. -/
theorem lt_iff_utf8_lt {a b : String} : a < b ↔ utf8 a < utf8 b := by
  refine ⟨utf8_lt, fun less => ?_⟩
  rcases lt_trichotomy a b with before | rfl | behind
  · exact before
  · exact absurd less (List.lt_irrefl _)
  · exact absurd less (List.lt_asymm (utf8_lt behind))

end DiffScope.Text
