import DiffScope.Proofs.Text.ByteOrder
import DiffScope.Text.Utf8

/-! # Reading undoes encoding

The bytes of a text in UTF-8 are read as that text, without a broken stretch: the first byte of a
character tells how many follow, and each of these brings six more bits of it.
-/

namespace DiffScope.Text

/-! ## Bytes behind the first -/

/-- The bytes behind the first of a character, from the front. -/
def tails : Nat → Nat → List UInt8
  | 0, _ => []
  | behind + 1, v => UInt8.ofNat (v / 64 ^ behind % 64 + 128) :: tails behind v

theorem tails_concat (behind v : Nat) :
    tails behind (v / 64) ++ [UInt8.ofNat (v % 64 + 128)] = tails (behind + 1) v := by
  induction behind with
  | zero => simp [tails]
  | succ behind ih =>
      rw [tails, List.cons_append, ih, Nat.div_div_eq_div_mul, ← pow_succ']
      rfl

theorem led_eq_cons (mark behind v : Nat) :
    led mark behind v = UInt8.ofNat (v / 64 ^ behind + mark) :: tails behind v := by
  induction behind generalizing v with
  | zero => simp [led, tails]
  | succ behind ih =>
      rw [led, ih, List.cons_append, tails_concat, Nat.div_div_eq_div_mul, ← pow_succ']

theorem readTail_cons {value due low high : Nat} {b : Nat} {bs : List UInt8} (small : b < 64)
    (within : low ≤ b + 128 ∧ b + 128 ≤ high) :
    readTail value (due + 1) low high (UInt8.ofNat (b + 128) :: bs) =
      readTail (value * 64 + b) due 0x80 0xBF bs := by
  have byte : (UInt8.ofNat (b + 128)).toNat = b + 128 := by
    rw [UInt8.toNat_ofNat']
    omega
  rw [readTail, byte, if_pos within, show (b + 128) % 64 = b by omega]

theorem readTail_tails (behind v : Nat) (rest : List UInt8) :
    readTail (v / 64 ^ behind) behind 0x80 0xBF (tails behind v ++ rest) =
      (some (Char.ofNat v), rest) := by
  induction behind with
  | zero => simp [tails, readTail]
  | succ behind ih =>
      have next : v / 64 ^ (behind + 1) * 64 + v / 64 ^ behind % 64 = v / 64 ^ behind := by
        rw [pow_succ, ← Nat.div_div_eq_div_mul]
        omega
      rw [tails, List.cons_append, readTail_cons (by omega) (by omega), next, ih]

/-! ## First bytes -/

/-- A first byte demands the bytes that stand behind it: it tells how many, and the next of them is
within its bounds. -/
structure Demands (mark behind v : Nat) (t : Tail) : Prop where
  lead : Tail.ofLead? (v / 64 ^ behind + mark) = some t
  value : t.value = v / 64 ^ behind
  due : t.due = behind
  next : ∀ n, behind = n + 1 → t.low ≤ v / 64 ^ n % 64 + 128 ∧ v / 64 ^ n % 64 + 128 ≤ t.high

theorem Demands.readUtf8_led {mark behind v : Nat} {t : Tail} (demands : Demands mark behind v t)
    (small : v / 64 ^ behind + mark < 256) (rest : List UInt8) :
    readUtf8 (led mark behind v ++ rest) = some (Char.ofNat v) :: readUtf8 rest := by
  have byte : (UInt8.ofNat (v / 64 ^ behind + mark)).toNat = v / 64 ^ behind + mark := by
    rw [UInt8.toNat_ofNat', Nat.mod_eq_of_lt small]
  have behindFirst : readTail t.value t.due t.low t.high (tails behind v ++ rest) =
      (some (Char.ofNat v), rest) := by
    rw [demands.value, demands.due, ← readTail_tails behind v rest]
    -- only the first of the bytes behind has bounds of its own
    cases behind with
    | zero => rfl
    | succ behind =>
        rw [tails, List.cons_append, readTail_cons (by omega) (demands.next behind rfl),
          readTail_cons (by omega) (by omega)]
  rw [led_eq_cons, List.cons_append, readUtf8, byte, demands.lead]
  simp only [behindFirst]

theorem exists_demands_one {v : Nat} (high : v ≤ 0x7F) : ∃ t, Demands 0 0 v t := by
  refine ⟨⟨v, 0, 0x80, 0xBF⟩, ?_, by simp, rfl, by simp⟩
  rw [pow_zero, Nat.div_one, Nat.add_zero, Tail.ofLead?, if_pos (by omega)]

theorem exists_demands_two {v : Nat} (low : 0x80 ≤ v) (high : v ≤ 0x7FF) :
    ∃ t, Demands 0xC0 1 v t := by
  have next : 0x80 ≤ v % 64 + 128 ∧ v % 64 + 128 ≤ 0xBF := by omega
  refine ⟨⟨v / 64, 1, 0x80, 0xBF⟩, ?_, by simp, rfl, ?_⟩
  · rw [pow_one, Tail.ofLead?, if_neg (by omega), if_pos (by omega), Nat.add_sub_cancel]
  · intro n same
    obtain rfl : n = 0 := by omega
    rw [pow_zero, Nat.div_one]
    exact next

theorem exists_demands_three {v : Nat} (low : 0x800 ≤ v) (high : v ≤ 0xFFFF)
    (whole : ¬(0xD800 ≤ v ∧ v ≤ 0xDFFF)) : ∃ t, Demands 0xE0 2 v t := by
  -- The next byte has bounds of its own where fewer bytes would do and among the halves of pairs.
  have bounds : ∃ least most, Tail.ofLead? (v / 4096 + 0xE0) = some ⟨v / 4096, 2, least, most⟩ ∧
      least ≤ v / 64 % 64 + 128 ∧ v / 64 % 64 + 128 ≤ most := by
    by_cases first : v / 4096 = 0
    · rw [first]
      exact ⟨0xA0, 0xBF, rfl, by omega, by omega⟩
    · by_cases halves : v / 4096 = 13
      · rw [halves]
        exact ⟨0x80, 0x9F, rfl, by omega, by omega⟩
      · refine ⟨0x80, 0xBF, ?_, by omega, by omega⟩
        rw [Tail.ofLead?, if_neg (by omega), if_neg (by omega), if_neg (by omega),
          if_neg (by omega), if_pos (by omega), Nat.add_sub_cancel]
  obtain ⟨least, most, lead, next⟩ := bounds
  refine ⟨⟨v / 4096, 2, least, most⟩, lead, rfl, rfl, fun n same => ?_⟩
  obtain rfl : n = 1 := by omega
  exact next

theorem exists_demands_four {v : Nat} (low : 0x10000 ≤ v) (high : v < 0x110000) :
    ∃ t, Demands 0xF0 3 v t := by
  have bounds : ∃ least most, Tail.ofLead? (v / 262144 + 0xF0) = some ⟨v / 262144, 3, least, most⟩ ∧
      least ≤ v / 4096 % 64 + 128 ∧ v / 4096 % 64 + 128 ≤ most := by
    by_cases first : v / 262144 = 0
    · rw [first]
      exact ⟨0x90, 0xBF, rfl, by omega, by omega⟩
    · by_cases last : v / 262144 = 4
      · rw [last]
        exact ⟨0x80, 0x8F, rfl, by omega, by omega⟩
      · refine ⟨0x80, 0xBF, ?_, by omega, by omega⟩
        rw [Tail.ofLead?, if_neg (by omega), if_neg (by omega), if_neg (by omega),
          if_neg (by omega), if_neg (by omega), if_neg (by omega), if_neg (by omega),
          if_pos (by omega), Nat.add_sub_cancel]
  obtain ⟨least, most, lead, next⟩ := bounds
  refine ⟨⟨v / 262144, 3, least, most⟩, lead, rfl, rfl, fun n same => ?_⟩
  obtain rfl : n = 2 := by omega
  exact next

/-! ## Texts -/

theorem readUtf8_utf8EncodeChar (c : Char) (rest : List UInt8) :
    readUtf8 (String.utf8EncodeChar c ++ rest) = some c :: readUtf8 rest := by
  have same : Char.ofNat c.val.toNat = c := Char.ofNat_toNat c
  have bound := val_lt c
  have whole : ¬(0xD800 ≤ c.val.toNat ∧ c.val.toNat ≤ 0xDFFF) := by
    rcases c.valid with small | ⟨large, -⟩ <;> omega
  rw [utf8EncodeChar_eq]
  split
  next one =>
    obtain ⟨t, demands⟩ := exists_demands_one one
    rw [demands.readUtf8_led (by omega), same]
  next more =>
    split
    next two =>
      obtain ⟨t, demands⟩ := exists_demands_two (by omega) two
      rw [demands.readUtf8_led (by omega), same]
    next more =>
      split
      next three =>
        obtain ⟨t, demands⟩ := exists_demands_three (by omega) three whole
        rw [demands.readUtf8_led (by omega), same]
      next more =>
        obtain ⟨t, demands⟩ := exists_demands_four (by omega) bound
        rw [demands.readUtf8_led (by omega), same]

theorem readUtf8_utf8 (text : String) : readUtf8 (utf8 text) = text.toList.map some := by
  rw [utf8_eq]
  induction text.toList with
  | nil => rw [List.flatMap_nil, readUtf8, List.map_nil]
  | cons c cs ih => rw [List.flatMap_cons, readUtf8_utf8EncodeChar, ih, List.map_cons]

theorem strictText?_utf8 (text : String) : strictText? (utf8 text) = some text.toList := by
  rw [strictText?, readUtf8_utf8]
  induction text.toList with
  | nil => rfl
  | cons c cs ih => rw [List.map_cons, List.mapM_cons, ih]; rfl

end DiffScope.Text
