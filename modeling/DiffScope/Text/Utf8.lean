/-!
# Text from bytes

Reads bytes as UTF-8. Where no character can be read, the longest beginning of one is taken for a
broken stretch; a lenient reader puts the replacement character there, a strict one gives up.
-/

namespace DiffScope.Text

/-- How a character goes on behind its first byte. -/
structure Tail where
  /-- The value that the first byte brings. -/
  value : Nat
  /-- Bytes that have to follow. -/
  due : Nat
  /-- Least byte that may follow next. -/
  low : Nat
  /-- Greatest byte that may follow next. -/
  high : Nat
  deriving Repr

/-- What a first byte demands; nothing if no character begins with it. -/
def Tail.ofLead? (b : Nat) : Option Tail :=
  if b < 0x80 then some ⟨b, 0, 0x80, 0xBF⟩
  else if 0xC2 ≤ b ∧ b ≤ 0xDF then some ⟨b - 0xC0, 1, 0x80, 0xBF⟩
  else if b = 0xE0 then some ⟨b - 0xE0, 2, 0xA0, 0xBF⟩
  else if b = 0xED then some ⟨b - 0xE0, 2, 0x80, 0x9F⟩
  else if 0xE1 ≤ b ∧ b ≤ 0xEF then some ⟨b - 0xE0, 2, 0x80, 0xBF⟩
  else if b = 0xF0 then some ⟨b - 0xF0, 3, 0x90, 0xBF⟩
  else if b = 0xF4 then some ⟨b - 0xF0, 3, 0x80, 0x8F⟩
  else if 0xF1 ≤ b ∧ b ≤ 0xF3 then some ⟨b - 0xF0, 3, 0x80, 0xBF⟩
  else none

/-- Reads the bytes due; answers the character, if they are all there, and the bytes left. -/
def readTail (value : Nat) : Nat → Nat → Nat → List UInt8 → Option Char × List UInt8
  | 0, _, _, bs => (some (Char.ofNat value), bs)
  | _ + 1, _, _, [] => (none, [])
  | due + 1, low, high, b :: bs =>
    if low ≤ b.toNat ∧ b.toNat ≤ high then
      readTail (value * 64 + b.toNat % 64) due 0x80 0xBF bs
    else (none, b :: bs)

theorem length_readTail (value due low high : Nat) (bs : List UInt8) :
    (readTail value due low high bs).2.length ≤ bs.length := by
  induction due generalizing value low high bs with
  | zero => exact Nat.le_refl _
  | succ due ih =>
    cases bs with
    | nil => exact Nat.le_refl _
    | cons b bs =>
      simp only [readTail]
      split
      · exact Nat.le_trans (ih ..) (Nat.le_succ _)
      · exact Nat.le_refl _

/-- The characters and the broken stretches of a run of bytes. -/
def readUtf8 : List UInt8 → List (Option Char)
  | [] => []
  | b :: bs =>
    match Tail.ofLead? b.toNat with
    | none => none :: readUtf8 bs
    | some t =>
      (readTail t.value t.due t.low t.high bs).1 ::
        readUtf8 (readTail t.value t.due t.low t.high bs).2
  termination_by bs => bs.length
  decreasing_by
    all_goals
      have := length_readTail
      simp only [List.length_cons]
      first | exact Nat.lt_succ_self _ | exact Nat.lt_succ_of_le (this ..)

/-- The text of a run of bytes, with a replacement character for each broken stretch. -/
def lenientText (bytes : List UInt8) : List Char :=
  (readUtf8 bytes).map (·.getD '\uFFFD')

/-- The text of a run of bytes without broken stretches. -/
def strictText? (bytes : List UInt8) : Option (List Char) :=
  (readUtf8 bytes).mapM id

end DiffScope.Text
