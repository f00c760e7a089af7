import Mathlib.Tactic.SplitIfs
import Rollout.Proofs.Text.Order

/-! A text is read back from its bytes: the digits of each character's code, in base sixty-four,
are put together from the bytes that hold them. -/

set_option autoImplicit false

namespace Rollout.Text

section
variable {a b c d : UInt8} {w x y z : Nat}

theorem isContinuation_of_toNat (follows : b.toNat = 0x80 + x) (digit : x < 64) :
    isContinuation b = true := by
  simp [isContinuation, UInt8.le_iff_toNat_le]
  omega

theorem bits_of_toNat {lead : Nat} (width : Nat) (byte : a.toNat = lead + x)
    (digit : x < Nat.pow 2 width) (whole : lead % Nat.pow 2 width = 0) : bits a width = x := by
  rw [bits, byte, Nat.add_mod, whole, Nat.zero_add, Nat.mod_mod, Nat.mod_eq_of_lt digit]

theorem pieces_one (ascii : a.toNat < 0x80) (rest : Bytes) :
    pieces (a :: rest) = some (Char.ofNat a.toNat) :: pieces rest := by
  have first : a < 0x80 := UInt8.lt_iff_toNat_lt.mpr ascii
  cases rest with
  | nil => simp [pieces.eq_def, first]
  | cons => rw [pieces.eq_def]; simp [first]

theorem pieces_two (first : a.toNat = 0xC0 + x) (second : b.toNat = 0x80 + y) (low : 2 ≤ x)
    (high : x < 32) (digit : y < 64) (rest : Bytes) :
    pieces (a :: b :: rest) = some (Char.ofNat (x * 64 + y)) :: pieces rest := by
  have ascii : ¬ a < 0x80 := by simp [UInt8.lt_iff_toNat_lt]; omega
  have two : (0xC2 ≤ a && a ≤ 0xDF) = true := by simp [UInt8.le_iff_toNat_le]; omega
  rw [pieces.eq_def]
  simp only [ascii, two, isContinuation_of_toNat second digit, if_false, if_true,
    bits_of_toNat 5 first high rfl, bits_of_toNat 6 second digit rfl]

theorem pieces_three (first : a.toNat = 0xE0 + x) (second : b.toNat = 0x80 + y)
    (third : c.toNat = 0x80 + z) (high : x < 16) (digit : y < 64) (last : z < 64)
    (low : 0x800 ≤ x * 4096 + y * 64 + z)
    (valid : x * 4096 + y * 64 + z < 0xD800 ∨ 0xDFFF < x * 4096 + y * 64 + z) (rest : Bytes) :
    pieces (a :: b :: c :: rest) =
      some (Char.ofNat (x * 4096 + y * 64 + z)) :: pieces rest := by
  have ascii : ¬ a < 0x80 := by simp [UInt8.lt_iff_toNat_lt]; omega
  have two : (0xC2 ≤ a && a ≤ 0xDF) = false := by simp [UInt8.le_iff_toNat_le]; omega
  have three : (0xE0 ≤ a && a ≤ 0xEF) = true := by simp [UInt8.le_iff_toNat_le]; omega
  have follows : isSecondOfThree a b = true := by
    unfold isSecondOfThree
    simp only [beq_iff_eq, ← UInt8.toNat_inj, UInt8.le_iff_toNat_le]
    split_ifs <;> simp_all [isContinuation, UInt8.le_iff_toNat_le] <;> omega
  rw [pieces.eq_def]
  simp only [ascii, two, three, follows, isContinuation_of_toNat third last, if_false, if_true,
    bits_of_toNat 4 first high rfl, bits_of_toNat 6 second digit rfl,
    bits_of_toNat 6 third last rfl, Bool.false_eq_true]

theorem pieces_four (first : a.toNat = 0xF0 + w) (second : b.toNat = 0x80 + x)
    (third : c.toNat = 0x80 + y) (fourth : d.toNat = 0x80 + z) (digit : x < 64) (other : y < 64)
    (last : z < 64) (low : 0x10000 ≤ w * 262144 + x * 4096 + y * 64 + z)
    (valid : w * 262144 + x * 4096 + y * 64 + z < 0x110000) (rest : Bytes) :
    pieces (a :: b :: c :: d :: rest) =
      some (Char.ofNat (w * 262144 + x * 4096 + y * 64 + z)) :: pieces rest := by
  have ascii : ¬ a < 0x80 := by simp [UInt8.lt_iff_toNat_lt]; omega
  have two : (0xC2 ≤ a && a ≤ 0xDF) = false := by simp [UInt8.le_iff_toNat_le]; omega
  have three : (0xE0 ≤ a && a ≤ 0xEF) = false := by simp [UInt8.le_iff_toNat_le]; omega
  have four : (0xF0 ≤ a && a ≤ 0xF4) = true := by simp [UInt8.le_iff_toNat_le]; omega
  have follows : isSecondOfFour a b = true := by
    unfold isSecondOfFour
    simp only [beq_iff_eq, ← UInt8.toNat_inj, UInt8.le_iff_toNat_le]
    split_ifs <;> simp_all [isContinuation, UInt8.le_iff_toNat_le] <;> omega
  have high : w < 8 := by omega
  rw [pieces.eq_def]
  simp only [ascii, two, three, four, follows, isContinuation_of_toNat third other,
    isContinuation_of_toNat fourth last, if_false, if_true, Bool.false_eq_true,
    bits_of_toNat 3 first high rfl, bits_of_toNat 6 second digit rfl,
    bits_of_toNat 6 third other rfl, bits_of_toNat 6 fourth last rfl]

end

theorem pieces_encodeChar (c : Char) (rest : Bytes) :
    pieces (String.utf8EncodeChar c ++ rest) = some c :: pieces rest := by
  have valid : c.val.toNat < 0xD800 ∨ 0xDFFF < c.val.toNat ∧ c.val.toNat < 0x110000 := c.valid
  have back {n : Nat} (same : n = c.val.toNat) : Char.ofNat n = c := same ▸ Char.ofNat_toNat c
  have byte {n m : Nat} (small : n < 256) (same : n = m) : (UInt8.ofNat n).toNat = m := by
    simp
    omega
  simp only [String.utf8EncodeChar]
  generalize c.val.toNat = n at valid back
  split_ifs with one two three
  · have toNat : (UInt8.ofNat n).toNat = n := byte (by omega) rfl
    rw [List.cons_append, List.nil_append, pieces_one (by omega), toNat, back rfl]
  · refine (pieces_two (x := n / 64) (y := n % 64) (byte ?_ ?_) (byte ?_ ?_) ?_ ?_ ?_
      rest).trans ?_
    case refine_8 => rw [back (by omega)]
    all_goals omega
  · refine (pieces_three (x := n / 4096) (y := n / 64 % 64) (z := n % 64) (byte ?_ ?_) (byte ?_ ?_)
      (byte ?_ ?_) ?_ ?_ ?_ ?_ ?_ rest).trans ?_
    case refine_12 => rw [back (by omega)]
    all_goals omega
  · refine (pieces_four (w := n / 262144) (x := n / 4096 % 64) (y := n / 64 % 64) (z := n % 64)
      (byte ?_ ?_) (byte ?_ ?_) (byte ?_ ?_) (byte ?_ ?_) ?_ ?_ ?_ ?_ ?_ rest).trans ?_
    case refine_14 => rw [back (by omega)]
    all_goals omega

/-- A text comes back from its bytes. -/
theorem decode?_encode (text : String) : decode? (encode text) = some text := by
  have read (chars : List Char) :
      pieces (chars.flatMap String.utf8EncodeChar) = chars.map some := by
    induction chars with
    | nil => simp [pieces.eq_def]
    | cons c rest ih => rw [List.flatMap_cons, pieces_encodeChar, ih, List.map_cons]
  have whole (chars : List Char) : (chars.map some).mapM id = some chars := by
    induction chars with
    | nil => rfl
    | cons c rest ih => simp [ih]
  rw [decode?, encode_eq, read, whole, Option.map_some, String.ofList_toList]

end Rollout.Text
