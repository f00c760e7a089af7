import Mathlib.Tactic.SplitIfs
import Rollout.Text.Utf8

/-! The order of texts is that of their bytes: a character that comes later has bytes that come
later, whatever follows either of them. -/

set_option autoImplicit false

namespace Rollout.Text

theorem toList_loop (bytes : ByteArray) (i : Nat) (read : Bytes) :
    ByteArray.toList.loop bytes i read = read.reverse ++ bytes.data.toList.drop i := by
  fun_induction ByteArray.toList.loop bytes i read with
  | case1 i read inside ih =>
    have bound : i < bytes.data.toList.length := by simpa using inside
    rw [ih, List.drop_eq_getElem_cons bound]
    simp [ByteArray.get!, inside]
  | case2 i read beyond =>
    have bound : bytes.data.toList.length ≤ i := by simpa using beyond
    rw [List.drop_eq_nil_of_le bound, List.append_nil]

theorem encode_eq (text : String) :
    encode text = text.toList.flatMap String.utf8EncodeChar := by
  have bytes : text.toUTF8 = (text.toList.flatMap String.utf8EncodeChar).toByteArray :=
    String.utf8Encode_toList.symm
  rw [encode, bytes, ByteArray.toList, toList_loop, List.reverse_nil, List.nil_append,
    List.drop_zero, List.toList_data_toByteArray]

theorem encodeChar_lt {c d : Char} (less : c < d) (after behind : Bytes) :
    String.utf8EncodeChar c ++ after < String.utf8EncodeChar d ++ behind := by
  have values : c.val.toNat < d.val.toNat := less
  have bound : d.val.toNat < 0x110000 := by
    rcases d.valid with low | high
    · exact Nat.lt_trans low (by decide)
    · exact high.2
  -- the leading digits in terms of those behind them
  have third (n : Nat) : n / 4096 = n / 64 / 64 := by omega
  have fourth (n : Nat) : n / 262144 = n / 64 / 64 / 64 := by omega
  simp only [String.utf8EncodeChar, third, fourth]
  split_ifs <;>
    simp only [List.cons_append, List.nil_append, List.cons_lt_cons_iff, UInt8.lt_iff_toNat_lt,
      UInt8.toNat_ofNat', ← UInt8.toNat_inj] <;>
    omega

theorem flatMap_encodeChar_lt {cs ds : List Char} (less : cs < ds) :
    cs.flatMap String.utf8EncodeChar < ds.flatMap String.utf8EncodeChar := by
  induction less with
  | @nil d ds =>
    cases encoded : String.utf8EncodeChar d with
    | nil => exact absurd encoded String.utf8EncodeChar_ne_nil
    | cons byte bytes =>
      rw [List.flatMap_nil, List.flatMap_cons, encoded]
      exact List.nil_lt_cons _ _
  | rel less => exact encodeChar_lt less _ _
  | cons _ ih => exact List.append_left_lt ih

theorem encode_lt_iff {s t : String} : encode s < encode t ↔ s < t := by
  have forward {s t : String} (less : s < t) : encode s < encode t := by
    rw [encode_eq, encode_eq]
    exact flatMap_encodeChar_lt less
  refine ⟨fun less => ?_, forward⟩
  refine Decidable.byContradiction fun notLess => ?_
  by_cases more : t < s
  · exact List.lt_asymm less (forward more)
  · cases String.le_antisymm notLess more
    exact List.lt_irrefl _ less

end Rollout.Text
