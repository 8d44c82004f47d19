import Mathlib.Data.List.Basic
import Wakaama.Data.Proofs.CborWriters
import Wakaama.Data.Tlv

/-!
# Numbers in network order

What `bigEndian` writes, `bigEndianValue` reads, up to the bits that have no room; and the
shortest of the widths that an integer is written in has room for all of them.
-/

namespace Wakaama

theorem foldl_bytes (buffer : List UInt8) (value : Nat) :
    buffer.foldl (fun value byte => value * 256 + byte.toNat) value =
      value * 256 ^ buffer.length + bigEndianValue buffer := by
  unfold bigEndianValue
  induction buffer generalizing value with
  | nil => simp
  | cons byte rest ih =>
    rw [List.foldl_cons, List.foldl_cons, ih, ih (0 * 256 + byte.toNat), List.length_cons, pow_succ]
    ring

theorem bigEndianValue_cons (byte : UInt8) (rest : List UInt8) :
    bigEndianValue (byte :: rest) = byte.toNat * 256 ^ rest.length + bigEndianValue rest := by
  have h := foldl_bytes rest (0 * 256 + byte.toNat)
  simpa [bigEndianValue] using h

theorem bigEndianValue_lt (bytes : List UInt8) : bigEndianValue bytes < 256 ^ bytes.length := by
  induction bytes with
  | nil => exact Nat.one_pos
  | cons byte bytes ih =>
    have hbyte := byte.toNat_lt
    rw [bigEndianValue_cons, List.length_cons, Nat.pow_succ]
    nlinarith

theorem bigEndianValue_bigEndian {n : Nat} (hn : n ≤ 8) (val : UInt64) :
    bigEndianValue (bigEndian n val) = val.toNat % 256 ^ n := by
  induction n with
  | zero => simp [bigEndian, bigEndianValue, Nat.mod_one]
  | succ n ih =>
    have hshift : (8 * n).toUInt64.toNat = 8 * n := by
      rw [Nat.toUInt64_eq, UInt64.toNat_ofNat']
      exact Nat.mod_eq_of_lt (by omega)
    have hbyte : ((val >>> (8 * n).toUInt64).toUInt8).toNat = val.toNat / 256 ^ n % 256 := by
      rw [UInt64.toNat_toUInt8, UInt64.toNat_shiftRight, hshift,
        Nat.mod_eq_of_lt (show 8 * n < 64 by omega), Nat.shiftRight_eq_div_pow, pow_mul]
      norm_num
    rw [bigEndian, bigEndianValue_cons, ih (by omega), bigEndian_length, hbyte,
      pow_succ, Nat.mod_mul]
    ring

theorem int64_toInt (v : Int64) : v.toInt = (v.toUInt64.toNat : Int).bmod (2 ^ 64) := by
  rw [← Int64.toInt_toBitVec, BitVec.toInt_eq_toNat_bmod]
  rfl

theorem bmod_lowBits {x : Int} {bits m : Nat} (hx : x = (bits : Int).bmod (2 ^ 64))
    (hm : m ∣ 2 ^ 64) (hlow : -((m / 2 : Nat) : Int) ≤ x) (hhigh : x < ((m + 1) / 2 : Nat)) :
    ((bits % m : Nat) : Int).bmod m = x := by
  calc ((bits % m : Nat) : Int).bmod m
      = (bits : Int).bmod m := by rw [Int.natCast_emod, Int.emod_bmod]
    _ = ((bits : Int).bmod (2 ^ 64)).bmod m := (Int.bmod_bmod_of_dvd hm).symm
    _ = x.bmod m := by rw [← hx]
    _ = x := Int.bmod_eq_of_le (by omega) (by omega)

theorem decodeInt_prvEncodeInt (id : UInt16) (v : Int64) :
    lwm2mDataDecodeInt (.node .opaqueBytes id (.asBuffer (prvEncodeInt v))) = some v := by
  have hv := int64_toInt v
  have hread : ∀ n, n ≤ 8 →
      bigEndianValue (bigEndian n v.toUInt64) = v.toUInt64.toNat % 256 ^ n :=
    fun n hn => bigEndianValue_bigEndian hn _
  unfold prvEncodeInt
  split
  · rename_i hrange
    rw [Int64.le_iff_toInt_le, Int64.le_iff_toInt_le,
      show (-128 : Int64).toInt = -128 from rfl, show (127 : Int64).toInt = 127 from rfl] at hrange
    simp only [lwm2mDataDecodeInt, Lwm2mData.type, Lwm2mData.asBuffer, Lwm2mData.value,
      bigEndian_length, hread 1 (by omega), Option.some.injEq, ← Int64.toInt_inj,
      Int8.toInt_toInt64, Nat.toUInt8_eq, UInt8.toInt8_ofNat', Int8.toInt_ofNat']
    exact bmod_lowBits hv (by norm_num) (by norm_num; omega) (by norm_num; omega)
  · split
    · rename_i hrange
      rw [Int64.le_iff_toInt_le, Int64.le_iff_toInt_le,
        show (-32768 : Int64).toInt = -32768 from rfl,
        show (32767 : Int64).toInt = 32767 from rfl] at hrange
      simp only [lwm2mDataDecodeInt, Lwm2mData.type, Lwm2mData.asBuffer, Lwm2mData.value,
        bigEndian_length, hread 2 (by omega), Option.some.injEq, ← Int64.toInt_inj,
        Int16.toInt_toInt64, Nat.toUInt16_eq, UInt16.toInt16_ofNat', Int16.toInt_ofNat']
      exact bmod_lowBits hv (by norm_num) (by norm_num; omega) (by norm_num; omega)
    · split
      · rename_i hrange
        rw [Int64.le_iff_toInt_le, Int64.le_iff_toInt_le,
          show (-2147483648 : Int64).toInt = -2147483648 from rfl,
          show (2147483647 : Int64).toInt = 2147483647 from rfl] at hrange
        simp only [lwm2mDataDecodeInt, Lwm2mData.type, Lwm2mData.asBuffer, Lwm2mData.value,
          bigEndian_length, hread 4 (by omega), Option.some.injEq, ← Int64.toInt_inj,
          Int32.toInt_toInt64, Nat.toUInt32_eq, UInt32.toInt32_ofNat', Int32.toInt_ofNat']
        exact bmod_lowBits hv (by norm_num) (by norm_num; omega) (by norm_num; omega)
      · simp only [lwm2mDataDecodeInt, Lwm2mData.type, Lwm2mData.asBuffer, Lwm2mData.value,
          bigEndian_length, hread 8 (by omega), Option.some.injEq]
        have hall : v.toUInt64.toNat % 256 ^ 8 = v.toUInt64.toNat :=
          Nat.mod_eq_of_lt (UInt64.toNat_lt _)
        rw [hall, Nat.toUInt64_eq, UInt64.ofNat_toNat]
        rfl

theorem decodeUint_prvEncodeUInt (id : UInt16) (v : UInt64) :
    lwm2mDataDecodeUint (.node .opaqueBytes id (.asBuffer (prvEncodeUInt v))) = some v := by
  have hread : ∀ n, n ≤ 8 → v.toNat < 256 ^ n → (bigEndianValue (bigEndian n v)).toUInt64 = v := by
    intro n hn hlt
    rw [bigEndianValue_bigEndian hn, Nat.mod_eq_of_lt hlt, Nat.toUInt64_eq, UInt64.ofNat_toNat]
  unfold prvEncodeUInt
  split
  · rename_i hle
    rw [UInt64.le_iff_toNat_le] at hle
    have hlt : v.toNat < 256 ^ 1 := Nat.lt_succ_of_le hle
    simp [lwm2mDataDecodeUint, Lwm2mData.type, Lwm2mData.asBuffer, Lwm2mData.value,
      hread 1 (by omega) hlt]
  · split
    · rename_i hle
      rw [UInt64.le_iff_toNat_le] at hle
      have hlt : v.toNat < 256 ^ 2 := Nat.lt_succ_of_le hle
      simp [lwm2mDataDecodeUint, Lwm2mData.type, Lwm2mData.asBuffer, Lwm2mData.value,
        hread 2 (by omega) hlt]
    · split
      · rename_i hle
        rw [UInt64.le_iff_toNat_le] at hle
        have hlt : v.toNat < 256 ^ 4 := Nat.lt_succ_of_le hle
        simp [lwm2mDataDecodeUint, Lwm2mData.type, Lwm2mData.asBuffer, Lwm2mData.value,
          hread 4 (by omega) hlt]
      · have hlt : v.toNat < 256 ^ 8 := UInt64.toNat_lt v
        simp [lwm2mDataDecodeUint, Lwm2mData.type, Lwm2mData.asBuffer, Lwm2mData.value,
          hread 8 (by omega) hlt]

theorem prvEncodeInt_length_le (v : Int64) : (prvEncodeInt v).length ≤ 8 := by
  unfold prvEncodeInt
  split_ifs <;> simp

theorem prvEncodeUInt_length_le (v : UInt64) : (prvEncodeUInt v).length ≤ 8 := by
  unfold prvEncodeUInt
  split_ifs <;> simp

end Wakaama
