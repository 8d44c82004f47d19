import Wakaama.Core.Utils
import Wakaama.Misc.Decimal

/-!
# Numbers as text

`utils_uintToText` and `utils_intToText` write the decimal digits when there is room for all of
them and nothing otherwise.
-/

namespace Wakaama

theorem isDigit_iff {character : UInt8} :
    isDigit character = true ↔ digitZero ≤ character ∧ character ≤ digitNine := by
  simp only [isDigit, digitZero, digitNine, Bool.and_eq_true, decide_eq_true_eq]

theorem isDigit_value {character : UInt8} (h : isDigit character = true) :
    (character - digitZero).toNat = character.toNat - 48 := by
  rw [UInt8.toNat_sub_of_le _ _ (isDigit_iff.1 h).1]
  rfl

theorem uintToTextLoop_eq :
    ∀ (room : Nat) (data : UInt64) (text : List UInt8), uintToTextLoop room data text =
      if (decimalText data.toNat).length ≤ room then decimalText data.toNat ++ text else [] := by
  intro room
  induction room with
  | zero =>
    intro data text
    rw [uintToTextLoop, if_neg (Nat.not_le.mpr (decimalText_length_pos _))]
  | succ room ih =>
    intro data text
    have hdigit : (48 + data % 10).toUInt8 = digitChar (data.toNat % 10) := by
      apply UInt8.toNat_inj.mp
      rw [digitChar_toNat (Nat.mod_lt _ (by decide)), UInt64.toNat_toUInt8, UInt64.toNat_add,
        UInt64.toNat_mod]
      simp
      omega
    have hdiv : (data / 10).toNat = data.toNat / 10 := by
      rw [UInt64.toNat_div]
      rfl
    rw [uintToTextLoop, hdigit]
    by_cases hzero : data / 10 = 0
    · have hlt : data.toNat < 10 := by
        have hz := congrArg UInt64.toNat hzero
        rw [hdiv] at hz
        simp at hz
        omega
      rw [if_pos hzero, decimalText_of_lt hlt, Nat.mod_eq_of_lt hlt, if_pos (by simp)]
      rfl
    · have hge : 10 ≤ data.toNat := by
        refine Nat.not_lt.mp fun hlt => hzero ?_
        apply UInt64.toNat_inj.mp
        rw [hdiv, Nat.div_eq_of_lt hlt]
        rfl
      rw [if_neg hzero, ih, hdiv, decimalText_step hge]
      simp only [List.length_append, List.length_singleton, Nat.add_le_add_iff_right,
        List.append_assoc, List.singleton_append]

theorem utilsUintToText_eq (data : UInt64) (length : Nat) :
    utilsUintToText data length =
      if (decimalText data.toNat).length ≤ length then decimalText data.toNat else [] := by
  rw [utilsUintToText, uintToTextLoop_eq, List.append_nil]

theorem utilsUintToText_length (data : UInt64) (length : Nat) :
    (utilsUintToText data length).length ≤ length := by
  rw [utilsUintToText_eq]
  split
  · assumption
  · exact Nat.zero_le length

theorem toInt64_id (id : UInt16) : id.toUInt64.toInt64.toInt = id.toNat := by
  have h := id.toNat_lt
  change id.toUInt64.toBitVec.toInt = id.toNat
  rw [BitVec.toInt_eq_toNat_of_lt]
  · simp
  · simp
    omega

theorem int64_toNat {data : Int64} (hnonneg : 0 ≤ data.toInt) :
    data.toUInt64.toNat = data.toInt.toNat := by
  have hint : data.toInt = data.toUInt64.toNat := by
    change data.toBitVec.toInt = data.toBitVec.toNat
    rw [BitVec.toInt_eq_toNat_of_msb]
    rw [BitVec.msb_eq_toInt]
    simpa using hnonneg
  omega

theorem utilsIntToText_nonneg {data : Int64} (hnonneg : 0 ≤ data.toInt) (length : Nat) :
    utilsIntToText data length =
      if (decimalText data.toInt.toNat).length ≤ length then decimalText data.toInt.toNat
      else [] := by
  have hsign : ¬ data < 0 := by
    rw [Int64.lt_iff_toInt_lt]
    simpa using hnonneg
  rw [utilsIntToText, if_neg hsign, utilsUintToText_eq, int64_toNat hnonneg]

theorem utilsIntToText_id (id : UInt16) (length : Nat) :
    utilsIntToText id.toUInt64.toInt64 length =
      if (decimalText id.toNat).length ≤ length then decimalText id.toNat else [] := by
  rw [utilsIntToText_nonneg (by rw [toInt64_id]; exact Int.natCast_nonneg _), toInt64_id,
    Int.toNat_natCast]

theorem decimalText_id_length (id : UInt16) : (decimalText id.toNat).length ≤ 5 :=
  decimalText_length_le (k := 4) (by have := id.toNat_lt; omega)

end Wakaama
