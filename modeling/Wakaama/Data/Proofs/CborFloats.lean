import Wakaama.Data.CborFloat
import Wakaama.Data.Proofs.CborHeads
import Wakaama.Misc.Bits

/-!
# Which doubles come back from CBOR

Singles are those that the conversion to `float` keeps. A half is written for a single whose last
eleven bits are 0, but keeps ten of its 23.
-/

namespace Wakaama

/-! ## Fields -/

theorem doubleSign_toNat (bits : UInt64) : (doubleSign bits).toNat = bits.toNat / 2 ^ 63 := by
  unfold doubleSign
  rw [UInt64.toNat_shiftRight]
  exact Nat.shiftRight_eq_div_pow bits.toNat 63

theorem doubleExponent_eq (bits : UInt64) : doubleExponent bits = bits.toNat / 2 ^ 52 % 2 ^ 11 := by
  unfold doubleExponent
  rw [UInt64.toNat_and, UInt64.toNat_shiftRight]
  show (bits.toNat >>> 52) &&& (2 ^ 11 - 1) = _
  rw [and_ones, Nat.shiftRight_eq_div_pow]

theorem doubleMantissa_eq (bits : UInt64) : doubleMantissa bits = bits.toNat % 2 ^ 52 := by
  unfold doubleMantissa
  rw [UInt64.toNat_and]
  exact and_ones bits.toNat 52

theorem double_fields (bits : UInt64) :
    bits.toNat = (doubleSign bits).toNat * 2 ^ 63 + doubleExponent bits * 2 ^ 52 +
      doubleMantissa bits ∧ (doubleSign bits).toNat < 2 ∧ doubleExponent bits < 2 ^ 11 ∧
      doubleMantissa bits < 2 ^ 52 := by
  have hlt := bits.toNat_lt
  rw [doubleSign_toNat, doubleExponent_eq, doubleMantissa_eq]
  omega

variable {m e bufferLen : Nat} {uval : UInt32} {half : UInt16} {bits value : UInt64}

theorem single_fields (h : uval.toNat = s * 2 ^ 31 + e * 2 ^ 23 + m) (hs : s < 2) (he : e < 2 ^ 8)
    (hm : m < 2 ^ 23) :
    (uval &&& 0x7fffff).toNat = m ∧ ((uval >>> 23) &&& 0xff).toNat = e ∧
      ((uval &&& 0x80000000) >>> 24).toUInt8.toNat = s * 2 ^ 7 ∧
      (uval &&& 0x80000000 ≠ 0 ↔ s = 1) := by
  have hmantissa : (uval &&& 0x7fffff).toNat = uval.toNat % 2 ^ 23 := by
    rw [UInt32.toNat_and]
    exact and_ones uval.toNat 23
  have hexponent : ((uval >>> 23) &&& 0xff).toNat = uval.toNat / 2 ^ 23 % 2 ^ 8 := by
    rw [UInt32.toNat_and, UInt32.toNat_shiftRight]
    show (uval.toNat >>> 23) &&& (2 ^ 8 - 1) = _
    rw [and_ones, Nat.shiftRight_eq_div_pow]
  have hsign : (uval &&& 0x80000000).toNat = uval.toNat / 2 ^ 31 % 2 * 2 ^ 31 := by
    rw [UInt32.toNat_and]
    exact and_bit uval.toNat 31
  have hbyte : ((uval &&& 0x80000000) >>> 24).toUInt8.toNat =
      (uval &&& 0x80000000).toNat / 2 ^ 24 % 256 := by
    rw [UInt32.toNat_toUInt8, UInt32.toNat_shiftRight]
    exact congrArg (· % 256) (Nat.shiftRight_eq_div_pow _ 24)
  have hzero : uval &&& 0x80000000 ≠ 0 ↔ (uval &&& 0x80000000).toNat ≠ 0 := by
    rw [Ne, ← UInt32.toNat_inj]
    rfl
  rw [hbyte, hzero, hmantissa, hexponent, hsign, h]
  omega

theorem half_fields (h : half.toNat = s * 2 ^ 15 + e * 2 ^ 10 + m) (hs : s < 2) (he : e < 2 ^ 5)
    (hm : m < 2 ^ 10) :
    (half &&& 0x3ff).toNat = m ∧ ((half >>> 10) &&& 0x1f).toNat = e ∧
      (half &&& 0x8000 ≠ 0 ↔ s = 1) := by
  have hmantissa : (half &&& 0x3ff).toNat = half.toNat % 2 ^ 10 := by
    rw [UInt16.toNat_and]
    exact and_ones half.toNat 10
  have hexponent : ((half >>> 10) &&& 0x1f).toNat = half.toNat / 2 ^ 10 % 2 ^ 5 := by
    rw [UInt16.toNat_and, UInt16.toNat_shiftRight]
    show (half.toNat >>> 10) &&& (2 ^ 5 - 1) = _
    rw [and_ones, Nat.shiftRight_eq_div_pow]
  have hsign : (half &&& 0x8000).toNat = half.toNat / 2 ^ 15 % 2 * 2 ^ 15 := by
    rw [UInt16.toNat_and]
    exact and_bit half.toNat 15
  have hzero : half &&& 0x8000 ≠ 0 ↔ (half &&& 0x8000).toNat ≠ 0 := by
    rw [Ne, ← UInt16.toNat_inj]
    rfl
  rw [hzero, hmantissa, hexponent, hsign, h]
  omega

/-! ## The readers -/

theorem scaledDouble_toNat {mantissa width rest e : Nat} {exponent : Int}
    (hmantissa : mantissa = 2 ^ width + rest) (hrest : rest < 2 ^ width) (hwidth : width ≤ 52)
    (he : exponent + width + 1023 = e) (hpos : 0 < e) (hlt : e < 2047) :
    (scaledDouble mantissa exponent).toNat = e * 2 ^ 52 + rest * 2 ^ (52 - width) := by
  have hne : mantissa ≠ 0 := by
    have := Nat.two_pow_pos width
    omega
  have hlog : mantissa.log2 = width := by
    rw [Nat.log2_eq_iff hne, pow_succ]
    omega
  have hscale : 2 ^ width * 2 ^ (52 - width) = 2 ^ 52 := by
    rw [← pow_add, Nat.add_sub_cancel' hwidth]
  have hsmall : rest * 2 ^ (52 - width) < 2 ^ 52 := by
    rw [← hscale]
    exact Nat.mul_lt_mul_of_pos_right hrest (Nat.two_pow_pos _)
  unfold scaledDouble
  rw [if_neg hne, hlog]
  dsimp only
  rw [he, Int.toNat_natCast, Nat.toUInt64_eq, UInt64.toNat_ofNat', Nat.shiftLeft_eq,
    Nat.shiftLeft_eq, Nat.shiftLeft_eq, hmantissa, add_mul, hscale]
  omega

theorem signed_toNat {negative : Prop} [Decidable negative] {magnitude : UInt64} (hs : s < 2)
    (hnegative : negative ↔ s = 1) (h : magnitude.toNat < 2 ^ 63) :
    (if negative then magnitude ||| doubleSignBit else magnitude).toNat =
      s * 2 ^ 63 + magnitude.toNat := by
  split
  · rename_i hneg
    rw [hnegative.1 hneg, UInt64.toNat_or, Nat.or_comm]
    exact @or_shifted 63 1 _ h
  · rename_i hpos
    have hzero : s = 0 := by
      have : ¬ s = 1 := fun hone => hpos (hnegative.2 hone)
      omega
    rw [hzero]
    omega

theorem singleToDouble_normal (h : uval.toNat = s * 2 ^ 31 + e * 2 ^ 23 + m) (hs : s < 2)
    (hpos : 0 < e) (he : e < 255) (hm : m < 2 ^ 23) :
    (singleToDouble uval).toNat = s * 2 ^ 63 + (e + 896) * 2 ^ 52 + m * 2 ^ 29 := by
  obtain ⟨hmantissa, hexponent, -, hsign⟩ := single_fields h hs (by omega) hm
  have hscaled := @scaledDouble_toNat (m + 0x800000) 23 m (e + 896) (e - 150) (by omega) hm
    (by omega) (by push_cast; omega) (by omega) (by omega)
  unfold singleToDouble
  dsimp only
  rw [hmantissa, hexponent, if_neg (show ¬ e = 0 by omega), if_pos (show e ≠ 255 by omega),
    signed_toNat hs hsign (by omega), hscaled]
  omega

theorem singleToDouble_subnormal {width rest : Nat}
    (h : uval.toNat = s * 2 ^ 31 + (2 ^ width + rest)) (hs : s < 2) (hwidth : width < 23)
    (hrest : rest < 2 ^ width) :
    (singleToDouble uval).toNat = s * 2 ^ 63 + (width + 874) * 2 ^ 52 + rest * 2 ^ (52 - width) := by
  have hpow : 2 ^ width ≤ 2 ^ 22 := Nat.pow_le_pow_right (by decide) (by omega)
  have hfields : uval.toNat = s * 2 ^ 31 + 0 * 2 ^ 23 + (2 ^ width + rest) := by
    rw [h, Nat.zero_mul, Nat.add_zero]
  obtain ⟨hmantissa, hexponent, -, hsign⟩ :=
    single_fields hfields hs (by omega) (by omega)
  have hscaled := @scaledDouble_toNat (2 ^ width + rest) width rest (width + 874) (-149) rfl hrest
    (by omega) (by push_cast; omega) (by omega) (by omega)
  have hscale : 2 ^ width * 2 ^ (52 - width) = 2 ^ 52 := by
    rw [← pow_add, Nat.add_sub_cancel' (by omega)]
  have hsmall : rest * 2 ^ (52 - width) < 2 ^ 52 := by
    rw [← hscale]
    exact Nat.mul_lt_mul_of_pos_right hrest (Nat.two_pow_pos _)
  unfold singleToDouble
  dsimp only
  rw [hmantissa, hexponent, if_pos rfl, signed_toNat hs hsign (by omega), hscaled]
  omega

theorem singleToDouble_zero (h : uval.toNat = s * 2 ^ 31) (hs : s < 2) :
    (singleToDouble uval).toNat = s * 2 ^ 63 := by
  have hfields : uval.toNat = s * 2 ^ 31 + 0 * 2 ^ 23 + 0 := by
    rw [h, Nat.zero_mul, Nat.add_zero]
  obtain ⟨hmantissa, hexponent, -, hsign⟩ :=
    single_fields hfields hs (by omega) (by omega)
  have hzero : (scaledDouble 0 (-149)).toNat = 0 := rfl
  unfold singleToDouble
  dsimp only
  rw [hmantissa, hexponent, if_pos rfl, signed_toNat hs hsign (by omega), hzero]
  omega

theorem halfToDouble_normal (h : half.toNat = s * 2 ^ 15 + e * 2 ^ 10 + m) (hs : s < 2)
    (hpos : 0 < e) (he : e < 31) (hm : m < 2 ^ 10) :
    (halfToDouble half).toNat = s * 2 ^ 63 + (e + 1008) * 2 ^ 52 + m * 2 ^ 42 := by
  obtain ⟨hmantissa, hexponent, hsign⟩ := half_fields h hs (by omega) hm
  have hscaled := @scaledDouble_toNat (m + 1024) 10 m (e + 1008) (e - 25) (by omega) hm
    (by omega) (by push_cast; omega) (by omega) (by omega)
  unfold halfToDouble
  dsimp only
  rw [hmantissa, hexponent, if_neg (show ¬ e = 0 by omega), if_pos (show e ≠ 31 by omega),
    signed_toNat hs hsign (by omega), hscaled]
  omega

theorem halfToDouble_subnormal {width rest : Nat} (h : half.toNat = s * 2 ^ 15 + (2 ^ width + rest))
    (hs : s < 2) (hwidth : width < 10) (hrest : rest < 2 ^ width) :
    (halfToDouble half).toNat = s * 2 ^ 63 + (width + 999) * 2 ^ 52 + rest * 2 ^ (52 - width) := by
  have hpow : 2 ^ width ≤ 2 ^ 9 := Nat.pow_le_pow_right (by decide) (by omega)
  have hfields : half.toNat = s * 2 ^ 15 + 0 * 2 ^ 10 + (2 ^ width + rest) := by
    rw [h, Nat.zero_mul, Nat.add_zero]
  obtain ⟨hmantissa, hexponent, hsign⟩ :=
    half_fields hfields hs (by omega) (by omega)
  have hscaled := @scaledDouble_toNat (2 ^ width + rest) width rest (width + 999) (-24) rfl hrest
    (by omega) (by push_cast; omega) (by omega) (by omega)
  have hscale : 2 ^ width * 2 ^ (52 - width) = 2 ^ 52 := by
    rw [← pow_add, Nat.add_sub_cancel' (by omega)]
  have hsmall : rest * 2 ^ (52 - width) < 2 ^ 52 := by
    rw [← hscale]
    exact Nat.mul_lt_mul_of_pos_right hrest (Nat.two_pow_pos _)
  unfold halfToDouble
  dsimp only
  rw [hmantissa, hexponent, if_pos rfl, signed_toNat hs hsign (by omega), hscaled]
  omega

theorem halfToDouble_zero (h : half.toNat = s * 2 ^ 15) (hs : s < 2) :
    (halfToDouble half).toNat = s * 2 ^ 63 := by
  have hfields : half.toNat = s * 2 ^ 15 + 0 * 2 ^ 10 + 0 := by
    rw [h, Nat.zero_mul, Nat.add_zero]
  obtain ⟨hmantissa, hexponent, hsign⟩ :=
    half_fields hfields hs (by omega) (by omega)
  have hzero : (scaledDouble 0 (-24)).toNat = 0 := rfl
  unfold halfToDouble
  dsimp only
  rw [hmantissa, hexponent, if_pos rfl, signed_toNat hs hsign (by omega), hzero]
  omega

/-! ## Singles -/

inductive SingleFields (bits : UInt64) (uval : UInt32) : Prop
  | zero (hexponent : doubleExponent bits = 0) (hmantissa : doubleMantissa bits = 0)
    (huval : uval.toNat = (doubleSign bits).toNat * 2 ^ 31)
  | normal {e m : Nat} (hpos : 0 < e) (he : e < 255) (hm : m < 2 ^ 23)
    (hexponent : doubleExponent bits = e + 896) (hmantissa : doubleMantissa bits = m * 2 ^ 29)
    (huval : uval.toNat = (doubleSign bits).toNat * 2 ^ 31 + e * 2 ^ 23 + m)
  | subnormal {width rest : Nat} (hwidth : width < 23) (hrest : rest < 2 ^ width)
    (hexponent : doubleExponent bits = width + 874)
    (hmantissa : doubleMantissa bits = rest * 2 ^ (52 - width))
    (huval : uval.toNat = (doubleSign bits).toNat * 2 ^ 31 + (2 ^ width + rest))

theorem subnormal_parts {mantissa shift : Nat} (hm : mantissa < 2 ^ 52)
    (hle : shift ≤ 52) (hmod : (2 ^ 52 + mantissa) % 2 ^ shift = 0) :
    ∃ rest, (2 ^ 52 + mantissa) / 2 ^ shift = 2 ^ (52 - shift) + rest ∧ rest < 2 ^ (52 - shift) ∧
      mantissa = rest * 2 ^ shift := by
  have hpow : 2 ^ (52 - shift) * 2 ^ shift = 2 ^ 52 := by
    rw [← pow_add, Nat.sub_add_cancel hle]
  have hdvd : 2 ^ shift ∣ mantissa := by
    have hboth := Nat.dvd_of_mod_eq_zero hmod
    exact (Nat.dvd_add_right (Dvd.intro_left _ hpow)).1 hboth
  obtain ⟨rest, hrest⟩ := hdvd
  refine ⟨rest, ?_, ?_, by rw [hrest, mul_comm]⟩
  · rw [← hpow, hrest, mul_comm (2 ^ shift) rest, ← add_mul,
      Nat.mul_div_cancel _ (Nat.two_pow_pos shift)]
  · rw [hrest, ← hpow, mul_comm (2 ^ (52 - shift))] at hm
    exact Nat.lt_of_mul_lt_mul_left hm

theorem exactSingle_fields (h : exactSingle bits = some uval) : SingleFields bits uval := by
  obtain ⟨-, hs, -, hm⟩ := double_fields bits
  unfold exactSingle at h
  dsimp only at h
  rw [Nat.shiftLeft_eq] at h
  by_cases hzero : doubleExponent bits = 0
  · rw [if_pos hzero] at h
    by_cases hmantissa : doubleMantissa bits = 0
    · rw [if_pos hmantissa] at h
      cases h
      refine SingleFields.zero hzero hmantissa ?_
      rw [Nat.toUInt32_eq, UInt32.toNat_ofNat']
      omega
    · rw [if_neg hmantissa] at h
      cases h
  rw [if_neg hzero] at h
  by_cases hnormal : 1023 - 126 ≤ doubleExponent bits ∧ doubleExponent bits ≤ 1023 + 127
  · rw [if_pos hnormal] at h
    by_cases hmod : doubleMantissa bits % 2 ^ 29 = 0
    · rw [if_pos hmod] at h
      cases h
      refine @SingleFields.normal _ _ (doubleExponent bits - 896) (doubleMantissa bits / 2 ^ 29)
        (by omega) (by omega) (by omega) (by omega) (by omega) ?_
      rw [Nat.toUInt32_eq, UInt32.toNat_ofNat', Nat.shiftLeft_eq, Nat.shiftRight_eq_div_pow]
      omega
    · rw [if_neg hmod] at h
      cases h
  rw [if_neg hnormal] at h
  by_cases hsub : 1023 - 149 ≤ doubleExponent bits ∧ doubleExponent bits < 1023 - 126
  · rw [if_pos hsub] at h
    by_cases hmod : (2 ^ 52 + doubleMantissa bits) %
        2 ^ (30 + (1023 - 127 - doubleExponent bits)) = 0
    · rw [if_pos hmod] at h
      cases h
      obtain ⟨rest, hdiv, hrest, hmantissa⟩ :=
        subnormal_parts hm (by omega) hmod
      refine @SingleFields.subnormal _ _ (52 - (30 + (1023 - 127 - doubleExponent bits))) rest
        (by omega) hrest (by omega) ?_ ?_
      · rw [hmantissa]
        congr 2
        omega
      · have hpow : 2 ^ (52 - (30 + (1023 - 127 - doubleExponent bits))) ≤ 2 ^ 22 :=
          Nat.pow_le_pow_right (by decide) (by omega)
        rw [Nat.toUInt32_eq, UInt32.toNat_ofNat', Nat.shiftRight_eq_div_pow, hdiv]
        omega
    · rw [if_neg hmod] at h
      cases h
  · rw [if_neg hsub] at h
    cases h

theorem singleToDouble_exact (h : SingleFields bits uval) : singleToDouble uval = bits := by
  obtain ⟨hbits, hs, -, -⟩ := double_fields bits
  rw [← UInt64.toNat_inj, hbits]
  cases h with
  | zero hexponent hmantissa huval =>
    rw [singleToDouble_zero huval hs, hexponent, hmantissa]
    omega
  | normal hpos he hm hexponent hmantissa huval =>
    rw [singleToDouble_normal huval hs hpos he hm, hexponent, hmantissa]
  | subnormal hwidth hrest hexponent hmantissa huval =>
    rw [singleToDouble_subnormal huval hs hwidth hrest, hexponent, hmantissa]

/-! ## The bytes of a half -/

theorem exponentBits (e : Nat) (he : e < 31) : (e <<< 2) &&& 0x7c = e * 4 := by
  have hall : ∀ k < 31, (k <<< 2) &&& 0x7c = k * 4 := by decide
  exact hall e he

theorem highBits_toNat (hm : m < 2 ^ 10) :
    ((m >>> 8) &&& 0x3).toUInt8.toNat = m / 256 ∧ (m &&& 0xff).toUInt8.toNat = m % 256 := by
  have hhigh : (m >>> 8) &&& 0x3 = m / 2 ^ 8 % 2 ^ 2 := by
    rw [Nat.shiftRight_eq_div_pow]
    exact and_ones _ 2
  have hlow : m &&& 0xff = m % 2 ^ 8 := and_ones m 8
  rw [hhigh, hlow, Nat.toUInt8_eq, Nat.toUInt8_eq, UInt8.toNat_ofNat', UInt8.toNat_ofNat']
  omega

variable {sign : UInt8} {s : Nat}

theorem normalHalf_toNat {e m : Nat} (hsign : sign.toNat = s * 2 ^ 7) (he : e < 31)
    (hm : m < 2 ^ 10) :
    (sign ||| ((e <<< 2) &&& 0x7c).toUInt8 ||| ((m >>> 8) &&& 0x3).toUInt8).toNat * 256 +
      (m &&& 0xff).toUInt8.toNat = s * 2 ^ 15 + e * 2 ^ 10 + m := by
  obtain ⟨hhigh, hlow⟩ := highBits_toNat hm
  have hexponent : ((e <<< 2) &&& 0x7c).toUInt8.toNat = e * 4 := by
    rw [exponentBits e he, Nat.toUInt8_eq, UInt8.toNat_ofNat']
    omega
  have hfirst := @or_toNat sign ((e <<< 2) &&& 0x7c).toUInt8 7 s hsign (by omega)
  have hboth := @or_toNat (sign ||| ((e <<< 2) &&& 0x7c).toUInt8) ((m >>> 8) &&& 0x3).toUInt8 2
    (s * 32 + e) (by omega) (by omega)
  omega

theorem subnormalHalf_toNat {m : Nat} (hsign : sign.toNat = s * 2 ^ 7) (hm : m < 2 ^ 10) :
    (sign ||| ((m >>> 8) &&& 0x3).toUInt8).toNat * 256 + (m &&& 0xff).toUInt8.toNat =
      s * 2 ^ 15 + m := by
  obtain ⟨hhigh, hlow⟩ := highBits_toNat hm
  have hfirst := @or_toNat sign ((m >>> 8) &&& 0x3).toUInt8 7 s hsign (by omega)
  omega

/-! ## What is read -/

/-- A writer of a float that writes in nine bytes at least, and what is read of it. -/
def WritesFloat (bufferLen : Nat) (written : Except Fault (List UInt8)) (value : UInt64) : Prop :=
  ∃ bytes, written = .ok bytes ∧ (9 ≤ bufferLen → 0 < bytes.length) ∧
    (0 < bytes.length →
      ∀ rest, cborGetTypeAndValue (bytes ++ rest) = pure (.float, value, bytes.length))

theorem writesFloat_half (hroom : 3 ≤ bufferLen) {high low : UInt8}
    (hvalue : ∀ half : UInt16, half.toNat = high.toNat * 256 + low.toNat → halfToDouble half = value) :
    WritesFloat bufferLen
      (storeAt bufferLen 0 [initialByte cborFloatingOrSimple cborAiTwoByteValue, high, low])
      value := by
  have hlength : [initialByte cborFloatingOrSimple cborAiTwoByteValue, high, low].length = 3 := rfl
  refine ⟨_, storeAt_eq_ok (by omega), fun _ => by omega, fun _ rest => ?_⟩
  have hhigh := high.toNat_lt
  have hlow := low.toNat_lt
  have hargument : (argumentValue cborAiTwoByteValue [high, low]).toUInt16.toNat =
      high.toNat * 256 + low.toNat := by
    show (bigEndianValue [high, low]).toUInt64.toUInt16.toNat = _
    rw [UInt64.toNat_toUInt16, Nat.toUInt64_eq, UInt64.toNat_ofNat']
    show ((0 * 256 + high.toNat) * 256 + low.toNat) % 2 ^ 64 % 2 ^ 16 = _
    omega
  have hhead : CborHead [initialByte cborFloatingOrSimple cborAiTwoByteValue, high, low] .float
      value := by
    rw [← hvalue _ hargument]
    exact @CborHead.mk (initialByte cborFloatingOrSimple cborAiTwoByteValue) [high, low] _ _ rfl rfl
  exact hhead.read rest

theorem writesFloat_wide {n : Nat} {ai : UInt8} {val : UInt64} (hholds : HoldsValue ai val n)
    (hn : n ≤ 8) (htype : cborTypeAndValue cborFloatingOrSimple ai val = some (.float, value)) :
    WritesFloat bufferLen (if bufferLen < n + 1 then .ok []
      else storeAt bufferLen 0 (initialByte cborFloatingOrSimple ai :: bigEndian n val)) value := by
  have hlength : (initialByte cborFloatingOrSimple ai :: bigEndian n val).length = n + 1 := by
    rw [List.length_cons, bigEndian_length]
  split
  · exact ⟨[], rfl, fun hlarge => by omega, fun hpos => absurd hpos (Nat.lt_irrefl 0)⟩
  · refine ⟨_, storeAt_eq_ok (by omega), fun _ => by omega, fun _ rest => ?_⟩
    exact head_read (by decide) hholds htype rest

theorem writesFloat_single (uval : UInt32) :
    WritesFloat bufferLen (if bufferLen < 5 then .ok []
      else storeAt bufferLen 0
        (initialByte cborFloatingOrSimple cborAiFourByteValue :: bigEndian 4 uval.toUInt64))
      (singleToDouble uval) := by
  have hlt := uval.toNat_lt
  have hholds : HoldsValue cborAiFourByteValue uval.toUInt64 4 := by
    apply holdsValue_wide (by decide) rfl (by omega) (by omega)
    rw [UInt32.toNat_toUInt64]
    omega
  have hback : uval.toUInt64.toUInt32 = uval := by
    rw [← UInt32.toNat_inj, UInt64.toNat_toUInt32, UInt32.toNat_toUInt64]
    omega
  have htype : cborTypeAndValue cborFloatingOrSimple cborAiFourByteValue uval.toUInt64 =
      some (.float, singleToDouble uval.toUInt64.toUInt32) := rfl
  rw [hback] at htype
  exact writesFloat_wide hholds (by omega) htype

theorem writesFloat_double (bits : UInt64) :
    WritesFloat bufferLen (if bufferLen < 9 then .ok []
      else storeAt bufferLen 0
        (initialByte cborFloatingOrSimple cborAiEightByteValue :: bigEndian 8 bits)) bits := by
  have hlt := bits.toNat_lt
  have hholds : HoldsValue cborAiEightByteValue bits 8 :=
    holdsValue_wide (by decide) rfl (by omega) (by omega) (by omega)
  exact writesFloat_wide hholds (by omega) rfl

/-! ## What is written of a single -/

section single

variable {bufferLen : Nat} {uval : UInt32} {s : Nat}

variable {bits : UInt64} {e m : Nat}

theorem serializeSingle_zero (hroom : 3 ≤ bufferLen) (hs : s < 2) (h : uval.toNat = s * 2 ^ 31)
    (hbits : bits.toNat = s * 2 ^ 63) :
    WritesFloat bufferLen (serializeSingle bufferLen uval) bits := by
  have hfields : uval.toNat = s * 2 ^ 31 + 0 * 2 ^ 23 + 0 := by
    rw [h, Nat.zero_mul, Nat.add_zero]
  obtain ⟨hmantissa, hexponent, hsign, -⟩ := single_fields hfields hs (by omega) (by omega)
  unfold serializeSingle
  dsimp only
  rw [hmantissa, hexponent, if_neg (by decide), if_pos (by decide)]
  apply writesFloat_half hroom
  intro half hhalf
  rw [← UInt64.toNat_inj, hbits]
  apply halfToDouble_zero _ hs
  rw [hhalf, hsign]
  show s * 2 ^ 7 * 256 + 0 = _
  omega

theorem serializeSingle_subnormal {width rest : Nat} (hs : s < 2) (hwidth : width < 23)
    (hrest : rest < 2 ^ width) (h : uval.toNat = s * 2 ^ 31 + (2 ^ width + rest)) :
    WritesFloat bufferLen (serializeSingle bufferLen uval) (singleToDouble uval) := by
  have hpow : 2 ^ width ≤ 2 ^ 22 := Nat.pow_le_pow_right (by decide) (by omega)
  have hpos := Nat.two_pow_pos width
  have hfields : uval.toNat = s * 2 ^ 31 + 0 * 2 ^ 23 + (2 ^ width + rest) := by
    rw [h, Nat.zero_mul, Nat.add_zero]
  obtain ⟨hmantissa, hexponent, -, -⟩ := single_fields hfields hs (by omega) (by omega)
  unfold serializeSingle
  dsimp only
  rw [hmantissa, hexponent, if_neg (by decide), if_neg (fun hzero => by omega),
    if_neg (fun hnormal => absurd hnormal.2.1 (by decide)),
    if_neg (fun hsub => absurd hsub.1 (by decide))]
  exact writesFloat_single uval

theorem serializeSingle_normalHalf (hroom : 3 ≤ bufferLen) (hs : s < 2) (hlow : 113 ≤ e)
    (hhigh : e ≤ 142) (hm : m < 2 ^ 23) (hmask : m % 2 ^ 11 = 0)
    (h : uval.toNat = s * 2 ^ 31 + e * 2 ^ 23 + m)
    (hbits : bits.toNat = s * 2 ^ 63 + (e + 896) * 2 ^ 52 + m / 2 ^ 13 * 2 ^ 42) :
    WritesFloat bufferLen (serializeSingle bufferLen uval) bits := by
  obtain ⟨hmantissa, hexponent, hsign, -⟩ := single_fields h hs (by omega) hm
  have hones : m &&& 0x7ff = 0 := (and_ones m 11).trans hmask
  have hbiased : ((e : Int) - 127 + 15).toNat = e - 112 := by omega
  unfold serializeSingle
  dsimp only
  rw [hmantissa, hexponent, if_neg (by omega), if_neg (by omega),
    if_pos ⟨hones, by omega, by omega⟩, hbiased, Nat.shiftRight_eq_div_pow m 13]
  apply writesFloat_half hroom
  intro half hhalf
  have hbytes := @normalHalf_toNat _ s (e - 112) (m / 2 ^ 13) hsign (by omega) (by omega)
  have hsame : e - 112 + 1008 = e + 896 := by omega
  rw [← UInt64.toNat_inj, hbits,
    halfToDouble_normal (hhalf.trans hbytes) hs (by omega) (by omega) (by omega), hsame]

theorem subnormalHalf_parts (hlow : 103 ≤ e) (hhigh : e ≤ 112) (hm : m < 2 ^ 23)
    (hmask : m % 2 ^ (128 - e) = 0) :
    ∃ rest, (m + 0x800000) / 2 ^ (126 - e) = 2 ^ (e - 103) + rest ∧ rest < 2 ^ (e - 103) ∧
      m = rest * 2 ^ (126 - e) := by
  have hpow : 2 ^ (e - 103) * 2 ^ (126 - e) = 2 ^ 23 := by
    rw [← pow_add]
    congr 1
    omega
  have hdvd : 2 ^ (126 - e) ∣ m :=
    Nat.dvd_trans (pow_dvd_pow 2 (by omega)) (Nat.dvd_of_mod_eq_zero hmask)
  obtain ⟨rest, hrest⟩ := hdvd
  refine ⟨rest, ?_, ?_, by rw [hrest, mul_comm]⟩
  · rw [show 0x800000 = 2 ^ 23 from rfl, ← hpow, hrest, mul_comm (2 ^ (126 - e)) rest, ← add_mul,
      Nat.mul_div_cancel _ (Nat.two_pow_pos _), add_comm]
  · rw [hrest, ← hpow, mul_comm (2 ^ (e - 103))] at hm
    exact Nat.lt_of_mul_lt_mul_left hm

theorem serializeSingle_subnormalHalf (hroom : 3 ≤ bufferLen) (hs : s < 2) (hlow : 103 ≤ e)
    (hhigh : e ≤ 112) (hm : m < 2 ^ 23) (hmask : m % 2 ^ (128 - e) = 0)
    (h : uval.toNat = s * 2 ^ 31 + e * 2 ^ 23 + m)
    (hbits : bits.toNat = s * 2 ^ 63 + (e + 896) * 2 ^ 52 + m * 2 ^ 29) :
    WritesFloat bufferLen (serializeSingle bufferLen uval) bits := by
  obtain ⟨hmantissa, hexponent, hsign, -⟩ := single_fields h hs (by omega) hm
  obtain ⟨rest, hdiv, hrest, hparts⟩ := subnormalHalf_parts hlow hhigh hm hmask
  have hchecked : (1 - ((e : Int) - 127)).toNat = 128 - e := by omega
  have hshift : (-1 - ((e : Int) - 127)).toNat = 126 - e := by omega
  have hones : m &&& ((1 <<< (128 - e)) - 1) = 0 := by
    rw [Nat.shiftLeft_eq, Nat.one_mul, and_ones, hmask]
  have hsmall : 2 ^ (e - 103) ≤ 2 ^ 9 := Nat.pow_le_pow_right (by decide) (by omega)
  unfold serializeSingle
  dsimp only
  rw [hmantissa, hexponent, if_neg (by omega), if_neg (by omega),
    if_neg (fun hnormal => by omega), hchecked, if_pos ⟨by omega, by omega, hones⟩, hshift,
    Nat.shiftRight_eq_div_pow _ (126 - e), hdiv]
  apply writesFloat_half hroom
  intro half hhalf
  have hbytes := @subnormalHalf_toNat _ s (2 ^ (e - 103) + rest) hsign (by omega)
  have hscale : rest * 2 ^ (52 - (e - 103)) = m * 2 ^ 29 := by
    rw [hparts, mul_assoc, ← pow_add]
    congr 2
    omega
  have hsame : e - 103 + 999 = e + 896 := by omega
  rw [← UInt64.toNat_inj, hbits, halfToDouble_subnormal (hhalf.trans hbytes) hs (by omega) hrest,
    hscale, hsame]

theorem serializeSingle_wide {e m : Nat} (hs : s < 2) (hpos : 0 < e) (he : e < 255)
    (hm : m < 2 ^ 23) (hnormal : ¬ (m % 2 ^ 11 = 0 ∧ 113 ≤ e ∧ e ≤ 142))
    (hsub : ¬ (103 ≤ e ∧ e ≤ 113 ∧ m % 2 ^ (128 - e) = 0))
    (h : uval.toNat = s * 2 ^ 31 + e * 2 ^ 23 + m) :
    WritesFloat bufferLen (serializeSingle bufferLen uval) (singleToDouble uval) := by
  obtain ⟨hmantissa, hexponent, -, -⟩ := single_fields h hs (by omega) hm
  have hchecked : (1 - ((e : Int) - 127)).toNat = 128 - e := by omega
  have hones : m &&& 0x7ff = m % 2 ^ 11 := and_ones m 11
  have hmask : m &&& ((1 <<< (128 - e)) - 1) = m % 2 ^ (128 - e) := by
    rw [Nat.shiftLeft_eq, Nat.one_mul, and_ones]
  unfold serializeSingle
  dsimp only
  rw [hmantissa, hexponent, if_neg (by omega), if_neg (by omega), hones,
    if_neg (fun hor => hnormal ⟨hor.1, by omega, by omega⟩), hchecked, hmask,
    if_neg (fun hor => hsub ⟨by omega, by omega, hor.2.2⟩)]
  exact writesFloat_single uval

end single

/-! ## What comes back -/

theorem prvSerializeFloat_finite (hfinite : DoubleFinite bits)
    (hsingle : ∀ uval, exactSingle bits = some uval → 3 ≤ bufferLen → WritesFloat bufferLen (serializeSingle bufferLen uval) value)
    (hdouble : exactSingle bits = none → value = bits) :
    WritesFloat bufferLen (prvSerializeFloat bufferLen bits) value := by
  unfold prvSerializeFloat
  by_cases hshort : bufferLen < 3
  · rw [if_pos hshort]
    exact ⟨[], rfl, fun hlarge => by omega, fun hpos => absurd hpos (Nat.lt_irrefl 0)⟩
  · rw [if_neg hshort, if_neg (fun hnan => hfinite hnan.1), if_neg hfinite]
    cases hexact : exactSingle bits with
    | some uval => exact hsingle uval hexact (by omega)
    | none =>
      rw [hdouble hexact]
      exact writesFloat_double bits

theorem betweenMasks_single (hexponent : doubleExponent bits = e + 896)
    (hmantissa : doubleMantissa bits = m * 2 ^ 29) :
    BetweenMasks bits ↔ 113 ≤ e ∧ e ≤ 142 ∧ m % 2 ^ 11 = 0 ∧ m % 2 ^ 13 ≠ 0 := by
  unfold BetweenMasks
  rw [hexponent, hmantissa]
  omega

theorem writesFloat_same (hfinite : DoubleFinite bits) (hbetween : ¬ BetweenMasks bits)
    (bufferLen : Nat) : WritesFloat bufferLen (prvSerializeFloat bufferLen bits) bits := by
  obtain ⟨hbits, hs, -, -⟩ := double_fields bits
  apply prvSerializeFloat_finite hfinite _ fun _ => rfl
  intro uval hexact hroom
  have hfields := exactSingle_fields hexact
  have hsame := singleToDouble_exact hfields
  cases hfields with
  | zero hexponent hmantissa huval =>
    apply serializeSingle_zero hroom hs huval
    rw [hbits, hexponent, hmantissa]
    omega
  | subnormal hwidth hrest hexponent hmantissa huval =>
    have hwritten := @serializeSingle_subnormal bufferLen _ _ _ _ hs hwidth hrest huval
    rw [hsame] at hwritten
    exact hwritten
  | @normal e m hpos he hm hexponent hmantissa huval =>
    rw [betweenMasks_single hexponent hmantissa] at hbetween
    rw [hexponent, hmantissa] at hbits
    by_cases hnormal : m % 2 ^ 11 = 0 ∧ 113 ≤ e ∧ e ≤ 142
    · obtain ⟨hmask, hlow, hhigh⟩ := hnormal
      apply serializeSingle_normalHalf hroom hs hlow hhigh hm hmask huval
      rw [hbits]
      omega
    · by_cases hsub : 103 ≤ e ∧ e ≤ 113 ∧ m % 2 ^ (128 - e) = 0
      · obtain ⟨hlow, hhigh, hmask⟩ := hsub
        have hne : e ≠ 113 := by
          rintro rfl
          exact hnormal ⟨by omega, by omega, by omega⟩
        exact serializeSingle_subnormalHalf hroom hs hlow (by omega) hm hmask huval hbits
      · have hwritten := @serializeSingle_wide bufferLen _ _ _ _ hs hpos he hm hnormal hsub huval
        rw [hsame] at hwritten
        exact hwritten

/-- The double that comes back of one with 1s between the masks. -/
def truncatedDouble (bits : UInt64) : UInt64 :=
  UInt64.ofNat ((doubleSign bits).toNat * 2 ^ 63 + doubleExponent bits * 2 ^ 52 +
    doubleMantissa bits / 2 ^ 42 * 2 ^ 42)

theorem truncatedDouble_toNat (bits : UInt64) : (truncatedDouble bits).toNat =
    (doubleSign bits).toNat * 2 ^ 63 + doubleExponent bits * 2 ^ 52 +
      doubleMantissa bits / 2 ^ 42 * 2 ^ 42 := by
  obtain ⟨-, hs, he, hm⟩ := double_fields bits
  unfold truncatedDouble
  rw [UInt64.toNat_ofNat']
  omega

theorem writesFloat_truncated (hbetween : BetweenMasks bits) (bufferLen : Nat) :
    WritesFloat bufferLen (prvSerializeFloat bufferLen bits) (truncatedDouble bits) := by
  obtain ⟨hbits, hs, -, hmantissa⟩ := double_fields bits
  have htruncated := truncatedDouble_toNat bits
  obtain ⟨hlow, hhigh, hmod, -⟩ := id hbetween
  apply prvSerializeFloat_finite
  · unfold DoubleFinite
    omega
  · intro uval hexact hroom
    cases exactSingle_fields hexact with
    | zero hexponent _ _ => omega
    | subnormal _ _ hexponent _ _ => omega
    | @normal e m hpos he hm hexponent hfraction huval =>
      obtain ⟨hlow', hhigh', hmask, -⟩ := (betweenMasks_single hexponent hfraction).1 hbetween
      apply serializeSingle_normalHalf hroom hs hlow' hhigh' hm hmask huval
      rw [htruncated, hexponent, hfraction]
      omega
  · intro hnone
    unfold exactSingle at hnone
    dsimp only at hnone
    rw [if_neg (by omega), if_pos ⟨by omega, by omega⟩, if_pos (by omega)] at hnone
    cases hnone

theorem magnitudeUnits_normal (hpos : 0 < e) (hm : m < 2 ^ 52) :
    magnitudeUnits (e * 2 ^ 52 + m) = (2 ^ 52 + m) * 2 ^ (e - 1) := by
  unfold magnitudeUnits
  have hdiv : (e * 2 ^ 52 + m) / 2 ^ 52 = e := by omega
  have hmod : (e * 2 ^ 52 + m) % 2 ^ 52 = m := by omega
  rw [hdiv, hmod, if_neg (by omega)]

theorem doubleUnits_normal (h : bits.toNat = s * 2 ^ 63 + e * 2 ^ 52 + m) (hs : s < 2)
    (hpos : 0 < e) (he : e < 2 ^ 11) (hm : m < 2 ^ 52) :
    doubleUnits bits = if s = 0 then (((2 ^ 52 + m) * 2 ^ (e - 1) : Nat) : Int)
      else -(((2 ^ 52 + m) * 2 ^ (e - 1) : Nat) : Int) := by
  have hlow : bits.toNat % 2 ^ 63 = e * 2 ^ 52 + m := by omega
  unfold doubleUnits
  rw [hlow, magnitudeUnits_normal hpos hm]
  by_cases hsign : s = 0
  · rw [if_pos hsign, if_pos (by omega)]
  · rw [if_neg hsign, if_neg (by omega)]

theorem truncatedDouble_differs (hbetween : BetweenMasks bits) :
    doubleValue (truncatedDouble bits) ≠ doubleValue bits := by
  obtain ⟨hbits, hs, he, hm⟩ := double_fields bits
  obtain ⟨hlow, -, hmod, hones⟩ := hbetween
  have hfraction : doubleMantissa bits / 2 ^ 42 * 2 ^ 42 < doubleMantissa bits := by omega
  rw [Ne, doubleValue_eq_iff,
    doubleUnits_normal (truncatedDouble_toNat bits) hs (by omega) he (by omega),
    doubleUnits_normal hbits hs (by omega) he hm]
  have hless := Nat.mul_lt_mul_of_pos_right (Nat.add_lt_add_left hfraction (2 ^ 52))
    (Nat.two_pow_pos (doubleExponent bits - 1))
  split <;> omega

theorem betweenMasks_lost (hbetween : BetweenMasks bits) : ¬ CborFloatLossless bits := by
  intro hlossless
  obtain ⟨bytes, hwritten, hpos, hread⟩ := hlossless 9
  obtain ⟨bytes', hwritten', -, hread'⟩ := writesFloat_truncated hbetween 9
  obtain rfl : bytes = bytes' := Except.ok.inj (hwritten.symm.trans hwritten')
  obtain ⟨value, hvalue, -, hsame, -⟩ := hread (hpos (Nat.le_refl 9)) []
  rw [hread' (hpos (Nat.le_refl 9)) []] at hvalue
  obtain ⟨-, hpair⟩ := Prod.mk.inj (Option.some.inj (Except.ok.inj hvalue))
  obtain ⟨rfl, -⟩ := Prod.mk.inj hpair
  exact truncatedDouble_differs hbetween hsame

/-- A finite double comes back exactly as it is, unless its mantissa has 1s between the masks. -/
theorem cborFloatLossless_iff {bits : UInt64} (hfinite : DoubleFinite bits) :
    CborFloatLossless bits ↔ ¬ BetweenMasks bits := by
  constructor
  · intro hlossless hbetween
    exact betweenMasks_lost hbetween hlossless
  · intro hbetween bufferLen
    obtain ⟨bytes, hwritten, hpos, hread⟩ := writesFloat_same hfinite hbetween bufferLen
    exact ⟨bytes, hwritten, hpos, fun hsome rest =>
      ⟨bits, hread hsome rest, hfinite, rfl, rfl⟩⟩

theorem cborFloatLossless_iff_half :
    CborFloatLossless 0x3ff8000000000000 ↔ ¬ BetweenMasks 0x3ff8000000000000 :=
  cborFloatLossless_iff (by unfold DoubleFinite; decide)

/-- The number 1 + 2^-11 comes back as 1. -/
theorem elevenBits_lost : ¬ CborFloatLossless 0x3ff0020000000000 :=
  betweenMasks_lost (by unfold BetweenMasks; decide)

end Wakaama
