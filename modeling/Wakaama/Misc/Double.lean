import Mathlib.Algebra.Order.Field.Rat
import Mathlib.Data.Nat.Log
import Mathlib.Data.Rat.Cast.Order
import Mathlib.Tactic.Linarith
import Mathlib.Tactic.Ring

/-!
# Doubles by their bits

Nothing here is about a particular program. A double that is not a NaN is read as a whole number
of units, the smallest positive double; the infinities come out beyond every finite double, so
that comparing units is comparing doubles. A whole number of units is rounded to the nearest
double, to the even one where two are as near. Rounding never passes over another double.
-/

namespace Wakaama

/-- The units of the double with these bits below the sign: exponent field and mantissa. -/
def magnitudeUnits (bits : Nat) : Nat :=
  if bits / 2 ^ 52 = 0 then bits % 2 ^ 52
  else (2 ^ 52 + bits % 2 ^ 52) * 2 ^ (bits / 2 ^ 52 - 1)

/-- A mantissa of 53 bits, rounded to the nearest even one. -/
def roundedMantissa (units shift : Nat) : Nat :=
  if 2 ^ shift < 2 * (units % 2 ^ shift) ∨
      2 ^ shift = 2 * (units % 2 ^ shift) ∧ units / 2 ^ shift % 2 = 1 then
    units / 2 ^ shift + 1
  else units / 2 ^ shift

/-- The bits below the sign of infinity. -/
def infinityBits : Nat := 2047 * 2 ^ 52

/-- The bits below the sign of the double nearest to some units. A mantissa that is rounded up to
54 bits runs over into the exponent. -/
def magnitudeBits (units : Nat) : Nat :=
  if units < 2 ^ 53 then units
  else
    let shift := units.log2 - 52
    min (shift * 2 ^ 52 + roundedMantissa units shift) infinityBits

/-- The double is a NaN. -/
def isNan (bits : UInt64) : Bool := decide (infinityBits < bits.toNat % 2 ^ 63)

/-- A double in units. -/
def doubleUnits (bits : UInt64) : Int :=
  if bits.toNat < 2 ^ 63 then magnitudeUnits (bits.toNat % 2 ^ 63)
  else -magnitudeUnits (bits.toNat % 2 ^ 63)

/-- The double nearest to some units. -/
def roundUnits (units : Int) : UInt64 :=
  if 0 ≤ units then UInt64.ofNat (magnitudeBits units.natAbs)
  else UInt64.ofNat (2 ^ 63 + magnitudeBits units.natAbs)

/-- The units in 1. -/
def unitsInOne : Nat := 2 ^ 1074

/-- The number that a double stands for. -/
def doubleValue (bits : UInt64) : ℚ := doubleUnits bits / unitsInOne

/-- The conversion of a whole number. -/
def doubleOfInt (n : Int) : UInt64 := roundUnits (n * unitsInOne)

/-- `a < b` -/
def doubleLess (a b : UInt64) : Bool := !isNan a && !isNan b && decide (doubleUnits a < doubleUnits b)

/-- `a <= b` -/
def doubleLessEq (a b : UInt64) : Bool :=
  !isNan a && !isNan b && decide (doubleUnits a ≤ doubleUnits b)

/-- `a - b` -/
def doubleSub (a b : UInt64) : UInt64 :=
  let infinite (bits : UInt64) : Bool := bits.toNat % 2 ^ 63 == infinityBits
  if isNan a || isNan b || infinite a && a == b then UInt64.ofNat (infinityBits + 2 ^ 51)
  else if infinite a then a
  else if infinite b then b ^^^ 0x8000000000000000
  else roundUnits (doubleUnits a - doubleUnits b)

theorem roundedMantissa_bounds (units shift : Nat) :
    units / 2 ^ shift ≤ roundedMantissa units shift ∧
      roundedMantissa units shift ≤ units / 2 ^ shift + 1 := by
  unfold roundedMantissa
  split
  · exact ⟨Nat.le_succ _, le_refl _⟩
  · exact ⟨le_refl _, Nat.le_succ _⟩

/-- What is a multiple already stays. -/
theorem roundedMantissa_exact {units shift : Nat} (h : units % 2 ^ shift = 0) :
    roundedMantissa units shift = units / 2 ^ shift := by
  have hpos : 0 < 2 ^ shift := Nat.two_pow_pos shift
  unfold roundedMantissa
  rw [h, if_neg]
  rintro (hlt | ⟨heq, -⟩) <;> omega

/-- A mantissa of 53 bits, or the one next to the last, with its exponent. -/
theorem magnitudeUnits_scaled {mantissa : Nat} (shift : Nat) (hlow : 2 ^ 52 ≤ mantissa)
    (hhigh : mantissa ≤ 2 ^ 53) :
    magnitudeUnits (shift * 2 ^ 52 + mantissa) = mantissa * 2 ^ shift := by
  unfold magnitudeUnits
  rcases Nat.lt_or_ge mantissa (2 ^ 53) with hlt | hge
  · have hdiv : (shift * 2 ^ 52 + mantissa) / 2 ^ 52 = shift + 1 := by omega
    have hmod : (shift * 2 ^ 52 + mantissa) % 2 ^ 52 = mantissa - 2 ^ 52 := by omega
    rw [hdiv, hmod, if_neg (Nat.succ_ne_zero shift), Nat.add_sub_cancel, Nat.add_sub_cancel' hlow]
  · obtain rfl : mantissa = 2 ^ 53 := le_antisymm hhigh hge
    have hdiv : (shift * 2 ^ 52 + 2 ^ 53) / 2 ^ 52 = shift + 1 + 1 := by omega
    have hmod : (shift * 2 ^ 52 + 2 ^ 53) % 2 ^ 52 = 0 := by omega
    rw [hdiv, hmod, if_neg (Nat.succ_ne_zero _), Nat.add_sub_cancel, Nat.add_zero, pow_succ 2 shift]
    ring

/-- Between two neighbouring multiples of a power of two that have 53 bits there is no double. -/
theorem magnitudeUnits_gap {mantissa : Nat} (shift bits : Nat) (hlow : 2 ^ 52 ≤ mantissa)
    (habove : mantissa * 2 ^ shift < magnitudeUnits bits) :
    (mantissa + 1) * 2 ^ shift ≤ magnitudeUnits bits := by
  unfold magnitudeUnits at *
  have hmod : bits % 2 ^ 52 < 2 ^ 52 := Nat.mod_lt _ (by decide)
  have hone : 1 ≤ 2 ^ shift := Nat.one_le_two_pow
  split at habove
  · have := Nat.mul_le_mul hlow hone
    omega
  · rename_i hnormal
    rw [if_neg hnormal]
    generalize bits / 2 ^ 52 - 1 = exponent at *
    rcases Nat.lt_or_ge exponent shift with hsmall | hlarge
    · -- the double has fewer bits to the left than the multiples
      obtain ⟨rest, rfl⟩ := Nat.exists_eq_add_of_lt hsmall
      have hfull : (2 ^ 52 + bits % 2 ^ 52) * 2 ^ exponent ≤
          mantissa * 2 ^ (exponent + rest + 1) := by
        calc (2 ^ 52 + bits % 2 ^ 52) * 2 ^ exponent
            ≤ 2 ^ 53 * 2 ^ exponent := Nat.mul_le_mul_right _ (by omega)
          _ = 2 ^ 52 * 2 ^ (exponent + 1) := by rw [pow_succ 2 exponent]; ring
          _ ≤ mantissa * 2 ^ (exponent + rest + 1) :=
            Nat.mul_le_mul hlow (Nat.pow_le_pow_right (by decide) (by omega))
      omega
    · -- the double is a multiple itself
      obtain ⟨rest, rfl⟩ := Nat.exists_eq_add_of_le hlarge
      rw [pow_add, ← Nat.mul_assoc, Nat.mul_right_comm] at *
      exact Nat.mul_le_mul_right _ (Nat.lt_of_mul_lt_mul_right habove)

/-- A number of at most 53 bits is a double. -/
theorem magnitudeBits_small {units : Nat} (h : units < 2 ^ 53) :
    magnitudeUnits (magnitudeBits units) = units := by
  unfold magnitudeBits magnitudeUnits
  rw [if_pos h]
  split
  · exact Nat.mod_eq_of_lt (by omega)
  · have hexponent : units / 2 ^ 52 = 1 := by omega
    rw [hexponent]
    omega

/-- What is rounded lies between a multiple that has 53 bits and the next one. -/
theorem magnitudeBits_spec {units : Nat} (hlow : 2 ^ 53 ≤ units) (hhigh : units.log2 < 2098) :
    ∃ mantissa shift, 2 ^ 52 ≤ mantissa ∧ mantissa * 2 ^ shift ≤ units ∧
      units < (mantissa + 1) * 2 ^ shift ∧ magnitudeBits units < infinityBits + 1 ∧
      (magnitudeUnits (magnitudeBits units) = mantissa * 2 ^ shift ∨
        magnitudeUnits (magnitudeBits units) = (mantissa + 1) * 2 ^ shift ∧
          units ≠ mantissa * 2 ^ shift) := by
  have hpos : units ≠ 0 := by omega
  have hlog : 53 ≤ units.log2 := (Nat.le_log2 hpos).2 hlow
  have hshift : units.log2 = units.log2 - 52 + 52 := by omega
  generalize hs : units.log2 - 52 = shift at *
  have hfirst : 2 ^ 52 * 2 ^ shift ≤ units := by
    have := Nat.log2_self_le hpos
    rwa [hshift, pow_add, Nat.mul_comm] at this
  have hlast : units < 2 ^ 53 * 2 ^ shift := by
    have := Nat.lt_log2_self (n := units)
    rw [hshift] at this
    calc units < 2 ^ (shift + 52 + 1) := this
      _ = 2 ^ 53 * 2 ^ shift := by rw [pow_succ, pow_add]; ring
  have htwo : 0 < 2 ^ shift := Nat.two_pow_pos shift
  have hdivLow : 2 ^ 52 ≤ units / 2 ^ shift := (Nat.le_div_iff_mul_le htwo).2 hfirst
  have hdivHigh : units / 2 ^ shift < 2 ^ 53 := Nat.div_lt_of_lt_mul (by rwa [Nat.mul_comm])
  obtain ⟨hroundLow, hroundHigh⟩ := roundedMantissa_bounds units shift
  have hbits : magnitudeBits units = shift * 2 ^ 52 + roundedMantissa units shift := by
    have hbound : shift ≤ 2045 := by omega
    unfold magnitudeBits infinityBits
    simp only [if_neg (Nat.not_lt.2 hlow), hs]
    apply min_eq_left
    omega
  refine ⟨units / 2 ^ shift, shift, hdivLow, Nat.div_mul_le_self _ _,
    Nat.lt_mul_of_div_lt (Nat.lt_succ_self _) htwo, ?_, ?_⟩
  · have hbound : shift ≤ 2045 := by omega
    unfold infinityBits
    omega
  · rw [hbits, magnitudeUnits_scaled shift (by omega) (by omega)]
    rcases Nat.lt_or_ge (units / 2 ^ shift) (roundedMantissa units shift) with hup | hdown
    · right
      obtain heq : roundedMantissa units shift = units / 2 ^ shift + 1 := by omega
      refine ⟨by rw [heq], fun hexact => ?_⟩
      have hmod : units % 2 ^ shift = 0 := by
        rw [hexact]
        exact Nat.mul_mod_left _ _
      rw [roundedMantissa_exact hmod] at heq
      omega
    · left
      rw [le_antisymm hdown hroundLow]

/-- Rounding down does not pass over a double. -/
theorem le_magnitudeBits {units : Nat} (bits : Nat) (hhigh : units.log2 < 2098)
    (h : magnitudeUnits bits ≤ units) :
    magnitudeUnits bits ≤ magnitudeUnits (magnitudeBits units) := by
  rcases Nat.lt_or_ge units (2 ^ 53) with hsmall | hlarge
  · rwa [magnitudeBits_small hsmall]
  · obtain ⟨mantissa, shift, hmantissa, hlow, habove, -, hround⟩ :=
      magnitudeBits_spec hlarge hhigh
    have hgap : magnitudeUnits bits ≤ mantissa * 2 ^ shift := by
      by_contra hbetween
      have hnext := magnitudeUnits_gap shift bits hmantissa (Nat.lt_of_not_le hbetween)
      omega
    rcases hround with heq | ⟨heq, -⟩
    · rwa [heq]
    · rw [heq]
      exact hgap.trans (Nat.mul_le_mul_right _ (Nat.le_succ _))

/-- Rounding up does not pass over a double. -/
theorem magnitudeBits_le {units : Nat} (bits : Nat) (hhigh : units.log2 < 2098)
    (h : units ≤ magnitudeUnits bits) :
    magnitudeUnits (magnitudeBits units) ≤ magnitudeUnits bits := by
  rcases Nat.lt_or_ge units (2 ^ 53) with hsmall | hlarge
  · rwa [magnitudeBits_small hsmall]
  · obtain ⟨mantissa, shift, hmantissa, hlow, habove, -, hround⟩ :=
      magnitudeBits_spec hlarge hhigh
    rcases hround with heq | ⟨heq, hinexact⟩
    · rw [heq]
      exact hlow.trans h
    · rw [heq]
      apply magnitudeUnits_gap shift bits hmantissa
      exact (Nat.lt_of_le_of_ne hlow (Ne.symm hinexact)).trans_le h

theorem magnitudeBits_le_infinity (units : Nat) : magnitudeBits units ≤ infinityBits := by
  unfold magnitudeBits
  split
  · unfold infinityBits
    omega
  · exact min_le_right _ _

theorem roundUnits_toNat (units : Int) : (roundUnits units).toNat =
    if 0 ≤ units then magnitudeBits units.natAbs else 2 ^ 63 + magnitudeBits units.natAbs := by
  have hbound : magnitudeBits units.natAbs < 2 ^ 63 :=
    (magnitudeBits_le_infinity _).trans_lt (by decide)
  unfold roundUnits
  split
  · exact UInt64.toNat_ofNat_of_lt' (by rw [UInt64.size]; omega)
  · exact UInt64.toNat_ofNat_of_lt' (by rw [UInt64.size]; omega)

theorem isNan_roundUnits (units : Int) : isNan (roundUnits units) = false := by
  have hle := magnitudeBits_le_infinity units.natAbs
  have hbound : infinityBits < 2 ^ 63 := by decide
  unfold isNan
  rw [roundUnits_toNat]
  apply decide_eq_false
  split <;> omega

theorem doubleUnits_roundUnits (units : Int) : doubleUnits (roundUnits units) =
    if 0 ≤ units then (magnitudeUnits (magnitudeBits units.natAbs) : Int)
    else -magnitudeUnits (magnitudeBits units.natAbs) := by
  have hbound : magnitudeBits units.natAbs < 2 ^ 63 :=
    (magnitudeBits_le_infinity _).trans_lt (by decide)
  unfold doubleUnits
  rw [roundUnits_toNat]
  by_cases hsign : 0 ≤ units
  · simp only [if_pos hsign, if_pos hbound, Nat.mod_eq_of_lt hbound]
  · have hbit : ¬ 2 ^ 63 + magnitudeBits units.natAbs < 2 ^ 63 := by omega
    simp only [if_neg hsign, if_neg hbit, Nat.add_mod_left, Nat.mod_eq_of_lt hbound]

/-- Rounding does not pass over a double from below. -/
theorem roundUnits_le {units : Int} {bits : UInt64} (hhigh : units.natAbs.log2 < 2098)
    (h : units ≤ doubleUnits bits) : doubleUnits (roundUnits units) ≤ doubleUnits bits := by
  rw [doubleUnits_roundUnits]
  unfold doubleUnits at *
  generalize bits.toNat % 2 ^ 63 = magnitude at *
  by_cases hbit : bits.toNat < 2 ^ 63
  · rw [if_pos hbit] at *
    split
    · have := magnitudeBits_le magnitude hhigh (by omega)
      omega
    · omega
  · rw [if_neg hbit] at *
    split
    · obtain rfl : units = 0 := by omega
      exact h
    · have := le_magnitudeBits magnitude hhigh (by omega)
      omega

/-- Nor from above. -/
theorem le_roundUnits {units : Int} {bits : UInt64} (hhigh : units.natAbs.log2 < 2098)
    (h : doubleUnits bits ≤ units) : doubleUnits bits ≤ doubleUnits (roundUnits units) := by
  rw [doubleUnits_roundUnits]
  unfold doubleUnits at *
  generalize bits.toNat % 2 ^ 63 = magnitude at *
  by_cases hbit : bits.toNat < 2 ^ 63
  · rw [if_pos hbit] at *
    rw [if_pos (by omega)]
    have := le_magnitudeBits magnitude hhigh (by omega)
    omega
  · rw [if_neg hbit] at *
    split
    · omega
    · have := magnitudeBits_le magnitude hhigh (by omega)
      omega

theorem doubleLessEq_eq_not {a b : UInt64} (ha : isNan a = false) (hb : isNan b = false) :
    doubleLessEq a b = !doubleLess b a := by
  unfold doubleLessEq doubleLess
  rw [ha, hb]
  by_cases h : doubleUnits a ≤ doubleUnits b
  · simp [h, not_lt.2 h]
  · simp [h, not_le.1 h]

/-- The conversion of the number to a double gives this one, which is another number. -/
def RoundsTo (n : Int) (bits : UInt64) : Prop :=
  (n : ℚ) ≠ doubleValue bits ∧ doubleValue (doubleOfInt n) = doubleValue bits

theorem unitsInOne_ne_zero : unitsInOne ≠ 0 := by
  unfold unitsInOne
  exact pow_ne_zero 1074 two_ne_zero

theorem unitsInOne_pos : (0 : ℚ) < unitsInOne :=
  Nat.cast_pos.2 (Nat.pos_of_ne_zero unitsInOne_ne_zero)

theorem intCast_lt_doubleValue {n : Int} {bits : UInt64} :
    (n : ℚ) < doubleValue bits ↔ n * unitsInOne < doubleUnits bits := by
  rw [doubleValue, lt_div_iff₀ unitsInOne_pos]
  exact_mod_cast Iff.rfl

theorem doubleValue_lt_intCast {n : Int} {bits : UInt64} :
    doubleValue bits < (n : ℚ) ↔ doubleUnits bits < n * unitsInOne := by
  rw [doubleValue, div_lt_iff₀ unitsInOne_pos]
  exact_mod_cast Iff.rfl

theorem doubleValue_eq_iff {a b : UInt64} :
    doubleValue a = doubleValue b ↔ doubleUnits a = doubleUnits b := by
  rw [doubleValue, doubleValue, div_left_inj' unitsInOne_pos.ne']
  exact_mod_cast Iff.rfl

theorem log2_units {n : Int} (hn : n.natAbs ≤ 2 ^ 64) :
    (n * unitsInOne).natAbs.log2 < 2098 := by
  rw [Int.natAbs_mul, Int.natAbs_natCast]
  rcases Nat.eq_zero_or_pos n.natAbs with hzero | hpos
  · rw [hzero, Nat.zero_mul]
    decide
  · rw [Nat.log2_lt (Nat.mul_ne_zero hpos.ne' unitsInOne_ne_zero)]
    calc n.natAbs * unitsInOne ≤ 2 ^ 64 * unitsInOne := Nat.mul_le_mul_right _ hn
      _ < 2 ^ 2098 := by
        rw [unitsInOne, ← pow_add]
        exact pow_lt_pow_right₀ one_lt_two (by decide)

variable {n : Int} {bits : UInt64}

/-- A whole number that is converted is below a double exactly if it was and is not rounded to
it. -/
theorem doubleLess_ofInt (hn : n.natAbs ≤ 2 ^ 64) (hnan : isNan bits = false) :
    doubleLess (doubleOfInt n) bits = true ↔
      (n : ℚ) < doubleValue bits ∧ ¬ RoundsTo n bits := by
  unfold doubleLess RoundsTo
  rw [hnan, doubleOfInt, isNan_roundUnits, doubleValue_eq_iff, intCast_lt_doubleValue]
  simp only [Bool.not_false, Bool.true_and, decide_eq_true_eq]
  constructor
  · intro h
    refine ⟨?_, fun hround => h.ne hround.2⟩
    by_contra hge
    exact absurd (le_roundUnits (log2_units hn) (not_lt.1 hge)) (not_le.2 h)
  · rintro ⟨hlt, hround⟩
    refine lt_of_le_of_ne (roundUnits_le (log2_units hn) hlt.le) fun heq => hround ⟨?_, heq⟩
    exact (intCast_lt_doubleValue.2 hlt).ne

theorem doubleLess_double_ofInt (hn : n.natAbs ≤ 2 ^ 64) (hnan : isNan bits = false) :
    doubleLess bits (doubleOfInt n) = true ↔
      doubleValue bits < (n : ℚ) ∧ ¬ RoundsTo n bits := by
  unfold doubleLess RoundsTo
  rw [hnan, doubleOfInt, isNan_roundUnits, doubleValue_eq_iff, doubleValue_lt_intCast]
  simp only [Bool.not_false, Bool.true_and, decide_eq_true_eq]
  constructor
  · intro h
    refine ⟨?_, fun hround => h.ne' hround.2⟩
    by_contra hge
    exact absurd (roundUnits_le (log2_units hn) (not_lt.1 hge)) (not_le.2 h)
  · rintro ⟨hlt, hround⟩
    refine lt_of_le_of_ne (le_roundUnits (log2_units hn) hlt.le) fun heq => hround ⟨?_, heq.symm⟩
    exact (doubleValue_lt_intCast.2 hlt).ne'

/-- A whole number that is converted is at least a double exactly if it was or is rounded to
it. -/
theorem doubleLessEq_ofInt (hn : n.natAbs ≤ 2 ^ 64) (hnan : isNan bits = false) :
    doubleLessEq bits (doubleOfInt n) = true ↔
      doubleValue bits ≤ (n : ℚ) ∨ RoundsTo n bits := by
  have hless := doubleLess_ofInt hn hnan
  have hconverted : isNan (doubleOfInt n) = false := isNan_roundUnits _
  rw [doubleLessEq_eq_not hnan hconverted, Bool.not_eq_true', ← Bool.not_eq_true, hless, not_and_not_right, ← not_lt]
  tauto

end Wakaama
