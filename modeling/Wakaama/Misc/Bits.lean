import Mathlib.Data.Nat.Bitwise

/-!
# Bits as numbers

Masks and shifts of fixed-width words as division and remainder.
-/

namespace Wakaama

theorem and_bit (n k : Nat) : n &&& 2 ^ k = n / 2 ^ k % 2 * 2 ^ k := by
  rw [Nat.and_two_pow, Nat.toNat_testBit]

theorem and_ones (n k : Nat) : n &&& (2 ^ k - 1) = n % 2 ^ k :=
  Nat.and_two_pow_sub_one_eq_mod n k

/-- Low bits below shifted ones are added to them. -/
theorem or_shifted {n k low : Nat} (h : low < 2 ^ n) : k * 2 ^ n ||| low = k * 2 ^ n + low := by
  rw [← Nat.shiftLeft_eq, Nat.shiftLeft_add_eq_or_of_lt h]

theorem or_toNat {high low : UInt8} {n k : Nat} (hhigh : high.toNat = k * 2 ^ n)
    (hlow : low.toNat < 2 ^ n) : (high ||| low).toNat = high.toNat + low.toNat := by
  rw [UInt8.toNat_or, hhigh, or_shifted hlow]

end Wakaama
