import Wakaama.Data.Cbor
import Wakaama.Misc.Double

/-!
# CBOR floats, there and back (`data/cbor.c`)
-/

namespace Wakaama

/-- A double that is neither infinite nor a NaN. -/
def DoubleFinite (bits : UInt64) : Prop := doubleExponent bits ≠ 0x7ff

/-- Finite doubles that stand for one number, with one sign. -/
def SameNumber (a b : UInt64) : Prop :=
  DoubleFinite a ∧ doubleValue a = doubleValue b ∧ doubleSign a = doubleSign b

/-- `prv_serialize_float` writes the double where there is room, and what it writes is read as the
number that was written, whatever is behind it. -/
def CborFloatLossless (bits : UInt64) : Prop :=
  ∀ bufferLen, ∃ bytes, prvSerializeFloat bufferLen bits = .ok bytes ∧
    (9 ≤ bufferLen → 0 < bytes.length) ∧
    (0 < bytes.length → ∀ rest, ∃ value,
      cborGetTypeAndValue (bytes ++ rest) = pure (.float, value, bytes.length) ∧
        SameNumber value bits)

/-- In the range of the normal halves, a mantissa of 12 bits at most that has a 1 in the eleventh or
the twelfth: between the ten bits of a half and the mask `0x7FF`. -/
def BetweenMasks (bits : UInt64) : Prop :=
  1023 - 14 ≤ doubleExponent bits ∧ doubleExponent bits ≤ 1023 + 15 ∧
    doubleMantissa bits % 2 ^ 40 = 0 ∧ doubleMantissa bits / 2 ^ 40 % 4 ≠ 0

end Wakaama
