import Wakaama.Data.Cbor

/-!
# Heads of CBOR items, there and back (`data/cbor.c`)
-/

namespace Wakaama

/-- The values that a `cbor_type_t` but FLOAT has. -/
def CborAdmissible : CborType → UInt64 → Prop
  | .unsignedInteger, _ | .byteString, _ | .textString, _ => True
  | .array, _ | .map, _ | .semanticTag, _ | .break, _ => True
  | .negativeInteger, val => val.toInt64 < 0
  | .simpleValue, val => val ≤ 255
  | .float, _ | .unknown, _ => False

/-- What `cbor_put_type_and_value` writes to a buffer is read as what was written, whatever is
behind it. -/
def CborHeadRoundTrips (type : CborType) (val : UInt64) : Prop :=
  ∀ bufferLen, ∃ bytes, cborPutTypeAndValue bufferLen type val = .ok bytes ∧
    (0 < bytes.length →
      ∀ rest, cborGetTypeAndValue (bytes ++ rest) = pure (type, val, bytes.length))

end Wakaama
