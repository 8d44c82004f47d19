import Wakaama.Data.Tlv
import Wakaama.Misc.Double

/-!
# The length of TLV data (`data/tlv.c`)

`prv_getLength` with the widths that it chooses by itself, and `prv_encodeFloat`. The conversion of
a double to a `float` is left to a parameter.
-/

namespace Wakaama

/-- `(double)FLT_MAX`. -/
def fltMax : UInt64 := 0x47EFFFFFE0000000

/-- The double is below `-FLT_MAX` or above `FLT_MAX`; a NaN is neither. -/
def beyondFloat (data : UInt64) : Bool :=
  !isNan data && (decide (doubleUnits data < -doubleUnits fltMax) ||
    decide (doubleUnits fltMax < doubleUnits data))

/-- `prv_encodeFloat`. -/
def prvEncodeFloat (toFloat : UInt64 → UInt32) (data : UInt64) : List UInt8 :=
  if beyondFloat data then bigEndian 8 data else bigEndian 4 (toFloat data).toUInt64

/-- The `data_len` of a leaf; `none` for the other types. -/
def tlvDataLen (cur : Lwm2mData) : Option Nat :=
  match cur.type with
  | .string | .opaqueBytes | .coreLink => some cur.asBuffer.length
  | .integer => some (prvEncodeInt cur.asInteger).length
  | .unsignedInteger => some (prvEncodeUInt cur.asUnsigned).length
  | .float => some (if beyondFloat cur.asFloat then 8 else 4)
  | .boolean => some 1
  | .objectLink => some 4
  | _ => none

mutual

/-- One turn of the loop of `prv_getLength`. -/
def prvTurnWidths (length : Int) : Lwm2mData → Int
  | .node type id value =>
    if type.tlvContainer then
      let subLength := prvChildrenWidths value
      if subLength = -1 then -1 else addLength length id subLength
    else
      match tlvDataLen (.node type id value) with
      | none => -1
      | some dataLen => addLength length id dataLen

def prvChildrenWidths : DataValue Lwm2mData → Int
  | .asChildren array => prvGetLengthWidths 0 array
  | _ => 0

/-- The loop of `prv_getLength`. -/
def prvGetLengthWidths (length : Int) : List Lwm2mData → Int
  | [] => length
  | cur :: rest =>
    if length = -1 then -1 else prvGetLengthWidths (prvTurnWidths length cur) rest

end

/-- A list at some depth of the containers of another one. -/
inductive TlvLevel : List Lwm2mData → List Lwm2mData → Prop
  | self (data : List Lwm2mData) : TlvLevel data data
  | inside {data array level : List Lwm2mData} {type : DataType} {id : UInt16}
    (hmem : .node type id (.asChildren array) ∈ data) (hcontainer : type.tlvContainer = true)
    (hlevel : TlvLevel array level) : TlvLevel data level

/-- What holds of the nodes of every level. -/
def EveryNode (P : Lwm2mData → Prop) (data : List Lwm2mData) : Prop :=
  ∀ level, TlvLevel data level → ∀ d ∈ level, P d

/-- A type that TLV has a record for. -/
def TlvTyped (d : Lwm2mData) : Prop := d.type ≠ .object ∧ d.type ≠ .undefined

/-- The length of a list is the number of bytes that `tlv_serialize` writes for it: in a buffer of
that length its loop ends where the buffer ends, and every byte is written, whatever was there. -/
def LengthMeets (toFloat : UInt64 → UInt32) (data : List Lwm2mData) : Prop :=
  ∀ isResourceInstance, ∃ bytes : List UInt8, prvGetLengthWidths 0 data = bytes.length ∧
    ∀ fresh, tlvWriteList fresh (prvEncodeFloat toFloat) isResourceInstance bytes.length [] data =
        .ok (bytes, true) ∧
      tlvSerialize fresh (prvEncodeFloat toFloat) isResourceInstance data =
        .ok (bytes.length, bytes)

/-- The length is right at every level. Data with a type that TLV has no record for is refused by
both, and nothing is written. -/
def LengthPredicts (toFloat : UInt64 → UInt32) (data : List Lwm2mData) : Prop :=
  (EveryNode TlvTyped data → ∀ level, TlvLevel data level → LengthMeets toFloat level) ∧
    (¬ EveryNode TlvTyped data → prvGetLengthWidths 0 data = -1 ∧
      ∀ fresh isResourceInstance,
        tlvSerialize fresh (prvEncodeFloat toFloat) isResourceInstance data = .ok (-1, []))

end Wakaama
