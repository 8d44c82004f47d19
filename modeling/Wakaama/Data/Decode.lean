import Wakaama.Core.Utils
import Wakaama.Data.Data

/-!
# Reading a value (`data/data.c`)

`lwm2m_data_decode_int`, `_uint` and `_bool`: a value of the type that is asked for, whatever
the type of the data is that holds it.
-/

namespace Wakaama

/-- The number in the bytes that `utils_copyValue` brings into host order. -/
def bigEndianValue (buffer : List UInt8) : Nat :=
  buffer.foldl (fun value byte => value * 256 + byte.toNat) 0

/-- `lwm2m_data_decode_int`. -/
def lwm2mDataDecodeInt (data : Lwm2mData) : Option Int64 :=
  match data.type with
  | .integer => some data.asInteger
  | .unsignedInteger =>
    if data.asUnsigned ≤ 9223372036854775807 then some data.asUnsigned.toInt64 else none
  | .string => utilsTextToInt data.asBuffer
  | .opaqueBytes =>
    let value := bigEndianValue data.asBuffer
    match data.asBuffer.length with
    | 1 => some value.toUInt8.toInt8.toInt64
    | 2 => some value.toUInt16.toInt16.toInt64
    | 4 => some value.toUInt32.toInt32.toInt64
    | 8 => some value.toUInt64.toInt64
    | _ => none
  | _ => none

/-- `lwm2m_data_decode_uint`. -/
def lwm2mDataDecodeUint (data : Lwm2mData) : Option UInt64 :=
  match data.type with
  | .integer => if 0 ≤ data.asInteger then some data.asInteger.toUInt64 else none
  | .unsignedInteger => some data.asUnsigned
  | .string => utilsTextToUInt data.asBuffer
  | .opaqueBytes =>
    let value := bigEndianValue data.asBuffer
    match data.asBuffer.length with
    | 1 | 2 | 4 | 8 => some value.toUInt64
    | _ => none
  | _ => none

/-- `lwm2m_data_decode_bool`. -/
def lwm2mDataDecodeBool (data : Lwm2mData) : Option Bool :=
  match data.type with
  | .boolean => some data.asBoolean
  | .string =>
    match data.asBuffer with
    | [character] =>
      if character = digitZero then some false
      else if character = digitZero + 1 then some true
      else none
    | _ => none
  | .opaqueBytes =>
    match data.asBuffer with
    | [byte] => if byte = 0 then some false else if byte = 1 then some true else none
    | _ => none
  | _ => none

end Wakaama
