import Wakaama.Core.Base64Buffer
import Wakaama.Core.NumberBuffer
import Wakaama.Core.Uri
import Wakaama.Data.Cbor

/-!
# The text format (`data/data.c`)

One value of a resource as plain text: `lwm2m_data_serialize` writes it, `lwm2m_data_parse` keeps
the bytes as a string, and the functions that decode a type read the value from the string.
-/

namespace Wakaama

/-- What memory of a length holds before it is written to. -/
structure FreshMemory where
  bytes : Nat → List UInt8
  length_eq : ∀ n, (bytes n).length = n

/-- `*bufferP`, empty where it is NULL, and the result. -/
structure SerializedText where
  buffer : List UInt8
  result : Int
  deriving DecidableEq, Repr

/-- `return -1;` -/
def SerializedText.refused : SerializedText := { buffer := [], result := -1 }

/-- `return 0;` without a buffer. -/
def SerializedText.nothing : SerializedText := { buffer := [], result := 0 }

/-- `_PRV_STR_LENGTH`. -/
def prvStrLength : Nat := 32

/-- A number written by one of the writers into a buffer on the stack, and copied from there. -/
def numberSerialize (allocated : Bool) (write : List UInt8 → Except Fault (List UInt8 × Nat))
    (string : List UInt8) : Except Fault SerializedText := do
  let (string, res) ← write string
  if res = 0 then return .refused
  else if allocated = false then return .refused
  else
    let buffer ← loadBytes string 0 res
    return { buffer, result := intOfSize res }

/-- The case of an object link. -/
def objLinkSerialize (allocated : Bool) (objectId objectInstanceId : UInt16)
    (stringBuffer : List UInt8) : Except Fault SerializedText := do
  let (stringBuffer, length) ← utilsIntToTextAt objectId.toUInt64.toInt64 0 5 stringBuffer
  if length = 0 then return .refused
  else
    let stringBuffer ← storeByte stringBuffer 5 58
    let res := length + 1
    let (stringBuffer, length) ←
      utilsIntToTextAt objectInstanceId.toUInt64.toInt64 res 5 stringBuffer
    if length = 0 then return .refused
    else
      let res := res + length
      if allocated = false then return .refused
      else
        let buffer ← loadBytes stringBuffer 0 res
        return { buffer, result := intOfSize res }

/-- The case of opaque bytes; `none` is an encoder that does not end in a number of rounds. -/
def opaqueSerialize (fuel : Nat) (allocated : Bool) (fresh : FreshMemory) (data : List UInt8) :
    Except Fault (Option SerializedText) :=
  if allocated = false then .ok (some .nothing)
  else do
    match ← utilsBase64EncodeAt fuel data (fresh.bytes (utilsBase64GetSize data.length)) with
    | none => return none
    | some (buffer, length) =>
      if length = 0 then return some .nothing
      else return some { buffer, result := intOfSize length }

/-- `prv_textSerialize`, `allocated` being whether `lwm2m_malloc` has memory for the buffer. -/
def prvTextSerialize
    (floatToText : UInt64 → List UInt8 → Except Fault (List UInt8 × Nat))
    (fuel : Nat) (allocated : Bool) (fresh : FreshMemory) (data : Lwm2mData) :
    Except Fault (Option SerializedText) :=
  match data.type with
  | .string | .coreLink =>
    if allocated = false then .ok (some .nothing)
    else .ok (some { buffer := data.asBuffer, result := intOfSize data.asBuffer.length })
  | .integer =>
    (numberSerialize allocated (utilsIntToTextAt data.asInteger 0 prvStrLength)
      (fresh.bytes prvStrLength)).map some
  | .unsignedInteger =>
    (numberSerialize allocated (utilsUintToTextAt data.asUnsigned 0 prvStrLength)
      (fresh.bytes prvStrLength)).map some
  | .float =>
    (numberSerialize allocated (floatToText data.asFloat) (fresh.bytes (prvStrLength * 2))).map some
  | .boolean =>
    if allocated = false then .ok (some .refused)
    else .ok (some { buffer := [if data.asBoolean then 49 else 48], result := 1 })
  | .objectLink =>
    (objLinkSerialize allocated data.asObjLink.1 data.asObjLink.2 (fresh.bytes 11)).map some
  | .opaqueBytes => opaqueSerialize fuel allocated fresh data.asBuffer
  | _ => .ok (some .refused)

/-- The check of the format in `lwm2m_data_serialize`: whether text stays text. -/
def keepsTextFormat (uri : Lwm2mUri) (size : Nat) (type : DataType) : Bool :=
  !(size != 1 || !uri.isSetResource || type.hasChildren)

/-- `lwm2m_data_parse` in text format, with memory for the value. -/
def lwm2mDataParseText (uri : Lwm2mUri) (buffer : List UInt8) : Option Lwm2mData :=
  if uri.isSetResource = false then none
  else
    let id := if uri.isSetResourceInstance then uri.resourceInstanceId else uri.resourceId
    some (.node .string id (.asBuffer buffer))

/-- A value of a resource that is no float. -/
inductive TextValue where
  | string (bytes : List UInt8)
  | opaqueBytes (bytes : List UInt8)
  | integer (value : Int64)
  | unsigned (value : UInt64)
  | boolean (value : Bool)
  | objectLink (objectId objectInstanceId : UInt16)

/-- The value as an item. -/
def TextValue.data (id : UInt16) : TextValue → Lwm2mData
  | .string bytes => .node .string id (.asBuffer bytes)
  | .opaqueBytes bytes => .node .opaqueBytes id (.asBuffer bytes)
  | .integer value => .node .integer id (.asInteger value)
  | .unsigned value => .node .unsignedInteger id (.asUnsigned value)
  | .boolean value => .node .boolean id (.asBoolean value)
  | .objectLink objectId objectInstanceId =>
    .node .objectLink id (.asObjLink objectId objectInstanceId)

/-- The decoding of the value's type, applied to the item that was parsed, gives the value. -/
def TextValue.DecodedFrom (parsed : Lwm2mData) : TextValue → Prop
  | .string bytes => parsed.asBuffer = bytes
  | .opaqueBytes bytes =>
    ∀ buffer : List UInt8, buffer.length = utilsBase64GetDecodedSize parsed.asBuffer →
      ∃ buffer', utilsBase64DecodeAt parsed.asBuffer buffer = .ok (buffer', bytes.length) ∧
        buffer'.take bytes.length = bytes
  | .integer value => lwm2mDataDecodeInt parsed = some value
  | .unsigned value => lwm2mDataDecodeUint parsed = some value
  | .boolean value => lwm2mDataDecodeBool parsed = some value
  | .objectLink objectId objectInstanceId =>
    utilsTextToObjLink parsed.asBuffer = some (objectId, objectInstanceId)

/-- The value of a resource is serialized in text format, and if that succeeds it is decoded from
what is parsed of the text. -/
def TextRoundTrips
    (floatToText : UInt64 → List UInt8 → Except Fault (List UInt8 × Nat))
    (allocated : Bool) (value : TextValue) : Prop :=
  ∀ (fresh : FreshMemory) (uri : Lwm2mUri) (id : UInt16), uri.isSetResource = true →
    keepsTextFormat uri 1 (value.data id).type = true ∧
    ∃ fuel text,
      prvTextSerialize floatToText fuel allocated fresh (value.data id) = .ok (some text) ∧
      (0 ≤ text.result → ∃ parsed,
        lwm2mDataParseText uri (text.buffer.take text.result.toNat) = some parsed ∧
          value.DecodedFrom parsed)

/-- Where the value is read back: the text of an object link needs an object id of five digits,
and the lengths of the others an `int`. A string or opaque bytes for which there is no memory are
answered like the empty ones. -/
def TextReadBack (allocated : Bool) : TextValue → Prop
  | .string bytes =>
    if allocated then bytes.length < 2 ^ 32 ∨ 2 ^ 31 ≤ bytes.length % 2 ^ 32 else bytes = []
  | .opaqueBytes bytes =>
    if allocated then utilsBase64GetSize bytes.length < 2 ^ 32 else bytes = []
  | .objectLink objectId _ => allocated = true → 10000 ≤ objectId
  | .integer _ | .unsigned _ | .boolean _ => True

end Wakaama
