import Wakaama.Data.Cbor

/-!
# TLV (`data/tlv.c`)

The serializer writes into a buffer of the length that `prv_getLength` computes in an `int`; a
write behind its end is a fault, and a byte that nothing writes holds what the memory held. The
encoding of a double is left to a parameter. Allocations succeed.
-/

namespace Wakaama

/-- `_PRV_TLV_TYPE_MASK`. -/
def prvTlvTypeMask : UInt8 := 0xC0

/-- The `_PRV_TLV_TYPE_*` constants. -/
def prvTlvTypeUnknown : UInt8 := 0xFF
def prvTlvTypeObject : UInt8 := 0x10
def prvTlvTypeObjectInstance : UInt8 := 0x00
def prvTlvTypeResource : UInt8 := 0xC0
def prvTlvTypeMultipleResource : UInt8 := 0x80
def prvTlvTypeResourceInstance : UInt8 := 0x40

/-- `prv_encodeInt`: the shortest of four widths. -/
def prvEncodeInt (data : Int64) : List UInt8 :=
  if -128 ≤ data ∧ data ≤ 127 then bigEndian 1 data.toUInt64
  else if -32768 ≤ data ∧ data ≤ 32767 then bigEndian 2 data.toUInt64
  else if -2147483648 ≤ data ∧ data ≤ 2147483647 then bigEndian 4 data.toUInt64
  else bigEndian 8 data.toUInt64

/-- `prv_encodeUInt`. -/
def prvEncodeUInt (data : UInt64) : List UInt8 :=
  if data ≤ 0xFF then bigEndian 1 data
  else if data ≤ 0xFFFF then bigEndian 2 data
  else if data ≤ 0xFFFFFFFF then bigEndian 4 data
  else bigEndian 8 data

/-- `prv_getHeaderType`. -/
def prvGetHeaderType : DataType → UInt8
  | .object => prvTlvTypeObject
  | .objectInstance => prvTlvTypeObjectInstance
  | .multipleResource => prvTlvTypeMultipleResource
  | .undefined => prvTlvTypeUnknown
  | _ => prvTlvTypeResource

/-- `prv_getDataType`. -/
def prvGetDataType (type : UInt8) : DataType :=
  if type = prvTlvTypeObject then .object
  else if type = prvTlvTypeObjectInstance then .objectInstance
  else if type = prvTlvTypeMultipleResource then .multipleResource
  else if type = prvTlvTypeResource ∨ type = prvTlvTypeResourceInstance then .opaqueBytes
  else .undefined

/-- `prv_getHeaderLength`. -/
def prvGetHeaderLength (id : UInt16) (dataLen : Nat) : Nat :=
  2 + (if 0xFF < id then 1 else 0) +
    (if 0xFFFF < dataLen then 3 else if 0xFF < dataLen then 2 else if 7 < dataLen then 1 else 0)

/-- `prv_createHeader` at `index` of a buffer that held `fresh`. A length beyond 24 bits is not
written, but its place is skipped. -/
def prvCreateHeader (fresh : Nat → UInt8) (index : Nat) (isInstance : Bool) (type : DataType)
    (id : UInt16) (dataLen : Nat) : List UInt8 :=
  let hdrType := if isInstance then prvTlvTypeResourceInstance else prvGetHeaderType type
  let first := hdrType &&& prvTlvTypeMask
  let (first, idBytes) :=
    if 0xFF < id then (first ||| 0x20, bigEndian 2 id.toUInt64) else (first, [id.toUInt8])
  let offset := 1 + idBytes.length
  if dataLen ≤ 7 then (first + dataLen.toUInt8) :: idBytes
  else if dataLen ≤ 0xFF then (first ||| 0x08) :: idBytes ++ bigEndian 1 dataLen.toUInt64
  else if dataLen ≤ 0xFFFF then (first ||| 0x10) :: idBytes ++ bigEndian 2 dataLen.toUInt64
  else if dataLen ≤ 0xFFFFFF then (first ||| 0x18) :: idBytes ++ bigEndian 3 dataLen.toUInt64
  else first :: idBytes ++ (List.range 3).map fun k => fresh (index + offset + k)

/-- The bytes of a leaf; `none` for the other types. -/
def tlvLeaf (encodeFloat : UInt64 → List UInt8) (data : Lwm2mData) : Option (List UInt8) :=
  match data.type with
  | .string | .opaqueBytes | .coreLink => some data.asBuffer
  | .integer => some (prvEncodeInt data.asInteger)
  | .unsignedInteger => some (prvEncodeUInt data.asUnsigned)
  | .float => some (encodeFloat data.asFloat)
  | .boolean => some [if data.asBoolean then 1 else 0]
  | .objectLink =>
    some (bigEndian 4 (data.asObjLink.1.toUInt64 <<< 16 ||| data.asObjLink.2.toUInt64))
  | _ => none

/-- The types that `tlv.c` nests. -/
def DataType.tlvContainer : DataType → Bool
  | .objectInstance | .multipleResource => true
  | _ => false

/-- The conversion to `int`. -/
def toInt (n : Int) : Int := n.bmod (2 ^ 32)

/-- The conversion of an `int` to `size_t`. -/
def toSize (n : Int) : Nat := (n % 2 ^ 64).toNat

/-- `length += prv_getHeaderLength(id, dataLen) + dataLen`. -/
def addLength (length : Int) (id : UInt16) (dataLen : Int) : Int :=
  toInt (length + prvGetHeaderLength id (toSize dataLen) + dataLen)

mutual

/-- One turn of the loop of `prv_getLength`. -/
def prvLengthWith (encodeFloat : UInt64 → List UInt8) (length : Int) : Lwm2mData → Int
  | .node type id value =>
    if type.tlvContainer then
      let subLength := prvChildrenLength encodeFloat value
      if subLength = -1 then -1 else addLength length id subLength
    else
      match tlvLeaf encodeFloat (.node type id value) with
      | none => -1
      | some bytes => addLength length id bytes.length

def prvChildrenLength (encodeFloat : UInt64 → List UInt8) : DataValue Lwm2mData → Int
  | .asChildren array => prvGetLength encodeFloat 0 array
  | _ => 0

/-- The loop of `prv_getLength`. -/
def prvGetLength (encodeFloat : UInt64 → List UInt8) (length : Int) : List Lwm2mData → Int
  | [] => length
  | cur :: rest =>
    if length = -1 then -1
    else prvGetLength encodeFloat (prvLengthWith encodeFloat length cur) rest

end

/-- A write at the end of what is written of a buffer. -/
def tlvAppend (bufferLen : Nat) (head bytes : List UInt8) : Except Fault (List UInt8) :=
  if head.length + bytes.length ≤ bufferLen then .ok (head ++ bytes) else .error .outOfBounds

/-- The end of `tlv_serialize`, for what its loop has written and whether it went well. -/
def tlvResult (fresh : Nat → UInt8) (length : Int)
    (written : Except Fault (List UInt8 × Bool)) : Except Fault (Int × List UInt8) :=
  if length ≤ 0 then .ok (length, [])
  else
    match written with
    | .error fault => .error fault
    | .ok (_, false) => .ok (-1, [])
    | .ok (head, true) =>
      .ok (length, head ++
        (List.range (length.toNat - head.length)).map fun k => fresh (head.length + k))

section Serialize

variable (fresh : Nat → UInt8) (encodeFloat : UInt64 → List UInt8)

mutual

/-- One turn of the loop of `tlv_serialize`: what is written so far, and whether `length` was
set to -1. -/
def tlvWrite (isResourceInstance : Bool) (bufferLen : Nat) (head : List UInt8) :
    Lwm2mData → Except Fault (List UInt8 × Bool)
  | .node type id value =>
    if type.tlvContainer then
      match tlvSerializeChildren (isResourceInstance || type == .multipleResource) value with
      | .error fault => .error fault
      | .ok (res, tmpBuffer) =>
        if res < 0 then .ok (head, false)
        else
          match tlvAppend bufferLen head
              (prvCreateHeader fresh head.length false type id res.toNat ++ tmpBuffer) with
          | .error fault => .error fault
          | .ok head => .ok (head, true)
    else
      match tlvLeaf encodeFloat (.node type id value) with
      | none => .ok (head, false)
      | some bytes =>
        match tlvAppend bufferLen head
            (prvCreateHeader fresh head.length isResourceInstance type id bytes.length ++
              bytes) with
        | .error fault => .error fault
        | .ok head => .ok (head, true)

def tlvSerializeChildren (isResourceInstance : Bool) :
    DataValue Lwm2mData → Except Fault (Int × List UInt8)
  | .asChildren array =>
    let length := prvGetLength encodeFloat 0 array
    tlvResult fresh length (tlvWriteList isResourceInstance length.toNat [] array)
  | _ => .ok (0, [])

/-- The loop of `tlv_serialize`. -/
def tlvWriteList (isResourceInstance : Bool) (bufferLen : Nat) (head : List UInt8) :
    List Lwm2mData → Except Fault (List UInt8 × Bool)
  | [] => .ok (head, true)
  | cur :: rest =>
    match tlvWrite isResourceInstance bufferLen head cur with
    | .error fault => .error fault
    | .ok (head, good) =>
      match tlvWriteList isResourceInstance bufferLen head rest with
      | .error fault => .error fault
      | .ok (head, goodRest) => .ok (head, good && goodRest)

end

/-- `tlv_serialize`: its result and the bytes at `*bufferP`. -/
def tlvSerialize (isResourceInstance : Bool) (data : List Lwm2mData) :
    Except Fault (Int × List UInt8) :=
  let length := prvGetLength encodeFloat 0 data
  tlvResult fresh length
    (tlvWriteList fresh encodeFloat isResourceInstance length.toNat [] data)

end Serialize

/-- The id of a header: its value and the number of its bytes. -/
def tlvHeaderId (first : UInt8) (rest : List UInt8) : Option (UInt16 × Nat) :=
  if first &&& 0x20 = 0x20 then
    match rest with
    | high :: low :: _ => some ((high.toUInt16 <<< 8) + low.toUInt16, 2)
    | _ => none
  else
    match rest with
    | byte :: _ => some (byte.toUInt16, 1)
    | [] => none

/-- The length of a header: its value and the number of its bytes. -/
def tlvHeaderDataLen (first : UInt8) (rest : List UInt8) : Option (Nat × Nat) :=
  let width := ((first &&& 0x18) >>> 3).toNat
  if width = 0 then some ((first &&& 0x07).toNat, 0)
  else if rest.length < width then none
  else some ((rest.take width).foldl (fun value byte => value * 256 + byte.toNat) 0, width)

/-- `lwm2m_decode_TLV`: `*oType`, `*oID`, `*oDataIndex` and `*oDataLen`. -/
def lwm2mDecodeTlv (buffer : List UInt8) : Option (DataType × UInt16 × Nat × Nat) :=
  match buffer with
  | [] | [_] => none
  | first :: rest =>
    match tlvHeaderId first rest with
    | none => none
    | some (id, idLen) =>
      match tlvHeaderDataLen first (rest.drop idLen) with
      | none => none
      | some (dataLen, lengthLen) =>
        let dataIndex := 1 + idLen + lengthLen
        if buffer.length < dataIndex + dataLen then none
        else some (prvGetDataType (first &&& prvTlvTypeMask), id, dataIndex, dataLen)

/-- The children of a container, unless their count is 0. -/
def tlvContent : Option (List Lwm2mData) → Option (List Lwm2mData)
  | none | some [] => none
  | some array => some array

/-- The loop of `tlv_parse` from an index on; `none` where a container has no content that can
be parsed, which gives up everything. -/
def tlvParseLoop : Nat → List UInt8 → Option (List Lwm2mData)
  | 0, _ => some []
  | fuel + 1, buffer =>
    match lwm2mDecodeTlv buffer with
    | none => some []
    | some (type, id, dataIndex, dataLen) =>
      let data := (buffer.drop dataIndex).take dataLen
      let rest := buffer.drop (dataIndex + dataLen)
      if type.tlvContainer then
        (tlvContent (tlvParseLoop fuel data)).bind fun array =>
          (tlvParseLoop fuel rest).map (.node type id (.asChildren array) :: ·)
      else (tlvParseLoop fuel rest).map (.node .opaqueBytes id (.asBuffer data) :: ·)

/-- `tlv_parse`: the data, of which there are as many as it returns. Every header takes bytes of
the buffer, so its length is fuel enough. -/
def tlvParse (buffer : List UInt8) : List Lwm2mData :=
  (tlvParseLoop buffer.length buffer).getD []

end Wakaama
