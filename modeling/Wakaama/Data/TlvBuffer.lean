import Wakaama.Data.Tlv
import Wakaama.Misc.Memory

/-!
# Parsing TLV in a buffer (`data/tlv.c`)

`lwm2m_decode_TLV` and `tlv_parse` on the bytes that they are given, with every byte that they
read. The index of `tlv_parse` is an `int`. Allocations succeed.
-/

namespace Wakaama

/-- The id of a header at `start` and the index behind it. -/
def tlvHeaderIdAt (buffer : List UInt8) (start : Int) (first : UInt8) :
    Except Fault (UInt16 × Nat) :=
  if first &&& 0x20 = 0x20 then do
    let high ← loadAt buffer (start + 1)
    let low ← loadAt buffer (start + 2)
    return ((high.toUInt16 <<< 8) + low.toUInt16, 3)
  else do
    let byte ← loadAt buffer (start + 1)
    return (byte.toUInt16, 2)

/-- A length field of 8, 16 or 24 bits, behind the value read so far. -/
def tlvLengthAt (buffer : List UInt8) : Int → Nat → Nat → Except Fault Nat
  | _, 0, value => .ok value
  | address, width + 1, value => do
    let byte ← loadAt buffer address
    tlvLengthAt buffer (address + 1) width (value * 256 + byte.toNat)

/-- `lwm2m_decode_TLV` of `bufferLen` bytes at `start`: `*oType`, `*oID`, `*oDataIndex` and
`*oDataLen`; `none` is the result 0. -/
def lwm2mDecodeTlvAt (buffer : List UInt8) (start : Int) (bufferLen : Nat) :
    Except Fault (Option (DataType × UInt16 × Nat × Nat)) :=
  if bufferLen < 2 then .ok none
  else do
    let first ← loadAt buffer start
    if first &&& 0x20 = 0x20 ∧ bufferLen < 3 then return none
    else
      let (id, dataIndex) ← tlvHeaderIdAt buffer start first
      let width := ((first &&& 0x18) >>> 3).toNat
      if bufferLen < dataIndex + width then return none
      else
        let dataLen ←
          if width = 0 then .ok (first &&& 0x07).toNat
          else tlvLengthAt buffer (start + dataIndex) width 0
        if bufferLen < dataIndex + width + dataLen then return none
        else return some (prvGetDataType (first &&& prvTlvTypeMask), id, dataIndex + width, dataLen)

/-- The loop of `tlv_parse` from an index on, behind the data that is parsed; `nested` is the call
for the content of a container. -/
def tlvParseRounds (nested : List UInt8 → Except Fault (List Lwm2mData)) (buffer : List UInt8) :
    Nat → Int → List Lwm2mData → Except Fault (List Lwm2mData)
  | 0, _, _ => .error .endless
  | fuel + 1, index, parsed => do
    let header ← lwm2mDecodeTlvAt buffer index ((buffer.length : Int) - index).toNat
    match header with
    | none => return parsed
    | some (type, id, dataIndex, dataLen) =>
      let data ← loadBytes buffer (index + dataIndex) dataLen
      if type.tlvContainer then
        let array ← nested data
        -- `lwm2m_data_free`
        if array.length = 0 then return []
        else
          tlvParseRounds nested buffer fuel (toInt (index + (dataIndex + dataLen : Nat)))
            (parsed ++ [.node type id (.asChildren array)])
      else
        tlvParseRounds nested buffer fuel (toInt (index + (dataIndex + dataLen : Nat)))
          (parsed ++ [.node .opaqueBytes id (.asBuffer data)])

/-- `tlv_parse`, calling itself less than `depth` times into each other: the data, of which there
are as many as it returns. Every round of the loop takes two bytes at least. -/
def tlvParseAt : Nat → List UInt8 → Except Fault (List Lwm2mData)
  | 0, _ => .error .endless
  | depth + 1, buffer => tlvParseRounds (tlvParseAt depth) buffer (buffer.length + 1) 0 []

/-- Nothing but complete records, in the containers as well. -/
inductive TlvComplete : List UInt8 → Prop
  | nil : TlvComplete []
  | record {buffer : List UInt8} {type : DataType} {id : UInt16} {dataIndex dataLen : Nat}
    (header : lwm2mDecodeTlv buffer = some (type, id, dataIndex, dataLen))
    (content : type.tlvContainer = true → TlvComplete ((buffer.drop dataIndex).take dataLen))
    (rest : TlvComplete (buffer.drop (dataIndex + dataLen))) : TlvComplete buffer

/-- The buffer starts with no complete record, or a container among the complete records in front
is refused for its content. -/
inductive TlvRefused : List UInt8 → Prop
  | start {buffer : List UInt8} (header : lwm2mDecodeTlv buffer = none) : TlvRefused buffer
  | content {buffer : List UInt8} {type : DataType} {id : UInt16} {dataIndex dataLen : Nat}
    (header : lwm2mDecodeTlv buffer = some (type, id, dataIndex, dataLen))
    (container : type.tlvContainer = true)
    (content : TlvRefused ((buffer.drop dataIndex).take dataLen)) : TlvRefused buffer
  | later {buffer : List UInt8} {type : DataType} {id : UInt16} {dataIndex dataLen : Nat}
    (header : lwm2mDecodeTlv buffer = some (type, id, dataIndex, dataLen))
    (more : lwm2mDecodeTlv (buffer.drop (dataIndex + dataLen)) ≠ none)
    (rest : TlvRefused (buffer.drop (dataIndex + dataLen))) : TlvRefused buffer

/-- The complete records in front end at an offset, none of them a container that is refused. -/
inductive TlvReaches : List UInt8 → Nat → Prop
  | start {buffer : List UInt8} : TlvReaches buffer 0
  | record {buffer : List UInt8} {type : DataType} {id : UInt16} {dataIndex dataLen offset : Nat}
    (header : lwm2mDecodeTlv buffer = some (type, id, dataIndex, dataLen))
    (content : type.tlvContainer = true → ¬ TlvRefused ((buffer.drop dataIndex).take dataLen))
    (rest : TlvReaches (buffer.drop (dataIndex + dataLen)) offset) :
    TlvReaches buffer (dataIndex + dataLen + offset)

/-- `tlv_parse` reads inside of the buffer and comes to an end, with no more calls into each other
than there are bytes, and a count above 0 says that the buffer is complete. -/
def TlvParsesCompletely (buffer : List UInt8) : Prop :=
  ∃ parsed, (∀ depth, buffer.length < depth → tlvParseAt depth buffer = .ok parsed) ∧
    (0 < parsed.length → TlvComplete buffer)

end Wakaama
