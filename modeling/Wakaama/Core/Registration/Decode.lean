import Wakaama.Core.List
import Wakaama.Core.Uri

/-!
# Scanning a registration payload (`core/registration.c`)

`prv_decodeRegisterPayload` and its scanners for one link. A pointer is the memory from it on, a
`uint16_t` a number below 2^16. The scanners are given a switch: without it they do what the code
does, with it they stop where a byte outside of the link is read, where a `uint16_t` goes below
zero and where one does not hold an offset or a length of the payload. Allocations succeed.
-/

namespace Wakaama

/-- What stops a scanner: it reads outside of the memory it is given, it subtracts below zero, it
cuts a number, or it goes round for ever. -/
inductive ScanFault where
  | outside
  | underflow
  | truncated
  | endless
  deriving DecidableEq, Repr

/-- `LWM2M_CONTENT_…`, as far as a client announces it. -/
inductive LinkFormat where
  | tlv
  | json
  | jsonOld
  | senmlJson
  | senmlCbor
  deriving DecidableEq, Repr

/-- `data[index]` -/
def byteAt (data : List UInt8) (index : Nat) : Except ScanFault UInt8 :=
  match data[index]? with
  | some byte => .ok byte
  | none => .error .outside

/-- The bytes from `data + start` on. -/
def bytesAt (data : List UInt8) (start length : Nat) : Except ScanFault (List UInt8) :=
  if start + length ≤ data.length then .ok ((data.drop start).take length) else .error .outside

/-- A difference of two `uint16_t`. -/
def sub16 (checked : Bool) (a b : Nat) : Except ScanFault Nat :=
  if b ≤ a then .ok (a - b)
  else if checked then .error .underflow
  else .ok ((a + 2 ^ 16 - b) % 2 ^ 16)

/-- The conversion of a `size_t`. -/
def to16 (checked : Bool) (n : Nat) : Except ScanFault Nat :=
  if n < 2 ^ 16 then .ok n
  else if checked then .error .truncated
  else .ok (n % 2 ^ 16)

/-- `while (index < length && keep(data[index])) index++;`, with `length - index` left. -/
def scanLoop (keep : UInt8 → Bool) (data : List UInt8) : Nat → Nat → Except ScanFault Nat
  | 0, index => .ok index
  | left + 1, index => do
    if keep (← byteAt data index) then scanLoop keep data left (index + 1) else .ok index

/-- The loop from `index` on. -/
def scan (keep : UInt8 → Bool) (data : List UInt8) (length index : Nat) : Except ScanFault Nat :=
  scanLoop keep data (length - index) index

/-- `while (length > 0 && data[length-1] == ' ') length--;` -/
def trimSpaces (data : List UInt8) : Nat → Except ScanFault Nat
  | 0 => .ok 0
  | length + 1 => do
    if (← byteAt data length) = 32 then trimSpaces data length else .ok (length + 1)

/-- `while (index > low && drop(data[index])) index--;` -/
def scanBack (drop : UInt8 → Bool) (data : List UInt8) (low : Nat) : Nat → Except ScanFault Nat
  | 0 => .ok 0
  | index + 1 =>
    if low < index + 1 then do
      if drop (← byteAt data (index + 1)) then scanBack drop data low index else .ok (index + 1)
    else .ok (index + 1)

/-- What `prv_splitLinkAttribute` returns, and its results by pointer. -/
structure SplitAttribute where
  keyStart : Nat
  keyLength : Nat
  valueStart : Nat
  valueLength : Nat
  next : Nat
  deriving DecidableEq, Repr

/-- `prv_splitLinkAttribute`; 0 is `none`. -/
def prvSplitLinkAttribute (checked : Bool) (data : List UInt8) (length : Nat) :
    Except ScanFault (Option SplitAttribute) := do
  let index ← scan (· == 32) data length 0
  if index = length then return none
  let index := if (← byteAt data index) = 59 then index + 1 else index
  if index = length then return none
  let keyStart := index
  let index ← scan (· != 61) data length index
  if index = keyStart ∨ index = length then return none
  let keyLength ← sub16 checked index keyStart
  let index ← scan (· == 32) data length (index + 1)
  if index = length then return none
  let valueStart := index
  let next ← scan (· != 59) data length index
  let index ← scanBack (· == 32) data valueStart (← sub16 checked next 1)
  if index = valueStart then return none
  let valueLength ← sub16 checked (index + 1) valueStart
  return some { keyStart, keyLength, valueStart, valueLength, next }

/-- `REG_ATTR_TYPE_KEY`: `rt`. -/
def regAttrTypeKey : List UInt8 := [114, 116]

/-- `REG_ATTR_TYPE_VALUE`: `"oma.lwm2m"`. -/
def regAttrTypeValue : List UInt8 := [34, 111, 109, 97, 46, 108, 119, 109, 50, 109, 34]

/-- `REG_ATTR_CONTENT_KEY`: `ct`. -/
def regAttrContentKey : List UInt8 := [99, 116]

/-- The values of `ct`: 11543, 1543, 110 and 112. -/
def regAttrContent : List (List UInt8 × LinkFormat) :=
  [([49, 49, 53, 52, 51], .json), ([49, 53, 52, 51], .jsonOld), ([49, 49, 48], .senmlJson),
    ([49, 49, 50], .senmlCbor)]

/-- The loop of `prv_parseLinkAttributes` over the attributes: `rtValCount` and `*format`. -/
def linkAttributesLoop (checked : Bool) (data : List UInt8) (length : Nat) :
    Nat → Nat → Nat → LinkFormat → Except ScanFault (Option LinkFormat)
  | 0, _, _, _ => .error .endless
  | fuel + 1, index, rtValCount, format =>
    if length ≤ index then .ok (some format)
    else do
      let some split ← prvSplitLinkAttribute checked (data.drop index) (length - index)
        | return none
      let key ← bytesAt data (index + split.keyStart) split.keyLength
      let value ← bytesAt data (index + split.valueStart) split.valueLength
      if key = regAttrTypeKey then
        if value ≠ regAttrTypeValue then return none
        else if 1 < rtValCount + 1 then return none
        else linkAttributesLoop checked data length fuel (index + split.next) (rtValCount + 1) format
      else if key = regAttrContentKey then
        if format ≠ .tlv then return none
        else
          match regAttrContent.lookup value with
          | none => return none
          | some format =>
            linkAttributesLoop checked data length fuel (index + split.next) rtValCount format
      else linkAttributesLoop checked data length fuel (index + split.next) rtValCount format

/-- `prv_parseLinkAttributes`: `*format` and `*altPath`; 0 is `none`. -/
def prvParseLinkAttributes (checked : Bool) (data : List UInt8) (length : Nat) :
    Except ScanFault (Option (LinkFormat × Option (List UInt8))) := do
  let length ← trimSpaces data length
  if length < 2 then return none
  if (← byteAt data 0) ≠ 60 then return none
  let data := data.drop 1
  let length ← sub16 checked length 1
  let index ← scanBack (· != 62) data 0 (← sub16 checked length 1)
  if index = 0 ∨ index + 1 = length then return none
  let pathStart := if (← byteAt data 0) = 47 then 1 else 0
  let pathLength ← sub16 checked index pathStart
  if length ≤ index + 1 then return none
  if (← byteAt data (index + 1)) ≠ 59 then return none
  let some format ← linkAttributesLoop checked data length (length + 1) (index + 2) 0 .tlv
    | return none
  if pathLength = 0 then return some (format, none)
  else return some (format, some (← bytesAt data pathStart pathLength))

/-- `ATTR_VERSION_STR`: `ver=`. -/
def attrVersionStr : List UInt8 := [118, 101, 114, 61]

/-- A version number of at most `UINT8_MAX`. -/
def versionNumber (text : List UInt8) : Option UInt8 :=
  (utilsTextToUInt text).bind fun val => if 255 < val then none else some val.toUInt8

/-- The part of the branch of `prv_getId` for a version that reads the numbers. A quote at the end
is left out here; `limit` is set back behind it. -/
def getIdNumbers (checked : Bool) (data : List UInt8) (limit : Nat) :
    Except ScanFault (Option (UInt8 × UInt8)) := do
  let extra := if (← byteAt data (limit - 1)) = 34 then 1 else 0
  let limit ← sub16 checked limit extra
  if limit < attrVersionStr.length then return none
  let limit2 ← scan (· != 46) data limit (attrVersionStr.length + 1)
  if limit < limit2 + 2 then return none
  let some versionMajor :=
    versionNumber (← bytesAt data attrVersionStr.length (limit2 - attrVersionStr.length))
    | return none
  let some versionMinor := versionNumber (← bytesAt data (limit2 + 1) (limit - limit2 - 1))
    | return none
  return some (versionMajor, versionMinor)

/-- The branch of `prv_getId` for a version: the version, and `data`, `limit` and `length` behind
it. -/
def getIdVersion (checked : Bool) (data : List UInt8) (limit length : Nat) :
    Except ScanFault (Option ((UInt8 × UInt8) × List UInt8 × Nat × Nat)) := do
  if limit < attrVersionStr.length + 2 then return none
  let quote := if (← byteAt data attrVersionStr.length) = 34 then 1 else 0
  let data := data.drop quote
  let limit ← sub16 checked limit quote
  let length ← sub16 checked length quote
  let some version ← getIdNumbers checked data limit | return none
  return some (version, data, limit, length)

/-- The body of `if (limit > 0)`, for one attribute: the version so far, and `data`, `limit` and
`length` behind it. -/
def getIdAttribute (checked : Bool) (version : UInt8 × UInt8) (data : List UInt8)
    (limit length : Nat) :
    Except ScanFault (Option ((UInt8 × UInt8) × List UInt8 × Nat × Nat)) := do
  if limit ≤ attrVersionStr.length then return some (version, data, limit, length)
  if (← bytesAt data 0 attrVersionStr.length) ≠ attrVersionStr then
    return some (version, data, limit, length)
  if version ≠ (0, 0) then return none
  getIdVersion checked data limit length

/-- The loop of `prv_getId` over the attributes: the version. -/
def getIdAttributes (checked : Bool) : Nat → List UInt8 → Nat → UInt8 × UInt8 →
    Except ScanFault (Option (UInt8 × UInt8))
  | 0, _, _, _ => .error .endless
  | fuel + 1, data, length, version =>
    if length = 0 then .ok (some version)
    else do
      let spaces ← scan (· == 32) data length 0
      let length ← sub16 checked length spaces
      if length = 0 then return some version
      let data := data.drop spaces
      let limit ← scan (· != 59) data length 0
      let some (version, data, limit, length) ← getIdAttribute checked version data limit length
        | return none
      let limit := if (← byteAt data limit) = 59 then (limit + 1) % 2 ^ 16 else limit
      getIdAttributes checked fuel (data.drop limit) (← sub16 checked length limit) version

/-- The ids in the path of a link; `prv_getId` returns 2 with an instance and 1 without. -/
structure LinkId where
  objId : UInt16
  instanceId : Option UInt16
  deriving DecidableEq, Repr

/-- `uri_getNumber` and the check of its result. -/
def linkNumber (text : List UInt8) : Option UInt16 := (parseId text).map Prod.fst

/-- The branch of `prv_getId` behind a second `/`: the instance, and `data`, `length` and `limit`
at the close tag. -/
def getIdInstance (checked : Bool) (data : List UInt8) (length limit : Nat) :
    Except ScanFault (Option (Option UInt16 × List UInt8 × Nat × Nat)) := do
  if (← byteAt data limit) ≠ 47 then return some (none, data, length, limit)
  let length ← sub16 checked length (limit + 1)
  let data := data.drop (limit + 1)
  let limit ← scan (· != 62) data length 0
  if length ≤ limit then return none
  if limit = 0 then return some (none, data, length, limit)
  let some instanceId := linkNumber (← bytesAt data 0 limit) | return none
  return some (some instanceId, data, length, limit)

/-- `prv_getId` up to the close tag: the ids, and `data` and `length` behind it. -/
def getIdPath (checked : Bool) (data : List UInt8) (length : Nat) :
    Except ScanFault (Option (LinkId × List UInt8 × Nat)) := do
  let length ← trimSpaces data length
  if length < 1 then return none
  if (← byteAt data 0) ≠ 60 then return none
  let data := data.drop 1
  let length ← sub16 checked length 1
  if length < 1 then return none
  if (← byteAt data 0) ≠ 47 then return none
  let data := data.drop 1
  let length ← sub16 checked length 1
  let limit ← scan (fun byte => byte != 47 && byte != 62) data length 0
  if limit = 0 ∨ length ≤ limit then return none
  let some objId := linkNumber (← bytesAt data 0 limit) | return none
  let some (instanceId, data, length, limit) ← getIdInstance checked data length limit
    | return none
  if (← byteAt data limit) ≠ 62 then return none
  let length ← sub16 checked length (limit + 1)
  return some ({ objId, instanceId }, data.drop (limit + 1), length)

/-- `prv_getId`: the ids and the version; 0 is `none`. -/
def prvGetId (checked : Bool) (data : List UInt8) (length : Nat) :
    Except ScanFault (Option (LinkId × (UInt8 × UInt8))) := do
  let some (id, data, length) ← getIdPath checked data length | return none
  if length ≤ 1 then return some (id, (0, 0))
  if (← byteAt data 0) ≠ 59 then return some (id, (0, 0))
  let length ← sub16 checked length 1
  let data := data.drop 1
  let some version ← getIdAttributes checked (data.length + 1) data length (0, 0) | return none
  return some (id, version)

/-- `lwm2m_client_object_t`. -/
structure ClientObject where
  id : UInt16
  versionMajor : UInt8
  versionMinor : UInt8
  instanceList : List UInt16
  deriving DecidableEq, Repr

/-- What the loop of `prv_decodeRegisterPayload` has found so far. -/
structure DecodeState where
  objList : List ClientObject
  format : LinkFormat
  altPath : Option (List UInt8)
  linkAttrFound : Bool
  deriving DecidableEq, Repr

/-- The object and what it announces are entered. The id of a new instance is cleared by the
`memset` behind it. -/
def ClientObject.announce (link : LinkId) (version : UInt8 × UInt8) (object : ClientObject) :
    ClientObject :=
  match link.instanceId with
  | none => { object with versionMajor := version.1, versionMinor := version.2 }
  | some instanceId =>
    if lwm2mListFind (fun id => id) instanceId object.instanceList = none then
      { object with instanceList := lwm2mListAdd (fun id => id) object.instanceList 0 }
    else object

/-- The branch of the loop for an object link. -/
def DecodeState.addObject (link : LinkId) (version : UInt8 × UInt8) (state : DecodeState) :
    DecodeState :=
  let objList :=
    if (lwm2mListFind ClientObject.id link.objId state.objList).isNone then
      lwm2mListAdd ClientObject.id state.objList
        { id := link.objId, versionMajor := 0, versionMinor := 0, instanceList := [] }
    else state.objList
  { state with
    objList := objList.map fun object =>
      if object.id = link.objId then object.announce link version else object }

/-- The body of the loop, for a link; `goto error` is `none`. -/
def decodeLink (checked : Bool) (data : List UInt8) (length : Nat) (state : DecodeState) :
    Except ScanFault (Option DecodeState) := do
  match ← prvGetId checked data length with
  | some (link, version) => return some (state.addObject link version)
  | none =>
    if state.linkAttrFound then return none
    else
      let some (format, altPath) ← prvParseLinkAttributes checked data length | return none
      return some { state with format, altPath, linkAttrFound := true }

/-- The loop of `prv_decodeRegisterPayload`. With the checks a link is given without the memory
behind it. -/
def decodeLoop (checked : Bool) (buffer : List UInt8) (payloadLength : Nat) :
    Nat → Nat → DecodeState → Except ScanFault (Option DecodeState)
  | 0, _, _ => .error .endless
  | fuel + 1, index, state =>
    if payloadLength < index then .ok (some state)
    else do
      let index ← scan (· == 32) buffer payloadLength index
      if index = payloadLength then return some state
      let start ← to16 checked index
      let index ← scan (· != 44) buffer payloadLength index
      let length ← to16 checked (index - start)
      let memory := buffer.drop start
      let some state ←
        decodeLink checked (if checked then memory.take length else memory) length state
        | return none
      decodeLoop checked buffer payloadLength fuel (index + 1) state

/-- `prv_decodeRegisterPayload`; `goto error` is `none`. -/
def prvDecodeRegisterPayload (checked : Bool) (buffer : List UInt8) (payloadLength : Nat) :
    Except ScanFault (Option DecodeState) :=
  decodeLoop checked buffer payloadLength (payloadLength + 1) 0
    { objList := [], format := .tlv, altPath := none, linkAttrFound := false }

end Wakaama
