import Wakaama.Data.Cbor
import Wakaama.Data.SenmlCommon

/-!
# SenML-CBOR (`data/senml_cbor.c`)

The serializer and the parser. `Put` is a writer that returns what it has written, gives up (its
result is -1) or leaves its buffer.
-/

namespace Wakaama

abbrev Put (α : Type) : Type := OptionT (Except Fault) α

/-- `PRV_CBOR_BUFFER_SIZE`. -/
def prvCborBufferSize : Nat := 1024

/-- The labels of a SenML record. -/
def senmlCborBaseSumLabel : UInt64 := -6
def senmlCborBaseValueLabel : UInt64 := -5
def senmlCborBaseTimeLabel : UInt64 := -3
def senmlCborBaseNameLabel : UInt64 := -2
def senmlCborBaseVersionLabel : UInt64 := -1
def senmlCborNameLabel : UInt64 := 0
def senmlCborNumericValueLabel : UInt64 := 2
def senmlCborStringValueLabel : UInt64 := 3
def senmlCborBooleanValueLabel : UInt64 := 4
def senmlCborTimeLabel : UInt64 := 6
def senmlCborDataValueLabel : UInt64 := 8

/-- What text labels become. -/
def senmlCborUnknown : UInt64 := 9
def senmlCborObjectLink : UInt64 := 10

/-- `"vlo"`, the label of an object link. -/
def senmlCborObjectLinkLabel : List UInt8 := [118, 108, 111]

/-- `cbor_put_type_and_value` where the caller gives up on `res <= 0`. -/
def putTypeAndValue (bufferLen : Nat) (type : CborType) (val : UInt64) : Put (List UInt8) := do
  let bytes ← cborPutTypeAndValue bufferLen type val
  if bytes = [] then failure else return bytes

/-- `cbor_put_singular` where the caller gives up on `res <= 0`; `res` bytes count. -/
def putSingular (bufferLen : Nat) (data : Lwm2mData) : Put (List UInt8) := do
  let (res, bytes) ← cborPutSingular bufferLen data
  if res ≤ 0 then failure else return bytes.take res.toNat

/-- The local `lwm2m_data_t` that the serializer puts a text into. -/
def textData (text : List UInt8) : Lwm2mData := .node .string 0 (.asBuffer text)

/-- `prv_serializeBaseName`. -/
def prvSerializeBaseName (baseUri : List UInt8) (bufferLen : Nat) : Put (List UInt8) := do
  let label ← putTypeAndValue bufferLen .negativeInteger senmlCborBaseNameLabel
  let value ← putSingular (bufferLen - label.length) (textData baseUri)
  return label ++ value

/-- The name of a record: the parent's text and the id, in `URI_MAX_STRING_LEN` bytes. -/
def nameText (parentUri : List UInt8) (id : UInt16) : Option (List UInt8) :=
  if uriMaxStringLen < parentUri.length then none
  else
    match utilsIntToText id.toUInt64.toInt64 (uriMaxStringLen - parentUri.length) with
    | [] => none
    | text => some (parentUri ++ text)

/-- `prv_serializeName`. -/
def prvSerializeName (parentUri : List UInt8) (id : UInt16) (bufferLen : Nat) :
    Put (List UInt8) :=
  match nameText parentUri id with
  | none => failure
  | some uri => do
    let label ← putTypeAndValue bufferLen .unsignedInteger senmlCborNameLabel
    let value ← putSingular (bufferLen - label.length) (textData uri)
    return label ++ value

/-- The label of a value; `none` where `prv_serializeValue` gives up. -/
def valueLabel : DataType → Option (UInt64 ⊕ List UInt8)
  | .string | .coreLink => some (.inl senmlCborStringValueLabel)
  | .opaqueBytes => some (.inl senmlCborDataValueLabel)
  | .integer | .unsignedInteger | .float => some (.inl senmlCborNumericValueLabel)
  | .boolean => some (.inl senmlCborBooleanValueLabel)
  | .objectLink => some (.inr senmlCborObjectLinkLabel)
  | _ => none

/-- `prv_serializeValue`. -/
def prvSerializeValueRecord (tlv : Lwm2mData) (bufferLen : Nat) : Put (List UInt8) :=
  match valueLabel tlv.type with
  | none => failure
  | some label => do
    let label ← match label with
      | .inl label => putTypeAndValue bufferLen .unsignedInteger label
      | .inr text => putSingular bufferLen (textData text)
    let value ← putSingular (bufferLen - label.length) tlv
    return label ++ value

/-- The types of the `no value` branches of `prv_serializeTlv`. -/
def DataType.noValue : DataType → Bool
  | .undefined | .object | .objectInstance | .multipleResource => true
  | _ => false

/-- The URI that all records are relative to, its level, and the level of the data. -/
structure SenmlBase where
  baseUri : List UInt8
  baseLevel : UriDepth
  level : UriDepth

namespace SenmlBase

/-- `!baseUriLen || level > baseLevel`: a record has a name. -/
def named (base : SenmlBase) : Bool :=
  base.baseUri.isEmpty || base.baseLevel.toNat < base.level.toNat

/-- The base name is still to be written. -/
def owesName (base : SenmlBase) (baseNameOutput : Bool) : Bool :=
  !baseNameOutput && !base.baseUri.isEmpty

end SenmlBase

/-- The number of labels of a record. -/
def labelCount (base : SenmlBase) (baseNameOutput : Bool) (tlv : Lwm2mData) : Nat :=
  (base.owesName baseNameOutput).toNat + base.named.toNat + (!tlv.type.noValue).toNat

/-- A part of a record that is not always there. -/
def putIf (present : Bool) (part : Put (List UInt8)) : Put (List UInt8) :=
  if present then part else pure []

/-- `prv_serializeTlv`: the bytes and `*baseNameOutput`. -/
def prvSerializeTlv (base : SenmlBase) (parentUri : List UInt8) (tlv : Lwm2mData)
    (baseNameOutput : Bool) (bufferLen : Nat) : Put (List UInt8 × Bool) := do
  let head ← putTypeAndValue bufferLen .map (labelCount base baseNameOutput tlv).toUInt64
  let baseName ← putIf (base.owesName baseNameOutput)
    (prvSerializeBaseName base.baseUri (bufferLen - head.length))
  let head := head ++ baseName
  let name ← putIf base.named (prvSerializeName parentUri tlv.id (bufferLen - head.length))
  let head := head ++ name
  let value ← putIf (!tlv.type.noValue) (prvSerializeValueRecord tlv (bufferLen - head.length))
  return (head ++ value, baseNameOutput || base.owesName baseNameOutput)

/-- The URI that `prv_serializeData` makes for the children. -/
def childrenUri (parentUri : List UInt8) (id : UInt16) : Option (List UInt8) :=
  match nameText parentUri id with
  | none => none
  | some uri => if uriMaxStringLen ≤ uri.length then none else some (uri ++ [47])

mutual

/-- `prv_serializeData`: the bytes, `*baseNameOutput` and `*numRecords`. -/
def prvSerializeData (base : SenmlBase) (parentUri : List UInt8) (baseNameOutput : Bool)
    (numRecords bufferLen : Nat) : Lwm2mData → Put (List UInt8 × Bool × Nat)
  | .node type id value =>
    if type.hasChildren then
      prvSerializeChildren base parentUri (.node type id value) baseNameOutput numRecords
        bufferLen value
    else do
      let (bytes, baseNameOutput) ←
        prvSerializeTlv base parentUri (.node type id value) baseNameOutput bufferLen
      return (bytes, baseNameOutput, numRecords + 1)

def prvSerializeChildren (base : SenmlBase) (parentUri : List UInt8) (tlv : Lwm2mData)
    (baseNameOutput : Bool) (numRecords bufferLen : Nat) :
    DataValue Lwm2mData → Put (List UInt8 × Bool × Nat)
  | .asChildren array =>
    if array.isEmpty then do
      let (bytes, baseNameOutput) ←
        prvSerializeTlv base parentUri tlv baseNameOutput bufferLen
      return (bytes, baseNameOutput, numRecords + 1)
    else
      match childrenUri parentUri tlv.id with
      | none => failure
      | some uri => prvSerializeList base uri baseNameOutput numRecords bufferLen array
  | _ => do
    let (bytes, baseNameOutput) ←
      prvSerializeTlv base parentUri tlv baseNameOutput bufferLen
    return (bytes, baseNameOutput, numRecords + 1)

/-- The loop over the children. -/
def prvSerializeList (base : SenmlBase) (uri : List UInt8) (baseNameOutput : Bool)
    (numRecords bufferLen : Nat) : List Lwm2mData → Put (List UInt8 × Bool × Nat)
  | [] => return ([], baseNameOutput, numRecords)
  | data :: rest => do
    let (bytes, baseNameOutput, numRecords) ←
      prvSerializeData base uri baseNameOutput numRecords bufferLen data
    let (tail, baseNameOutput, numRecords) ←
      prvSerializeList base uri baseNameOutput numRecords (bufferLen - bytes.length) rest
    return (bytes ++ tail, baseNameOutput, numRecords)

end

/-- The loop of `senml_cbor_serialize`, behind the bytes `head` of its buffer. -/
def serializeTargets (base : SenmlBase) (parentUri head : List UInt8) (baseNameOutput : Bool)
    (numRecords : Nat) : List Lwm2mData → Put (List UInt8 × Bool × Nat)
  | [] => return (head, baseNameOutput, numRecords)
  | data :: rest =>
    if head.length < prvCborBufferSize then do
      let (bytes, baseNameOutput, numRecords) ← prvSerializeData base parentUri baseNameOutput
        numRecords (prvCborBufferSize - head.length) data
      serializeTargets base parentUri (head ++ bytes) baseNameOutput numRecords rest
    else return (head, baseNameOutput, numRecords)

/-- The base URI without its trailing `/`. -/
def SenmlBase.trimmedUri (base : SenmlBase) : List UInt8 :=
  if 1 < base.baseUri.length then base.baseUri.dropLast else base.baseUri

/-- The base name on its own, for a message without records. -/
def serializeBaseRecord (base : SenmlBase) (head : List UInt8) (baseNameOutput : Bool)
    (numRecords : Nat) : Put (List UInt8 × Nat) :=
  if base.owesName baseNameOutput then do
    let map ← cborPutTypeAndValue (prvCborBufferSize - head.length) .map 1
    let head := head ++ map
    let baseName ← prvSerializeBaseName base.trimmedUri (prvCborBufferSize - head.length)
    return (head ++ baseName, numRecords + 1)
  else return (head, numRecords)

/-- The end of `senml_cbor_serialize`: the array head and the records, in `head + 3` bytes. -/
def serializeArray (head : List UInt8) (numRecords : Nat) : Put (List UInt8) := do
  let array ← putTypeAndValue 3 .array numRecords.toUInt64
  let records ← storeAt (head.length + 3) array.length head
  return array ++ records

/-- The text of the base URI with the `/` that `senml_cbor_serialize` puts behind it where
`slash` holds; `none` where there is no room. -/
def appendSlash (slash : Bool) (baseUri : List UInt8) : Option (List UInt8) :=
  if slash then
    if uriMaxStringLen - 1 ≤ baseUri.length then none else some (baseUri ++ [47])
  else some baseUri

/-- The first `/`: behind a URI above the resources. -/
def slashAbove (baseUri : List UInt8) (baseLevel : UriDepth) : Bool :=
  1 < baseUri.length && baseLevel ≠ .resource && baseLevel ≠ .resourceInstance

/-- The second `/`: the data are below the URI. -/
def slashBelow (baseUri : List UInt8) (baseLevel rootLevel : UriDepth) : Bool :=
  baseLevel.toNat < rootLevel.toNat && 1 < baseUri.length && baseUri.getLast? ≠ some 47

/-- `senml_cbor_serialize` up to its loop: the URI that the records are relative to and the data
to serialize, or the result of an early return. -/
def senmlDocument (uri : Option Lwm2mUri) (tlv : List Lwm2mData) :
    Except Int (SenmlBase × List Lwm2mData) :=
  match lwm2mUriToString uri uriMaxStringLen with
  | none => .error (-1)
  | some (baseUri, baseLevel) =>
    match appendSlash (slashAbove baseUri baseLevel) baseUri with
    | none => .error 0
    | some baseUri =>
      match senmlFindAndCheckData (uri.getD ⟨lwm2mMaxId, lwm2mMaxId, lwm2mMaxId, lwm2mMaxId⟩)
          baseLevel tlv with
      | none => .error (-1)
      | some (target, rootLevel) =>
        -- the number of the data is an int, and a negative one is an error
        if intOfSize target.length < 0 then .error (-1)
        else
          match appendSlash (slashBelow baseUri baseLevel rootLevel) baseUri with
          | none => .error 0
          | some baseUri =>
            .ok (⟨baseUri, baseLevel, rootLevel⟩, target.take (intOfSize target.length).toNat)

/-- `parentUriStr` at the start: `/` unless the base URI ends with it. -/
def SenmlBase.parentUri (base : SenmlBase) : List UInt8 :=
  if base.baseUri.getLast? = some 47 then [] else [47]

/-- `senml_cbor_serialize` from the loop on. -/
def serializeDocument (base : SenmlBase) (target : List Lwm2mData) : Put (List UInt8) := do
  let (head, baseNameOutput, numRecords) ←
    serializeTargets base base.parentUri [] false 0 target
  let (head, numRecords) ← serializeBaseRecord base head baseNameOutput numRecords
  serializeArray head numRecords

/-- `senml_cbor_serialize` for an array of data: its result and the message. -/
def senmlCborSerialize (uri : Option Lwm2mUri) (tlv : List Lwm2mData) :
    Except Fault (Int × List UInt8) :=
  match senmlDocument uri tlv with
  | .error result => .ok (result, [])
  | .ok (base, target) => do
    match ← (serializeDocument base target).run with
    | none => return (-1, [])
    | some message => return (message.length, message)

/-- `prv_convertValue`; `none` is the result false. -/
def prvConvertValue (record : SenmlRecord) (target : Lwm2mData) : Option Lwm2mData :=
  match record.value.type with
  | .string => some (.node .string target.id (.asBuffer record.value.asBuffer))
  | .opaqueBytes => some (.node .opaqueBytes target.id (.asBuffer record.value.asBuffer))
  | .undefined => some (.node target.type target.id record.value.value)
  | .object | .objectInstance | .multipleResource | .coreLink => none
  | type => some (.node type target.id record.value.value)

/-- `prv_get_cbor_type_and_value`, which skips a tag. -/
def prvGetCborTypeAndValue (buffer : List UInt8) : Get (CborType × UInt64 × Nat) := do
  let (type, val, res) ← cborGetTypeAndValue buffer
  if type = .semanticTag then
    let (type, val, res') ← cborGetTypeAndValue (← behind buffer res)
    return (type, val, res + res')
  else return (type, val, res)

/-- What one record leaves for the next ones: `baseUri` up to its NUL, `baseTime` and
`baseValue`. -/
structure BaseValues where
  baseUri : List UInt8
  baseTime : Int64
  baseValue : Lwm2mData

/-- The state of the loop of `prv_parseItem`. A `name` that is NULL is empty. -/
structure ItemState where
  base : BaseValues
  value : Lwm2mData
  time : Int64
  name : List UInt8
  timeSeen : Bool
  bnSeen : Bool
  btSeen : Bool
  bvSeen : Bool
  bverSeen : Bool

/-- The last character of a text; there is none in NULL. -/
def lastCharacter (text : List UInt8) : Except Fault UInt8 :=
  if text = [] then .error .nullDeref else readAt text (text.length - 1)

/-- The label of a field. -/
def itemLabel (data : Lwm2mData) : Get UInt64 :=
  if data.type = .string then
    if data.asBuffer = senmlCborObjectLinkLabel then return senmlCborObjectLink
    else do
      let last ← lastCharacter data.asBuffer
      if last = 95 then failure else return senmlCborUnknown
  else
    match lwm2mDataDecodeInt data with
    | some ival =>
      if senmlCborBaseSumLabel.toInt64 ≤ ival ∧ ival ≤ senmlCborDataValueLabel.toInt64 then
        return ival.toUInt64
      else failure
    | none => return senmlCborUnknown

/-- Both zeros of a double. -/
def isZeroDouble (bits : UInt64) : Bool := bits &&& ~~~doubleSignBit == 0

/-- A base value: a number, of which an explicit 0 counts as none. -/
def newBaseValue (data : Lwm2mData) : Option Lwm2mData :=
  let unlessZero (isZero : Bool) : Lwm2mData :=
    if isZero then .node .undefined data.id data.value else data
  match data.type with
  | .integer => some (unlessZero (data.asInteger == 0))
  | .unsignedInteger => some (unlessZero (data.asUnsigned == 0))
  | .float => some (unlessZero (isZeroDouble data.asFloat))
  | _ => none

/-- A base name: the text up to a NUL. -/
def newBaseUri (data : Lwm2mData) : Option (List UInt8) :=
  if data.type ≠ .string then none
  else if data.asBuffer.length = 1 ∧ data.asBuffer ≠ [47] then none
  else if uriMaxStringLen < data.asBuffer.length then none
  else some (data.asBuffer.takeWhile fun character => character != 0)

/-- The value of a record under a label, if the data are of its kind. -/
def newValue (label : UInt64) (data : Lwm2mData) : Option (DataType × DataValue Lwm2mData) :=
  if label = senmlCborNumericValueLabel then
    match data.type with
    | .integer | .unsignedInteger | .float => some (data.type, data.value)
    | _ => none
  else if label = senmlCborStringValueLabel then
    if data.type = .string then some (.string, .asBuffer data.asBuffer) else none
  else if label = senmlCborBooleanValueLabel then
    (lwm2mDataDecodeBool data).map fun bval => (.boolean, .asBoolean bval)
  else if label = senmlCborDataValueLabel then
    if data.type = .opaqueBytes then some (.opaqueBytes, .asBuffer data.asBuffer) else none
  else if data.type = .string then
    (utilsTextToObjLink data.asBuffer).map fun link => (.objectLink, .asObjLink link.1 link.2)
  else none

/-- The labels of the values of a record. -/
def isValueLabel (label : UInt64) : Bool :=
  label == senmlCborNumericValueLabel || label == senmlCborStringValueLabel ||
    label == senmlCborBooleanValueLabel || label == senmlCborDataValueLabel ||
    label == senmlCborObjectLink

/-- The switch of `prv_parseItem`. -/
def parseField (state : ItemState) (label : UInt64) (data : Lwm2mData) : Option ItemState :=
  if label = senmlCborBaseValueLabel then
    if state.bvSeen then none
    else
      (newBaseValue data).map fun baseValue =>
        { state with base := { state.base with baseValue }, bvSeen := true }
  else if label = senmlCborBaseTimeLabel then
    if state.btSeen then none
    else
      (lwm2mDataDecodeInt data).map fun baseTime =>
        { state with base := { state.base with baseTime }, btSeen := true }
  else if label = senmlCborBaseNameLabel then
    if state.bnSeen then none
    else
      (newBaseUri data).map fun baseUri =>
        { state with base := { state.base with baseUri }, bnSeen := true }
  else if label = senmlCborBaseVersionLabel then
    if state.bverSeen then none
    else if lwm2mDataDecodeInt data = some 10 then some { state with bverSeen := true }
    else none
  else if label = senmlCborNameLabel then
    if state.name ≠ [] then none
    else if data.type ≠ .string then none
    else some { state with name := data.asBuffer }
  else if isValueLabel label then
    if state.value.type ≠ .undefined then none
    else
      (newValue label data).map fun (type, value) =>
        { state with value := .node type state.value.id value }
  else if label = senmlCborTimeLabel then
    if state.timeSeen then none
    else (lwm2mDataDecodeInt data).map fun time => { state with time, timeSeen := true }
  else some state

/-- `offset += res` of two `int`s. -/
def addInt (offset res : Int) : Int := (offset + res).bmod (2 ^ 32)

/-- The loop of `prv_parseItem`. -/
def parseFields (buffer : List UInt8) : Nat → Int → ItemState → Get (ItemState × Int)
  | 0, offset, state => return (state, offset)
  | count + 1, offset, state => do
    let (data, res) ← cborGetSingular (← behind buffer offset)
    if res ≤ 0 then failure
    else
      let offset := addInt offset res
      let label ← itemLabel data
      let (data, res) ← cborGetSingular (← behind buffer offset)
      if res ≤ 0 then failure
      else
        match parseField state label data with
        | none => failure
        | some state => parseFields buffer count (addInt offset res) state

/-- The ids of a record: those of the base name and the name together. -/
def recordIds (baseUri name : List UInt8) : Option Lwm2mUri :=
  if baseUri = [] ∧ name = [] then some .reset
  else if uriMaxStringLen < baseUri.length + name.length then none
  else lwm2mStringToUri (baseUri ++ name)

/-- The sum of a value and the base value. -/
def addBaseValue (baseValue value : Lwm2mData) : Option Lwm2mData :=
  let double (bits : UInt64) : Float := Float.ofBits bits
  if baseValue.type = .undefined then some value
  else if value.type = .undefined then some baseValue
  else
    match value.type, baseValue.type with
    | .integer, .integer =>
      some (.node .integer value.id (.asInteger (value.asInteger + baseValue.asInteger)))
    | .integer, .unsignedInteger =>
      some (.node .integer value.id
        (.asInteger (value.asInteger.toUInt64 + baseValue.asUnsigned).toInt64))
    | .integer, .float =>
      some (.node .integer value.id
        (.asInteger (value.asInteger.toFloat + double baseValue.asFloat).toInt64))
    | .unsignedInteger, .integer =>
      some (.node .unsignedInteger value.id
        (.asUnsigned (value.asUnsigned + baseValue.asInteger.toUInt64)))
    | .unsignedInteger, .unsignedInteger =>
      some (.node .unsignedInteger value.id (.asUnsigned (value.asUnsigned + baseValue.asUnsigned)))
    | .unsignedInteger, .float =>
      some (.node .unsignedInteger value.id
        (.asUnsigned (value.asUnsigned.toFloat + double baseValue.asFloat).toUInt64))
    | .float, .integer =>
      some (.node .float value.id
        (.asFloat (double value.asFloat + baseValue.asInteger.toFloat).toBits))
    | .float, .unsignedInteger =>
      some (.node .float value.id
        (.asFloat (double value.asFloat + baseValue.asUnsigned.toFloat).toBits))
    | .float, .float =>
      some (.node .float value.id
        (.asFloat (double value.asFloat + double baseValue.asFloat).toBits))
    | _, _ => none

/-- The end of `prv_parseItem`. -/
def finishItem (state : ItemState) : Option SenmlRecord := do
  let ids ← recordIds state.base.baseUri state.name
  let value ← addBaseValue state.base.baseValue state.value
  return { ids, value, time := state.time + state.base.baseTime }

/-- The state in which `prv_parseItem` starts. -/
def startItem (base : BaseValues) : ItemState where
  base
  value := .node .undefined lwm2mMaxId .zero
  time := 0
  name := []
  timeSeen := false
  bnSeen := false
  btSeen := false
  bvSeen := false
  bverSeen := false

/-- The record of the fields, what it leaves for the next ones, and the offset behind them. -/
def itemResult (fields : ItemState × Int) : Get (SenmlRecord × BaseValues × Int) :=
  match finishItem fields.1 with
  | none => failure
  | some record => return (record, fields.1.base, fields.2)

/-- `prv_parseItem`: the record, what it leaves for the next ones, and the result. -/
def prvParseItem (buffer : List UInt8) (base : BaseValues) :
    Get (SenmlRecord × BaseValues × Int) := do
  let (type, val, res) ← prvGetCborTypeAndValue buffer
  if type ≠ .map then failure
  else
    let count := intOfSize val.toNat
    if count % 2 ^ 64 ≠ val.toNat ∨ count ≤ 0 ∨ intOfSize (buffer.length / 2) < count then failure
    else
      itemResult (← parseFields buffer count.toNat res (startItem base))

/-- The loop of `senml_cbor_parse`: the records and the offset behind them. -/
def parseItems (buffer : List UInt8) : Nat → Nat → BaseValues → Get (List SenmlRecord × Nat)
  | 0, offset, _ => return ([], offset)
  | count + 1, offset, base => do
    let (record, base, res) ← prvParseItem (← behind buffer offset) base
    if res ≤ 0 then failure
    else
      let (records, offset) ← parseItems buffer count (offset + res.toNat) base
      return (record :: records, offset)

/-- `senml_cbor_parse` up to `senml_convert_records`. -/
def senmlCborRecords (buffer : List UInt8) : Get (List SenmlRecord) := do
  let (type, val, res) ← prvGetCborTypeAndValue buffer
  if type ≠ .array then failure
  else
    let count := intOfSize val.toNat
    if count % 2 ^ 64 ≠ val.toNat ∨ count ≤ 0 ∨ (buffer.length / 3 : Nat) < count then failure
    else
      let (records, offset) ←
        parseItems buffer count.toNat res ⟨[], 0, .node .undefined 0 .zero⟩
      if offset ≠ buffer.length then failure else return records

/-- `senml_cbor_parse`: the result and the data. -/
def senmlCborParse (uri : Option Lwm2mUri) (buffer : List UInt8) :
    Except Fault (Int × List Lwm2mData) := do
  match ← (senmlCborRecords buffer).run with
  | none => return (-1, [])
  | some records =>
    match senmlConvertRecords prvConvertValue uri records with
    | .ok data => return (data.length, data)
    | .error none => return (-1, [])
    | .error (some fault) => throw fault

end Wakaama
