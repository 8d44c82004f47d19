import Wakaama.Data.SenmlCbor
import Wakaama.Data.SenmlJson

/-!
# The records of SenML-JSON (`data/senml_json.c`)

`prv_parseItem` and the record loop of `senml_json_parse`. What a record leaves for the next ones
and the sum with a base value are those of SenML-CBOR.
-/

namespace Wakaama

/-- The names of the fields: `bn`, `bt`, `bv`, `bver`, `n`, `t`, `v`, `vb`, `vd`, `vs` and `vlo`. -/
def senmlBaseName : List UInt8 := [98, 110]
def senmlBaseTime : List UInt8 := [98, 116]
def senmlBaseValue : List UInt8 := [98, 118]
def senmlBaseVersion : List UInt8 := [98, 118, 101, 114]
def senmlName : List UInt8 := [110]
def senmlTime : List UInt8 := [116]
def senmlNumber : List UInt8 := [118]
def senmlBoolean : List UInt8 := [118, 98]
def senmlData : List UInt8 := [118, 100]
def senmlString : List UInt8 := [118, 115]
def senmlObjectLink : List UInt8 := [118, 108, 111]

/-- `JSON_TRUE_STRING` and `JSON_FALSE_STRING`. -/
def jsonTrueString : List UInt8 := [116, 114, 117, 101]
def jsonFalseString : List UInt8 := [102, 97, 108, 115, 101]

/-- `lwm2m_strncmp(text, value, valueLen) == 0`: the value is the start of the text, or goes on
behind its NUL. -/
def strncmpEqual (text value : List UInt8) : Bool :=
  value.isPrefixOf text || (text ++ [0]).isPrefixOf value

/-- The text between the quotes of a value. -/
def quotedText (value : List UInt8) : Option (List UInt8) :=
  if value.length < 2 ∨ value.head? ≠ some jsonQuote ∨ value.getLast? ≠ some jsonQuote then none
  else some (value.drop 1).dropLast

/-- A base name: the text up to a NUL. -/
def jsonBaseUri (value : List UInt8) : Option (List UInt8) :=
  match quotedText value with
  | none => none
  | some text =>
    if text.length = 1 ∧ text ≠ [47] then none
    else if uriMaxStringLen < value.length then none
    else some (text.takeWhile fun character => character != 0)

section Floats

variable (textToFloat : List UInt8 → Option UInt64)

/-- The value of a record under a name, if the text is of its kind. -/
def jsonNewValue (token value : List UInt8) : Option (DataType × DataValue Lwm2mData) :=
  if token = senmlNumber then
    (jsonConvertNumeric textToFloat value 0).map fun data => (data.type, data.value)
  else if token = senmlBoolean then
    if strncmpEqual jsonTrueString value then some (.boolean, .asBoolean true)
    else if strncmpEqual jsonFalseString value then some (.boolean, .asBoolean false)
    else none
  else if token = senmlData then
    (quotedText value).map fun text => (.opaqueBytes, .asBuffer text)
  else if token = senmlString then (quotedText value).map fun text => (.string, .asBuffer text)
  else
    ((quotedText value).bind utilsTextToObjLink).map fun link =>
      (.objectLink, .asObjLink link.1 link.2)

/-- A base value, whose id is the 0 of its `memset`. -/
def jsonBaseValue (value : List UInt8) : Option Lwm2mData :=
  if value = [] then some (.node .undefined 0 .zero)
  else (jsonConvertNumeric textToFloat value 0).bind newBaseValue

/-- The names of the values of a record. -/
def isValueToken (token : List UInt8) : Bool :=
  token == senmlNumber || token == senmlBoolean || token == senmlData || token == senmlString ||
    token == senmlObjectLink

/-- The state of the loop of `prv_parseItem`; a `name` may be NULL or empty. -/
structure JsonItemState where
  base : BaseValues
  value : Lwm2mData
  time : Int64
  name : Option (List UInt8)
  timeSeen : Bool
  bnSeen : Bool
  btSeen : Bool
  bvSeen : Bool
  bverSeen : Bool

/-- The switch of `prv_parseItem`. -/
def jsonParseField (state : JsonItemState) (token value : List UInt8) : Option JsonItemState :=
  if token = senmlBaseName then
    if state.bnSeen then none
    else
      (jsonBaseUri value).map fun baseUri =>
        { state with base := { state.base with baseUri }, bnSeen := true }
  else if token = senmlBaseTime then
    if state.btSeen then none
    else
      (jsonConvertTime value).map fun baseTime =>
        { state with base := { state.base with baseTime }, btSeen := true }
  else if token = senmlBaseValue then
    if state.bvSeen then none
    else
      (jsonBaseValue textToFloat value).map fun baseValue =>
        { state with base := { state.base with baseValue }, bvSeen := true }
  else if token = senmlBaseVersion then
    if state.bverSeen then none
    else if utilsTextToInt value = some 10 then some { state with bverSeen := true }
    else none
  else if token = senmlName then
    if state.name.isSome then none
    else (quotedText value).map fun name => { state with name := some name }
  else if token = senmlTime then
    if state.timeSeen then none
    else (jsonConvertTime value).map fun time => { state with time, timeSeen := true }
  else if isValueToken token then
    if state.value.type ≠ .undefined then none
    else
      (jsonNewValue textToFloat token value).map fun (type, value) =>
        { state with value := .node type state.value.id value }
  else if token.getLast? = some 95 then none
  else some state

/-- The loop of `prv_parseItem`. -/
def jsonParseFields (state : JsonItemState) (buffer : List UInt8) : Option JsonItemState :=
  match _hsplit : jsonSplit buffer with
  | none => none
  | some (token, value, rest) =>
    if token = [] then none
    else
      match jsonParseField textToFloat state token value with
      | none => none
      | some state => if rest = [] then some state else jsonParseFields state rest
termination_by buffer.length
decreasing_by exact jsonSplit_rest _hsplit

/-- The ids of a record: those of the base name and the name together. -/
def jsonRecordIds (baseUri : List UInt8) (name : Option (List UInt8)) : Option Lwm2mUri :=
  if baseUri = [] ∧ name = none then some .reset
  else if uriMaxStringLen < baseUri.length + (name.getD []).length then none
  else lwm2mStringToUri (baseUri ++ name.getD [])

/-- The end of `prv_parseItem`. -/
def jsonFinishItem (state : JsonItemState) : Option SenmlRecord := do
  let ids ← jsonRecordIds state.base.baseUri state.name
  let value ← addBaseValue state.base.baseValue state.value
  return { ids, value, time := state.time + state.base.baseTime }

/-- The state in which `prv_parseItem` starts. -/
def jsonStartItem (base : BaseValues) : JsonItemState where
  base
  value := .node .undefined 0 .zero
  time := 0
  name := none
  timeSeen := false
  bnSeen := false
  btSeen := false
  bvSeen := false
  bverSeen := false

/-- `prv_parseItem`: the record and what it leaves for the next ones; `none` is the result -1. -/
def jsonParseItem (buffer : List UInt8) (base : BaseValues) : Option (SenmlRecord × BaseValues) :=
  match jsonParseFields textToFloat (jsonStartItem base) buffer with
  | none => none
  | some state => (jsonFinishItem state).map fun record => (record, state.base)

/-- What stands between the braces of an item, and what is behind it. -/
def jsonItem (buffer : List UInt8) : Option (List UInt8 × List UInt8) :=
  (jsonItemLength buffer).map fun itemLen =>
    ((buffer.drop 1).take (itemLen - 2), jsonSkipSpace (buffer.drop itemLen))

/-- The way of the loop of `senml_json_parse` to the next item; `more` says whether there is one. -/
def jsonNextItem (more : Bool) (buffer : List UInt8) : Option (List UInt8) :=
  match buffer with
  | [] => none
  | sign :: rest =>
    if sign = jsonComma then
      if jsonSkipSpace rest = [] then none else some (jsonSkipSpace rest)
    else if sign = jsonFooter then if more then none else some (sign :: rest)
    else none

/-- The loop of `senml_json_parse`. -/
def jsonParseItems : Nat → List UInt8 → BaseValues → Option (List SenmlRecord)
  | 0, buffer, _ => if buffer.head? = some jsonFooter then some [] else none
  | count + 1, buffer, base => do
    let (item, rest) ← jsonItem buffer
    let (record, base) ← jsonParseItem textToFloat item base
    let rest ← jsonNextItem (count != 0) rest
    let records ← jsonParseItems count rest base
    return record :: records

/-- `senml_json_parse` up to `prv_convertRecord`. -/
def senmlJsonRecords (buffer : List UInt8) : Option (List SenmlRecord) :=
  match jsonSkipSpace buffer with
  | [] => none
  | sign :: rest =>
    if sign ≠ 91 then none
    else if jsonSkipSpace rest = [] then none
    else
      match jsonCountItems (jsonSkipSpace rest) with
      | none => none
      | some count => jsonParseItems textToFloat count (jsonSkipSpace rest)
          ⟨[], 0, .node .undefined 0 .zero⟩

end Floats

end Wakaama
