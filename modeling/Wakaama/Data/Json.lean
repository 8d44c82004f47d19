import Wakaama.Data.JsonCommon

/-!
# JSON (`data/json.c`)

The records of the format and the tree that is built from them below the base URI.
-/

namespace Wakaama

/-- `_type`. -/
inductive JsonType where
  | unset
  | false
  | true
  | float
  | string
  | objectLink
  deriving DecidableEq, Repr

/-- `_record_t` of `json.c`: the value is the text it was read from. -/
structure JsonRecord where
  ids : Lwm2mUri
  type : JsonType
  value : List UInt8

section Floats

variable (textToFloat : List UInt8 → Option UInt64)

/-- `prv_convertValue` of `json.c`; `none` is the result false. -/
def jsonConvertValue (record : JsonRecord) (target : Lwm2mData) : Option Lwm2mData :=
  match record.type with
  | .false => some (.node .boolean target.id (.asBoolean Bool.false))
  | .true => some (.node .boolean target.id (.asBoolean Bool.true))
  | .float => jsonConvertNumeric textToFloat record.value target.id
  | .string =>
    if record.value = [] then some (.node .string target.id (.asBuffer []))
    else
      (jsonUnescapeString record.value).map fun string => .node .string target.id (.asBuffer string)
  | .objectLink =>
    (utilsTextToObjLink record.value).map fun (objectId, instanceId) =>
      .node .objectLink target.id (.asObjLink objectId instanceId)
  | .unset => none

/-- The ids of a record in order. -/
def JsonRecord.idList (record : JsonRecord) : List UInt16 :=
  [record.ids.objectId, record.ids.instanceId, record.ids.resourceId,
    record.ids.resourceInstanceId]

/-- `rootLevel`: the level of the names, below those of the base URI. -/
def jsonRootLevel : Option Lwm2mUri → UriDepth
  | none => .object
  | some uri =>
    if uri.isSetInstance then
      if uri.isSetResource then .resourceInstance else .resource
    else .objectInstance

/-- `resSegmentIndex + 1`: how many segments of a name lead to its resource. -/
def resourceSegments : UriDepth → Nat
  | .none | .object => 3
  | .objectInstance => 2
  | .resource => 1
  | .resourceInstance => 0

/-- The check of the depth of a record: the ids up to the resource are set, and the one behind the
resource instance is not. -/
def depthChecked (rootLevel : UriDepth) (record : JsonRecord) : Bool :=
  let segments := resourceSegments rootLevel
  (record.idList.take segments).all (fun id => id != lwm2mMaxId) &&
    (3 ≤ segments || record.idList[segments + 1]?.all fun id => id == lwm2mMaxId)

/-- The loop of `prv_convertRecord` over the segments behind the first. -/
def jsonDescend (f : Lwm2mData → Conversion Lwm2mData) :
    UriDepth → List UInt16 → Lwm2mData → Conversion Lwm2mData
  | _, [], target => f target
  | level, id :: rest, parent =>
    withChild parent id (utilsDepthToDatatype level) (jsonDescend f (senmlDecreaseLevel level) rest)

/-- One round of the loop of `prv_convertRecord` of `json.c`. -/
def jsonRound (rootLevel : UriDepth) (root : List Lwm2mData) (record : JsonRecord) :
    Conversion (List Lwm2mData) :=
  if depthChecked rootLevel record = false then throw none
  else
    let segments := resourceSegments rootLevel
    let put (target : Lwm2mData) : Conversion Lwm2mData :=
      match jsonConvertValue textToFloat record target with
      | none => throw none
      | some data => return data
    let putInstance (target : Lwm2mData) : Conversion Lwm2mData :=
      match record.idList[segments]? with
      | none => put target
      | some id => if id ≠ lwm2mMaxId then withNewInstance target id put else put target
    withItem root record.ids.objectId (utilsDepthToDatatype rootLevel) fun target =>
      if record.ids.instanceId ≠ lwm2mMaxId then
        jsonDescend putInstance (senmlDecreaseLevel rootLevel)
          ((record.idList.take segments).drop 1) target
      else put target

/-- The items of the base URI around the root. -/
def jsonAround (base : Option Lwm2mUri) (root : List Lwm2mData) : List Lwm2mData :=
  match base with
  | none => root
  | some uri =>
    if uri.isSetInstance then
      if uri.isSetResource then
        [.node .object uri.objectId (.asChildren
          [.node .objectInstance uri.instanceId (.asChildren
            [.node .multipleResource uri.resourceId (.asChildren root)])])]
      else
        [.node .object uri.objectId (.asChildren
          [.node .objectInstance uri.instanceId (.asChildren root)])]
    else [.node .object uri.objectId (.asChildren root)]

/-- The loop of `prv_convertRecord` of `json.c`: the filled items of the root. -/
def jsonRoot (base : Option Lwm2mUri) (records : List JsonRecord) : Conversion (List Lwm2mData) :=
  records.foldlM (jsonRound textToFloat (jsonRootLevel base)) []

/-- `prv_convertRecord` of `json.c` for at least one record. -/
def jsonConvertRecord (base : Option Lwm2mUri) (records : List JsonRecord) :
    Conversion (List Lwm2mData) := do
  let root ← jsonRoot textToFloat base records
  return jsonAround base root

end Floats

end Wakaama
