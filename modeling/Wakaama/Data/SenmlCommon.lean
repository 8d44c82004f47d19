import Wakaama.Core.Uri
import Wakaama.Data.Data
import Wakaama.Misc.UpdateAt

/-!
# What the SenML formats share (`data/senml_common.c`)
-/

namespace Wakaama

/-- `senml_decreaseLevel`. -/
def senmlDecreaseLevel : UriDepth → UriDepth
  | .none => .object
  | .object => .objectInstance
  | .objectInstance => .resource
  | .resource => .resourceInstance
  | .resourceInstance => .resourceInstance

/-- The check at the start of `prv_findAndCheckData`: objects and object instances come alone. -/
def sameKind : List Lwm2mData → Bool
  | [] => true
  | first :: rest =>
    if first.type = .object ∨ first.type = .objectInstance then
      rest.all fun data => data.type = first.type
    else rest.all fun data => data.type ≠ .object ∧ data.type ≠ .objectInstance

/-- What `prv_findAndCheckData` does with an array: it gives up, it is what is looked for, or the
search goes on below the element with an id. -/
inductive SearchStep where
  | notFound
  | found
  | below (id : UInt16) (level : UriDepth)

/-- The switches of `prv_findAndCheckData`. -/
def searchStep (uri : Lwm2mUri) (desiredLevel : UriDepth) (tlv : List Lwm2mData) : SearchStep :=
  match tlv with
  | [] => .found
  | first :: _ =>
    if sameKind tlv = false then .notFound
    else
      match desiredLevel, first.type with
      | .object, .object => .found
      | .object, _ => .notFound
      | .objectInstance, .object => .below uri.objectId .objectInstance
      | .objectInstance, .objectInstance => .found
      | .objectInstance, _ => .notFound
      | .resource, .object => .below uri.objectId .objectInstance
      | .resource, .objectInstance => .below uri.instanceId .resource
      | .resource, _ => .found
      | .resourceInstance, .object => .below uri.objectId .objectInstance
      | .resourceInstance, .objectInstance => .below uri.instanceId .resource
      | .resourceInstance, .multipleResource => .below uri.resourceId .resourceInstance
      | .resourceInstance, _ => .found
      | .none, _ => .notFound

mutual

/-- The loops of `prv_findAndCheckData`: the first element with the id. -/
def searchBelow (uri : Lwm2mUri) (desiredLevel : UriDepth) (id : UInt16) (level : UriDepth) :
    List Lwm2mData → Option (List Lwm2mData × UriDepth)
  | [] => none
  | data :: rest =>
    if data.id = id then searchChildren uri desiredLevel level data
    else searchBelow uri desiredLevel id level rest

/-- `prv_findAndCheckData` for the children of an element. -/
def searchChildren (uri : Lwm2mUri) (desiredLevel level : UriDepth) :
    Lwm2mData → Option (List Lwm2mData × UriDepth)
  | .node _ _ value => searchValue uri desiredLevel level value

def searchValue (uri : Lwm2mUri) (desiredLevel level : UriDepth) :
    DataValue Lwm2mData → Option (List Lwm2mData × UriDepth)
  | .asChildren array =>
    match searchStep uri desiredLevel array with
    | .notFound => none
    | .found => some (array, level)
    | .below id level => searchBelow uri desiredLevel id level array
  | _ => some ([], level)

end

/-- `prv_findAndCheckData`: the data to serialize and their level; `none` is the result -1. -/
def prvFindAndCheckData (uri : Lwm2mUri) (desiredLevel level : UriDepth) (tlv : List Lwm2mData) :
    Option (List Lwm2mData × UriDepth) :=
  match searchStep uri desiredLevel tlv with
  | .notFound => none
  | .found => some (tlv, level)
  | .below id level => searchBelow uri desiredLevel id level tlv

/-- `senml_findAndCheckData`. -/
def senmlFindAndCheckData (uri : Lwm2mUri) (baseLevel : UriDepth) (tlv : List Lwm2mData) :
    Option (List Lwm2mData × UriDepth) :=
  let desiredLevel := senmlDecreaseLevel baseLevel
  prvFindAndCheckData uri desiredLevel
    (if baseLevel.toNat < UriDepth.resource.toNat then desiredLevel else baseLevel) tlv

/-- `senml_record_t`. -/
structure SenmlRecord where
  ids : Lwm2mUri
  value : Lwm2mData
  time : Int64

/-- `utils_depthToDatatype`. -/
def utilsDepthToDatatype : UriDepth → DataType
  | .object => .object
  | .objectInstance => .objectInstance
  | _ => .undefined

/-- The conversion of records ends without a tree: `some` fault of C, or the result -1. -/
abbrev Conversion (α : Type) : Type := Except (Option Fault) α

/-- `senml_findDataItem` on an array, and `f` on the item with the id; where there is none, it
is appended with a type. -/
def withItem (array : List Lwm2mData) (id : UInt16) (type : DataType)
    (f : Lwm2mData → Conversion Lwm2mData) : Conversion (List Lwm2mData) :=
  match splitFirst (fun data => data.type != .undefined && data.id == id) array with
  | some (before, data, after) => do
    let data ← f data
    return before ++ data :: after
  | none => do
    let data ← f (.node type id .zero)
    return array ++ [data]

/-- The same on the children of a node. Its type says whether it has any: a node of another type
that has been given a value is not an array. -/
def withChild (parent : Lwm2mData) (id : UInt16) (type : DataType)
    (f : Lwm2mData → Conversion Lwm2mData) : Conversion Lwm2mData :=
  if parent.type.hasChildren then do
    let array ← withItem parent.children id type f
    return .node parent.type parent.id (.asChildren array)
  else throw (some .wrongArm)

/-- `senml_extendData` on a node that becomes a multiple resource, without a search. -/
def withNewInstance (parent : Lwm2mData) (id : UInt16)
    (f : Lwm2mData → Conversion Lwm2mData) : Conversion Lwm2mData :=
  if parent.type.hasChildren ∨ parent.type = .undefined then do
    let data ← f (.node .undefined id .zero)
    return .node .multipleResource parent.id (.asChildren (parent.children ++ [data]))
  else throw (some .wrongArm)

/-- One round of the loop of `prv_convertRecord`. -/
def convertRecord (convertValue : SenmlRecord → Lwm2mData → Option Lwm2mData)
    (root : List Lwm2mData) (record : SenmlRecord) : Conversion (List Lwm2mData) :=
  let put (target : Lwm2mData) : Conversion Lwm2mData :=
    match convertValue record target with
    | none => throw none
    | some data => return data
  let putInstance (target : Lwm2mData) : Conversion Lwm2mData :=
    if record.ids.resourceInstanceId ≠ lwm2mMaxId then
      withNewInstance target record.ids.resourceInstanceId put
    else put target
  let rootType := if record.ids.objectId ≠ lwm2mMaxId then .object else .undefined
  withItem root record.ids.objectId rootType fun target =>
    if record.ids.instanceId ≠ lwm2mMaxId then
      withChild target record.ids.instanceId (utilsDepthToDatatype .objectInstance) fun target =>
        if record.ids.resourceId ≠ lwm2mMaxId then
          withChild target record.ids.resourceId
            (utilsDepthToDatatype (senmlDecreaseLevel .objectInstance)) putInstance
        else putInstance target
    else put target

/-- `prv_convertRecord`. -/
def prvConvertRecord (convertValue : SenmlRecord → Lwm2mData → Option Lwm2mData)
    (records : List SenmlRecord) : Conversion (List Lwm2mData) :=
  if records = [] then throw none else records.foldlM (convertRecord convertValue) []

/-- `senml_dataStrip`: a copy, unless there is nothing to copy. -/
def senmlDataStrip (data : List Lwm2mData) : Conversion (List Lwm2mData) :=
  if data = [] then throw none else return data

/-- `value.asChildren` of a node whose type is not looked at. -/
def childArray (data : Lwm2mData) : Conversion (List Lwm2mData) :=
  if data.type.hasChildren ∨ data.type = .undefined then return data.children
  else throw (some .wrongArm)

/-- The loop of `senml_convert_records` over the instances. -/
def instanceChildren (instanceId : UInt16) : List Lwm2mData → Conversion (List Lwm2mData)
  | [] => throw none
  | target :: rest =>
    if target.id = instanceId then do
      let array ← childArray target
      if array = [] then instanceChildren instanceId rest else return array
    else instanceChildren instanceId rest

/-- Its loop over the resources, if the URI is one of a resource. -/
def resourceData (uri : Lwm2mUri) (resources : List Lwm2mData) : Conversion (List Lwm2mData) :=
  if uri.isSetResource then
    match resources.find? fun target => target.id == uri.resourceId with
    | none => throw none
    | some target =>
      if target.type = .multipleResource ∧ uri.isSetResourceInstance then
        if target.children = [] then throw none else return target.children
      else senmlDataStrip [target]
  else return resources

/-- Its loop over the resource instances, if the URI is one of a resource instance. -/
def resourceInstanceData (uri : Lwm2mUri) (instances : List Lwm2mData) :
    Conversion (List Lwm2mData) :=
  if uri.isSetResourceInstance then
    match instances.find? fun target => target.id == uri.resourceInstanceId with
    | none => throw none
    | some target => senmlDataStrip [target]
  else return instances

/-- The part of the tree that the URI asks for. Of the objects only the first is looked at. -/
def requestedData (uri : Lwm2mUri) (parsed : List Lwm2mData) : Conversion (List Lwm2mData) :=
  match parsed with
  | [] => return []
  | first :: _ =>
    if first.type ≠ .object then throw none
    else if first.id ≠ uri.objectId then throw none
    else if uri.isSetInstance then do
      let resources ← instanceChildren uri.instanceId first.children
      let data ← resourceData uri resources
      resourceInstanceData uri data
    else return first.children

/-- `senml_convert_records`. -/
def senmlConvertRecords (convertValue : SenmlRecord → Lwm2mData → Option Lwm2mData)
    (uri : Option Lwm2mUri) (records : List SenmlRecord) : Conversion (List Lwm2mData) := do
  let parsed ← prvConvertRecord convertValue records
  match uri with
  | none => senmlDataStrip parsed
  | some uri =>
    if uri.isSetObject then senmlDataStrip (← requestedData uri parsed) else senmlDataStrip parsed

end Wakaama
