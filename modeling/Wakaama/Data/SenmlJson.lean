import Wakaama.Core.Base64
import Wakaama.Data.JsonCommon

/-!
# SenML-JSON (`data/senml_json.c`)

The records have the fields of `senml_record_t`; the buffer of a string or an opaque is still the
text between the quotes.
-/

namespace Wakaama

/-- `prv_convertValue` of `senml_json.c`; `none` is the result false. -/
def senmlJsonConvertValue (record : SenmlRecord) (target : Lwm2mData) : Option Lwm2mData :=
  match record.value.type with
  | .string =>
    if record.value.asBuffer = [] then some (.node .string target.id (.asBuffer []))
    else
      (jsonUnescapeString record.value.asBuffer).map fun string =>
        .node .string target.id (.asBuffer string)
  | .opaqueBytes =>
    if record.value.asBuffer = [] then some (.node .opaqueBytes target.id (.asBuffer []))
    else
      (utilsBase64Decode record.value.asBuffer).map fun data =>
        .node .opaqueBytes target.id (.asBuffer data)
  | .object | .objectInstance | .multipleResource | .coreLink => none
  | type => some (.node type target.id record.value.value)

/-- One round of the loop of `prv_convertRecord` of `senml_json.c`. -/
def senmlJsonRound (root : List Lwm2mData) (record : SenmlRecord) : Conversion (List Lwm2mData) :=
  let put (target : Lwm2mData) : Conversion Lwm2mData :=
    match senmlJsonConvertValue record target with
    | none => throw none
    | some data => return data
  let putInstance (target : Lwm2mData) : Conversion Lwm2mData :=
    if record.ids.resourceInstanceId ≠ lwm2mMaxId then
      withNewInstance target record.ids.resourceInstanceId put
    else put target
  withItem root record.ids.objectId .object fun target =>
    if record.ids.instanceId ≠ lwm2mMaxId then
      withChild target record.ids.instanceId (utilsDepthToDatatype .objectInstance) fun target =>
        if record.ids.resourceId ≠ lwm2mMaxId then
          withChild target record.ids.resourceId
            (utilsDepthToDatatype (senmlDecreaseLevel .objectInstance)) putInstance
        else putInstance target
    else put target

/-- `prv_convertRecord` of `senml_json.c`. -/
def senmlJsonConvertRecord (records : List SenmlRecord) : Conversion (List Lwm2mData) :=
  if records = [] then throw none else records.foldlM senmlJsonRound []

end Wakaama
