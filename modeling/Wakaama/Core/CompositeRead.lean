import Wakaama.Coap.Code
import Wakaama.Core.List
import Wakaama.Core.Uri
import Wakaama.Data.Data

/-!
# Composite reads (`core/objects.c`, `data/data.c`)

`object_readCompositeData` reads the URIs of a list one after the other and merges what it reads
into one tree. The read callback of an object is the application's; it is given the resources to
read, none for all of them, and returns them with their values. Memory does not run out here, so
that what is appended is always there.
-/

namespace Wakaama

/-- `lwm2m_object_t`, as far as it is read; of `instanceList` only the ids matter. -/
structure ReadableObject where
  objID : UInt16
  instanceList : List UInt16
  readFunc : Option (UInt16 → List Lwm2mData → CoapCode × List Lwm2mData)

/-- The array that a read of a URI below an instance starts from. -/
def readRequest (uri : Lwm2mUri) : List Lwm2mData :=
  if !uri.isSetResource then []
  else if !uri.isSetResourceInstance then [.node .undefined uri.resourceId .zero]
  else
    [.node .multipleResource uri.resourceId
      (.asChildren [.node .undefined uri.resourceInstanceId .zero])]

/-- The loop of `object_readData` over the instances. -/
def readInstances (readFunc : UInt16 → List Lwm2mData → CoapCode × List Lwm2mData) :
    List UInt16 → CoapCode × List Lwm2mData
  | [] => (.content205, [])
  | id :: next =>
    match readFunc id [] with
    | (.content205, array) =>
      let (result, data) := readInstances readFunc next
      (result, .node .objectInstance id (.asChildren array) :: data)
    | (result, _) => (result, [])

/-- `object_readData`. -/
def objectReadData (objectList : List ReadableObject) (uri : Lwm2mUri) :
    CoapCode × List Lwm2mData :=
  match lwm2mListFind ReadableObject.objID uri.objectId objectList with
  | none => (.notFound404, [])
  | some target =>
    match target.readFunc with
    | none => (.methodNotAllowed405, [])
    | some readFunc =>
      if uri.isSetInstance &&
          (lwm2mListFind (fun id => id) uri.instanceId target.instanceList).isNone then
        (.notFound404, [])
      else
        let (result, data) :=
          if uri.isSetInstance then readFunc uri.instanceId (readRequest uri)
          else readInstances readFunc target.instanceList
        (result, if result = .content205 then data else [])

/-- `value.asChildren` of a node, whatever its type. -/
def childrenOf (data : Lwm2mData) : Except Fault (List Lwm2mData) :=
  match data.value with
  | .asChildren array => .ok array
  | .zero => .ok []
  | _ => .error .wrongArm

/-- The node with other children. -/
def Lwm2mData.setChildren (data : Lwm2mData) (array : List Lwm2mData) : Lwm2mData :=
  .node data.type data.id (.asChildren array)

/-- The loop that looks for the child with the id: it is replaced by what `found` makes of it, or
`added` is appended. -/
def mergeChild (id : UInt16) (found : Lwm2mData → Except Fault Lwm2mData)
    (added : Except Fault Lwm2mData) : List Lwm2mData → Except Fault (List Lwm2mData)
  | [] => added.map fun child => [child]
  | child :: next =>
    if child.id = id then (found child).map fun child => child :: next
    else (mergeChild id found added next).map fun next => child :: next

/-- A step down into the children of a node. -/
def enterChildren (data : Lwm2mData)
    (merge : List Lwm2mData → Except Fault (List Lwm2mData)) : Except Fault Lwm2mData :=
  (childrenOf data).bind fun array => (merge array).map data.setChildren

/-- `partialDataP->value.asChildren.array`, as far as it is copied. -/
def firstChild (partialData : Lwm2mData) : Except Fault Lwm2mData :=
  (childrenOf partialData).bind fun
    | [] => .error .outOfBounds
    | child :: _ => .ok child

/-- "Find the resource instance". -/
def mergeResourceInstance (uri : Lwm2mUri) (partialData : Lwm2mData) :
    List Lwm2mData → Except Fault (List Lwm2mData) :=
  mergeChild uri.resourceInstanceId (fun _ => firstChild partialData) (firstChild partialData)

/-- "Find the resource"; `next` is what follows `partialData` in the array that was read. -/
def mergeResource (uri : Lwm2mUri) (partialData : Lwm2mData) (next : List Lwm2mData) :
    List Lwm2mData → Except Fault (List Lwm2mData) :=
  mergeChild uri.resourceId
    (fun resource =>
      if uri.isSetResourceInstance then
        enterChildren resource (mergeResourceInstance uri partialData)
      else if resource.type = .multipleResource then
        .ok (resource.setChildren (partialData :: next))
      else .ok partialData)
    (.ok partialData)

/-- "Find the instance". -/
def mergeInstance (uri : Lwm2mUri) (partialData : Lwm2mData) (next : List Lwm2mData) :
    List Lwm2mData → Except Fault (List Lwm2mData) :=
  let fill (instanceP : Lwm2mData) : Except Fault Lwm2mData :=
    if uri.isSetResource then enterChildren instanceP (mergeResource uri partialData next)
    else .ok (instanceP.setChildren (partialData :: next))
  mergeChild uri.instanceId fill (fill (.node .objectInstance uri.instanceId .zero))

/-- "Find the object". -/
def mergeObject (uri : Lwm2mUri) (partialData : Lwm2mData) (next : List Lwm2mData) :
    List Lwm2mData → Except Fault (List Lwm2mData) :=
  let fill (object : Lwm2mData) : Except Fault Lwm2mData :=
    if uri.isSetInstance then enterChildren object (mergeInstance uri partialData next)
    else .ok (object.setChildren (partialData :: next))
  mergeChild uri.objectId fill (fill (.node .object uri.objectId .zero))

/-- `LWM2M_SECURITY_OBJECT_ID`. -/
def securityObjectId : UInt16 := 0

/-- `LWM2M_OSCORE_OBJECT_ID`. -/
def oscoreObjectId : UInt16 := 21

/-- What is read of a URI, and the answer. -/
def readPartial (objectList : List ReadableObject) (uri : Lwm2mUri) : CoapCode × List Lwm2mData :=
  if uri.objectId = securityObjectId ∨ uri.objectId = oscoreObjectId then (.unauthorized401, [])
  else objectReadData objectList uri

/-- One round of the loop of `object_readCompositeData`. -/
def readCompositeRound (objectList : List ReadableObject) (result : CoapCode)
    (data : List Lwm2mData) (uri : Lwm2mUri) : Except Fault (CoapCode × List Lwm2mData) :=
  match readPartial objectList uri with
  | (.content205, partialData :: next) =>
    if uri.isSetObject then
      (mergeObject uri partialData next data).map fun data => (result, data)
    else .ok (result, data ++ partialData :: next)
  | (res, _) =>
    .ok (if result = .content205 ∧ res ≠ .notFound404 then res else result, data)

/-- The loop of `object_readCompositeData`. -/
def readCompositeLoop (objectList : List ReadableObject) :
    List Lwm2mUri → CoapCode × List Lwm2mData → Except Fault (CoapCode × List Lwm2mData)
  | [], so => .ok so
  | uri :: next, (result, data) =>
    (readCompositeRound objectList result data uri).bind (readCompositeLoop objectList next)

/-- `object_readCompositeData`: the result with `*dataP`. -/
def objectReadCompositeData (objectList : List ReadableObject) (uris : List Lwm2mUri) :
    Except Fault (CoapCode × List Lwm2mData) :=
  (readCompositeLoop objectList uris (.content205, [])).map fun (result, data) =>
    (if data ≠ [] then .content205 else if result = .content205 then .notFound404 else result, data)

end Wakaama
