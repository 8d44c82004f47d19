import Wakaama.Coap.Code
import Wakaama.Core.List
import Wakaama.Core.Server
import Wakaama.Core.Uri
import Wakaama.Data.Decode

/-!
# Objects of the client (`core/objects.c`)

An object's instances are nodes that the application lays out as it likes behind the id, so
the node type is arbitrary and `ident` reads a node's id. The callbacks are the application's;
each acts on the object's instance list.
-/

namespace Wakaama

variable {Node Format : Type}

/-- `lwm2m_write_type_t`. -/
inductive WriteType where
  | partialUpdate
  | replaceResources
  | replaceInstance
  deriving DecidableEq, Repr

/-- `lwm2m_object_t`, with the callbacks that create, write, read and delete instances; NULL is
`none`. The read callback is given the ids that the array holds and returns the array. -/
structure Lwm2mObject (Node : Type) where
  objID : UInt16
  versionMajor : UInt8
  versionMinor : UInt8
  instanceList : List Node
  writeFunc : Option (UInt16 → List Lwm2mData → WriteType → List Node → List Node × CoapCode)
  createFunc : Option (UInt16 → List Lwm2mData → List Node → List Node × CoapCode)
  readFunc : Option (UInt16 → List UInt16 → List Node → CoapCode × List Lwm2mData) := none
  deleteFunc : Option (UInt16 → List Node → List Node × CoapCode) := none

/-- `lwm2m_context_t` of a client. -/
structure ClientContext (Node : Type) where
  state : ClientState
  bootstrapServerList : List Lwm2mServer
  serverList : List Lwm2mServer
  objectList : List (Lwm2mObject Node)

/-- `LWM2M_LIST_FIND(contextP->objectList, objectId)`. -/
def ClientContext.findObject (context : ClientContext Node) (objectId : UInt16) :
    Option (Lwm2mObject Node) :=
  lwm2mListFind Lwm2mObject.objID objectId context.objectList

/-- The context after a callback of an object has changed the object's instance list. -/
def ClientContext.setInstances (context : ClientContext Node) (objectId : UInt16)
    (instanceList : List Node) : ClientContext Node :=
  { context with
    objectList := context.objectList.map fun object =>
      if object.objID = objectId then { object with instanceList } else object }

/-- `object_isInstanceNew`. -/
def objectIsInstanceNew (ident : Node → UInt16) (context : ClientContext Node)
    (objectId instanceId : UInt16) : Bool :=
  match context.findObject objectId with
  | none => true
  | some target => (lwm2mListFind ident instanceId target.instanceList).isNone

/-- `object_createInstance`. The id it passes on is the list's, not the item's. -/
def objectCreateInstance (ident : Node → UInt16) (context : ClientContext Node)
    (objectId : UInt16) (data : Lwm2mData) : ClientContext Node × CoapCode :=
  match context.findObject objectId with
  | none => (context, .notFound404)
  | some target =>
    match target.createFunc with
    | none => (context, .methodNotAllowed405)
    | some create =>
      let (instanceList, result) :=
        create (lwm2mListNewId ident target.instanceList) data.children target.instanceList
      (context.setInstances objectId instanceList, result)

/-- `object_writeInstance`. -/
def objectWriteInstance (context : ClientContext Node) (objectId : UInt16) (data : Lwm2mData) :
    ClientContext Node × CoapCode :=
  match context.findObject objectId with
  | none => (context, .notFound404)
  | some target =>
    match target.writeFunc with
    | none => (context, .methodNotAllowed405)
    | some write =>
      let (instanceList, result) :=
        write data.id data.children .replaceInstance target.instanceList
      (context.setInstances objectId instanceList, result)

/-- An item of an array that `lwm2m_data_new` has made. -/
def lwm2mDataNew : Lwm2mData := .node .undefined 0 .zero

/-- `dataP[0]` after a read of one resource, `none` unless the answer is 2.05. -/
def objectReadResource (object : Lwm2mObject Node) (instanceId resourceId : UInt16) :
    Except Fault (Option Lwm2mData) :=
  match object.readFunc with
  | none => .error .nullDeref
  | some read =>
    let (result, data) := read instanceId [resourceId] object.instanceList
    .ok (if result = .content205 then some (data.headD lwm2mDataNew) else none)

/-- `LWM2M_SERVER_OBJECT_ID` and resources of the Server object. -/
def lwm2mServerObjectId : UInt16 := 1

def lwm2mServerShortIdId : UInt16 := 0

def lwm2mServerLifetimeId : UInt16 := 1

def lwm2mServerBindingId : UInt16 := 7

/-- `prv_getMandatoryInfo`: the server and whether the result is 0. The lifetime is written
before the binding is looked at. -/
def prvGetMandatoryInfo (object : Lwm2mObject Node) (instanceId : UInt16) (target : Lwm2mServer) :
    Except Fault (Lwm2mServer × Bool) :=
  match object.readFunc with
  | none => .error .nullDeref
  | some read =>
    let (result, data) :=
      read instanceId [lwm2mServerLifetimeId, lwm2mServerBindingId] object.instanceList
    if result ≠ .content205 then .ok (target, false)
    else
      match lwm2mDataDecodeInt (data.getD 0 lwm2mDataNew) with
      | none => .ok (target, false)
      | some value =>
        if value < 0 ∨ 0xFFFFFFFF < value then .ok (target, false)
        else
          let bindingData := data.getD 1 lwm2mDataNew
          let binding :=
            if bindingData.type = .string then utilsStringToBinding bindingData.asBuffer
            else bindingUnknown
          .ok ({ target with lifetime := value.toInt, binding }, binding != bindingUnknown)

/-- `prv_getServerShortId`: 0 when there is none. -/
def prvGetServerShortId (object : Lwm2mObject Node) (instanceId : UInt16) : Except Fault UInt16 :=
  match objectReadResource object instanceId lwm2mServerShortIdId with
  | .error fault => .error fault
  | .ok data =>
    match data.bind lwm2mDataDecodeInt with
    | none => .ok 0
    | some value => .ok (if value < 0 ∨ 65535 < value then 0 else value.toUInt64.toUInt16)

/-- The servers of a list after the first one with the short id has been updated. -/
def updateServerOf (object : Lwm2mObject Node) (instanceId serverId : UInt16) :
    List Lwm2mServer → Except Fault (List Lwm2mServer)
  | [] => .ok []
  | server :: next =>
    if server.shortID = serverId then
      (prvGetMandatoryInfo object instanceId server).map fun out => out.1 :: next
    else (updateServerOf object instanceId serverId next).map fun next => server :: next

/-- `prv_updateServerInfo`. -/
def prvUpdateServerInfo (object : Lwm2mObject Node) (instanceId : UInt16)
    (context : ClientContext Node) : Except Fault (ClientContext Node) :=
  match prvGetServerShortId object instanceId with
  | .error fault => .error fault
  | .ok serverId =>
    if serverId = 0 then .ok context
    else
      (updateServerOf object instanceId serverId context.serverList).map fun serverList =>
        { context with serverList }

/-- What `object_write` hands over: the parsed items, or the values of a resource inside one
item for it. -/
def objectWriteData (uri : Lwm2mUri) (items : List Lwm2mData) : List Lwm2mData :=
  if uri.isSetResourceInstance then
    [.node .multipleResource uri.resourceId (.asChildren items)]
  else items

/-- The write type of `object_write`. -/
def objectWriteType (uri : Lwm2mUri) (isPartial : Bool) : WriteType :=
  if isPartial || uri.isSetResourceInstance then .partialUpdate
  else if uri.isSetResource then .replaceResources
  else .replaceInstance

/-- `object_write`. `parse` is `lwm2m_data_parse`: the size and the array. -/
def objectWrite (parse : Lwm2mUri → List UInt8 → Format → Int × List Lwm2mData)
    (context : ClientContext Node) (uri : Lwm2mUri) (format : Format) (buffer : List UInt8)
    (isPartial : Bool) : Except Fault (ClientContext Node × CoapCode) :=
  if !uri.isSetObject || !uri.isSetInstance then .ok (context, .badRequest400)
  else
    match context.findObject uri.objectId with
    | none => .ok (context, .notFound404)
    | some target =>
      match target.writeFunc with
      | none => .ok (context, .methodNotAllowed405)
      | some write =>
        let (size, items) := parse uri buffer format
        if size ≤ 0 then .ok (context, .notAcceptable406)
        else
          let (instanceList, result) := write uri.instanceId
            (objectWriteData uri (items.take size.toNat)) (objectWriteType uri isPartial)
            target.instanceList
          let context := context.setInstances uri.objectId instanceList
          if result = .changed204 ∧ target.objID = lwm2mServerObjectId then
            (prvUpdateServerInfo { target with instanceList } uri.instanceId context).map
              fun context => (context, result)
          else .ok (context, result)

/-- `object_create`, with the URI that it completes. -/
def objectCreate (ident : Node → UInt16)
    (parse : Lwm2mUri → List UInt8 → Format → Int × List Lwm2mData)
    (context : ClientContext Node) (uri : Lwm2mUri) (format : Format) (buffer : List UInt8) :
    ClientContext Node × Lwm2mUri × CoapCode :=
  if buffer = [] then (context, uri, .badRequest400)
  else
    match context.findObject uri.objectId with
    | none => (context, uri, .notFound404)
    | some target =>
      match target.createFunc with
      | none => (context, uri, .methodNotAllowed405)
      | some create =>
        let (size, items) := parse uri buffer format
        if size ≤ 0 then (context, uri, .badRequest400)
        else
          let items := items.take size.toNat
          let first := items.headD lwm2mDataNew
          match first.type with
          | .object => (context, uri, .badRequest400)
          | .objectInstance =>
            if items.length ≠ 1 then (context, uri, .badRequest400)
            else if (lwm2mListFind ident first.id target.instanceList).isSome then
              (context, uri, .notAcceptable406)
            else
              let (instanceList, result) := create first.id first.children target.instanceList
              (context.setInstances uri.objectId instanceList,
                { uri with instanceId := first.id }, result)
          | _ =>
            let uri :=
              if uri.isSetInstance then uri
              else { uri with instanceId := lwm2mListNewId ident target.instanceList }
            let (instanceList, result) := create uri.instanceId items target.instanceList
            (context.setInstances uri.objectId instanceList, uri, result)

/-- The loop of `object_delete`: the head instance is deleted until none is left. There are as
many `rounds` as instances; a callback that answers 2.02 without removing one makes the C loop
go on. -/
def deleteInstances (ident : Node → UInt16) (delete : UInt16 → List Node → List Node × CoapCode) :
    Nat → List Node → Except Fault (List Node × CoapCode)
  | _, [] => .ok ([], .deleted202)
  | 0, _ :: _ => .error .endless
  | rounds + 1, node :: next =>
    let (instanceList, result) := delete (ident node) (node :: next)
    if result = .deleted202 then deleteInstances ident delete rounds instanceList
    else .ok (instanceList, result)

/-- `object_delete`. -/
def objectDelete (ident : Node → UInt16) (context : ClientContext Node) (uri : Lwm2mUri) :
    Except Fault (ClientContext Node × CoapCode) :=
  match context.findObject uri.objectId with
  | none => .ok (context, .notFound404)
  | some object =>
    match object.deleteFunc with
    | none => .ok (context, .methodNotAllowed405)
    | some delete =>
      if uri.isSetInstance then
        let (instanceList, result) := delete uri.instanceId object.instanceList
        .ok (context.setInstances uri.objectId instanceList, result)
      else
        (deleteInstances ident delete object.instanceList.length object.instanceList).map
          fun out => (context.setInstances uri.objectId out.1, out.2)

end Wakaama
