import Wakaama.Core.ServerList

/-!
# Bootstrap commands (`core/bootstrap.c`)

What a bootstrap server's commands do: PUT and DELETE in `bootstrap_handleCommand`, DELETE on
`/` in `bootstrap_handleDeleteAll`, and `bootstrap_handleFinish`. Parsing the payload is the
business of the data formats and comes in as a function.
-/

namespace Wakaama

variable {Node Format : Type}

/-- `COAP_EXCHANGE_LIFETIME`, in seconds. -/
def coapExchangeLifetime : Int := 247

/-- `prv_checkServerStatus`; `now` is what `lwm2m_gettime` returns. -/
def prvCheckServerStatus (now : Int) (server : Lwm2mServer) : Lwm2mServer × CoapCode :=
  match server.status with
  | .bsHoldOff | .bsInitiated => ({ server with status := .bsPending }, .noError)
  | .deregistered | .bsPending =>
    ({ server with registration := now + coapExchangeLifetime }, .noError)
  | _ => (server, .ignore)

/-- The servers of a list with one of them replaced. -/
def replaceServer (server : Lwm2mServer) (head : List Lwm2mServer) : List Lwm2mServer :=
  head.map fun target => if target.secObjInstID = server.secObjInstID then server else target

/-- `prv_tagServer`. -/
def prvTagServer (context : ClientContext Node) (id : UInt16) : ClientContext Node :=
  match lwm2mListFind Lwm2mServer.secObjInstID id context.bootstrapServerList with
  | some target =>
    { context with
      bootstrapServerList := replaceServer { target with dirty := true } context.bootstrapServerList }
  | none =>
    match lwm2mListFind Lwm2mServer.secObjInstID id context.serverList with
    | some target =>
      { context with serverList := replaceServer { target with dirty := true } context.serverList }
    | none => context

/-- What the loop does with one item of type `LWM2M_TYPE_OBJECT_INSTANCE`. -/
def bootstrapPutInstance (ident : Node → UInt16) (objectId : UInt16) (data : Lwm2mData)
    (context : ClientContext Node) : ClientContext Node × CoapCode :=
  if objectIsInstanceNew ident context objectId data.id then
    let (context, result) := objectCreateInstance ident context objectId data
    (context, if result = .created201 then .changed204 else result)
  else
    let (context, result) := objectWriteInstance context objectId data
    (if objectId = lwm2mSecurityObjectId ∧ result = .changed204 then
        prvTagServer context data.id else context, result)

/-- The loop over the parsed items. An instance that fails ends it; any other item sets the
result and goes on. -/
def bootstrapPutItems (ident : Node → UInt16) (objectId : UInt16) :
    List Lwm2mData → CoapCode → ClientContext Node → ClientContext Node × CoapCode
  | [], result, context => (context, result)
  | data :: items, _, context =>
    if data.type = .objectInstance then
      let (context, result) := bootstrapPutInstance ident objectId data context
      if result ≠ .changed204 then (context, result)
      else bootstrapPutItems ident objectId items result context
    else bootstrapPutItems ident objectId items .badRequest400 context

/-- The object-level branch of the PUT case, once the server's status has been checked. `parse`
is `lwm2m_data_parse` with the URI and the format, the size and the array. -/
def bootstrapPutObject (ident : Node → UInt16) (objectId : UInt16)
    (parse : List UInt8 → Int × List Lwm2mData) (payload : List UInt8)
    (context : ClientContext Node) : ClientContext Node × CoapCode :=
  if payload = [] then (context, .badRequest400)
  else
    let (size, items) := parse payload
    if size = 0 then (context, .internalServerError500)
    else bootstrapPutItems ident objectId (items.take size.toNat) .noError context

/-- `bootstrap_handleCommand` on a PUT to an object. `server` is the bootstrap server the
command came from, a node of `bootstrapServerList`. -/
def bootstrapHandleCommandPutObject (ident : Node → UInt16) (now : Int) (objectId : UInt16)
    (parse : List UInt8 → Int × List Lwm2mData) (payload : List UInt8) (server : Lwm2mServer)
    (context : ClientContext Node) : ClientContext Node × CoapCode :=
  let (server, result) := prvCheckServerStatus now server
  let context :=
    { context with bootstrapServerList := replaceServer server context.bootstrapServerList }
  if result ≠ .noError then (context, result)
  else
    let (context, result) := bootstrapPutObject ident objectId parse payload context
    if (result = .deleted202 ∨ result = .changed204) ∧ server.status ≠ .bsPending then
      -- only the status field is written: the loop may have tagged the server meanwhile
      ({ context with
          state := .bootstrapping
          bootstrapServerList := context.bootstrapServerList.map fun target =>
            if target.secObjInstID = server.secObjInstID then
              { target with status := .bsPending } else target }, result)
    else (context, result)

/-- `prv_tagAllServer`; `spared` is the server that is not tagged, if any. -/
def prvTagAllServer (context : ClientContext Node) (spared : Option UInt16) :
    ClientContext Node :=
  { context with
    bootstrapServerList := context.bootstrapServerList.map fun target =>
      if some target.secObjInstID = spared then target else { target with dirty := true }
    serverList := context.serverList.map fun target => { target with dirty := true } }

/-- The branch of the PUT case for a URI that names an instance. -/
def bootstrapPutInstanceUri (ident : Node → UInt16)
    (parse : Lwm2mUri → List UInt8 → Format → Int × List Lwm2mData) (uri : Lwm2mUri)
    (format : Format) (payload : List UInt8) (context : ClientContext Node) :
    Except Fault (ClientContext Node × CoapCode) :=
  if objectIsInstanceNew ident context uri.objectId uri.instanceId then
    let (context, _, result) := objectCreate ident parse context uri format payload
    .ok (context, if result = .created201 then .changed204 else result)
  else
    (objectWrite parse context uri format payload false).map fun out =>
      (if uri.objectId = lwm2mSecurityObjectId ∧ out.2 = .changed204 then
          prvTagServer out.1 uri.instanceId else out.1, out.2)

/-- The first Security instance but the server's own. -/
def otherInstance (ident : Node → UInt16) (own : UInt16) (context : ClientContext Node) :
    Option Node :=
  (context.findObject lwm2mSecurityObjectId).bind fun object =>
    object.instanceList.find? fun node => ident node != own

/-- The inner loop of the Security case of DELETE: the first instance but the server's own is
deleted until there is none. The `rounds` are those of `deleteInstances`. -/
def deleteOtherInstances (ident : Node → UInt16) (own : UInt16) :
    Nat → ClientContext Node → Except Fault (ClientContext Node × CoapCode)
  | 0, context =>
    match otherInstance ident own context with
    | none => .ok (context, .deleted202)
    | some _ => .error .endless
  | rounds + 1, context =>
    match otherInstance ident own context with
    | none => .ok (context, .deleted202)
    | some node =>
      match objectDelete ident context
          ⟨lwm2mSecurityObjectId, ident node, lwm2mMaxId, lwm2mMaxId⟩ with
      | .error fault => .error fault
      | .ok (context, result) =>
        if result = .deleted202 then deleteOtherInstances ident own rounds context
        else .ok (context, result)

/-- The number of instances of the Security object. -/
def ClientContext.securityCount (context : ClientContext Node) : Nat :=
  ((context.findObject lwm2mSecurityObjectId).map fun object => object.instanceList.length).getD 0

/-- What DELETE does with the Security object, `result` being that of the objects before it. -/
def deleteSecurity (ident : Node → UInt16) (own : UInt16) (result : CoapCode)
    (context : ClientContext Node) : Except Fault (ClientContext Node × CoapCode) :=
  if result ≠ .deleted202 then .ok (context, result)
  else
    (deleteOtherInstances ident own context.securityCount context).map fun out =>
      (if out.2 = .deleted202 then prvTagAllServer out.1 (some own) else out.1, out.2)

/-- The loop over the objects for DELETE on the Security object. -/
def deleteSecurityObjects (ident : Node → UInt16) (own : UInt16) :
    List UInt16 → CoapCode → ClientContext Node → Except Fault (ClientContext Node × CoapCode)
  | [], result, context => .ok (context, result)
  | objectId :: next, result, context =>
    if objectId = lwm2mSecurityObjectId then
      match deleteSecurity ident own result context with
      | .error fault => .error fault
      | .ok (context, result) => deleteSecurityObjects ident own next result context
    else deleteSecurityObjects ident own next result context

/-- The DELETE case of `bootstrap_handleCommand`. -/
def bootstrapDelete (ident : Node → UInt16) (own : UInt16) (uri : Lwm2mUri)
    (context : ClientContext Node) : Except Fault (ClientContext Node × CoapCode) :=
  if uri.isSetResource then .ok (context, .badRequest400)
  else if uri.objectId = lwm2mSecurityObjectId ∧ !uri.isSetInstance then
    deleteSecurityObjects ident own (context.objectList.map Lwm2mObject.objID) .deleted202 context
  else
    (objectDelete ident context uri).map fun out =>
      (if uri.objectId = lwm2mSecurityObjectId ∧ out.2 = .deleted202 then
          prvTagServer out.1 uri.instanceId else out.1, out.2)

/-- The loop of `bootstrap_handleDeleteAll` over the objects; each object but the Security
object sets the result anew. -/
def deleteAllObjects (ident : Node → UInt16) (own : UInt16) :
    List UInt16 → CoapCode → ClientContext Node → Except Fault (ClientContext Node × CoapCode)
  | [], result, context => .ok (context, result)
  | objectId :: next, result, context =>
    if objectId = lwm2mSecurityObjectId then
      match deleteSecurity ident own result context with
      | .error fault => .error fault
      | .ok (context, result) => deleteAllObjects ident own next result context
    else
      match objectDelete ident context ⟨objectId, lwm2mMaxId, lwm2mMaxId, lwm2mMaxId⟩ with
      | .error fault => .error fault
      | .ok (context, result) =>
        -- a static object such as Device passes for deleted
        deleteAllObjects ident own next
          (if result = .methodNotAllowed405 then .deleted202 else result) context

/-- The method of a command that writes or deletes. -/
inductive BootstrapMethod where
  | put
  | delete
  deriving DecidableEq, Repr

/-- A command from the bootstrap server: PUT or DELETE on a path, DELETE on `/`, or
Bootstrap-Finish. -/
inductive BootstrapRequest (Format : Type) where
  | command (method : BootstrapMethod) (uri : Lwm2mUri) (format : Format) (payload : List UInt8)
  | deleteAll
  | finish

/-- The status of a server set in its list. -/
def setBootstrapStatus (id : UInt16) (status : ServerStatus) (context : ClientContext Node) :
    ClientContext Node :=
  { context with
    bootstrapServerList := context.bootstrapServerList.map fun target =>
      if target.secObjInstID = id then { target with status } else target }

/-- The context after the status check. -/
def checkedContext (now : Int) (server : Lwm2mServer) (context : ClientContext Node) :
    ClientContext Node :=
  { context with
    bootstrapServerList :=
      replaceServer (prvCheckServerStatus now server).1 context.bootstrapServerList }

/-- `bootstrap_handleCommand` with PUT or DELETE. -/
def bootstrapHandleCommand (ident : Node → UInt16) (now : Int)
    (parse : Lwm2mUri → List UInt8 → Format → Int × List Lwm2mData) (method : BootstrapMethod)
    (uri : Lwm2mUri) (format : Format) (payload : List UInt8) (server : Lwm2mServer)
    (context : ClientContext Node) : Except Fault (ClientContext Node × CoapCode) :=
  let (server, result) := prvCheckServerStatus now server
  let context :=
    { context with bootstrapServerList := replaceServer server context.bootstrapServerList }
  if result ≠ .noError then .ok (context, result)
  else
    let out :=
      match method with
      | .put =>
        if uri.isSetInstance then bootstrapPutInstanceUri ident parse uri format payload context
        else
          .ok (bootstrapPutObject ident uri.objectId (fun payload => parse uri payload format)
            payload context)
      | .delete => bootstrapDelete ident server.secObjInstID uri context
    out.map fun out =>
      if (out.2 = .deleted202 ∨ out.2 = .changed204) ∧ server.status ≠ .bsPending then
        ({ setBootstrapStatus server.secObjInstID .bsPending out.1 with
            state := .bootstrapping }, out.2)
      else out

/-- `bootstrap_handleDeleteAll`. -/
def bootstrapHandleDeleteAll (ident : Node → UInt16) (now : Int) (server : Lwm2mServer)
    (context : ClientContext Node) : Except Fault (ClientContext Node × CoapCode) :=
  let (server, result) := prvCheckServerStatus now server
  let context :=
    { context with bootstrapServerList := replaceServer server context.bootstrapServerList }
  if result ≠ .noError then .ok (context, result)
  else
    deleteAllObjects ident server.secObjInstID (context.objectList.map Lwm2mObject.objID)
      .deleted202 context

/-- `bootstrap_handleFinish`. -/
def bootstrapHandleFinish (ident : Node → UInt16) (server : Lwm2mServer)
    (context : ClientContext Node) : Except Fault (ClientContext Node × CoapCode) :=
  if server.status ≠ .bsPending then .ok (context, .ignore)
  else
    (objectGetServers ident true context).map fun out =>
      if out.2 then (setBootstrapStatus server.secObjInstID .bsFinishing out.1, .changed204)
      else (out.1, .notAcceptable406)

/-- `utils_findBootstrapServer`. -/
def utilsFindBootstrapServer (context : ClientContext Node) (fromSessionH : Nat) :
    Option Lwm2mServer :=
  context.bootstrapServerList.find? fun target => target.sessionH == some fromSessionH

/-- What `handle_request` does with a request from a bootstrap server. -/
def handleBootstrapRequest (ident : Node → UInt16)
    (parse : Lwm2mUri → List UInt8 → Format → Int × List Lwm2mData) (now : Int)
    (fromSessionH : Nat) (request : BootstrapRequest Format) (context : ClientContext Node) :
    Except Fault (ClientContext Node × CoapCode) :=
  match utilsFindBootstrapServer context fromSessionH with
  | none => .ok (context, .ignore)
  | some server =>
    match request with
    | .command method uri format payload =>
      bootstrapHandleCommand ident now parse method uri format payload server context
    | .deleteAll => bootstrapHandleDeleteAll ident now server context
    | .finish => bootstrapHandleFinish ident server context

end Wakaama
