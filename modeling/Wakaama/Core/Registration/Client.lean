import Wakaama.Core.Object

/-!
# Registration updates of the client (`core/registration.c`, `core/liblwm2m.c`)

`lwm2m_update_registration`, what triggers it, the client's part of `registration_step` and the
reply handler. That a full update is owed to a server is remembered in its status alone.
-/

namespace Wakaama

variable {Node : Type}

/-- `COAP_MAX_TRANSMIT_WAIT`, in seconds. -/
def coapMaxTransmitWait : Int := 93

/-- What the reply handlers look at in a packet; `block1Num` is set with the Block1 option. -/
structure ReplyPacket where
  code : CoapCode
  block1Num : Option Nat

/-- A registration update on the wire: whom it goes to, and the object list it carries. -/
structure UpdateMessage (Node : Type) where
  server : UInt16
  objects : Option (List (Lwm2mObject Node))

/-- How far `prv_updateRegistration` gets: an allocation or the serialization fails before
anything is sent, `transaction_send` reports failure after sending (no clock), or all is well. -/
inductive UpdateOutcome where
  | notSent
  | sentFailed
  | sent
  deriving DecidableEq, Repr

/-- What the platform does for one server during `registration_step`. -/
structure ServerEnv where
  update : UpdateOutcome
  registerPayload : Bool
  connect : Option Nat
  registerSend : Bool

/-- `prv_handleRegistrationUpdateReply`; a timeout comes without a packet. -/
def prvHandleRegistrationUpdateReply (now : Int) (packet : Option ReplyPacket)
    (server : Lwm2mServer) : Lwm2mServer :=
  if server.status = .regUpdatePending then
    let server := if 0 ≤ now then { server with registration := now } else server
    match packet with
    | none => { server with status := .regFailed }
    | some packet =>
      if packet.code = .continue231 ∨ packet.code = .entityTooLarge413 ∧
          (packet.block1Num = none ∨ packet.block1Num = some 0) then server
      else if packet.code = .changed204 then { server with status := .registered }
      else { server with status := .regFailed }
  else server

/-- `prv_updateRegistration`: the server and the message sent, if any. Without a clock the
callback runs at once, without a packet. -/
def prvUpdateRegistration (objectList : List (Lwm2mObject Node)) (outcome : UpdateOutcome)
    (withObjects : Bool) (server : Lwm2mServer) : Lwm2mServer × List (UpdateMessage Node) :=
  let message :=
    { server := server.secObjInstID, objects := if withObjects then some objectList else none }
  match outcome with
  | .notSent => (server, [])
  | .sentFailed => (prvHandleRegistrationUpdateReply (-1) none server, [message])
  | .sent => ({ server with status := .regUpdatePending }, [message])

/-- `prv_register`, as far as the update path sees it. -/
def prvRegister (env : ServerEnv) (server : Lwm2mServer) : Lwm2mServer :=
  if env.registerPayload then
    match server.sessionH.or env.connect with
    | none => server
    | some sessionH =>
      let server := { server with sessionH := some sessionH }
      if env.registerSend then { server with status := .regPending } else server
  else server

/-- When the next update of a registered server is due. -/
def nextUpdateTime (server : Lwm2mServer) : Int :=
  server.registration +
    (if coapMaxTransmitWait < server.lifetime then server.lifetime - coapMaxTransmitWait
      else server.lifetime / 2)

/-- The client's part of `registration_step`, for one server. -/
def registrationStepServer (objectList : List (Lwm2mObject Node)) (currentTime : Int)
    (env : ServerEnv) (server : Lwm2mServer) : Lwm2mServer × List (UpdateMessage Node) :=
  match server.status with
  | .regHoldOff =>
    if server.registration - currentTime ≤ 0 then (prvRegister env server, []) else (server, [])
  | .registered =>
    if nextUpdateTime server - currentTime ≤ 0 then
      prvUpdateRegistration objectList env.update false server
    else (server, [])
  | .regUpdateNeeded => prvUpdateRegistration objectList env.update false server
  | .regFullUpdateNeeded => prvUpdateRegistration objectList env.update true server
  | .regFailed => ({ server with sessionH := none }, [])
  | _ => (server, [])

/-- The client's part of `registration_step`. -/
def registrationStep (currentTime : Int) (env : UInt16 → ServerEnv)
    (context : ClientContext Node) : ClientContext Node × List (UpdateMessage Node) :=
  let stepped := context.serverList.map fun server =>
    registrationStepServer context.objectList currentTime (env server.secObjInstID) server
  ({ context with serverList := stepped.map Prod.fst }, stepped.flatMap Prod.snd)

/-- `lwm2m_update_registration` on the server with the short id. -/
def updateOneServer (withObjects : Bool) (server : Lwm2mServer) : Lwm2mServer × CoapCode :=
  match server.status with
  | .registered | .regUpdatePending =>
    ({ server with
        status := if withObjects then .regFullUpdateNeeded else .regUpdateNeeded }, .noError)
  | .regFullUpdateNeeded | .regUpdateNeeded =>
    (if withObjects then { server with status := .regFullUpdateNeeded } else server, .noError)
  | _ => (server, .badRequest400)

/-- The loop of `lwm2m_update_registration` for a short id. -/
def updateShortID (shortServerID : UInt16) (withObjects : Bool) :
    List Lwm2mServer → List Lwm2mServer × CoapCode
  | [] => ([], .notFound404)
  | target :: next =>
    if target.shortID = shortServerID then
      let (target, result) := updateOneServer withObjects target
      (target :: next, result)
    else
      let (next, result) := updateShortID shortServerID withObjects next
      (target :: next, result)

/-- `lwm2m_update_registration` on a server when the short id is 0. -/
def updateEachServer (withObjects : Bool) (server : Lwm2mServer) : Lwm2mServer :=
  if server.status = .registered ∨ server.status = .regUpdatePending then
    { server with status := if withObjects then .regFullUpdateNeeded else .regUpdateNeeded }
  else server

/-- `lwm2m_update_registration`. `getServers` is `object_getServers`, which reads the Security
and Server objects; the loop does not see the servers it adds. -/
def lwm2mUpdateRegistration (getServers : ClientContext Node → ClientContext Node × Bool)
    (shortServerID : UInt16) (withObjects : Bool) (context : ClientContext Node) :
    ClientContext Node × CoapCode :=
  match context.serverList with
  | [] =>
    let (context, found) := getServers context
    (context, if found ∧ shortServerID = 0 then .noError else .notFound404)
  | servers =>
    if shortServerID = 0 then
      ({ context with serverList := servers.map (updateEachServer withObjects) }, .noError)
    else
      let (serverList, result) := updateShortID shortServerID withObjects servers
      ({ context with serverList }, result)

/-- `lwm2m_add_object`. -/
def lwm2mAddObject (getServers : ClientContext Node → ClientContext Node × Bool)
    (object : Lwm2mObject Node) (context : ClientContext Node) : ClientContext Node × CoapCode :=
  match context.findObject object.objID with
  | some _ => (context, .notAcceptable406)
  | none =>
    let context :=
      { context with objectList := lwm2mListAdd Lwm2mObject.objID context.objectList object }
    if context.state = .ready then lwm2mUpdateRegistration getServers 0 true context
    else (context, .noError)

/-- `lwm2m_remove_object`. -/
def lwm2mRemoveObject (getServers : ClientContext Node → ClientContext Node × Bool)
    (id : UInt16) (context : ClientContext Node) : ClientContext Node × CoapCode :=
  match lwm2mListRemove Lwm2mObject.objID id context.objectList with
  | (objectList, target) =>
    let context := { context with objectList }
    if target.isNone then (context, .notFound404)
    else if context.state = .ready then lwm2mUpdateRegistration getServers 0 true context
    else (context, .noError)

end Wakaama
