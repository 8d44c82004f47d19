import Wakaama.Core.Observation
import Wakaama.Core.Registration.Decode
import Wakaama.Core.Registration.Parameters

/-!
# Registration updates of the server (`core/registration.c`)

The part of `registration_handleRequest` for a POST on the location of a client. The observations
of the client are a list of nodes; a node that is freed while it is still linked stays in the list,
marked. The callbacks of the user leave the list alone.
-/

namespace Wakaama

/-- A node of `clientP->observationList`. -/
structure ObservationNode where
  observation : Observation
  freed : Bool
  deriving DecidableEq, Repr

/-- `observationP->id`. -/
def ObservationNode.id (node : ObservationNode) : UInt16 := node.observation.id

/-- The fields of `lwm2m_client_t` that an update reads or writes. -/
structure RegisteredClient (Session : Type) where
  internalID : UInt16
  binding : UInt8
  msisdn : Option (List UInt8)
  lifetime : UInt32
  endOfLife : Int
  sessionH : Session
  objectList : List ClientObject
  observationList : List ObservationNode
  deriving DecidableEq

/-- The part of a request that is read: its query, each segment with whether its value can be
allocated, its Content-Format and its payload. -/
structure RegistrationMessage where
  uriQuery : List (MultiOption × Bool)
  contentType : UInt16
  payload : List UInt8

/-- A call of the callback of an observation. -/
structure ObservationCallback where
  clientID : UInt16
  uri : Lwm2mUri
  status : UInt8
  userData : Nat
  deriving DecidableEq, Repr

/-- `LWM2M_CONTENT_LINK`. -/
def lwm2mContentLink : UInt16 := 40

/-- `LWM2M_CONTENT_TEXT`. -/
def lwm2mContentText : UInt16 := 0

/-- The object, or the instance, of an observation is not in the list. -/
def isGone (objects : List ClientObject) (uri : Lwm2mUri) : Bool :=
  match lwm2mListFind ClientObject.id uri.objectId objects with
  | none => true
  | some objP =>
    uri.isSetInstance && (lwm2mListFind (fun id => id) uri.instanceId objP.instanceList).isNone

/-- The walk of `lwm2m_list_remove` behind the head reads a node that is freed. -/
def walkReadsFreed (id : UInt16) : List ObservationNode → Bool
  | [] => false
  | target :: next => target.freed || (decide (target.id < id) && walkReadsFreed id next)

/-- `lwm2m_list_remove` reads a node that is freed. -/
def removeReadsFreed (id : UInt16) : List ObservationNode → Bool
  | [] => false
  | head :: next => head.freed || (head.id != id && walkReadsFreed id next)

/-- `observe_remove` behind the nodes `before`: the walk ends at the observation itself at the
latest, and unlinks the first node with its id. -/
def observeRemoveNode (before : List ObservationNode) (observationP : ObservationNode) :
    Except Fault (List ObservationNode) :=
  if removeReadsFreed observationP.id before then .error .useAfterFree
  else
    .ok (lwm2mListRemove ObservationNode.id observationP.id
      (before ++ [{ observationP with freed := true }])).1

/-- The call of the callback of an observation that is removed. -/
def deletedCallback (clientID : UInt16) (observation : Observation) : ObservationCallback where
  clientID := clientID
  uri := observation.uri
  status := coapDeleted
  userData := observation.userData

/-- The loop over the observations, behind the nodes `before`: what is left of the list, and the
callbacks that are called. -/
def pruneObservations (clientID : UInt16) (objects : List ClientObject) :
    List ObservationNode → List ObservationNode →
    Except Fault (List ObservationNode × List ObservationCallback)
  | before, [] => .ok (before, [])
  | before, observationP :: nextP =>
    if observationP.freed then .error .useAfterFree
    else if isGone objects observationP.observation.uri then
      match observeRemoveNode before observationP with
      | .error fault => .error fault
      | .ok before =>
        match pruneObservations clientID objects before nextP with
        | .error fault => .error fault
        | .ok (observationList, callbacks) =>
          .ok (observationList, deletedCallback clientID observationP.observation :: callbacks)
    else pruneObservations clientID objects (before ++ [observationP]) nextP

variable {Session : Type}

/-- The part of an update behind its checks; an empty object list is NULL. -/
def updateClient (now : Int) (fromSessionH : Session) (parameters : RegisterParameters)
    (objects : List ClientObject) (clientP : RegisteredClient Session) :
    Except Fault (RegisteredClient Session × List ObservationCallback) :=
  let clientP := { clientP with
    binding := if parameters.binding ≠ bindingUnknown then parameters.binding else clientP.binding
    msisdn := parameters.msisdn.or clientP.msisdn
    lifetime := if parameters.lifetime ≠ 0 then parameters.lifetime else clientP.lifetime
    sessionH := fromSessionH }
  if objects = [] then
    .ok ({ clientP with endOfLife := now + clientP.lifetime.toNat }, [])
  else
    match pruneObservations clientP.internalID objects [] clientP.observationList with
    | .error fault => .error fault
    | .ok (observationList, callbacks) =>
      .ok ({ clientP with
          observationList
          objectList := objects
          endOfLife := now + clientP.lifetime.toNat }, callbacks)

/-- A read outside of the payload, or a scan without an end. -/
def ScanFault.fault : ScanFault → Fault
  | .endless => .endless
  | _ => .outOfBounds

/-- The clients of a server by their `internalID`. -/
abbrev ClientList (Session : Type) : Type := UInt16 → Option (RegisteredClient Session)

/-- The list with a client in it. -/
def ClientList.put (clientList : ClientList Session) (internalID : UInt16)
    (clientP : RegisteredClient Session) : ClientList Session :=
  fun other => if other = internalID then some clientP else clientList other

/-- What `registration_handleRequest` returns, the clients after it, and the callbacks called. -/
structure UpdateAnswer (Session : Type) where
  code : CoapCode
  clientList : ClientList Session
  callbacks : List ObservationCallback

/-- The answer to an update that passes the checks. -/
def acceptUpdate (uri : Lwm2mUri) (clientList : ClientList Session)
    (updated : Except Fault (RegisteredClient Session × List ObservationCallback)) :
    Except Fault (UpdateAnswer Session) :=
  match updated with
  | .error fault => .error fault
  | .ok (clientP, callbacks) =>
    .ok { code := .changed204, clientList := clientList.put uri.objectId clientP, callbacks }

/-- `registration_handleRequest` for a POST on an object, which is the location of a client. -/
def registrationUpdate (now : Int) (uri : Lwm2mUri) (fromSessionH : Session)
    (message : RegistrationMessage) (clientList : ClientList Session) :
    Except Fault (UpdateAnswer Session) :=
  let refuse (code : CoapCode) : Except Fault (UpdateAnswer Session) :=
    .ok { code, clientList, callbacks := [] }
  if now < 0 then refuse .internalServerError500
  else
    match prvGetParameters message.uriQuery with
    | .error fault => .error fault
    | .ok none => refuse .badRequest400
    | .ok (some parameters) =>
      if message.contentType ≠ lwm2mContentLink ∧ message.contentType ≠ lwm2mContentText then
        refuse .badRequest400
      else
        match prvDecodeRegisterPayload false message.payload message.payload.length with
        | .error fault => .error fault.fault
        | .ok decoded =>
          if uri.isSetInstance then refuse .badRequest400
          else
            match clientList uri.objectId with
            | none => refuse .notFound404
            | some clientP =>
              if parameters.name ≠ none then refuse .badRequest400
              else
                acceptUpdate uri clientList
                  (updateClient now fromSessionH parameters
                    ((decoded.map DecodeState.objList).getD []) clientP)

end Wakaama
