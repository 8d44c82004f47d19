import Wakaama.Core.Registration.Update
import Wakaama.Core.Utils

/-!
# The registry of the server (`core/registration.c`, `core/packet.c`)

`registration_handleRequest`, the client that `lwm2m_handle_packet` makes for a request with Block1,
and the server's part of `registration_step`, on the list of clients. Observations, blocks and
transactions of a client that is freed go with it. The monitoring callback leaves the list alone.
-/

namespace Wakaama

/-- `lwm2m_client_t`: what an update reads or writes, and what only a registration does. -/
structure Registration (Session : Type) extends RegisteredClient Session where
  name : Option (List UInt8)
  version : Lwm2mVersion
  altPath : Option (List UInt8)
  format : LinkFormat
  deriving DecidableEq

variable {Session : Type}

/-- `clientP->internalID`. -/
def Registration.id (clientP : Registration Session) : UInt16 := clientP.internalID

/-- A string up to its NUL, as `strcmp` compares it. -/
def cString (text : List UInt8) : List UInt8 := text.takeWhile fun byte => byte != 0

/-- The endpoint name of a client as a string. -/
def Registration.endpoint (clientP : Registration Session) : Option (List UInt8) :=
  clientP.name.map cString

/-- `COAP_POST` -/
def coapPost : UInt8 := 0x02

/-- `LWM2M_DEFAULT_LIFETIME` -/
def lwm2mDefaultLifetime : UInt32 := 86400

/-- A client behind `memset`, with an id and a session. -/
def newClient (internalID : UInt16) (sessionH : Session) : Registration Session where
  internalID := internalID
  binding := 0
  msisdn := none
  lifetime := 0
  endOfLife := 0
  sessionH := sessionH
  objectList := []
  observationList := []
  name := none
  version := .missing
  altPath := none
  format := .tlv

/-- `prv_getClientByName` -/
def prvGetClientByName (name : List UInt8) (clientList : List (Registration Session)) :
    Option (Registration Session) :=
  clientList.find? fun targetP => targetP.endpoint == some (cString name)

/-- `utils_findClient` -/
def utilsFindClient (sessionIsEqual : Session → Session → Bool) (fromSessionH : Session)
    (clientList : List (Registration Session)) : Option (Registration Session) :=
  clientList.find? fun targetP => sessionIsEqual targetP.sessionH fromSessionH

/-- `prv_getLocationString`; both of its copies have room for their texts. -/
def prvGetLocationString (id : UInt16) : List UInt8 :=
  [47, 114, 100, 47] ++ utilsIntToText id.toUInt64.toInt64 6

/-- What `registration_handleRequest` returns, and the Location-Path it sets. -/
structure RegistryReply where
  code : CoapCode
  location : Option (List UInt8)
  deriving DecidableEq, Repr

/-- What a request registers. -/
structure RegisterRequest (Session : Type) where
  name : List UInt8
  parameters : RegisterParameters
  decoded : DecodeState
  now : Int
  fromSessionH : Session

/-- The fields of a client that a Register sets. -/
def RegisterRequest.fill (request : RegisterRequest Session) (clientP : Registration Session) :
    Registration Session :=
  let lifetime :=
    if request.parameters.lifetime = 0 then lwm2mDefaultLifetime else request.parameters.lifetime
  { clientP with
    name := some request.name
    version := request.parameters.version
    binding := request.parameters.binding
    msisdn := request.parameters.msisdn
    altPath := request.decoded.altPath
    format := request.decoded.format
    lifetime
    endOfLife := request.now + lifetime.toNat
    objectList := request.decoded.objList
    sessionH := request.fromSessionH }

/-- A Register with Block1 takes the client of its session, where the name is new. Where it is not,
the client of the session is removed and freed; the client with the name is read behind that. -/
def registerClientP (sessionIsEqual : Session → Session → Bool) (fromSessionH : Session)
    (isBlock1 : Bool) (clientP : Option (Registration Session))
    (clientList : List (Registration Session)) :
    Except Fault (Option (Registration Session) × List (Registration Session)) :=
  if !isBlock1 then .ok (clientP, clientList)
  else
    match clientP, utilsFindClient sessionIsEqual fromSessionH clientList with
    | none, found => .ok (found, clientList)
    | some _, none => .error .nullDeref
    | some clientP, some tmpClientP =>
      if tmpClientP.id = clientP.id then .error .useAfterFree
      else .ok (some clientP, (lwm2mListRemove Registration.id tmpClientP.id clientList).1)

/-- The Register operation behind its checks. -/
def registerOperation (sessionIsEqual : Session → Session → Bool) (isBlock1 allocated : Bool)
    (request : RegisterRequest Session) (clientList : List (Registration Session)) :
    Except Fault (List (Registration Session) × RegistryReply) :=
  match registerClientP sessionIsEqual request.fromSessionH isBlock1
      (prvGetClientByName request.name clientList) clientList with
  | .error fault => .error fault
  | .ok (some clientP, clientList) =>
    .ok (clientList.map fun other => if other.id = clientP.id then request.fill other else other,
      ⟨.created201, some (prvGetLocationString clientP.id)⟩)
  | .ok (none, clientList) =>
    if !allocated then .ok (clientList, ⟨.internalServerError500, none⟩)
    else
      let clientP := newClient (lwm2mListNewId Registration.id clientList) request.fromSessionH
      .ok (lwm2mListAdd Registration.id clientList (request.fill clientP),
        ⟨.created201, some (prvGetLocationString clientP.id)⟩)

/-- The checks of a Register, in the order of the source. An empty object list is NULL. -/
def checkRegister (now : Int) (fromSessionH : Session) (message : RegistrationMessage) :
    Except Fault (Except CoapCode (RegisterRequest Session)) :=
  match prvGetParameters message.uriQuery with
  | .error fault => .error fault
  | .ok none => .ok (.error .badRequest400)
  | .ok (some parameters) =>
    if message.contentType ≠ lwm2mContentLink ∧ message.contentType ≠ lwm2mContentText then
      .ok (.error .badRequest400)
    else
      match prvDecodeRegisterPayload false message.payload message.payload.length with
      | .error fault => .error fault.fault
      | .ok decoded =>
        match parameters.version, parameters.name, decoded with
        | .missing, _, _ | _, none, _ | _, _, none => .ok (.error .badRequest400)
        | version, some name, some decoded =>
          if decoded.objList = [] then .ok (.error .badRequest400)
          else if version = .unrecognized then .ok (.error .preconditionFailed412)
          else .ok (.ok { name, parameters, decoded, now, fromSessionH })

/-- A client with what an update left of it. -/
def Registration.refresh (clientP : Registration Session) (updated : RegisteredClient Session) :
    Registration Session :=
  { clientP with toRegisteredClient := { updated with internalID := clientP.internalID } }

/-- A POST on the location of a client: `registrationUpdate` on the clients of the list. -/
def registrationUpdateIn (now : Int) (uri : Lwm2mUri) (fromSessionH : Session)
    (message : RegistrationMessage) (clientList : List (Registration Session)) :
    Except Fault (List (Registration Session) × RegistryReply) :=
  let found := fun id =>
    (lwm2mListFind Registration.id id clientList).map Registration.toRegisteredClient
  (registrationUpdate now uri fromSessionH message found).map fun answer =>
    (match answer.clientList uri.objectId with
      | none => clientList
      | some updated => clientList.map fun clientP =>
        if clientP.id = uri.objectId then clientP.refresh updated else clientP,
      ⟨answer.code, none⟩)

/-- A DELETE. -/
def registrationDeregister (uri : Lwm2mUri) (clientList : List (Registration Session)) :
    List (Registration Session) × RegistryReply :=
  if !uri.isSetObject || uri.isSetInstance then (clientList, ⟨.badRequest400, none⟩)
  else
    match lwm2mListFind Registration.id uri.objectId clientList with
    | none => (clientList, ⟨.badRequest400, none⟩)
    | some clientP =>
      ((lwm2mListRemove Registration.id clientP.id clientList).1, ⟨.deleted202, none⟩)

/-- A request on the registration resource: `isBlock1` says that it has the option Block1, and
`complete` that `coap_block1_handler` has its whole payload, which is then that of the message;
`allocated` whether there is memory for a client. -/
structure RegistryRequest (Session : Type) where
  now : Int
  fromSessionH : Session
  code : UInt8
  uri : Lwm2mUri
  isBlock1 : Bool
  complete : Bool
  allocated : Bool
  message : RegistrationMessage

/-- `registration_handleRequest` -/
def registrationHandleRequest (sessionIsEqual : Session → Session → Bool)
    (request : RegistryRequest Session) (clientList : List (Registration Session)) :
    Except Fault (List (Registration Session) × RegistryReply) :=
  if request.now < 0 then .ok (clientList, ⟨.internalServerError500, none⟩)
  else if request.code = coapPost then
    if request.uri.isSetObject then
      registrationUpdateIn request.now request.uri request.fromSessionH request.message clientList
    else
      match checkRegister request.now request.fromSessionH request.message with
      | .error fault => .error fault
      | .ok (.error code) => .ok (clientList, ⟨code, none⟩)
      | .ok (.ok accepted) =>
        registerOperation sessionIsEqual request.isBlock1 request.allocated accepted clientList
  else if request.code = coapDelete then .ok (registrationDeregister request.uri clientList)
  else .ok (clientList, ⟨.badRequest400, none⟩)

/-- The clients behind the search of `lwm2m_handle_packet` for the peer of a request with Block1;
it makes a client where the session has none. -/
def findBlock1Peer (sessionIsEqual : Session → Session → Bool) (request : RegistryRequest Session)
    (clientList : List (Registration Session)) : Option (List (Registration Session)) :=
  match utilsFindClient sessionIsEqual request.fromSessionH clientList with
  | some _ => some clientList
  | none =>
    if !request.allocated then none
    else
      some (lwm2mListAdd Registration.id clientList {
        newClient (lwm2mListNewId Registration.id clientList) request.fromSessionH with
        lifetime := lwm2mDefaultLifetime
        endOfLife := request.now + lwm2mDefaultLifetime.toNat })

/-- The part of `lwm2m_handle_packet` for a request on the registration resource. There is no reply
to a payload that is not complete but that of `coap_block1_handler`. -/
def handleRegistryRequest (sessionIsEqual : Session → Session → Bool)
    (request : RegistryRequest Session) (clientList : List (Registration Session)) :
    Except Fault (List (Registration Session) × Option RegistryReply) :=
  match if request.isBlock1 then findBlock1Peer sessionIsEqual request clientList
    else some clientList with
  | none => .ok (clientList, some ⟨.internalServerError500, none⟩)
  | some clientList =>
    if request.isBlock1 && !request.complete then .ok (clientList, none)
    else (registrationHandleRequest sessionIsEqual request clientList).map fun out =>
      (out.1, some out.2)

/-- The loop of `registration_step` over the clients. -/
def expireRegistrations (currentTime : Int) :
    List (Registration Session) → List (Registration Session) → List (Registration Session)
  | [], clientList => clientList
  | clientP :: nextP, clientList =>
    expireRegistrations currentTime nextP
      (if clientP.endOfLife ≤ currentTime then
        (lwm2mListRemove Registration.id clientP.id clientList).1
      else clientList)

/-- What changes the registry: a request, and `registration_step`. -/
inductive RegistryCall (Session : Type) where
  | request (request : RegistryRequest Session)
  | step (currentTime : Int)

/-- One call: the clients behind it, and the reply. -/
def clientListStep (sessionIsEqual : Session → Session → Bool)
    (clientList : List (Registration Session)) :
    RegistryCall Session → Except Fault (List (Registration Session) × Option RegistryReply)
  | .request request => handleRegistryRequest sessionIsEqual request clientList
  | .step currentTime => .ok (expireRegistrations currentTime clientList clientList, none)

end Wakaama
