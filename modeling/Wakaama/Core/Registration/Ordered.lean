import Wakaama.Core.Registration.Client

/-!
# Ordered registrations (`core/registration.c`)

The servers that have a registration order are registered one after the other: `registration_start`
starts the first of them, and the reply handler starts the next one. What `readFunc` of the Server
object answers is a parameter.
-/

namespace Wakaama

/-- `LWM2M_SERVER_REG_ORDER_ID` and the other resources of the Server object that a registration
reads. -/
def lwm2mServerRegOrderId : UInt16 := 13

def lwm2mServerInitialRegDelayId : UInt16 := 14

def lwm2mServerRegFailBlockId : UInt16 := 15

def lwm2mServerRegFailBootstrapId : UInt16 := 16

def lwm2mServerCommRetryCountId : UInt16 := 17

def lwm2mServerCommRetryTimerId : UInt16 := 18

def lwm2mServerSeqDelayTimerId : UInt16 := 19

def lwm2mServerSeqRetryCountId : UInt16 := 20

/-- The fields of a `lwm2m_server_t` that count registrations. -/
structure RegistrationServer extends Lwm2mServer where
  attempt : UInt8
  sequence : UInt8
  deriving DecidableEq, Repr

/-- What `readFunc` of the Server object answers for an instance and a resource. -/
abbrev ServerReader := UInt16 → UInt16 → CoapCode × Lwm2mData

/-- `lwm2m_context_t`, as far as registrations look at it; without a Server object `serverObj` is
`none`. -/
structure RegistrationContext where
  state : ClientState
  serverList : List RegistrationServer
  serverObj : Option ServerReader

/-- `prv_readUint`. -/
def prvReadUint (objP : ServerReader) (instanceId resourceId : UInt16) : Except CoapCode UInt64 :=
  match objP instanceId resourceId with
  | (.content205, dataP) =>
    match lwm2mDataDecodeUint dataP with
    | some value => .ok value
    | none => .error .badRequest400
  | (result, _) => .error result

/-- `prv_readBoolean`. -/
def prvReadBoolean (objP : ServerReader) (instanceId resourceId : UInt16) : Except CoapCode Bool :=
  match objP instanceId resourceId with
  | (.content205, dataP) =>
    match lwm2mDataDecodeBool dataP with
    | some value => .ok value
    | none => .error .badRequest400
  | (result, _) => .error result

/-- `if (result == COAP_404_NOT_FOUND)`: the value without the resource. -/
def orNotFound {α : Type} (value : α) : Except CoapCode α → Except CoapCode α
  | .error .notFound404 => .ok value
  | result => result

/-- `prv_getRegistrationOrder`: `none` for a server that is not ordered. -/
def prvGetRegistrationOrder (serverObjP : ServerReader) (targetP : RegistrationServer) :
    Except CoapCode (Option UInt64) :=
  orNotFound none ((prvReadUint serverObjP targetP.servObjInstID lwm2mServerRegOrderId).map some)

/-- `prv_getRegistrationFailureBlocking`. -/
def prvGetRegistrationFailureBlocking (serverObjP : ServerReader) (targetP : RegistrationServer) :
    Except CoapCode Bool :=
  orNotFound false (prvReadBoolean serverObjP targetP.servObjInstID lwm2mServerRegFailBlockId)

/-- The implementation limit of the two counters. -/
def retryLimit (limit : UInt64) : UInt8 := if 254 < limit then 254 else limit.toUInt8

/-- `prv_getRegistrationAttemptLimit`: the limit and the delay. -/
def prvGetRegistrationAttemptLimit (serverObjP : ServerReader) (targetP : RegistrationServer) :
    Except CoapCode (UInt8 × UInt64) := do
  let attemptLimit ←
    orNotFound 5 (prvReadUint serverObjP targetP.servObjInstID lwm2mServerCommRetryCountId)
  let attemptDelay ←
    orNotFound 60 (prvReadUint serverObjP targetP.servObjInstID lwm2mServerCommRetryTimerId)
  .ok (retryLimit attemptLimit, attemptDelay)

/-- `prv_getRegistrationSequenceLimit`: the limit and the delay. -/
def prvGetRegistrationSequenceLimit (serverObjP : ServerReader) (targetP : RegistrationServer) :
    Except CoapCode (UInt8 × UInt64) := do
  let sequenceLimit ←
    orNotFound 1 (prvReadUint serverObjP targetP.servObjInstID lwm2mServerSeqRetryCountId)
  let sequenceDelay ←
    orNotFound 86400 (prvReadUint serverObjP targetP.servObjInstID lwm2mServerSeqDelayTimerId)
  .ok (retryLimit sequenceLimit, sequenceDelay)

/-- `prv_getBootstrapOnRegistrationFailure`. -/
def prvGetBootstrapOnRegistrationFailure (serverObjP : ServerReader)
    (targetP : RegistrationServer) : Except CoapCode Bool :=
  orNotFound true (prvReadBoolean serverObjP targetP.servObjInstID lwm2mServerRegFailBootstrapId)

/-- A time with a `uint64_t` added to it. -/
def addDelay (time : Int) (delay : UInt64) : Int := (UInt64.ofInt time + delay).toInt64.toInt

/-- `prv_startRegistration`. -/
def prvStartRegistration (serverObjP : ServerReader) (now : Int) (targetP : RegistrationServer) :
    Except CoapCode RegistrationServer := do
  let delay ←
    orNotFound 0 (prvReadUint serverObjP targetP.servObjInstID lwm2mServerInitialRegDelayId)
  .ok { targetP with registration := addDelay now delay, status := .regHoldOff }

/-- The servers that `registration_start` looks at. -/
def startable (restartFailed : Bool) (targetP : RegistrationServer) : Bool :=
  targetP.status == .deregistered || restartFailed && targetP.status == .regFailed

/-- The loop of `registration_start` from the server at `index` on: the servers, the first of the
ordered ones by its order and index, and `result`. -/
def registrationStartLoop (serverObjP : ServerReader) (now : Int) (restartFailed : Bool) :
    Nat → List RegistrationServer → Option (UInt64 × Nat) →
      List RegistrationServer × Option (UInt64 × Nat) × CoapCode
  | _, [], firstOrdered => ([], firstOrdered, .noError)
  | index, targetP :: next, firstOrdered =>
    if startable restartFailed targetP then
      let targetP := { targetP with attempt := 0, sequence := 0 }
      match prvGetRegistrationOrder serverObjP targetP with
      | .error result => (targetP :: next, firstOrdered, result)
      | .ok (some order) =>
        let firstOrdered :=
          if firstOrdered.all fun first => order < first.1 then some (order, index)
          else firstOrdered
        let (next, out) :=
          registrationStartLoop serverObjP now restartFailed (index + 1) next firstOrdered
        (targetP :: next, out)
      | .ok none =>
        match prvStartRegistration serverObjP now targetP with
        | .error result => (targetP :: next, firstOrdered, result)
        | .ok targetP =>
          let (next, out) :=
            registrationStartLoop serverObjP now restartFailed (index + 1) next firstOrdered
          (targetP :: next, out)
    else
      let (next, out) :=
        registrationStartLoop serverObjP now restartFailed (index + 1) next firstOrdered
      (targetP :: next, out)

/-- The ordered server is started; a delay that cannot be read leaves it as it is. -/
def startAt (serverObjP : ServerReader) (now : Int) (index : Nat)
    (serverList : List RegistrationServer) : List RegistrationServer :=
  serverList.modify index fun targetP =>
    (prvStartRegistration serverObjP now targetP).toOption.getD targetP

/-- `registration_start`; its result is looked at by `lwm2m_step` alone. -/
def registrationStart (now : Int) (restartFailed : Bool) (context : RegistrationContext) :
    RegistrationContext :=
  match context.serverObj with
  | none => context
  | some serverObjP =>
    match registrationStartLoop serverObjP now restartFailed 0 context.serverList none with
    | (serverList, some (_, index), _) =>
      { context with serverList := startAt serverObjP now index serverList }
    | (serverList, none, _) => { context with serverList }

/-- The server that a transaction is about is changed. -/
def RegistrationContext.modifyServer (context : RegistrationContext) (index : Nat)
    (change : RegistrationServer → RegistrationServer) : RegistrationContext :=
  { context with serverList := context.serverList.modify index change }

/-- Fail any other ordered registrations not yet started. -/
def failOrdered (serverObjP : ServerReader) (targetP : RegistrationServer) : RegistrationServer :=
  if targetP.status = .deregistered then
    match prvGetRegistrationOrder serverObjP targetP with
    | .ok (some _) => { targetP with status := .regFailed }
    | _ => targetP
  else targetP

/-- The end of `prv_handleRegistrationSequenceFailure`: another sequence, or none. -/
def nextSequence (serverObjP : ServerReader) (now : Int) (orderedAndBlocking : Bool) (index : Nat)
    (targetP : RegistrationServer) (context : RegistrationContext) : RegistrationContext :=
  match prvGetRegistrationSequenceLimit serverObjP targetP with
  | .error _ => context.modifyServer index fun target => { target with status := .regFailed }
  | .ok (sequenceLimit, sequenceDelay) =>
    if sequenceLimit ≤ targetP.sequence then
      let context := context.modifyServer index fun target => { target with status := .regFailed }
      match prvGetBootstrapOnRegistrationFailure serverObjP targetP with
      | .ok false =>
        if orderedAndBlocking then
          { context with serverList := context.serverList.map (failOrdered serverObjP) }
        else context
      | _ => { context with state := .bootstrapRequired }
    else
      context.modifyServer index fun target =>
        { target with
          registration := addDelay now sequenceDelay, status := .regHoldOff, attempt := 0 }

/-- `prv_handleRegistrationSequenceFailure`. -/
def prvHandleRegistrationSequenceFailure (serverObjP : ServerReader) (now : Int) (index : Nat)
    (targetP : RegistrationServer) (context : RegistrationContext) : RegistrationContext :=
  match prvGetRegistrationOrder serverObjP targetP with
  | .ok (some _) =>
    match prvGetRegistrationFailureBlocking serverObjP targetP with
    | .ok false =>
      let context := if targetP.sequence = 1 then registrationStart now false context else context
      nextSequence serverObjP now false index targetP context
    | .ok true => nextSequence serverObjP now true index targetP context
    | .error _ => nextSequence serverObjP now false index targetP context
  | _ => nextSequence serverObjP now false index targetP context

/-- `1 << (attempt - 1)` as an unsigned number. -/
def attemptFactor (attempt : UInt8) : UInt64 :=
  ((1 : UInt32) <<< (attempt.toUInt32 - 1)).toInt32.toInt64.toUInt64

/-- `value << count` of two `int`s: undefined for a count that is negative or not below the width,
and for a result that is no `int`. -/
def shiftLeft (value count : Int) : Option Int :=
  if 0 ≤ count ∧ count < 32 ∧ value * 2 ^ count.toNat < 2 ^ 31 then some (value * 2 ^ count.toNat)
  else none

/-- `1 << (attempt - 1)` by the rules of the language. -/
def attemptShift (attempt : UInt8) : Option Int := shiftLeft 1 (attempt.toNat - 1)

/-- `prv_handleRegistrationAttemptFailure`. -/
def prvHandleRegistrationAttemptFailure (now : Int) (index : Nat) (targetP : RegistrationServer)
    (context : RegistrationContext) : RegistrationContext :=
  match context.serverObj with
  | none => context.modifyServer index fun target => { target with status := .regFailed }
  | some serverObjP =>
    match prvGetRegistrationAttemptLimit serverObjP targetP with
    | .error _ => context.modifyServer index fun target => { target with status := .regFailed }
    | .ok (attemptLimit, attemptDelay) =>
      if attemptLimit ≤ targetP.attempt then
        prvHandleRegistrationSequenceFailure serverObjP now index targetP context
      else
        context.modifyServer index fun target =>
          { target with
            registration := addDelay now (attemptDelay * attemptFactor targetP.attempt)
            status := .regHoldOff }

/-- Find the next ordered registration to start, behind a registration that went well. -/
def startNext (now : Int) (targetP : RegistrationServer) (context : RegistrationContext) :
    RegistrationContext :=
  match context.serverObj with
  | none => context
  | some serverObjP =>
    match prvGetRegistrationOrder serverObjP targetP with
    | .ok (some _) =>
      if targetP.sequence = 1 then registrationStart now false context
      else
        match prvGetRegistrationFailureBlocking serverObjP targetP with
        | .ok false => registrationStart now false context
        | _ => context
    | _ => context

/-- The reply is that of a block of the payload, or asks for smaller blocks. -/
def continues (packet : ReplyPacket) : Bool :=
  packet.code == .continue231 ||
    packet.code == .entityTooLarge413 && (packet.block1Num.all fun number => number == 0)

/-- `prv_handleRegistrationReply`, for the server at `index`; a timeout comes without a packet. -/
def prvHandleRegistrationReply (now : Int) (index : Nat) (packet : Option ReplyPacket)
    (context : RegistrationContext) : RegistrationContext :=
  match context.serverList[index]? with
  | none => context
  | some server =>
    if server.status = .regPending then
      let context :=
        if 0 ≤ now then context.modifyServer index fun target => { target with registration := now }
        else context
      if packet.any continues then context
      else if packet.any fun packet => packet.code == .created201 then
        startNext now server
          (context.modifyServer index fun target => { target with status := .registered })
      else prvHandleRegistrationAttemptFailure now index server context
    else context

/-- `prv_register`, with its counters. -/
def prvRegisterCounted (env : ServerEnv) (server : RegistrationServer) : RegistrationServer :=
  let registered := { server with toLwm2mServer := prvRegister env server.toLwm2mServer }
  if registered.status = .regPending then
    { registered with
      sequence := if server.attempt = 0 then server.sequence + 1 else server.sequence
      attempt := server.attempt + 1 }
  else registered

/-- The objects of the client: their text plays no part in the order of the registrations. -/
def noObjects : List (Lwm2mObject Unit) := []

/-- The client's part of `registration_step` for one server. -/
def registrationStepCounted (currentTime : Int) (env : ServerEnv) (server : RegistrationServer) :
    RegistrationServer :=
  if server.status = .regHoldOff then
    if server.registration - currentTime ≤ 0 then prvRegisterCounted env server else server
  else
    { server with
      toLwm2mServer :=
        (registrationStepServer noObjects currentTime env server.toLwm2mServer).1 }

/-- What happens to the registrations of a client: `registration_start` when the client is to
register, a step, and the replies. -/
inductive RegistrationCall where
  | start (now : Int)
  | step (currentTime : Int) (env : UInt16 → ServerEnv)
  | reply (now : Int) (index : Nat) (packet : Option ReplyPacket)
  | updateReply (now : Int) (index : Nat) (packet : Option ReplyPacket)

/-- The statuses of the servers before and after a call, and whether it ends a failed sequence of a
server whose registration failures do not block. -/
structure RegistrationReply where
  before : List ServerStatus
  after : List ServerStatus
  openFailure : Bool := false
  deriving DecidableEq, Repr

/-- The reply ends a failed sequence, and the server's failures do not block. -/
def endsOpenSequence (context : RegistrationContext) (index : Nat)
    (packet : Option ReplyPacket) : Bool :=
  match context.serverObj, context.serverList[index]? with
  | some serverObjP, some server =>
    server.status == .regPending &&
      !packet.any (fun packet => continues packet || packet.code == .created201) &&
      ((prvGetRegistrationAttemptLimit serverObjP server).toOption.any fun limits =>
        limits.1 ≤ server.attempt) &&
      (prvGetRegistrationFailureBlocking serverObjP server).toOption == some false
  | _, _ => false

/-- The context after a call. -/
def registrationNext (context : RegistrationContext) : RegistrationCall → RegistrationContext
  | .start now => registrationStart now true context
  | .step currentTime env =>
    { context with
      serverList := context.serverList.map fun server =>
        registrationStepCounted currentTime (env server.secObjInstID) server }
  | .reply now index packet => prvHandleRegistrationReply now index packet context
  | .updateReply now index packet =>
    context.modifyServer index fun server =>
      { server with
        toLwm2mServer := prvHandleRegistrationUpdateReply now packet server.toLwm2mServer }

/-- One call. -/
def registrationCallStep (context : RegistrationContext) (call : RegistrationCall) :
    Except Empty (RegistrationContext × RegistrationReply) :=
  let next := registrationNext context call
  .ok (next,
    { before := context.serverList.map fun server => server.status
      after := next.serverList.map fun server => server.status
      openFailure :=
        match call with
        | .reply _ index packet => endsOpenSequence context index packet
        | _ => false })

/-- The order of a server, `none` for a server that is not ordered. -/
def serverOrder (serverObjP : ServerReader) (server : RegistrationServer) : Option UInt64 :=
  (prvGetRegistrationOrder serverObjP server).toOption.join

/-- The server with the order at an index. -/
def OrderedAt (orders : List (Option UInt64)) (index : Nat) (order : UInt64) : Prop :=
  orders[index]? = some (some order)

/-- `registration_start` puts the server into `STATE_REG_HOLD_OFF`. -/
def startedAt (reply : RegistrationReply) (index : Nat) : Prop :=
  (reply.before[index]? = some .deregistered ∨ reply.before[index]? = some .regFailed) ∧
    reply.after[index]? = some .regHoldOff

end Wakaama
