import Wakaama.Coap.Packet
import Wakaama.Core.Bootstrap

/-!
# The deadlines of a bootstrap (`core/bootstrap.c`)

`registration` is the end of the hold-off time first and the inactivity deadline later.
`bootstrap_step` looks at it, the reply to the bootstrap request and the commands rewrite it.
-/

namespace Wakaama

variable {Node Format : Type}

/-- What `prv_handleBootstrapReply` looks at in the reply. -/
structure BootstrapReplyPacket where
  type : CoapMessageType
  code : CoapCode

/-- `prv_handleResponse`. -/
def prvHandleResponse (now : Int) (bootstrapServer : Lwm2mServer) (code : CoapCode) :
    Lwm2mServer :=
  if code = .changed204 then
    { bootstrapServer with status := .bsPending, registration := now + coapExchangeLifetime }
  else { bootstrapServer with status := .bsFailing }

/-- `prv_handleBootstrapReply`; a timeout comes without a message. -/
def prvHandleBootstrapReply (now : Int) (message : Option BootstrapReplyPacket)
    (bootstrapServer : Lwm2mServer) : Lwm2mServer :=
  if bootstrapServer.status = .bsInitiated then
    match message with
    | none => { bootstrapServer with status := .bsFailing }
    | some packet =>
      if packet.type = .rst then { bootstrapServer with status := .bsFailing }
      else prvHandleResponse now bootstrapServer packet.code
  else bootstrapServer

/-- What the platform does for one server during `bootstrap_step`: whether the query fits its
buffer, the session that `lwm2m_connect_server` opens, and what becomes of `transaction_new` and
`transaction_send`. -/
structure BootstrapEnv where
  queryFits : Bool
  connect : Option Nat
  transactionNew : Bool
  transactionSend : Bool

/-- `prv_requestBootstrap`. -/
def prvRequestBootstrap (env : BootstrapEnv) (bootstrapServer : Lwm2mServer) : Lwm2mServer :=
  if !env.queryFits then { bootstrapServer with status := .bsFailing }
  else
    match bootstrapServer.sessionH.or env.connect with
    | none => { bootstrapServer with status := .bsFailed }
    | some sessionH =>
      let bootstrapServer := { bootstrapServer with sessionH := some sessionH }
      if !env.transactionNew then { bootstrapServer with status := .bsFailing }
      else if env.transactionSend then { bootstrapServer with status := .bsInitiated }
      else bootstrapServer

/-- The body of the loop of `bootstrap_step`: the server and `*timeoutP`. -/
def bootstrapStepServer (currentTime : Int) (env : BootstrapEnv) (targetP : Lwm2mServer)
    (timeoutP : Int) : Lwm2mServer × Int :=
  match targetP.status with
  | .deregistered =>
    ({ targetP with registration := currentTime + targetP.lifetime, status := .bsHoldOff },
      min timeoutP targetP.lifetime)
  | .bsHoldOff =>
    if targetP.registration ≤ currentTime then (prvRequestBootstrap env targetP, timeoutP)
    else (targetP, min timeoutP (targetP.registration - currentTime))
  | .bsPending =>
    if targetP.registration ≤ currentTime then ({ targetP with status := .bsFailing }, 0)
    else (targetP, min timeoutP (targetP.registration - currentTime))
  | .bsFinishing => ({ targetP with sessionH := none, status := .bsFinished }, 0)
  | .bsFailing => ({ targetP with sessionH := none, status := .bsFailed }, 0)
  | _ => (targetP, timeoutP)

/-- The loop of `bootstrap_step`. -/
def bootstrapStepServers (currentTime : Int) (env : UInt16 → BootstrapEnv) :
    List Lwm2mServer → Int → List Lwm2mServer × Int
  | [], timeoutP => ([], timeoutP)
  | targetP :: next, timeoutP =>
    let (targetP, timeoutP) :=
      bootstrapStepServer currentTime (env targetP.secObjInstID) targetP timeoutP
    let (next, timeoutP) := bootstrapStepServers currentTime env next timeoutP
    (targetP :: next, timeoutP)

/-- `bootstrap_step`. -/
def bootstrapStep (context : ClientContext Node) (currentTime : Int)
    (env : UInt16 → BootstrapEnv) (timeoutP : Int) : ClientContext Node × Int :=
  let (bootstrapServerList, timeoutP) :=
    bootstrapStepServers currentTime env context.bootstrapServerList timeoutP
  ({ context with bootstrapServerList }, timeoutP)

/-- `bootstrap_handleCommand` with a method that changes no object; `answer` is the answer of
`prv_handleBootstrapDiscover` or `prv_handleBootstrapRead`, or that to an unknown method. -/
def bootstrapHandleCommandGet (now : Int) (answer : CoapCode) (server : Lwm2mServer)
    (context : ClientContext Node) : ClientContext Node × CoapCode :=
  let (server, result) := prvCheckServerStatus now server
  let context :=
    { context with bootstrapServerList := replaceServer server context.bootstrapServerList }
  if result ≠ .noError then (context, result)
  else if (answer = .deleted202 ∨ answer = .changed204) ∧ server.status ≠ .bsPending then
    ({ setBootstrapStatus server.secObjInstID .bsPending context with state := .bootstrapping },
      answer)
  else (context, answer)

/-- What happens to a client during a bootstrap: a step, the reply to the request that was sent
to a server, a command that changes objects, one that reads them. -/
inductive TimeoutCall (Format : Type) where
  | step (currentTime : Int) (env : UInt16 → BootstrapEnv) (timeoutP : Int)
  | reply (now : Int) (server : UInt16) (message : Option BootstrapReplyPacket)
  | request (now : Int) (fromSessionH : Nat) (request : BootstrapRequest Format)
  | get (now : Int) (fromSessionH : Nat) (answer : CoapCode)

/-- When it happens. -/
def TimeoutCall.now : TimeoutCall Format → Int
  | .step currentTime _ _ => currentTime
  | .reply now _ _ => now
  | .request now _ _ => now
  | .get now _ _ => now

/-- The server whose reply or command was accepted, and the servers that went from
`STATE_BS_PENDING` to `STATE_BS_FAILING` in a step. -/
structure TimeoutReply where
  accepted : Option UInt16 := none
  failed : List UInt16 := []
  deriving DecidableEq

/-- The server whose command passes `prv_checkServerStatus`. -/
def acceptedCommand (context : ClientContext Node) (now : Int) (fromSessionH : Nat) :
    Option UInt16 :=
  ((utilsFindBootstrapServer context fromSessionH).filter fun server =>
    (prvCheckServerStatus now server).2 = .noError).map Lwm2mServer.secObjInstID

/-- The server whose request counts as a command: Bootstrap-Finish ends the bootstrap. -/
def acceptedRequest (context : ClientContext Node) (now : Int) (fromSessionH : Nat) :
    BootstrapRequest Format → Option UInt16
  | .finish => none
  | _ => acceptedCommand context now fromSessionH

/-- The server with the id. -/
def bootstrapServerOf (context : ClientContext Node) (id : UInt16) : Option Lwm2mServer :=
  context.bootstrapServerList.find? fun target => target.secObjInstID == id

/-- The reply starts the bootstrap. -/
def acceptsReply (message : Option BootstrapReplyPacket) (server : Lwm2mServer) : Bool :=
  server.status == .bsInitiated &&
    message.any fun packet => packet.type != .rst && packet.code == .changed204

/-- The servers that a step gives up while it waits for their commands. -/
def timedOut (before after : List Lwm2mServer) : List UInt16 :=
  ((before.zip after).filter fun pair =>
    pair.1.status == .bsPending && pair.2.status == .bsFailing).map fun pair =>
      pair.1.secObjInstID

/-- One event. -/
def timeoutStep (ident : Node → UInt16)
    (parse : Lwm2mUri → List UInt8 → Format → Int × List Lwm2mData) (context : ClientContext Node) :
    TimeoutCall Format → Except Fault (ClientContext Node × TimeoutReply)
  | .step currentTime env timeoutP =>
    let after := (bootstrapStep context currentTime env timeoutP).1
    .ok (after, { failed := timedOut context.bootstrapServerList after.bootstrapServerList })
  | .reply now id message =>
    match bootstrapServerOf context id with
    | none => .ok (context, {})
    | some server =>
      .ok ({ context with
          bootstrapServerList :=
            replaceServer (prvHandleBootstrapReply now message server)
              context.bootstrapServerList },
        { accepted := if acceptsReply message server then some id else none })
  | .request now fromSessionH request =>
    (handleBootstrapRequest ident parse now fromSessionH request context).map fun out =>
      (out.1, { accepted := acceptedRequest context now fromSessionH request })
  | .get now fromSessionH answer =>
    match utilsFindBootstrapServer context fromSessionH with
    | none => .ok (context, {})
    | some server =>
      .ok ((bootstrapHandleCommandGet now answer server context).1,
        { accepted := acceptedCommand context now fromSessionH })

/-- When a reply or a command of the server was accepted last. -/
def lastAccepted (past : List (TimeoutCall Format × TimeoutReply)) (id : UInt16) : Option Int :=
  (past.filterMap fun event =>
    if event.2.accepted = some id then some event.1.now else none).getLast?

/-- A server that fails has been silent for `COAP_EXCHANGE_LIFETIME`. -/
def FailsAfterSilence (past : List (TimeoutCall Format × TimeoutReply))
    (event : TimeoutCall Format × TimeoutReply) : Prop :=
  ∀ id ∈ event.2.failed,
    ∃ last, lastAccepted past id = some last ∧ last + coapExchangeLifetime ≤ event.1.now

/-- A command that finds its server waiting for the end of the hold-off time or for the reply
to its request finds a deadline that is at least `COAP_EXCHANGE_LIFETIME` away. -/
def DeadlineFar (context : ClientContext Node) : TimeoutCall Format → Prop
  | .request now fromSessionH (.command _ _ _ _) | .request now fromSessionH .deleteAll
  | .get now fromSessionH _ =>
    ∀ server ∈ utilsFindBootstrapServer context fromSessionH,
      server.status = .bsHoldOff ∨ server.status = .bsInitiated →
        now + coapExchangeLifetime ≤ server.registration
  | _ => True

end Wakaama
