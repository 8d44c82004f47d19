import Wakaama.Coap.TransactionContext
import Wakaama.Core.BootstrapTimeout
import Wakaama.Core.Notify
import Wakaama.Core.Registration.Ordered

/-!
# The step of a context (`core/liblwm2m.c`, `core/registration.c`, `coap/transaction.c`)

`lwm2m_step` moves the state of the client on and has each module do what is due, and each of
them lowers `*timeoutP` to the time of its next deadline. The callbacks, the sessions and the
clock come in from outside.
-/

namespace Wakaama

variable {Node Session : Type}

/-- `lwm2m_client_t`, as far as its lifetime goes. -/
structure LifetimeClient (Session : Type) where
  internalID : UInt16
  sessionH : Session
  endOfLife : Int

/-- `lwm2m_context_t`. -/
structure StepContext (Node Session : Type) extends RegistrationContext where
  bootstrapServerList : List Lwm2mServer
  objectList : List (Lwm2mObject Node)
  observedList : List Observed
  clientList : List (LifetimeClient Session)
  transactions : TransactionContext Session

/-- What a step meets outside the context: the objects, whether the messages for a server can be
made, the transactions for them, the sessions that `lwm2m_connect_server` opens by the Security
instance, and what `lwm2m_gettime` answers in `registration_start` and for the transaction that is
sent. `serialized` is about the transactions that are sent again. The callback of a transaction
may change anything, the monitoring callback may start transactions. `rounds` bounds the loop of
`transaction_step`, whose list the callbacks may lengthen. -/
structure StepEnv (Node Session : Type) where
  ident : Node → UInt16
  ops : DoubleOps
  observe : ObserveEnv
  queryFits : UInt16 → Bool
  payloadFits : UInt16 → Bool
  connect : UInt16 → Option Nat
  transactionNew : UInt16 → Bool
  request : Lwm2mServer → Transaction Session
  now : Int
  sendTime : Nat → Int
  serialized : Nat → Bool
  sessionIsEqual : Session → Session → Bool
  monitorCallback :
    LifetimeClient Session → TransactionContext Session → TransactionContext Session
  callback : Transaction Session → StepContext Node Session → StepContext Node Session
  rounds : Nat

/-- A request to a server is put into the list and sent; without a clock it is removed again. The
callbacks of these requests are those of the loops below, which know when a request failed. -/
def TransactionContext.request (context : TransactionContext Session)
    (sendTime : Nat → Int) (transacP : Transaction Session) : TransactionContext Session × Bool :=
  let transacP := context.newTransaction transacP
  let context := context.add transacP
  match transactionSendOutcome true (sendTime transacP.address) transacP with
  | .sent transacP => (context.set transacP, true)
  | _ => ((context.remove transacP .none).1, false)

/-- `TransactionContext.request`, if the loop comes to it. -/
def TransactionContext.requestIf (context : TransactionContext Session) (sends : Bool)
    (sendTime : Nat → Int) (transacP : Transaction Session) : TransactionContext Session × Bool :=
  if sends then context.request sendTime transacP else (context, false)

/-- `bootstrap_start` for one server. -/
def bootstrapStartServer (connect : UInt16 → Option Nat) (targetP : Lwm2mServer) : Lwm2mServer :=
  { targetP with
    status := .deregistered
    sessionH := targetP.sessionH.or (connect targetP.secObjInstID) }

/-- `bootstrap_getStatus`. -/
def bootstrapGetStatus (bootstrapServerList : List Lwm2mServer) : ServerStatus :=
  bootstrapServerList.foldl (fun bsStatus targetP =>
    match targetP.status with
    | .bsFinished => if bsStatus = .bsFailed then .bsFinished else bsStatus
    | .bsHoldOff | .bsInitiated | .bsPending | .bsFinishing | .bsFailing => .bsPending
    | _ => bsStatus) .bsFailed

/-- `prv_requestBootstrap` comes to `transaction_send`. -/
def sendsBootstrap (env : StepEnv Node Session) (currentTime : Int) (targetP : Lwm2mServer) :
    Bool :=
  targetP.status == .bsHoldOff && decide (targetP.registration ≤ currentTime) &&
    env.queryFits targetP.secObjInstID &&
    (targetP.sessionH.or (env.connect targetP.secObjInstID)).isSome &&
    env.transactionNew targetP.secObjInstID

/-- The loop of `bootstrap_step`, with the requests it sends. -/
def bootstrapStepLoop (env : StepEnv Node Session) (currentTime : Int) :
    List Lwm2mServer → TransactionContext Session → Int →
      List Lwm2mServer × TransactionContext Session × Int
  | [], transactions, timeoutP => ([], transactions, timeoutP)
  | targetP :: next, transactions, timeoutP =>
    let id := targetP.secObjInstID
    let (transactions, sent) :=
      transactions.requestIf (sendsBootstrap env currentTime targetP) env.sendTime
        (env.request targetP)
    let (targetP, timeoutP) :=
      bootstrapStepServer currentTime
        { queryFits := env.queryFits id
          connect := env.connect id
          transactionNew := env.transactionNew id
          transactionSend := sent } targetP timeoutP
    let (next, out) := bootstrapStepLoop env currentTime next transactions timeoutP
    (targetP :: next, out)

/-- `bootstrap_step`. -/
def StepContext.bootstrapStep (env : StepEnv Node Session) (currentTime : Int)
    (context : StepContext Node Session) (timeoutP : Int) : StepContext Node Session × Int :=
  let (bootstrapServerList, transactions, timeoutP) :=
    bootstrapStepLoop env currentTime context.bootstrapServerList context.transactions timeoutP
  ({ context with bootstrapServerList, transactions }, timeoutP)

/-- `registration_getStatus`. -/
def registrationGetStatus (serverList : List RegistrationServer) : ServerStatus :=
  serverList.foldl (fun regStatus targetP =>
    match targetP.status with
    | .registered | .regUpdateNeeded | .regFullUpdateNeeded | .regUpdatePending | .deregPending =>
      if regStatus = .regFailed then .registered else regStatus
    | .regHoldOff | .regPending => .regPending
    | _ => regStatus) .regFailed

/-- What `registration_start` returns. -/
def registrationStartResult (now : Int) (restartFailed : Bool) (context : RegistrationContext) :
    CoapCode :=
  match context.serverObj with
  | none => .internalServerError500
  | some serverObjP =>
    match registrationStartLoop serverObjP now restartFailed 0 context.serverList none with
    | (serverList, some (_, index), _) =>
      match (serverList[index]?).map (prvStartRegistration serverObjP now) with
      | some (.error result) => result
      | _ => .noError
    | (_, none, result) => result

/-- The counters of a server that was in the list already. -/
def withCounters (serverList : List RegistrationServer) (targetP : Lwm2mServer) :
    RegistrationServer :=
  match serverList.find? fun server =>
      server.secObjInstID == targetP.secObjInstID && !server.dirty with
  | some server => { targetP with attempt := server.attempt, sequence := server.sequence }
  | none => { targetP with attempt := 0, sequence := 0 }

/-- `prv_refreshServerList` on the whole context: whether its result is 0. -/
def StepContext.refreshServerList (ident : Node → UInt16) (context : StepContext Node Session) :
    Except Fault (StepContext Node Session × Bool) :=
  (prvRefreshServerList ident
    { state := context.state
      bootstrapServerList := context.bootstrapServerList
      serverList := context.serverList.map RegistrationServer.toLwm2mServer
      objectList := context.objectList }).map fun out =>
    ({ context with
        bootstrapServerList := out.1.bootstrapServerList
        serverList := out.1.serverList.map (withCounters context.serverList) }, out.2)

/-- The case `STATE_BOOTSTRAP_REQUIRED` of `lwm2m_step`: the context, `*timeoutP` and what is
returned, if that is not 0. -/
def stepBootstrapRequired (env : StepEnv Node Session) (currentTime : Int)
    (context : StepContext Node Session) (timeoutP : Int) :
    StepContext Node Session × Int × CoapCode :=
  if context.bootstrapServerList.isEmpty then (context, timeoutP, .serviceUnavailable503)
  else
    let context :=
      { context with
        bootstrapServerList :=
          context.bootstrapServerList.map (bootstrapStartServer env.connect)
        state := .bootstrapping }
    let (context, timeoutP) := context.bootstrapStep env currentTime timeoutP
    (context, timeoutP, .noError)

/-- The case `STATE_REGISTER_REQUIRED`. -/
def stepRegisterRequired (env : StepEnv Node Session) (context : StepContext Node Session)
    (timeoutP : Int) : StepContext Node Session × Int × CoapCode :=
  let result := registrationStartResult env.now true context.toRegistrationContext
  let started := registrationStart env.now true context.toRegistrationContext
  let context := { context with toRegistrationContext := started }
  if result = .noError then ({ context with state := .registering }, timeoutP, .noError)
  else (context, timeoutP, result)

/-- The case `STATE_INITIAL`. -/
def stepInitial (env : StepEnv Node Session) (currentTime : Int)
    (context : StepContext Node Session) (timeoutP : Int) :
    Except Fault (StepContext Node Session × Int × CoapCode) :=
  (context.refreshServerList env.ident).map fun (context, found) =>
    if !found then (context, timeoutP, .serviceUnavailable503)
    else if context.serverList.isEmpty then
      stepBootstrapRequired env currentTime { context with state := .bootstrapRequired } timeoutP
    else stepRegisterRequired env { context with state := .registerRequired } timeoutP

/-- The switch over the state of the client. -/
def stepState (env : StepEnv Node Session) (currentTime : Int)
    (context : StepContext Node Session) (timeoutP : Int) :
    Except Fault (StepContext Node Session × Int × CoapCode) :=
  match context.state with
  | .initial => stepInitial env currentTime context timeoutP
  | .bootstrapRequired => .ok (stepBootstrapRequired env currentTime context timeoutP)
  | .bootstrapping =>
    match bootstrapGetStatus context.bootstrapServerList with
    | .bsFinished => stepInitial env currentTime { context with state := .initial } timeoutP
    | .bsFailed => .ok (context, timeoutP, .serviceUnavailable503)
    | _ =>
      let (context, timeoutP) := context.bootstrapStep env currentTime timeoutP
      .ok (context, timeoutP, .noError)
  | .registerRequired => .ok (stepRegisterRequired env context timeoutP)
  | .registering =>
    match registrationGetStatus context.serverList with
    | .registered => .ok ({ context with state := .ready }, timeoutP, .noError)
    | .regFailed =>
      .ok (stepBootstrapRequired env currentTime { context with state := .bootstrapRequired }
        timeoutP)
    | _ => .ok (context, timeoutP, .noError)
  | .ready =>
    if registrationGetStatus context.serverList = .regFailed then
      .ok (stepBootstrapRequired env currentTime { context with state := .bootstrapRequired }
        timeoutP)
    else .ok (context, timeoutP, .noError)

/-- `observe_step` on the whole context. -/
def StepContext.observeStep (env : StepEnv Node Session) (currentTime : Int)
    (context : StepContext Node Session) (timeoutP : Int) :
    Except Fault (StepContext Node Session × Int) :=
  (ObserveContext.observeStep env.ops env.observe
    ⟨context.observedList, context.transactions.nextMID⟩ currentTime timeoutP).map fun out =>
    ({ context with
        observedList := out.1.observedList
        transactions := { context.transactions with nextMID := out.1.nextMID } }, out.2.2)

/-- `prv_register` or `prv_updateRegistration` comes to `transaction_send`. -/
def sendsRegistration (env : StepEnv Node Session) (currentTime : Int)
    (targetP : RegistrationServer) : Bool :=
  env.payloadFits targetP.secObjInstID &&
    match targetP.status with
    | .regHoldOff =>
      decide (targetP.registration ≤ currentTime) &&
        (targetP.sessionH.or (env.connect targetP.secObjInstID)).isSome
    | .registered => decide (nextUpdateTime targetP.toLwm2mServer ≤ currentTime)
    | .regUpdateNeeded | .regFullUpdateNeeded => true
    | _ => false

/-- What becomes of the messages for a server. -/
def registrationEnv (env : StepEnv Node Session) (sent : Bool) (id : UInt16) : ServerEnv where
  update := if !env.payloadFits id then .notSent else if sent then .sent else .sentFailed
  registerPayload := env.payloadFits id
  connect := env.connect id
  registerSend := sent

/-- `if (interval < *timeoutP) *timeoutP = interval;` for a deadline that lies ahead. -/
def lowerTimeout (currentTime deadline timeoutP : Int) : Int :=
  if deadline ≤ currentTime then timeoutP else min timeoutP (deadline - currentTime)

/-- `*timeoutP` behind one server in `registration_step`. -/
def registrationTimeout (currentTime : Int) (targetP : RegistrationServer) (timeoutP : Int) :
    Int :=
  match targetP.status with
  | .regHoldOff => lowerTimeout currentTime targetP.registration timeoutP
  | .registered => lowerTimeout currentTime (nextUpdateTime targetP.toLwm2mServer) timeoutP
  | _ => timeoutP

/-- The loop of `registration_step` over the servers, with the requests it sends. -/
def registrationStepLoop (env : StepEnv Node Session) (currentTime : Int) :
    List RegistrationServer → TransactionContext Session → Int →
      List RegistrationServer × TransactionContext Session × Int
  | [], transactions, timeoutP => ([], transactions, timeoutP)
  | targetP :: next, transactions, timeoutP =>
    let (transactions, sent) :=
      transactions.requestIf (sendsRegistration env currentTime targetP) env.sendTime
        (env.request targetP.toLwm2mServer)
    let stepped :=
      registrationStepCounted currentTime (registrationEnv env sent targetP.secObjInstID) targetP
    let (next, out) :=
      registrationStepLoop env currentTime next transactions
        (registrationTimeout currentTime targetP timeoutP)
    (stepped :: next, out)

/-- The loop of `registration_step` over the clients. -/
def clientExpiryLoop (env : StepEnv Node Session) (currentTime : Int) :
    List (LifetimeClient Session) → StepContext Node Session → Int →
      Except Fault (StepContext Node Session × Int)
  | [], context, timeoutP => .ok (context, timeoutP)
  | clientP :: next, context, timeoutP =>
    if clientP.endOfLife ≤ currentTime then
      let transactions := env.monitorCallback clientP context.transactions
      match removeClientLoop env.sessionIsEqual clientP.sessionH transactions.transactionList
          (transactions, .none) with
      | .error fault => .error fault
      | .ok (transactions, _) =>
        clientExpiryLoop env currentTime next
          { context with
            clientList :=
              (lwm2mListRemove LifetimeClient.internalID clientP.internalID context.clientList).1
            transactions } timeoutP
    else
      clientExpiryLoop env currentTime next context
        (lowerTimeout currentTime clientP.endOfLife timeoutP)

/-- `registration_step`. -/
def StepContext.registrationStep (env : StepEnv Node Session) (currentTime : Int)
    (context : StepContext Node Session) (timeoutP : Int) :
    Except Fault (StepContext Node Session × Int) :=
  let (serverList, transactions, timeoutP) :=
    registrationStepLoop env currentTime context.serverList context.transactions timeoutP
  clientExpiryLoop env currentTime context.clientList { context with serverList, transactions }
    timeoutP

/-- `transacP->next`, for the transaction at the address. -/
def nextTransaction (address : Nat) : List (Transaction Session) → Option Nat
  | [] => none
  | transacP :: next =>
    if transacP.address = address then next.head?.map Transaction.address
    else nextTransaction address next

/-- The context with a transaction removed. -/
def StepContext.removeTransaction (context : StepContext Node Session)
    (transacP : Transaction Session) : StepContext Node Session :=
  { context with transactions := (context.transactions.remove transacP .none).1 }

/-- The body of the loop of `transaction_step`. -/
def transactionStepOne (env : StepEnv Node Session) (currentTime : Int)
    (transacP : Transaction Session) (context : StepContext Node Session) (timeoutP : Int) :
    StepContext Node Session × Int :=
  if currentTime < transacP.retransTime then
    (context, min timeoutP (transacP.retransTime - currentTime))
  else
    match transactionSendOutcome (env.serialized transacP.address)
        (env.sendTime transacP.address) transacP with
    | .failed => (context.removeTransaction transacP, 1)
    | .sent transacP =>
      ({ context with transactions := context.transactions.set transacP },
        min timeoutP
          (if currentTime < transacP.retransTime then transacP.retransTime - currentTime else 1))
    | .expired _ =>
      let context := if transacP.callback then env.callback transacP context else context
      (context.removeTransaction transacP, 1)

/-- The loop of `transaction_step` from the transaction at an address on. -/
def transactionStepLoop (env : StepEnv Node Session) (currentTime : Int) :
    Nat → Option Nat → StepContext Node Session → Int →
      Except Fault (StepContext Node Session × Int)
  | _, none, context, timeoutP => .ok (context, timeoutP)
  | 0, some _, _, _ => .error .endless
  | rounds + 1, some address, context, timeoutP =>
    match context.transactions.transactionList.find? fun transacP =>
        transacP.address == address with
    | none => .error .useAfterFree
    | some transacP =>
      if transacP.freed then .error .useAfterFree
      else
        let nextP := nextTransaction address context.transactions.transactionList
        let (context, timeoutP) := transactionStepOne env currentTime transacP context timeoutP
        transactionStepLoop env currentTime rounds nextP context timeoutP

/-- `transaction_step`. -/
def StepContext.transactionStep (env : StepEnv Node Session) (currentTime : Int)
    (context : StepContext Node Session) (timeoutP : Int) :
    Except Fault (StepContext Node Session × Int) :=
  transactionStepLoop env currentTime env.rounds
    (context.transactions.transactionList.head?.map Transaction.address) context timeoutP

/-- `lwm2m_step` at a time: the context, `*timeoutP` and what is returned. With another result
than 0 the modules had no turn. -/
def lwm2mStep (env : StepEnv Node Session) (currentTime : Int)
    (context : StepContext Node Session) (timeoutP : Int) :
    Except Fault (StepContext Node Session × Int × CoapCode) :=
  if currentTime < 0 then .ok (context, timeoutP, .internalServerError500)
  else do
    let (context, timeoutP, result) ← stepState env currentTime context timeoutP
    if result ≠ .noError then .ok (context, timeoutP, result)
    else
      let (context, timeoutP) ← context.observeStep env currentTime timeoutP
      let (context, timeoutP) ← context.registrationStep env currentTime timeoutP
      let (context, timeoutP) ← context.transactionStep env currentTime timeoutP
      .ok (context, timeoutP, .noError)

/-- The deadlines that wait for a later step: the maximum period of an active watcher and the
minimum period that holds a change of it back, a registration that is held off, the next update of
a registration, the end of a client's life and the retransmission of a transaction. -/
inductive Deadline (context : StepContext Node Session) : Int → Prop where
  | maxPeriod {observed : Observed} {watcher : Watcher} {deadline : Int}
      (hobserved : observed ∈ context.observedList) (hwatcher : watcher ∈ observed.watcherList)
      (hactive : watcher.active = true) (hdeadline : maxPeriodEnd watcher = some deadline) :
      Deadline context deadline
  | minPeriod {observed : Observed} {watcher : Watcher} {deadline : Int}
      (hobserved : observed ∈ context.observedList) (hwatcher : watcher ∈ observed.watcherList)
      (hactive : watcher.active = true) (hupdate : watcher.update = true)
      (hdeadline : minPeriodEnd watcher = some deadline) : Deadline context deadline
  | holdOff {targetP : RegistrationServer} (hserver : targetP ∈ context.serverList)
      (hstatus : targetP.status = .regHoldOff) : Deadline context targetP.registration
  | update {targetP : RegistrationServer} (hserver : targetP ∈ context.serverList)
      (hstatus : targetP.status = .registered) :
      Deadline context (nextUpdateTime targetP.toLwm2mServer)
  | expiry {clientP : LifetimeClient Session} (hclient : clientP ∈ context.clientList) :
      Deadline context clientP.endOfLife
  | retransmission {transacP : Transaction Session}
      (htransaction : transacP ∈ context.transactions.transactionList) :
      Deadline context transacP.retransTime

/-- The deadline is not earlier than the wake-up, unless it has passed. -/
def WakesBy (currentTime timeoutP deadline : Int) : Prop :=
  currentTime < deadline → currentTime + timeoutP ≤ deadline

/-- No active watcher has a maximum period of 0. -/
def MaxPeriodsPositive (observedList : List Observed) : Prop :=
  ∀ observed ∈ observedList, ∀ watcher ∈ observed.watcherList, watcher.active = true →
    ∀ periodEnd ∈ maxPeriodEnd watcher, watcher.lastTime < periodEnd

end Wakaama
