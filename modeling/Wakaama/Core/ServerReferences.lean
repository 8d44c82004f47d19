import Wakaama.Core.Observe
import Wakaama.Core.Registration.Client

/-!
# Pointers to the servers of a client (`core/liblwm2m.c`, `core/observe.c`, `core/registration.c`)

The servers are owned by `serverList` and `bootstrapServerList`; watchers and the callbacks of
transactions point to them. A server is given by its address, which is never used again, and
following the pointer to a server that is in neither list is a fault. What the objects and the
network contribute (the servers that are read, what is sent, what is answered, which watchers
are to be notified) comes with each event.
-/

namespace Wakaama

/-- `lwm2m_server_t` at its address, and whether its `location` is set. -/
structure ServerCell where
  address : Nat
  server : Lwm2mServer
  location : Bool
  deriving DecidableEq, Repr

/-- The callbacks that follow a pointer to a server. -/
inductive ServerCallback where
  | handleRegistrationReply
  | handleRegistrationUpdateReply
  | handleDeregistrationReply
  | handleBootstrapReply
  deriving DecidableEq, Repr

/-- `lwm2m_transaction_t` of such a callback; `server` is `registration_data_t.server` or the
`userData` itself. -/
structure ServerTransaction where
  id : Nat
  callback : ServerCallback
  server : Nat
  deriving DecidableEq, Repr

/-- `lwm2m_watcher_t`, with its pointer to a server. -/
structure ServerWatcher where
  server : Nat
  active : Bool
  lastMid : UInt16
  deriving DecidableEq, Repr

/-- `lwm2m_observed_t`. -/
structure ServerObserved where
  uri : Lwm2mUri
  watcherList : List ServerWatcher
  deriving DecidableEq, Repr

/-- The part of `lwm2m_context_t` that owns servers or points to them. -/
structure ClientMemory where
  bootstrapServerList : List ServerCell
  serverList : List ServerCell
  observedList : List ServerObserved
  transactionList : List ServerTransaction
  nextAddress : Nat
  nextTransaction : Nat
  deriving DecidableEq, Repr

/-- The key of a server list. -/
def ServerCell.id (cell : ServerCell) : UInt16 := cell.server.secObjInstID

namespace ClientMemory

/-- The servers of both lists. -/
def servers (memory : ClientMemory) : List ServerCell :=
  memory.bootstrapServerList ++ memory.serverList

/-- The server a pointer points to. -/
def useServer (memory : ClientMemory) (address : Nat) : Except Fault ServerCell :=
  match memory.servers.find? fun cell => cell.address == address with
  | some cell => .ok cell
  | none => .error .useAfterFree

/-- A server written through a pointer. -/
def writeServer (memory : ClientMemory) (cell : ServerCell) : ClientMemory :=
  let write (target : ServerCell) := if target.address = cell.address then cell else target
  { memory with
    bootstrapServerList := memory.bootstrapServerList.map write
    serverList := memory.serverList.map write }

/-- The first server of `serverList` with the session. -/
def utilsFindServer (memory : ClientMemory) (fromSessionH : Nat) : Option ServerCell :=
  memory.serverList.find? fun cell => cell.server.sessionH == some fromSessionH

/-- A transaction put on the list. -/
def addTransaction (memory : ClientMemory) (callback : ServerCallback) (server : Nat) :
    ClientMemory :=
  { memory with
    transactionList :=
      memory.transactionList ++ [{ id := memory.nextTransaction, callback, server }]
    nextTransaction := memory.nextTransaction + 1 }

/-- The entry that `object_getServers` adds for a Security instance, a bootstrap server or not. -/
def addServer (memory : ClientMemory) (isBootstrap : Bool) (server : Lwm2mServer) : ClientMemory :=
  let cell : ServerCell := { address := memory.nextAddress, server, location := false }
  let memory := { memory with nextAddress := memory.nextAddress + 1 }
  if isBootstrap then
    { memory with
      bootstrapServerList := lwm2mListAdd ServerCell.id memory.bootstrapServerList cell }
  else { memory with serverList := lwm2mListAdd ServerCell.id memory.serverList cell }

/-- `object_getServers`, which finds `found`. -/
def objectGetServers (memory : ClientMemory) (found : List (Bool × Lwm2mServer)) : ClientMemory :=
  found.foldl (fun memory entry => memory.addServer entry.1 entry.2) memory

/-- `prv_tagServer` and `prv_tagAllServer`. -/
def tagServers (memory : ClientMemory) (tagged : UInt16 → Bool) : ClientMemory :=
  let tag (cell : ServerCell) :=
    if tagged cell.id then { cell with server := { cell.server with dirty := true } } else cell
  { memory with
    bootstrapServerList := memory.bootstrapServerList.map tag
    serverList := memory.serverList.map tag }

/-- What `registration_start`, `bootstrap_start` and `lwm2m_update_registration` do: they write
to servers of the lists. -/
def writeServers (memory : ClientMemory) (written : ServerCell → Lwm2mServer) : ClientMemory :=
  { memory with
    bootstrapServerList :=
      memory.bootstrapServerList.map fun cell => { cell with server := written cell }
    serverList := memory.serverList.map fun cell => { cell with server := written cell } }

/-- The servers of a list that `prv_refreshServerList` keeps. -/
def keepClean (cells : List ServerCell) : List ServerCell :=
  cells.foldl (fun head cell =>
    if cell.server.dirty then head else lwm2mListAdd ServerCell.id head cell) []

/-- `prv_refreshServerList`. `prv_deleteServer` frees the dirty servers and nothing else. -/
def prvRefreshServerList (memory : ClientMemory) (found : List (Bool × Lwm2mServer)) :
    ClientMemory :=
  objectGetServers
    { memory with
      bootstrapServerList := (keepClean memory.bootstrapServerList).map fun cell =>
        { cell with server := { cell.server with status := .deregistered } }
      serverList := keepClean memory.serverList } found

/-- The callback of the transaction that `registration_step` leaves for a server, if any. -/
def registrationSends (currentTime : Int) (env : ServerEnv) (server : Lwm2mServer) :
    Option ServerCallback :=
  let update := if env.update = .sent then some .handleRegistrationUpdateReply else none
  match server.status with
  | .regHoldOff =>
    if server.registration - currentTime ≤ 0 ∧ env.registerPayload ∧
        (server.sessionH.or env.connect).isSome ∧ env.registerSend then
      some .handleRegistrationReply
    else none
  | .registered => if nextUpdateTime server - currentTime ≤ 0 then update else none
  | .regUpdateNeeded | .regFullUpdateNeeded => update
  | _ => none

/-- One server of `serverList` in `registration_step`. -/
def registrationStepCell (currentTime : Int) (env : UInt16 → ServerEnv) (memory : ClientMemory)
    (cell : ServerCell) : ClientMemory :=
  let stepped := (registrationStepServer ([] : List (Lwm2mObject Unit)) currentTime (env cell.id)
    cell.server).1
  let memory := memory.writeServer { cell with server := stepped }
  match registrationSends currentTime (env cell.id) cell.server with
  | some callback => memory.addTransaction callback cell.address
  | none => memory

/-- The client's part of `registration_step`. -/
def registrationStep (memory : ClientMemory) (currentTime : Int) (env : UInt16 → ServerEnv) :
    ClientMemory :=
  memory.serverList.foldl (registrationStepCell currentTime env) memory

/-- The statuses in which `registration_deregister` sends nothing. -/
def notRegistered : ServerStatus → Bool
  | .deregistered | .regPending | .deregPending | .regFailed => true
  | _ => false

/-- `registration_deregister` leaves a transaction for the server; `sent` is what becomes of
`transaction_send`. -/
def deregistrationSends (sent : UInt16 → Bool) (cell : ServerCell) : Bool :=
  !notRegistered cell.server.status && cell.location && cell.server.sessionH.isSome && sent cell.id

/-- `registration_deregister`. -/
def registrationDeregister (sent : UInt16 → Bool) (memory : ClientMemory) (cell : ServerCell) :
    ClientMemory :=
  if deregistrationSends sent cell then
    (memory.writeServer { cell with server := { cell.server with status := .deregPending } }
      ).addTransaction .handleDeregistrationReply cell.address
  else memory

/-- `lwm2m_deregister`. -/
def lwm2mDeregister (memory : ClientMemory) (sent : UInt16 → Bool) : ClientMemory :=
  memory.serverList.foldl (registrationDeregister sent) memory

/-- How far `prv_requestBootstrap` gets. -/
inductive RequestOutcome where
  | failing
  | notConnected
  | sendFailed
  | sent
  deriving DecidableEq, Repr

/-- One server of `bootstrapServerList` in `bootstrap_step`. -/
def bootstrapStepCell (currentTime : Int) (requested : UInt16 → RequestOutcome)
    (memory : ClientMemory) (cell : ServerCell) : ClientMemory :=
  let server := cell.server
  let put (server : Lwm2mServer) := memory.writeServer { cell with server }
  match server.status with
  | .deregistered =>
    put { server with registration := currentTime + server.lifetime, status := .bsHoldOff }
  | .bsHoldOff =>
    if server.registration ≤ currentTime then
      match requested cell.id with
      | .failing => put { server with status := .bsFailing }
      | .notConnected => put { server with status := .bsFailed }
      | .sendFailed => memory
      | .sent =>
        (put { server with status := .bsInitiated }).addTransaction .handleBootstrapReply
          cell.address
    else memory
  | .bsPending =>
    if server.registration ≤ currentTime then put { server with status := .bsFailing } else memory
  | .bsFinishing => put { server with status := .bsFinished, sessionH := none }
  | .bsFailing => put { server with status := .bsFailed, sessionH := none }
  | _ => memory

/-- `bootstrap_step`. -/
def bootstrapStep (memory : ClientMemory) (currentTime : Int)
    (requested : UInt16 → RequestOutcome) : ClientMemory :=
  memory.bootstrapServerList.foldl (bootstrapStepCell currentTime requested) memory

/-- What a callback is given besides the server: the time, the packet (none for a timeout and at
the end), whether it names a location, the status of a registration attempt that failed, and
the status of the servers whose registration is started or given up with it. -/
structure CallbackInput where
  now : Int
  packet : Option ReplyPacket
  locationPath : Bool
  attemptFailed : ServerStatus
  restarted : UInt16 → Option ServerStatus

/-- The reply asks for the next block, or for blocks. -/
def continues (packet : ReplyPacket) : Bool :=
  packet.code == .continue231 || packet.code == .entityTooLarge413 &&
    (packet.block1Num.isNone || packet.block1Num == some 0)

/-- `prv_handleRegistrationReply`, on the server. -/
def handleRegistrationReply (input : CallbackInput) (cell : ServerCell) : ServerCell :=
  if cell.server.status = .regPending then
    let server :=
      if 0 ≤ input.now then { cell.server with registration := input.now } else cell.server
    match input.packet with
    | none => { cell with server := { server with status := input.attemptFailed } }
    | some packet =>
      if continues packet then { cell with server }
      else if packet.code = .created201 then
        { cell with
          server := { server with status := .registered }
          location := input.locationPath }
      else { cell with server := { server with status := input.attemptFailed } }
  else cell

/-- `prv_handleDeregistrationReply`. -/
def handleDeregistrationReply (cell : ServerCell) : ServerCell :=
  if cell.server.status = .deregPending then
    { cell with server := { cell.server with status := .deregistered } }
  else cell

/-- `prv_handleBootstrapReply`. -/
def handleBootstrapReply (input : CallbackInput) (cell : ServerCell) : ServerCell :=
  if cell.server.status = .bsInitiated then
    match input.packet.map ReplyPacket.code with
    | some .changed204 =>
      { cell with
        server :=
          { cell.server with status := .bsPending, registration := input.now + 247 } }
    | _ => { cell with server := { cell.server with status := .bsFailing } }
  else cell

/-- A callback, on the server it points to. -/
def callbackOn (input : CallbackInput) (cell : ServerCell) : ServerCallback → ServerCell
  | .handleRegistrationReply => handleRegistrationReply input cell
  | .handleRegistrationUpdateReply =>
    { cell with server := prvHandleRegistrationUpdateReply input.now input.packet cell.server }
  | .handleDeregistrationReply => handleDeregistrationReply cell
  | .handleBootstrapReply => handleBootstrapReply input cell

/-- `registration_start` and the failing of ordered registrations, on the servers that wait. -/
def restartServers (restarted : UInt16 → Option ServerStatus) (memory : ClientMemory) :
    ClientMemory :=
  { memory with
    serverList := memory.serverList.map fun cell =>
      if cell.server.status = .deregistered then
        { cell with
          server := { cell.server with status := (restarted cell.id).getD .deregistered } }
      else cell }

/-- The callback of a transaction. -/
def runCallback (input : CallbackInput) (memory : ClientMemory)
    (transaction : ServerTransaction) : Except Fault ClientMemory :=
  match memory.useServer transaction.server with
  | .error fault => .error fault
  | .ok cell =>
    let memory := memory.writeServer (callbackOn input cell transaction.callback)
    .ok (if transaction.callback = .handleRegistrationReply then
        restartServers input.restarted memory else memory)

/-- A transaction ends: its callback runs and it is removed. -/
def endTransaction (memory : ClientMemory) (id : Nat) (input : CallbackInput) :
    Except Fault ClientMemory :=
  match memory.transactionList.find? fun transaction => transaction.id == id with
  | none => .ok memory
  | some transaction =>
    (runCallback input memory transaction).map fun memory =>
      { memory with
        transactionList := memory.transactionList.filter fun other => other.id != id }

/-- `prv_create_next_block_transaction`: a transaction with the same callback and data. -/
def nextBlock (memory : ClientMemory) (id : Nat) : ClientMemory :=
  match memory.transactionList.find? fun transaction => transaction.id == id with
  | none => memory
  | some transaction => memory.addTransaction transaction.callback transaction.server

/-- `prv_getWatcher` and what is then written to the watcher. -/
def getWatcher (uri : Lwm2mUri) (server : Nat) (write : ServerWatcher → ServerWatcher) :
    List ServerObserved → Option (List ServerObserved)
  | [] => none
  | observed :: next =>
    if matchesUri uri observed.uri then
      match splitFirst (fun watcher => watcher.server == server) observed.watcherList with
      | some (before, watcher, after) =>
        some ({ observed with watcherList := before ++ write watcher :: after } :: next)
      | none =>
        let watcher := write { server, active := false, lastMid := 0 }
        some ({ observed with watcherList := watcher :: observed.watcherList } :: next)
    else (getWatcher uri server write next).map fun next => observed :: next

/-- `prv_getWatcher` on the whole list: an entry that is not there is put in front. -/
def watch (memory : ClientMemory) (uri : Lwm2mUri) (server : Nat)
    (write : ServerWatcher → ServerWatcher) : ClientMemory :=
  match getWatcher uri server write memory.observedList with
  | some observedList => { memory with observedList }
  | none =>
    { memory with
      observedList :=
        { uri, watcherList := [write { server, active := false, lastMid := 0 }] } ::
          memory.observedList }

/-- `observe_cancel` in one entry: the watchers without the first one that has the message id and
whose server has the session, if there is one. The server is only looked at where the message id
is right. -/
def cancelWatcher (memory : ClientMemory) (mid : UInt16) (fromSessionH : Option Nat) :
    List ServerWatcher → Except Fault (Option (List ServerWatcher))
  | [] => .ok none
  | watcher :: next =>
    if watcher.lastMid = mid then
      match memory.useServer watcher.server with
      | .error fault => .error fault
      | .ok cell =>
        if cell.server.sessionH = fromSessionH then .ok (some next)
        else
          (cancelWatcher memory mid fromSessionH next).map
            (Option.map fun next => watcher :: next)
    else
      (cancelWatcher memory mid fromSessionH next).map (Option.map fun next => watcher :: next)

/-- The walk of `observe_cancel` over the entries. -/
def cancelFrom (memory : ClientMemory) (mid : UInt16) (fromSessionH : Option Nat) :
    List ServerObserved → Except Fault (List ServerObserved)
  | [] => .ok []
  | observed :: next =>
    match cancelWatcher memory mid fromSessionH observed.watcherList with
    | .error fault => .error fault
    | .ok (some []) => .ok next
    | .ok (some watcherList) => .ok ({ observed with watcherList } :: next)
    | .ok none =>
      (cancelFrom memory mid fromSessionH next).map fun next => observed :: next

/-- `observe_cancel`. -/
def observeCancel (memory : ClientMemory) (mid : UInt16) (fromSessionH : Option Nat) :
    Except Fault ClientMemory :=
  (cancelFrom memory mid fromSessionH memory.observedList).map fun observedList =>
    { memory with observedList }

/-- The cancellation in `observe_handleRequest`: the watcher of the server has its message id
cancelled. -/
def cancelRequest (memory : ClientMemory) (uri : Lwm2mUri) (cell : ServerCell) :
    Except Fault ClientMemory :=
  match memory.observedList.find? fun observed => matchesUri uri observed.uri with
  | none => .ok memory
  | some observed =>
    match observed.watcherList.find? fun watcher => watcher.server == cell.address with
    | none => .ok memory
    | some watcher => memory.observeCancel watcher.lastMid cell.server.sessionH

/-- `observe_clear`. -/
def observeClear (memory : ClientMemory) (uri : Lwm2mUri) : ClientMemory :=
  { memory with
    observedList := memory.observedList.filter fun observed =>
      !(observed.uri.objectId == uri.objectId &&
        (!uri.isSetInstance || observed.uri.instanceId == uri.instanceId)) }

/-- `observe_step` in one entry. A watcher that is to be notified, `notified` giving the message
id, has the session of its server looked up. -/
def notifyWatchers (memory : ClientMemory) (notified : Nat → Option UInt16) :
    List ServerWatcher → Except Fault (List ServerWatcher)
  | [] => .ok []
  | watcher :: next =>
    match (if watcher.active then notified watcher.server else none) with
    | none => (notifyWatchers memory notified next).map fun next => watcher :: next
    | some mid =>
      match memory.useServer watcher.server with
      | .error fault => .error fault
      | .ok _ =>
        (notifyWatchers memory notified next).map fun next =>
          { watcher with lastMid := mid } :: next

/-- The walk of `observe_step` over the entries. -/
def notifyFrom (memory : ClientMemory) (notified : Lwm2mUri → Nat → Option UInt16) :
    List ServerObserved → Except Fault (List ServerObserved)
  | [] => .ok []
  | observed :: next =>
    match notifyWatchers memory (notified observed.uri) observed.watcherList with
    | .error fault => .error fault
    | .ok watcherList =>
      (notifyFrom memory notified next).map fun next => { observed with watcherList } :: next

/-- `observe_step`. -/
def observeStep (memory : ClientMemory) (notified : Lwm2mUri → Nat → Option UInt16) :
    Except Fault ClientMemory :=
  (notifyFrom memory notified memory.observedList).map fun observedList =>
    { memory with observedList }

/-- `prv_deleteTransactionList`: the callbacks run without a packet. -/
def deleteTransactions (input : CallbackInput) :
    List ServerTransaction → ClientMemory → Except Fault ClientMemory
  | [], memory => .ok { memory with transactionList := [] }
  | transaction :: next, memory =>
    match runCallback input memory transaction with
    | .error fault => .error fault
    | .ok memory => deleteTransactions input next memory

/-- `lwm2m_close`: the servers and the observations are freed before the transactions. -/
def lwm2mClose (memory : ClientMemory) (sent : UInt16 → Bool) (input : CallbackInput) :
    Except Fault ClientMemory :=
  let memory := memory.lwm2mDeregister sent
  deleteTransactions input memory.transactionList
    { memory with bootstrapServerList := [], serverList := [], observedList := [] }

end ClientMemory

/-- What happens to a client: its steps, the bootstrap commands and their refresh, requests of a
registered server, answers and timeouts, and the end. -/
inductive MemoryEvent where
  | getServers (found : List (Bool × Lwm2mServer))
  | tag (tagged : UInt16 → Bool)
  | writeServers (written : ServerCell → Lwm2mServer)
  | refresh (found : List (Bool × Lwm2mServer))
  | registrationStep (currentTime : Int) (env : UInt16 → ServerEnv)
  | bootstrapStep (currentTime : Int) (requested : UInt16 → ClientMemory.RequestOutcome)
  | deregister (sent : UInt16 → Bool)
  | transactionEnds (id : Nat) (input : ClientMemory.CallbackInput)
  | nextBlock (id : Nat)
  | observe (fromSessionH : Nat) (uri : Lwm2mUri) (mid : UInt16)
  | cancel (fromSessionH : Nat) (uri : Lwm2mUri)
  | setParameters (fromSessionH : Nat) (uri : Lwm2mUri)
  | reset (fromSessionH : Nat) (mid : UInt16)
  | clear (uri : Lwm2mUri)
  | observeStep (notified : Lwm2mUri → Nat → Option UInt16)
  | close (sent : UInt16 → Bool) (input : ClientMemory.CallbackInput)

/-- A request of a registered server. -/
def ClientMemory.fromServer (memory : ClientMemory) (fromSessionH : Nat)
    (handle : ServerCell → Except Fault ClientMemory) : Except Fault ClientMemory :=
  match memory.utilsFindServer fromSessionH with
  | none => .ok memory
  | some cell => handle cell

/-- One event. -/
def memoryStep (memory : ClientMemory) (event : MemoryEvent) :
    Except Fault (ClientMemory × Unit) :=
  let next : Except Fault ClientMemory :=
    match event with
    | .getServers found => .ok (memory.objectGetServers found)
    | .tag tagged => .ok (memory.tagServers tagged)
    | .writeServers written => .ok (memory.writeServers written)
    | .refresh found => .ok (memory.prvRefreshServerList found)
    | .registrationStep currentTime env => .ok (memory.registrationStep currentTime env)
    | .bootstrapStep currentTime requested => .ok (memory.bootstrapStep currentTime requested)
    | .deregister sent => .ok (memory.lwm2mDeregister sent)
    | .transactionEnds id input => memory.endTransaction id input
    | .nextBlock id => .ok (memory.nextBlock id)
    | .observe fromSessionH uri mid =>
      memory.fromServer fromSessionH fun cell =>
        .ok (memory.watch uri cell.address fun watcher =>
          { watcher with active := true, lastMid := mid })
    | .cancel fromSessionH uri =>
      memory.fromServer fromSessionH fun cell => memory.cancelRequest uri cell
    | .setParameters fromSessionH uri =>
      memory.fromServer fromSessionH fun cell => .ok (memory.watch uri cell.address id)
    | .reset fromSessionH mid => memory.observeCancel mid (some fromSessionH)
    | .clear uri => .ok (memory.observeClear uri)
    | .observeStep notified => memory.observeStep notified
    | .close sent input => memory.lwm2mClose sent input
  next.map fun memory => (memory, ())

end Wakaama
