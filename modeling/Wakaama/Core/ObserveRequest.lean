import Wakaama.Core.ServerList
import Wakaama.Core.Observe

/-!
# Observe requests and their errors (`core/management.c`, `core/observe.c`)

The branch of `dm_handleRequest` for GET with the Observe option, beside the two functions of
`core/observe.c` that a request ends in. What the objects and the data formats answer comes in from
outside.
-/

namespace Wakaama

/-- What the branch asks the objects and the formats: `object_readData`, `utils_getResponseFormat`
and `lwm2m_data_serialize`, which has no result where its length is negative. -/
structure DmObserveEnv where
  readData : Lwm2mUri → CoapCode × List Lwm2mData
  responseFormat : List Lwm2mData → CoapCode × UInt16
  serialize : Lwm2mUri → List Lwm2mData → UInt16 → Option (UInt16 × Option (List UInt8))

/-- The states of a server whose requests `dm_handleRequest` takes. -/
def ServerStatus.isRegistered : ServerStatus → Bool
  | .registered | .regUpdateNeeded | .regFullUpdateNeeded | .regUpdatePending => true
  | _ => false

/-- The Observe branch of `dm_handleRequest`: the observed list and the code that is returned. -/
def dmHandleObserve (env : DmObserveEnv) (sessionIsEqual : UInt16 → UInt16 → Bool) (now : Int)
    (alloc : ObserveAlloc) (uri : Lwm2mUri) (server : UInt16) (status : ServerStatus)
    (message : ObserveMessage) (observedList : List Observed) :
    Except Fault (List Observed × CoapCode) :=
  if uri.objectId = lwm2mSecurityObjectId then .ok (observedList, .unauthorized401)
  else if !status.isRegistered then .ok (observedList, .ignore)
  else
    let (result, data) := env.readData uri
    if result ≠ .content205 then .ok (observedList, result)
    else
      let (result, format) := env.responseFormat data
      if result ≠ .content205 then .ok (observedList, result)
      else
        (observeHandleRequest sessionIsEqual now alloc uri server
            { message with contentType := format, data := data.headD lwm2mDataNew }
            observedList).map fun (observedList, reply) =>
          if reply.code = .content205 ∧ env.serialize uri data format = none then
            (observedList, .internalServerError500)
          else (observedList, reply.code)

/-- A call of one of the three functions, with what it is given. -/
inductive ObserveInvocation where
  | setParameters (tooClose : UInt64 → UInt64 → UInt64 → Bool) (readable : CoapCode)
      (attr : Lwm2mAttributes)
  | observe (sessionIsEqual : UInt16 → UInt16 → Bool) (now : Int) (message : ObserveMessage)
  | get (env : DmObserveEnv) (sessionIsEqual : UInt16 → UInt16 → Bool) (now : Int)
      (status : ServerStatus) (message : ObserveMessage)

/-- The observed list behind the call and the code that is returned. -/
def invokeObserve (alloc : ObserveAlloc) (uri : Lwm2mUri) (server : UInt16)
    (request : ObserveInvocation) (observedList : List Observed) :
    Except Fault (List Observed × CoapCode) :=
  match request with
  | .setParameters tooClose readable attr =>
    (observeSetParameters tooClose readable alloc uri server attr observedList).map
      fun out => (out.1, out.2.code)
  | .observe sessionIsEqual now message =>
    (observeHandleRequest sessionIsEqual now alloc uri server message observedList).map
      fun out => (out.1, out.2.code)
  | .get env sessionIsEqual now status message =>
    dmHandleObserve env sessionIsEqual now alloc uri server status message observedList

/-- The entries are memory in use, each with a watcher. -/
structure ObservedLive (observedList : List Observed) : Prop where
  live : ∀ observed ∈ observedList, observed.freed = false
  watched : ∀ observed ∈ observedList, observed.watcherList ≠ []

/-- An error leaves the list as it was, with no freed entry. -/
def ErrorLeavesNothing (alloc : ObserveAlloc) (uri : Lwm2mUri) (server : UInt16)
    (request : ObserveInvocation) (observedList : List Observed) : Prop :=
  ∀ observedList' code, invokeObserve alloc uri server request observedList =
      .ok (observedList', code) → code.isError = true →
    observedList' = observedList ∧ ∀ observed ∈ observedList', observed.freed = false

/-- The entry of a request: the first that the URI matches. -/
def entryOf (uri : Lwm2mUri) (observedList : List Observed) : Option Observed :=
  observedList.find? fun observed => matchesUri uri observed.uri

/-- The watcher of the server in this entry. -/
def watcherOf (uri : Lwm2mUri) (server : UInt16) (observedList : List Observed) : Option Watcher :=
  (entryOf uri observedList).bind fun observed =>
    observed.watcherList.find? fun watcher => watcher.server == server

/-- There is no entry, and memory for one, but none for its watcher. -/
def EntryLeftFreed (alloc : ObserveAlloc) (uri : Lwm2mUri) (observedList : List Observed) : Prop :=
  entryOf uri observedList = none ∧ alloc.observed = true ∧ alloc.watcher = false

/-- There is no watcher, and memory for one and for its entry. -/
def WatcherAdded (alloc : ObserveAlloc) (uri : Lwm2mUri) (server : UInt16)
    (observedList : List Observed) : Prop :=
  watcherOf uri server observedList = none ∧ alloc.watcher = true ∧
    (entryOf uri observedList = none → alloc.observed = true)

/-- A request that goes as far as looking for the watcher. -/
def Registers (uri : Lwm2mUri) (message : ObserveMessage) : Prop :=
  message.count = 0 ∧ (uri.isSetResource = true → uri.isSetInstance = true) ∧ message.token ≠ []

/-- The watcher can be had, the one that is there or a new one. -/
def WatcherAvailable (alloc : ObserveAlloc) (uri : Lwm2mUri) (server : UInt16)
    (observedList : List Observed) : Prop :=
  watcherOf uri server observedList ≠ none ∨ WatcherAdded alloc uri server observedList

/-- A cancellation finds a watcher with the message id of the server's own. -/
def CancelsWatcher (sessionIsEqual : UInt16 → UInt16 → Bool) (uri : Lwm2mUri) (server : UInt16)
    (observedList : List Observed) : Prop :=
  ∃ own ∈ watcherOf uri server observedList, ∃ observed ∈ observedList,
    ∃ watcher ∈ observed.watcherList,
      watcher.lastMid = own.lastMid ∧ sessionIsEqual server watcher.server = true

/-- The request fails when the list has been changed already: the watcher of a new entry cannot be
allocated, a new watcher's attributes are turned down or cannot be stored, or the value cannot be
serialized behind a registration or a cancellation. -/
def FailsTooLate (alloc : ObserveAlloc) (uri : Lwm2mUri) (server : UInt16)
    (request : ObserveInvocation) (observedList : List Observed) : Prop :=
  match request with
  | .setParameters tooClose readable attr =>
    (uri.isSetResource = true → uri.isSetInstance = true) ∧ readable = .content205 ∧
      (EntryLeftFreed alloc uri observedList ∨
        WatcherAdded alloc uri server observedList ∧
          (attr.toSet &&& ~~~attr.toClear &&& attrFlagNumeric = attrFlagNumeric ∧
              tooClose attr.lessThan attr.step attr.greaterThan = true ∨
            attr.toSet ≠ 0 ∧ alloc.parameters = false))
  | .observe _ _ message => Registers uri message ∧ EntryLeftFreed alloc uri observedList
  | .get env sessionIsEqual _ status message =>
    uri.objectId ≠ lwm2mSecurityObjectId ∧ status.isRegistered = true ∧
      (env.readData uri).1 = .content205 ∧
      (env.responseFormat (env.readData uri).2).1 = .content205 ∧
      (Registers uri message ∧ EntryLeftFreed alloc uri observedList ∨
        env.serialize uri (env.readData uri).2 (env.responseFormat (env.readData uri).2).2 = none ∧
          (Registers uri message ∧ WatcherAvailable alloc uri server observedList ∨
            message.count = 1 ∧ CancelsWatcher sessionIsEqual uri server observedList))

end Wakaama
