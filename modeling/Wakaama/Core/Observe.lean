import Wakaama.Coap.Code
import Wakaama.Core.Uri
import Wakaama.Data.Data
import Wakaama.Misc.UpdateAt

/-!
# Observed resources of the client (`core/observe.c`)

`contextP->observedList`: one entry for a URI, with a list of watchers, one for a server. A
pointer to a node is modelled by the node with what comes before and after it; a server
pointer by the server's `secObjInstID`. Memory that was freed while it is still linked stays
in the list, marked.
-/

namespace Wakaama

/-- `lwm2m_attributes_t`; the doubles are given by their bits. -/
structure Lwm2mAttributes where
  toSet : UInt8
  toClear : UInt8
  minPeriod : UInt32
  maxPeriod : UInt32
  greaterThan : UInt64
  lessThan : UInt64
  step : UInt64
  deriving DecidableEq, Repr

/-- `LWM2M_ATTR_FLAG_MIN_PERIOD`. -/
def attrFlagMinPeriod : UInt8 := 0x01

/-- `LWM2M_ATTR_FLAG_MAX_PERIOD`. -/
def attrFlagMaxPeriod : UInt8 := 0x02

/-- `LWM2M_ATTR_FLAG_GREATER_THAN`. -/
def attrFlagGreaterThan : UInt8 := 0x04

/-- `LWM2M_ATTR_FLAG_LESS_THAN`. -/
def attrFlagLessThan : UInt8 := 0x08

/-- `LWM2M_ATTR_FLAG_STEP`. -/
def attrFlagStep : UInt8 := 0x10

/-- `ATTR_FLAG_NUMERIC`. -/
def attrFlagNumeric : UInt8 := attrFlagLessThan ||| attrFlagGreaterThan ||| attrFlagStep

/-- `lwm2m_watcher_t`. -/
structure Watcher where
  active : Bool
  update : Bool
  server : UInt16
  parameters : Option Lwm2mAttributes
  format : UInt16
  token : List UInt8
  lastTime : Int
  counter : UInt32
  lastMid : UInt16
  lastValue : DataValue Empty
  deriving DecidableEq, Repr

/-- `lwm2m_observed_t`; `freed` marks memory given back while linked. -/
structure Observed where
  uri : Lwm2mUri
  watcherList : List Watcher
  freed : Bool
  deriving DecidableEq, Repr

/-- The comparison `prv_findObserved` makes: only the segments set in the request count. -/
def matchesUri (uri stored : Lwm2mUri) : Bool :=
  !(uri.isSetObject && stored.objectId != uri.objectId ||
    uri.isSetInstance && stored.instanceId != uri.instanceId ||
    uri.isSetResource && stored.resourceId != uri.resourceId ||
    uri.isSetResourceInstance && stored.resourceInstanceId != uri.resourceInstanceId)

/-- `prv_findObserved`, with the nodes around the one found. -/
def prvFindObserved (uri : Lwm2mUri) :
    List Observed → Except Fault (Option (List Observed × Observed × List Observed))
  | [] => .ok none
  | target :: next =>
    if target.freed then .error .useAfterFree
    else if matchesUri uri target.uri then .ok (some ([], target, next))
    else
      match prvFindObserved uri next with
      | .error fault => .error fault
      | .ok none => .ok none
      | .ok (some (before, found, after)) => .ok (some (target :: before, found, after))

/-- `prv_findWatcher`, with the watchers around the one found. -/
def prvFindWatcher (server : UInt16) (watcherList : List Watcher) :
    Option (List Watcher × Watcher × List Watcher) :=
  splitFirst (fun watcher => watcher.server == server) watcherList

/-- A watcher in its list, in its entry, in the observed list. -/
structure WatcherAt where
  before : List Observed
  uri : Lwm2mUri
  watchersBefore : List Watcher
  watcher : Watcher
  watchersAfter : List Watcher
  after : List Observed

/-- The observed list with the watcher written. -/
def WatcherAt.put (place : WatcherAt) (watcher : Watcher) : List Observed :=
  place.before ++
    { uri := place.uri
      watcherList := place.watchersBefore ++ watcher :: place.watchersAfter
      freed := false } :: place.after

/-- A new watcher after `memset`. -/
def newWatcher (server : UInt16) : Watcher where
  active := false
  update := false
  server := server
  parameters := none
  format := 0
  token := []
  lastTime := 0
  counter := 0
  lastMid := 0
  lastValue := .zero

/-- Which of the allocations of a call succeed. -/
structure ObserveAlloc where
  observed : Bool
  watcher : Bool
  parameters : Bool
  deriving DecidableEq, Repr

/-- What `prv_getWatcher` returns: a watcher, or NULL with the list as it leaves it. -/
inductive GotWatcher where
  | null (observedList : List Observed)
  | found (place : WatcherAt)

/-- `prv_getWatcher`. When the watcher of a new entry cannot be allocated, the entry is freed
but stays linked. -/
def prvGetWatcher (alloc : ObserveAlloc) (uri : Lwm2mUri) (server : UInt16)
    (observedList : List Observed) : Except Fault GotWatcher :=
  match prvFindObserved uri observedList with
  | .error fault => .error fault
  | .ok none =>
    if !alloc.observed then .ok (.null observedList)
    else if alloc.watcher then
      .ok (.found
        { before := [], uri, watchersBefore := [], watcher := newWatcher server,
          watchersAfter := [], after := observedList })
    else .ok (.null ({ uri, watcherList := [], freed := true } :: observedList))
  | .ok (some (before, observed, after)) =>
    match prvFindWatcher server observed.watcherList with
    | some (watchersBefore, watcher, watchersAfter) =>
      .ok (.found { before, uri := observed.uri, watchersBefore, watcher, watchersAfter, after })
    | none =>
      if alloc.watcher then
        .ok (.found
          { before, uri := observed.uri, watchersBefore := [], watcher := newWatcher server,
            watchersAfter := observed.watcherList, after })
      else .ok (.null observedList)

/-- `observe_cancel`: the first watcher with the message id whose server has the session the
request came from is removed, and its entry with it when it was the last one. -/
def observeCancel (mid : UInt16) (fromSession : UInt16 → Bool) :
    List Observed → Except Fault (List Observed)
  | [] => .ok []
  | observed :: next =>
    if observed.freed then .error .useAfterFree
    else if observed.watcherList = [] then .error .nullDeref
    else
      match splitFirst (fun watcher => watcher.lastMid == mid && fromSession watcher.server)
          observed.watcherList with
      | some (before, _, after) =>
        if before ++ after = [] then .ok next
        else .ok ({ observed with watcherList := before ++ after } :: next)
      | none =>
        match observeCancel mid fromSession next with
        | .error fault => .error fault
        | .ok next => .ok (observed :: next)

/-- `observe_clear`: the entries below an object or one of its instances are removed. -/
def observeClear (uri : Lwm2mUri) : List Observed → Except Fault (List Observed)
  | [] => .ok []
  | observed :: next =>
    if observed.freed then .error .useAfterFree
    else
      match observeClear uri next with
      | .error fault => .error fault
      | .ok next =>
        if observed.uri.objectId == uri.objectId &&
            (!uri.isSetInstance || observed.uri.instanceId == uri.instanceId) then .ok next
        else .ok (observed :: next)

/-- What the requests below look at in a CoAP message and in its response. -/
structure ObserveMessage where
  count : UInt32
  token : List UInt8
  responseMid : UInt16
  contentType : UInt16
  data : Lwm2mData

/-- The response code and, when it is set, the Observe option. -/
structure ObserveReply where
  code : CoapCode
  observe : Option UInt32
  deriving DecidableEq, Repr

/-- The value that registering stores; `lwm2m_data_decode_int` and its siblings return it as it
is on data of their own type. -/
def storedValue (uri : Lwm2mUri) (data : Lwm2mData) (lastValue : DataValue Empty) :
    DataValue Empty :=
  let value :=
    match uri.isSetResourceInstance, data.type, data.children with
    | true, .multipleResource, [child] => child
    | _, _, _ => data
  if uri.isSetResource then
    match value.type, value.value with
    | .integer, .asInteger value => .asInteger value
    | .unsignedInteger, .asUnsigned value => .asUnsigned value
    | .float, .asFloat bits => .asFloat bits
    | _, _ => lastValue
  else lastValue

/-- `observe_handleRequest`. `sessionIsEqual` says whether two servers have equal sessions. -/
def observeHandleRequest (sessionIsEqual : UInt16 → UInt16 → Bool) (now : Int)
    (alloc : ObserveAlloc) (uri : Lwm2mUri) (server : UInt16) (message : ObserveMessage)
    (observedList : List Observed) : Except Fault (List Observed × ObserveReply) :=
  let unchanged (code : CoapCode) : Except Fault (List Observed × ObserveReply) :=
    .ok (observedList, { code, observe := none })
  if message.count = 0 then
    if !uri.isSetInstance && uri.isSetResource then unchanged .badRequest400
    else if message.token = [] then unchanged .badRequest400
    else
      match prvGetWatcher alloc uri server observedList with
      | .error fault => .error fault
      | .ok (.null observedList) =>
        .ok (observedList, { code := .internalServerError500, observe := none })
      | .ok (.found place) =>
        let watcher := place.watcher
        .ok (place.put { watcher with
            token := message.token
            active := true
            lastTime := now
            lastMid := message.responseMid
            format := message.contentType
            lastValue := storedValue uri message.data watcher.lastValue
            counter := watcher.counter + 1 },
          { code := .content205, observe := some watcher.counter })
  else if message.count = 1 then
    match prvFindObserved uri observedList with
    | .error fault => .error fault
    | .ok none => unchanged .content205
    | .ok (some (_, observed, _)) =>
      match prvFindWatcher server observed.watcherList with
      | none => unchanged .content205
      | some (_, watcher, _) =>
        match observeCancel watcher.lastMid (sessionIsEqual server) observedList with
        | .error fault => .error fault
        | .ok observedList => .ok (observedList, { code := .content205, observe := none })
  else unchanged .badRequest400

/-- The check of `observe_setParameters` on `gt`, `lt` and `stp`, which a request may set in
part. `tooClose` is `lt + (2 * stp) >= gt` in single precision. -/
def thresholdsClash (tooClose : UInt64 → UInt64 → UInt64 → Bool) (attr : Lwm2mAttributes)
    (parameters : Option Lwm2mAttributes) : Except Fault Bool :=
  let stored : UInt8 := (parameters.map Lwm2mAttributes.toSet).getD 0
  if (attr.toSet ||| stored) &&& ~~~attr.toClear &&& attrFlagNumeric = attrFlagNumeric then
    let pick (flag : UInt8) (field : Lwm2mAttributes → UInt64) : Except Fault UInt64 :=
      if attr.toSet &&& flag ≠ 0 then .ok (field attr)
      else
        match parameters with
        | some parameters => .ok (field parameters)
        | none => .error .nullDeref
    match pick attrFlagGreaterThan Lwm2mAttributes.greaterThan,
        pick attrFlagLessThan Lwm2mAttributes.lessThan,
        pick attrFlagStep Lwm2mAttributes.step with
    | .ok gt, .ok lt, .ok stp => .ok (tooClose lt stp gt)
    | _, _, _ => .error .nullDeref
  else .ok false

/-- The parameters a watcher had, overwritten where the request sets them. -/
def mergeParameters (attr parameters : Lwm2mAttributes) : Lwm2mAttributes :=
  let sets (flag : UInt8) : Bool := attr.toSet &&& flag != 0
  { toSet := parameters.toSet &&& ~~~attr.toClear
    toClear := parameters.toClear
    minPeriod := if sets attrFlagMinPeriod then attr.minPeriod else parameters.minPeriod
    maxPeriod := if sets attrFlagMaxPeriod then attr.maxPeriod else parameters.maxPeriod
    greaterThan := if sets attrFlagGreaterThan then attr.greaterThan else parameters.greaterThan
    lessThan := if sets attrFlagLessThan then attr.lessThan else parameters.lessThan
    step := if sets attrFlagStep then attr.step else parameters.step }

/-- `observe_setParameters`. `readable` is what `object_checkReadable` returns for the URI and
the attributes. -/
def observeSetParameters (tooClose : UInt64 → UInt64 → UInt64 → Bool) (readable : CoapCode)
    (alloc : ObserveAlloc) (uri : Lwm2mUri) (server : UInt16) (attr : Lwm2mAttributes)
    (observedList : List Observed) : Except Fault (List Observed × ObserveReply) :=
  if !uri.isSetInstance && uri.isSetResource then
    .ok (observedList, { code := .badRequest400, observe := none })
  else if readable ≠ .content205 then .ok (observedList, { code := readable, observe := none })
  else
    match prvGetWatcher alloc uri server observedList with
    | .error fault => .error fault
    | .ok (.null observedList) =>
      .ok (observedList, { code := .internalServerError500, observe := none })
    | .ok (.found place) =>
      let watcher := place.watcher
      match thresholdsClash tooClose attr watcher.parameters with
      | .error fault => .error fault
      | .ok true => .ok (place.put watcher, { code := .badRequest400, observe := none })
      | .ok false =>
        match watcher.parameters with
        | none =>
          if attr.toSet ≠ 0 then
            if alloc.parameters then
              .ok (place.put { watcher with parameters := some attr },
                { code := .changed204, observe := none })
            else .ok (place.put watcher, { code := .internalServerError500, observe := none })
          else .ok (place.put watcher, { code := .changed204, observe := none })
        | some parameters =>
          .ok (place.put { watcher with parameters := some (mergeParameters attr parameters) },
            { code := .changed204, observe := none })

end Wakaama
