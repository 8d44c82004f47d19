import Wakaama.Core.Object
import Wakaama.Core.Observe
import Wakaama.Misc.Double

/-!
# Notifications (`core/observe.c`)

`lwm2m_resource_value_changed` marks the watchers of what has changed; `observe_step` decides
for each of them whether to notify its server, and sends. What the objects answer and how data
is serialized comes in from outside, and so does the arithmetic of doubles.
-/

namespace Wakaama

/-- The arithmetic of doubles that are given by their bits. -/
structure DoubleOps where
  ofInteger : Int64 → UInt64
  ofUnsigned : UInt64 → UInt64
  less : UInt64 → UInt64 → Bool
  lessEq : UInt64 → UInt64 → Bool
  sub : UInt64 → UInt64 → UInt64

/-- The doubles of C: 64 bits, rounded to the nearest, to even on a tie. -/
def cDoubles : DoubleOps where
  ofInteger value := doubleOfInt value.toInt
  ofUnsigned value := doubleOfInt value.toNat
  less := doubleLess
  lessEq := doubleLessEq
  sub := doubleSub

/-- What the objects and the data formats contribute to a step: `object_readData`, and
`lwm2m_data_serialize` and `object_read` with the format that is asked for, the one that is chosen
and the buffer, which is NULL for some empty payloads. A result other than 2.05, or a negative
length, is `none`. -/
structure ObserveEnv where
  readData : Lwm2mUri → Option (List Lwm2mData)
  serialize : Lwm2mUri → List Lwm2mData → UInt16 → Option (UInt16 × Option (List UInt8))
  read : Lwm2mUri → UInt16 → Option (UInt16 × Option (List UInt8))

/-- A notification as it is handed to `message_send`. -/
structure Notification where
  server : UInt16
  mid : UInt16
  token : List UInt8
  observe : UInt32
  contentType : UInt16
  payload : List UInt8
  deriving DecidableEq, Repr

/-- `(toSet & flag) != 0`. -/
def Lwm2mAttributes.isSet (parameters : Lwm2mAttributes) (flag : UInt8) : Bool :=
  parameters.toSet &&& flag != 0

/-- `valueP`: what is compared with the thresholds. -/
def observedValue (uri : Lwm2mUri) (data : Lwm2mData) : Lwm2mData :=
  match uri.isSetResourceInstance, data.type, data.children with
  | true, .multipleResource, [child] => child
  | _, _, _ => data

/-- The union `lastValue`, whose numeric arms have 64 bits each. -/
def valueBits : DataValue Empty → UInt64
  | .asInteger value => value.toUInt64
  | .asUnsigned value => value
  | .asFloat bits => bits
  | _ => 0

/-- The threshold is between the new and the old value. -/
def crosses (ops : DoubleOps) (threshold value last : UInt64) : Bool :=
  ops.less value threshold && ops.less threshold last ||
    ops.less threshold value && ops.less last threshold

/-- The checks on `lessThan` and `greaterThan`; `last` is the union. -/
def thresholdCrossed (ops : DoubleOps) (threshold : UInt64) (value : Lwm2mData) (last : UInt64) :
    Bool :=
  match value.type with
  | .integer => crosses ops threshold (ops.ofInteger value.asInteger) (ops.ofInteger last.toInt64)
  | .unsignedInteger =>
    crosses ops threshold (ops.ofUnsigned value.asUnsigned) (ops.ofUnsigned last)
  | .float => crosses ops threshold value.asFloat last
  | _ => false

/-- The check on `step`. -/
def stepReached (ops : DoubleOps) (step : UInt64) (value : Lwm2mData) (last : UInt64) : Bool :=
  match value.type with
  | .integer =>
    let diff := value.asInteger - last.toInt64
    decide (diff < 0) && ops.lessEq step (ops.ofInteger (0 - diff)) ||
      decide (0 ≤ diff) && ops.lessEq step (ops.ofInteger diff)
  | .unsignedInteger =>
    let diff := if last ≤ value.asUnsigned then value.asUnsigned - last else last - value.asUnsigned
    ops.lessEq step (ops.ofUnsigned diff)
  | .float =>
    let diff := ops.sub value.asFloat last
    ops.less diff 0 && ops.lessEq step (ops.sub 0 diff) ||
      ops.lessEq 0 diff && ops.lessEq step diff
  | _ => false

/-- The checks on `lt`, `gt` and `st`; there is a value only where a resource is observed. -/
def numericNotifies (ops : DoubleOps) (value : Option Lwm2mData) (parameters : Lwm2mAttributes)
    (last : UInt64) : Bool :=
  parameters.isSet attrFlagNumeric && value.any fun value =>
    parameters.isSet attrFlagLessThan && thresholdCrossed ops parameters.lessThan value last ||
    parameters.isSet attrFlagGreaterThan &&
      thresholdCrossed ops parameters.greaterThan value last ||
    parameters.isSet attrFlagStep && stepReached ops parameters.step value last

/-- `lastTime + minPeriod`, where the attribute is set. -/
def minPeriodEnd (watcher : Watcher) : Option Int :=
  (watcher.parameters.filter fun parameters => parameters.isSet attrFlagMinPeriod).map
    fun parameters => watcher.lastTime + parameters.minPeriod.toNat

/-- `lastTime + maxPeriod`, where the attribute is set. -/
def maxPeriodEnd (watcher : Watcher) : Option Int :=
  (watcher.parameters.filter fun parameters => parameters.isSet attrFlagMaxPeriod).map
    fun parameters => watcher.lastTime + parameters.maxPeriod.toNat

/-- The conditions under which a change is reported, before the periods are looked at. -/
def changeNotifies (ops : DoubleOps) (value : Option Lwm2mData) (watcher : Watcher) : Bool :=
  match watcher.parameters with
  | none => true
  | some parameters =>
    parameters.toSet == 0 ||
      numericNotifies ops value parameters (valueBits watcher.lastValue)

/-- What becomes of a watcher whose value has changed: `notify` and `*timeoutP`. -/
def updateNotifies (ops : DoubleOps) (currentTime : Int) (value : Option Lwm2mData)
    (watcher : Watcher) (timeoutP : Int) : Bool × Int :=
  match minPeriodEnd watcher with
  | none => (changeNotifies ops value watcher, timeoutP)
  | some periodEnd =>
    if currentTime < periodEnd then (false, min timeoutP (periodEnd - currentTime))
    else (true, timeoutP)

/-- The decision to notify an active watcher, and `*timeoutP`. -/
def watcherNotifies (ops : DoubleOps) (currentTime : Int) (value : Option Lwm2mData)
    (watcher : Watcher) (timeoutP : Int) : Bool × Int :=
  let (notify, timeoutP) :=
    if watcher.update then updateNotifies ops currentTime value watcher timeoutP
    else (false, timeoutP)
  (notify || (maxPeriodEnd watcher).any fun periodEnd => periodEnd ≤ currentTime, timeoutP)

/-- What the loop over the watchers of an entry carries along: `nextMID`, the content type and
the payload of the message once it has been serialized, and `*timeoutP`. -/
structure NotifyState where
  nextMID : UInt16
  buffer : Option (UInt16 × List UInt8)
  timeoutP : Int

/-- The message for a watcher, and the format of the watcher. As long as the buffer is NULL, the
next watcher has it made anew. -/
def notifyBuffer (env : ObserveEnv) (uri : Lwm2mUri) (dataP : Option (List Lwm2mData))
    (watcher : Watcher) (state : NotifyState) :
    Option (UInt16 × UInt16 × Option (List UInt8)) :=
  match state.buffer, dataP with
  | some (contentType, payload), _ => some (watcher.format, contentType, some payload)
  | none, some data => (env.serialize uri data watcher.format).map fun out => (out.1, out)
  | none, none => (env.read uri watcher.format).map fun out => (out.1, out)

/-- The watcher after its notification. -/
def notifiedWatcher (currentTime : Int) (uri : Lwm2mUri) (dataP : Option (List Lwm2mData))
    (nextMID format : UInt16) (watcher : Watcher) : Watcher :=
  { watcher with
    format
    lastTime := currentTime
    lastMid := nextMID
    counter := watcher.counter + 1
    update := false
    lastValue :=
      match dataP with
      | some data => storedValue uri (data.headD lwm2mDataNew) watcher.lastValue
      | none => watcher.lastValue }

/-- A watcher before and after a step, and what was sent to its server. -/
structure SteppedWatcher where
  before : Watcher
  after : Watcher
  notification : Option Notification

/-- The timer at the end of the loop. -/
def maxPeriodTimer (currentTime : Int) (watcher : Watcher) (state : NotifyState) : NotifyState :=
  match maxPeriodEnd watcher with
  | none => state
  | some periodEnd => { state with timeoutP := min state.timeoutP (periodEnd - currentTime) }

/-- The body of the loop over the watchers, for an active watcher. It has no result when the
message cannot be serialized. -/
def stepWatcher (ops : DoubleOps) (env : ObserveEnv) (currentTime : Int) (uri : Lwm2mUri)
    (dataP : Option (List Lwm2mData)) (watcher : Watcher) (state : NotifyState) :
    Option (SteppedWatcher × NotifyState) :=
  let value := dataP.map fun data => observedValue uri (data.headD lwm2mDataNew)
  let (notify, timeoutP) := watcherNotifies ops currentTime value watcher state.timeoutP
  let state := { state with timeoutP }
  if notify then
    (notifyBuffer env uri dataP watcher state).map fun (format, contentType, buffer) =>
      let after := notifiedWatcher currentTime uri dataP state.nextMID format watcher
      ({ before := watcher
         after
         notification := some
          { server := watcher.server, mid := state.nextMID, token := watcher.token,
            observe := watcher.counter, contentType, payload := buffer.getD [] } },
        maxPeriodTimer currentTime after
          { state with
            nextMID := state.nextMID + 1
            buffer := buffer.map fun payload => (contentType, payload) })
  else
    some ({ before := watcher, after := watcher, notification := none },
      maxPeriodTimer currentTime watcher state)

/-- A watcher that the loop does not touch. -/
def skippedWatcher (watcher : Watcher) : SteppedWatcher where
  before := watcher
  after := watcher
  notification := none

/-- The loop over the watchers of an entry; a message that cannot be serialized ends it. -/
def stepWatchers (ops : DoubleOps) (env : ObserveEnv) (currentTime : Int) (uri : Lwm2mUri)
    (dataP : Option (List Lwm2mData)) :
    List Watcher → NotifyState → List SteppedWatcher × NotifyState
  | [], state => ([], state)
  | watcher :: next, state =>
    if watcher.active then
      match stepWatcher ops env currentTime uri dataP watcher state with
      | none =>
        let value := dataP.map fun data => observedValue uri (data.headD lwm2mDataNew)
        ((watcher :: next).map skippedWatcher,
          { state with
            timeoutP := (watcherNotifies ops currentTime value watcher state.timeoutP).2 })
      | some (stepped, state) =>
        let (rest, state) := stepWatchers ops env currentTime uri dataP next state
        (stepped :: rest, state)
    else
      let (rest, state) := stepWatchers ops env currentTime uri dataP next state
      (skippedWatcher watcher :: rest, state)

/-- The body of the loop over the entries: the watchers, `nextMID` and `*timeoutP`. A resource
that cannot be read is passed over. -/
def stepEntry (ops : DoubleOps) (env : ObserveEnv) (currentTime : Int) (observed : Observed)
    (nextMID : UInt16) (timeoutP : Int) : List SteppedWatcher × UInt16 × Int :=
  let step (dataP : Option (List Lwm2mData)) :=
    let (watchers, state) := stepWatchers ops env currentTime observed.uri dataP
      observed.watcherList { nextMID, buffer := none, timeoutP }
    (watchers, state.nextMID, state.timeoutP)
  if observed.uri.isSetResource then
    match env.readData observed.uri with
    | none => (observed.watcherList.map skippedWatcher, nextMID, timeoutP)
    | some data => step (some data)
  else step none

/-- An entry and its watchers after a step. -/
structure SteppedEntry where
  before : Observed
  watchers : List SteppedWatcher

/-- The entry after the step. -/
def SteppedEntry.after (entry : SteppedEntry) : Observed :=
  { entry.before with watcherList := entry.watchers.map SteppedWatcher.after }

/-- The loop of `observe_step` over the entries. -/
def stepEntries (ops : DoubleOps) (env : ObserveEnv) (currentTime : Int) :
    List Observed → UInt16 → Int → Except Fault (List SteppedEntry × UInt16 × Int)
  | [], nextMID, timeoutP => .ok ([], nextMID, timeoutP)
  | observed :: next, nextMID, timeoutP =>
    if observed.freed then .error .useAfterFree
    else
      let (watchers, nextMID, timeoutP) := stepEntry ops env currentTime observed nextMID timeoutP
      (stepEntries ops env currentTime next nextMID timeoutP).map fun out =>
        ({ before := observed, watchers } :: out.1, out.2)

/-- The part of `lwm2m_context_t` that a step changes. -/
structure ObserveContext where
  observedList : List Observed
  nextMID : UInt16

/-- `observe_step`: the context, what became of each entry, and `*timeoutP`. -/
def ObserveContext.observeStep (ops : DoubleOps) (env : ObserveEnv) (context : ObserveContext)
    (currentTime timeoutP : Int) : Except Fault (ObserveContext × List SteppedEntry × Int) :=
  (stepEntries ops env currentTime context.observedList context.nextMID timeoutP).map fun out =>
    ({ observedList := out.1.map SteppedEntry.after, nextMID := out.2.1 }, out.1, out.2.2)

/-- The comparison that `lwm2m_resource_value_changed` makes: a segment that is not set on one
of the sides matches. -/
def concerns (uri stored : Lwm2mUri) : Bool :=
  stored.objectId == uri.objectId &&
    (!uri.isSetInstance || !stored.isSetInstance || uri.instanceId == stored.instanceId) &&
    (!uri.isSetResource || !stored.isSetResource || uri.resourceId == stored.resourceId) &&
    (!uri.isSetResourceInstance || !stored.isSetResourceInstance ||
      uri.resourceInstanceId == stored.resourceInstanceId)

/-- An active watcher is tagged. -/
def tagWatcher (watcher : Watcher) : Watcher :=
  if watcher.active then { watcher with update := true } else watcher

/-- `lwm2m_resource_value_changed`. -/
def lwm2mResourceValueChanged (uri : Lwm2mUri) :
    List Observed → Except Fault (List Observed)
  | [] => .ok []
  | observed :: next =>
    if observed.freed then .error .useAfterFree
    else
      (lwm2mResourceValueChanged uri next).map fun next =>
        (if concerns uri observed.uri then
          { observed with watcherList := observed.watcherList.map tagWatcher }
        else observed) :: next

end Wakaama
