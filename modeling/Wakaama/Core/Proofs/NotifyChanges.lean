import Wakaama.Core.Proofs.NotifyStep

/-!
# Changes and their notifications

A watcher is followed through the list by its place. A change that is flagged stays flagged
until the watcher is notified, and is notified by the first step at which its minimum period is
over, unless the watcher has a maximum period and no minimum period: then no branch of the
decision looks at the flag.
-/

namespace Wakaama

variable {ops : DoubleOps} {env : ObserveEnv}

/-- The application reports a change, or the client steps. -/
inductive ChangeCall where
  | valueChanged (uri : Lwm2mUri)
  | step (currentTime timeoutP : Int) (env : ObserveEnv)

/-- One event; the reply says for each watcher of each entry whether it was notified. -/
def changeStep (ops : DoubleOps) (context : ObserveContext) :
    ChangeCall → Except Fault (ObserveContext × List (List Bool))
  | .valueChanged uri =>
    (lwm2mResourceValueChanged uri context.observedList).map fun observedList =>
      ({ context with observedList }, [])
  | .step currentTime timeoutP env =>
    (context.observeStep ops env currentTime timeoutP).map fun out =>
      (out.1, out.2.1.map fun entry =>
        entry.watchers.map fun stepped => stepped.notification.isSome)

/-- A watcher by its place: the entry and the position in it. -/
structure WatcherPlace where
  entry : Nat
  position : Nat

/-- The entry's URI and the watcher at a place. -/
def WatcherPlace.get (place : WatcherPlace) (observedList : List Observed) :
    Option (Lwm2mUri × Watcher) :=
  (observedList[place.entry]?).bind fun observed =>
    (observed.watcherList[place.position]?).map fun watcher => (observed.uri, watcher)

/-- The watcher at a place was notified. -/
def WatcherPlace.notified (place : WatcherPlace) (reply : List (List Bool)) : Bool :=
  ((reply[place.entry]?).bind fun sent => sent[place.position]?).getD false

/-- Whether a change is still to be reported, and when the watcher was notified last. -/
structure ChangeHistory where
  pending : Bool
  last : Int

/-- What an event makes of that. -/
def ChangeHistory.after (place : WatcherPlace) (uri : Lwm2mUri) (history : ChangeHistory)
    (event : ChangeCall × List (List Bool)) : ChangeHistory :=
  match event.1 with
  | .valueChanged changed => { history with pending := history.pending || concerns changed uri }
  | .step currentTime _ _ =>
    if place.notified event.2 then { pending := false, last := currentTime } else history

/-- The history of a watcher that was found at the place at first. -/
def changeHistory (place : WatcherPlace) (uri : Lwm2mUri) (watcher : Watcher)
    (past : List (ChangeCall × List (List Bool))) : ChangeHistory :=
  past.foldl (ChangeHistory.after place uri)
    { pending := watcher.update, last := watcher.lastTime }

/-- A step reports a change that is pending, if the minimum period is over or not set. -/
def ReportsChange (place : WatcherPlace) (uri : Lwm2mUri) (watcher : Watcher)
    (past : List (ChangeCall × List (List Bool))) (event : ChangeCall × List (List Bool)) : Prop :=
  ∀ currentTime timeoutP env, event.1 = .step currentTime timeoutP env →
    (changeHistory place uri watcher past).pending = true →
    (∀ parameters ∈ watcher.parameters, parameters.isSet attrFlagMinPeriod = true →
      (changeHistory place uri watcher past).last + parameters.minPeriod.toNat ≤ currentTime) →
    place.notified event.2 = true

/-- The watcher is where it was, and its flag is set as long as a change is pending. -/
def FlagPending (place : WatcherPlace) (uri : Lwm2mUri) (watcher : Watcher)
    (past : List (ChangeCall × List (List Bool))) (context : ObserveContext) : Prop :=
  ∃ current, place.get context.observedList = some (uri, current) ∧
    current.update = (changeHistory place uri watcher past).pending

/-- The message for a watcher can be serialized. -/
def serializes (env : ObserveEnv) (uri : Lwm2mUri) (dataP : Option (List Lwm2mData))
    (watcher : Watcher) : Prop :=
  match dataP with
  | some data => (env.serialize uri data watcher.format).isSome
  | none => (env.read uri watcher.format).isSome

/-- What an entry asks of the objects and the data formats succeeds. -/
def EntrySucceeds (env : ObserveEnv) (observed : Observed) : Prop :=
  if observed.uri.isSetResource then
    ∃ data, env.readData observed.uri = some data ∧
      ∀ watcher ∈ observed.watcherList, watcher.active = true →
        serializes env observed.uri (some data) watcher
  else
    ∀ watcher ∈ observed.watcherList, watcher.active = true →
      serializes env observed.uri none watcher

/-- Reads and serializations succeed. -/
def ReadsSucceed (context : ObserveContext) : ChangeCall → Prop
  | .valueChanged _ => True
  | .step _ _ env => ∀ observed ∈ context.observedList, EntrySucceeds env observed

/-- A flagged watcher without a minimum period has no attributes at all, or its maximum period
is over. -/
def FlagCounts (place : WatcherPlace) (context : ObserveContext) : ChangeCall → Prop
  | .valueChanged _ => True
  | .step currentTime _ _ =>
    ∀ uri watcher, place.get context.observedList = some (uri, watcher) →
      watcher.update = true → minPeriodEnd watcher = none →
        (∀ parameters ∈ watcher.parameters, parameters.toSet = 0) ∨
          ∃ periodEnd ∈ maxPeriodEnd watcher, periodEnd ≤ currentTime

variable {uri : Lwm2mUri} {currentTime : Int} {watcher : Watcher} {observedList : List Observed}
  {place : WatcherPlace}

theorem stepWatcher_serializes {dataP : Option (List Lwm2mData)} {state : NotifyState}
    (h : serializes env uri dataP watcher) :
    stepWatcher ops env currentTime uri dataP watcher state ≠ none := by
  have hbuffer : ∀ state : NotifyState,
      notifyBuffer env uri dataP watcher state ≠ none := by
    intro state hnone
    unfold notifyBuffer at hnone
    unfold serializes at h
    split at hnone
    · cases hnone
    · simp only at h
      rw [Option.map_eq_none_iff.mp hnone] at h
      cases h
    · simp only at h
      rw [Option.map_eq_none_iff.mp hnone] at h
      cases h
  simp only [stepWatcher]
  split
  · rw [ne_eq, Option.map_eq_none_iff]
    exact hbuffer _
  · exact Option.some_ne_none _

theorem stepWatchers_decided {dataP : Option (List Lwm2mData)} :
    ∀ {watchers : List Watcher} {state : NotifyState},
      (∀ watcher ∈ watchers, watcher.active = true → serializes env uri dataP watcher) →
      ∀ stepped ∈ (stepWatchers ops env currentTime uri dataP watchers state).1,
        stepped.before.active = true → stepped.notification.isSome =
          notifyDecision ops currentTime (valueOf uri dataP) stepped.before := by
  intro watchers
  induction watchers with
  | nil => exact fun _ _ hmem => nomatch hmem
  | cons watcher next ih =>
    intro state h stepped hmem hactive
    have hnext := fun other hother => h other (List.mem_cons_of_mem watcher hother)
    unfold stepWatchers at hmem
    split at hmem
    · rename_i hfirst
      split at hmem
      · rename_i hnone
        exact absurd hnone (stepWatcher_serializes (h watcher List.mem_cons_self hfirst))
      · rename_i hstep
        rcases List.mem_cons.mp hmem with rfl | hmem
        · obtain ⟨hbefore, -, hdecided⟩ := stepWatcher_effect hfirst hstep
          rw [hdecided, hbefore]
        · exact ih hnext stepped hmem hactive
    · rename_i hfirst
      rcases List.mem_cons.mp hmem with rfl | hmem
      · exact absurd hactive hfirst
      · exact ih hnext stepped hmem hactive

theorem stepEntry_decided {observed : Observed} (h : EntrySucceeds env observed) (nextMID : UInt16)
    (timeoutP : Int) :
    ∀ stepped ∈ (stepEntry ops env currentTime observed nextMID timeoutP).1,
      stepped.before.active = true →
        ∃ value, stepped.notification.isSome =
          notifyDecision ops currentTime value stepped.before := by
  intro stepped hmem hactive
  unfold EntrySucceeds at h
  unfold stepEntry at hmem
  split at hmem
  · rename_i hresource
    rw [if_pos hresource] at h
    obtain ⟨data, hread, hserializes⟩ := h
    rw [hread] at hmem
    exact ⟨_, stepWatchers_decided hserializes stepped hmem hactive⟩
  · rename_i hresource
    rw [if_neg hresource] at h
    exact ⟨_, stepWatchers_decided h stepped hmem hactive⟩

theorem stepEntries_decided :
    ∀ {observedList : List Observed} {nextMID : UInt16} {timeoutP : Int}
      {out : List SteppedEntry × UInt16 × Int},
      stepEntries ops env currentTime observedList nextMID timeoutP = .ok out →
      (∀ observed ∈ observedList, EntrySucceeds env observed) →
      ∀ entry ∈ out.1, ∀ stepped ∈ entry.watchers, stepped.before.active = true →
        ∃ value, stepped.notification.isSome =
          notifyDecision ops currentTime value stepped.before := by
  intro observedList
  induction observedList with
  | nil =>
    intro nextMID timeoutP out h _ entry hentry
    cases h
    exact nomatch hentry
  | cons observed next ih =>
    intro nextMID timeoutP out h hsucceeds entry hentry
    simp only [stepEntries] at h
    split at h
    · cases h
    · obtain ⟨rest, hrest, rfl⟩ := exceptMap_inv h
      rcases List.mem_cons.mp hentry with rfl | hentry
      · exact stepEntry_decided (hsucceeds observed List.mem_cons_self) _ _
      · apply ih hrest _ entry hentry
        exact fun other hother => hsucceeds other (List.mem_cons_of_mem _ hother)

theorem WatcherPlace.get_eq_some :
    place.get observedList = some (uri, watcher) ↔
      ∃ observed, observedList[place.entry]? = some observed ∧ observed.uri = uri ∧
        observed.watcherList[place.position]? = some watcher := by
  unfold WatcherPlace.get
  simp only [Option.bind_eq_some_iff, Option.map_eq_some_iff, Prod.mk.injEq]
  constructor
  · rintro ⟨observed, hobserved, found, hfound, huri, rfl⟩
    exact ⟨observed, hobserved, huri, hfound⟩
  · rintro ⟨observed, hobserved, huri, hfound⟩
    exact ⟨observed, hobserved, watcher, hfound, huri, rfl⟩

theorem stepEntries_place {nextMID : UInt16} {timeoutP : Int}
    {out : List SteppedEntry × UInt16 × Int}
    (h : stepEntries ops env currentTime observedList nextMID timeoutP = .ok out)
    (hsucceeds : ∀ observed ∈ observedList, EntrySucceeds env observed)
    (hplace : place.get observedList = some (uri, watcher)) (hactive : watcher.active = true) :
    ∃ stepped, stepped.before = watcher ∧
      (∃ value, StepEffect ops currentTime value stepped) ∧
      (∃ value, stepped.notification.isSome = notifyDecision ops currentTime value watcher) ∧
      place.get (out.1.map SteppedEntry.after) = some (uri, stepped.after) ∧
      place.notified (out.1.map fun entry =>
        entry.watchers.map fun stepped => stepped.notification.isSome) =
          stepped.notification.isSome := by
  obtain ⟨hbefore, heffect⟩ := stepEntries_effect h
  obtain ⟨observed, hobserved, huri, hwatcher⟩ := WatcherPlace.get_eq_some.mp hplace
  rw [← hbefore, List.getElem?_map, Option.map_eq_some_iff] at hobserved
  obtain ⟨entry, hentry, rfl⟩ := hobserved
  have hmem := List.mem_of_getElem? hentry
  rw [← (heffect entry hmem).before, List.getElem?_map, Option.map_eq_some_iff] at hwatcher
  obtain ⟨stepped, hstepped, rfl⟩ := hwatcher
  have hmem' := List.mem_of_getElem? hstepped
  refine ⟨stepped, rfl, (heffect entry hmem).watchers stepped hmem',
    stepEntries_decided h hsucceeds entry hmem stepped hmem' hactive, ?_, ?_⟩
  · apply WatcherPlace.get_eq_some.mpr
    refine ⟨entry.after, ?_, huri, ?_⟩
    · rw [List.getElem?_map, hentry, Option.map_some]
    · simp only [SteppedEntry.after, List.getElem?_map, hstepped, Option.map_some]
  · simp only [WatcherPlace.notified, List.getElem?_map, hentry, hstepped, Option.map_some,
      Option.bind_some, Option.getD_some]

theorem lwm2mResourceValueChanged_place {changed : Lwm2mUri} {observedList' : List Observed}
    (h : lwm2mResourceValueChanged changed observedList = .ok observedList')
    (hplace : place.get observedList = some (uri, watcher)) (hactive : watcher.active = true) :
    place.get observedList' =
      some (uri, { watcher with update := watcher.update || concerns changed uri }) := by
  obtain rfl := lwm2mResourceValueChanged_spec h
  obtain ⟨observed, hobserved, rfl, hwatcher⟩ := WatcherPlace.get_eq_some.mp hplace
  apply WatcherPlace.get_eq_some.mpr
  rw [List.getElem?_map, hobserved, Option.map_some]
  refine ⟨_, rfl, ?_⟩
  by_cases hconcerns : concerns changed observed.uri = true
  · rw [if_pos hconcerns]
    refine ⟨rfl, ?_⟩
    rw [List.getElem?_map, hwatcher, Option.map_some, tagWatcher, if_pos hactive, hconcerns,
      Bool.or_true]
  · rw [if_neg hconcerns]
    refine ⟨rfl, ?_⟩
    rw [hwatcher, eq_false_of_ne_true hconcerns, Bool.or_false]

theorem notifyDecision_pending {value : Option Lwm2mData} (hupdate : watcher.update = true)
    (hover : ∀ periodEnd ∈ minPeriodEnd watcher, periodEnd ≤ currentTime)
    (hcounts : minPeriodEnd watcher = none → (∀ parameters ∈ watcher.parameters, parameters.toSet = 0) ∨ ∃ periodEnd ∈ maxPeriodEnd watcher, periodEnd ≤ currentTime) :
    notifyDecision ops currentTime value watcher = true := by
  unfold notifyDecision
  rw [hupdate, Bool.true_and, Bool.or_eq_true]
  cases hmin : minPeriodEnd watcher with
  | some periodEnd =>
    left
    simp only [changeDecision, hmin]
    exact decide_eq_true (hover periodEnd hmin)
  | none =>
    rcases hcounts hmin with hnone | ⟨periodEnd, hmax, hdone⟩
    · left
      simp only [changeDecision, hmin, changeNotifies]
      cases hparameters : watcher.parameters with
      | none => rfl
      | some parameters => simp [hnone parameters hparameters]
    · right
      rw [hmax]
      exact decide_eq_true hdone

/-- What the run keeps: the watcher is at its place with its attributes, and its flag and time
are those of its history. -/
def FollowsHistory (place : WatcherPlace) (uri : Lwm2mUri) (watcher : Watcher)
    (past : List (ChangeCall × List (List Bool))) (context : ObserveContext) : Prop :=
  ∃ current, place.get context.observedList = some (uri, current) ∧ current.active = true ∧
    current.parameters = watcher.parameters ∧
    current.update = (changeHistory place uri watcher past).pending ∧
    current.lastTime = (changeHistory place uri watcher past).last

theorem changeHistory_append (place : WatcherPlace) (uri : Lwm2mUri) (watcher : Watcher)
    (past : List (ChangeCall × List (List Bool))) (event : ChangeCall × List (List Bool)) :
    changeHistory place uri watcher (past ++ [event]) =
      (changeHistory place uri watcher past).after place uri event := by
  simp [changeHistory]

theorem changeStep_follows (past : List (ChangeCall × List (List Bool))) (context : ObserveContext)
    (call : ChangeCall) (context' : ObserveContext) (reply : List (List Bool))
    (h : FollowsHistory place uri watcher past context)
    (hcond : ReadsSucceed context call ∧ FlagCounts place context call)
    (hstep : changeStep ops context call = .ok (context', reply)) :
    ReportsChange place uri watcher past (call, reply) ∧
      FollowsHistory place uri watcher (past ++ [(call, reply)]) context' := by
  obtain ⟨current, hplace, hactive, hparameters, hupdate, htime⟩ := h
  unfold FollowsHistory
  rw [changeHistory_append]
  cases call with
  | valueChanged changed =>
    obtain ⟨observedList, hchanged, heq⟩ := exceptMap_inv hstep
    obtain ⟨rfl, rfl⟩ := Prod.mk.inj heq
    refine ⟨fun _ _ _ hcall => (nomatch hcall), ?_⟩
    refine ⟨_, lwm2mResourceValueChanged_place hchanged hplace hactive, hactive, hparameters, ?_,
      htime⟩
    simp only [ChangeHistory.after, hupdate]
  | step currentTime timeoutP env =>
    obtain ⟨out, hout, heq⟩ := exceptMap_inv hstep
    obtain ⟨rfl, rfl⟩ := Prod.mk.inj heq
    obtain ⟨entries, hentries, rfl⟩ := exceptMap_inv hout
    obtain ⟨stepped, rfl, ⟨value, heffect⟩, ⟨value', hdecided⟩, hplace', hnotified⟩ :=
      stepEntries_place hentries hcond.1 hplace hactive
    constructor
    · rintro time timeout env' hcall hpending hperiod
      cases hcall
      rw [hnotified, hdecided]
      apply notifyDecision_pending (hupdate.trans hpending)
      · intro periodEnd hend
        obtain ⟨parameters, hfilter, rfl⟩ := Option.map_eq_some_iff.mp hend
        obtain ⟨hset, hisSet⟩ := Option.filter_eq_some_iff.mp hfilter
        rw [htime]
        exact hperiod parameters (hparameters ▸ hset) hisSet
      · exact hcond.2 uri stepped.before hplace (hupdate.trans hpending)
    · refine ⟨stepped.after, hplace', heffect.active.trans hactive,
        heffect.parameters.trans hparameters, ?_⟩
      simp only [ChangeHistory.after, hnotified]
      cases hnotification : stepped.notification with
      | none =>
        rw [heffect.kept hnotification]
        exact ⟨hupdate, htime⟩
      | some notification =>
        obtain ⟨-, -, hnow, hclear⟩ := heffect.sent (by rw [hnotification]; rfl)
        exact ⟨hclear, hnow⟩

/-- Over any run of changes and steps whose reads and serializations succeed, and in which no
step finds the watcher flagged with a maximum period that is not over and no minimum period:
every step reports the change that is pending once the minimum period is over, and the flag of
the watcher is cleared by that alone. -/
theorem changeRun_reported {context : ObserveContext} {place : WatcherPlace} {uri : Lwm2mUri}
    {watcher : Watcher} {calls : List ChangeCall}
    (hplace : place.get context.observedList = some (uri, watcher))
    (hactive : watcher.active = true)
    (hmeet : StepsMeet (changeStep ops)
      (fun context call => ReadsSucceed context call ∧ FlagCounts place context call) context
      calls)
    {final : ObserveContext} {replies : List (List (List Bool))}
    (hrun : run (changeStep ops) context calls = .ok (final, replies)) :
    EachEvent (ReportsChange place uri watcher) [] (calls.zip replies) ∧
      EachReached (changeStep ops) (FlagPending place uri watcher) [] context calls := by
  have hinit : FollowsHistory place uri watcher [] context :=
    ⟨watcher, hplace, hactive, rfl, rfl, rfl⟩
  constructor
  · exact run_eachEvent changeStep_follows calls [] context final replies hinit hmeet hrun
  · have hreached := eachReached_of_invariant
      (fun past s call s' reply h hc hs => (changeStep_follows past s call s' reply h hc hs).2)
      calls [] context hinit (hmeet.after calls [] context)
    refine hreached.imp (fun past s h => ?_) calls [] context
    obtain ⟨current, hget, -, -, hupdate, -⟩ := h
    exact ⟨current, hget, hupdate⟩

/-- `/3/0/13`. -/
def currentTimeUri : Lwm2mUri where
  objectId := 3
  instanceId := 0
  resourceId := 13
  resourceInstanceId := lwm2mMaxId

/-- A watcher with a maximum period of 60 s, and with a minimum period of 10 s where the flag
says so. -/
def periodicWatcher (toSet : UInt8) : Watcher :=
  { newWatcher 1 with
    active := true
    parameters := some
      { toSet, toClear := 0, minPeriod := 10, maxPeriod := 60, greaterThan := 0, lessThan := 0,
        step := 0 }
    token := [1] }

/-- It is the only one. -/
def oneWatcher (toSet : UInt8) : ObserveContext where
  observedList := [⟨currentTimeUri, [periodicWatcher toSet], false⟩]
  nextMID := 0

/-- The resource can be read and serialized. -/
def readableEnv : ObserveEnv where
  readData _ := some [.node .integer 13 (.asInteger 1)]
  serialize _ _ format := some (format, some [49])
  read _ format := some (format, some [])

theorem readableEnv_succeeds (observed : Observed) : EntrySucceeds readableEnv observed := by
  unfold EntrySucceeds
  split
  · exact ⟨_, rfl, fun _ _ _ => rfl⟩
  · exact fun _ _ _ => rfl

/-- The value changes, and the client steps at these times. -/
def changeThenSteps (times : List Int) : List ChangeCall :=
  .valueChanged currentTimeUri :: times.map fun currentTime => .step currentTime 60 readableEnv

/-- With both periods the change is reported when the minimum period is over. -/
theorem bothPeriods_reported :
    ∃ final replies, run (changeStep wholeDoubles)
        (oneWatcher (attrFlagMinPeriod ||| attrFlagMaxPeriod)) (changeThenSteps [5, 10, 12]) =
          .ok (final, replies) ∧
      replies = [[], [[false]], [[true]], [[false]]] ∧
      EachEvent (ReportsChange ⟨0, 0⟩ currentTimeUri
        (periodicWatcher (attrFlagMinPeriod ||| attrFlagMaxPeriod))) []
          ((changeThenSteps [5, 10, 12]).zip replies) ∧
      EachReached (changeStep wholeDoubles) (FlagPending ⟨0, 0⟩ currentTimeUri
        (periodicWatcher (attrFlagMinPeriod ||| attrFlagMaxPeriod))) []
          (oneWatcher (attrFlagMinPeriod ||| attrFlagMaxPeriod)) (changeThenSteps [5, 10, 12]) := by
  have hmeet : StepsMeet (changeStep wholeDoubles)
      (fun context call => ReadsSucceed context call ∧ FlagCounts ⟨0, 0⟩ context call)
      (oneWatcher (attrFlagMinPeriod ||| attrFlagMaxPeriod)) (changeThenSteps [5, 10, 12]) := by
    refine .cons ⟨trivial, trivial⟩ rfl ?_
    refine .cons ⟨fun observed _ => readableEnv_succeeds observed, ?_⟩ rfl
      (.cons ⟨fun observed _ => readableEnv_succeeds observed, ?_⟩ rfl
        (.cons ⟨fun observed _ => readableEnv_succeeds observed, ?_⟩ rfl trivial))
    all_goals
      rintro uri watcher hget _ hmin
      cases hget
      cases hmin
  have hrun : run (changeStep wholeDoubles) (oneWatcher (attrFlagMinPeriod ||| attrFlagMaxPeriod))
      (changeThenSteps [5, 10, 12]) = .ok (_, _) := rfl
  exact ⟨_, _, hrun, rfl, changeRun_reported rfl rfl hmeet hrun⟩

/-- With a maximum period alone the change is not reported at the next step, although the watcher
has no minimum period. -/
theorem maxPeriodAlone_unreported :
    ¬ (∀ (calls : List ChangeCall) (final : ObserveContext) (replies : List (List (List Bool))),
        StepsMeet (changeStep wholeDoubles) ReadsSucceed (oneWatcher attrFlagMaxPeriod) calls →
        run (changeStep wholeDoubles) (oneWatcher attrFlagMaxPeriod) calls = .ok (final, replies) →
        EachEvent (ReportsChange ⟨0, 0⟩ currentTimeUri (periodicWatcher attrFlagMaxPeriod)) []
          (calls.zip replies)) := by
  intro h
  have hreads : StepsMeet (changeStep wholeDoubles) ReadsSucceed (oneWatcher attrFlagMaxPeriod)
      (changeThenSteps [1]) :=
    .cons trivial rfl (.cons (fun observed _ => readableEnv_succeeds observed) rfl trivial)
  obtain ⟨-, hreported, -⟩ := h (changeThenSteps [1]) _ _ hreads rfl
  have hsent := hreported 1 60 readableEnv rfl rfl (by rintro parameters ⟨⟩ hset; cases hset)
  cases hsent

end Wakaama
