import Wakaama.Core.Proofs.NotifyStep

/-!
# Whether each watcher gets its own notification

The payload of an entry is made for the first watcher that is due and sent to the others as it is.
The notifications are right as long as the watchers that are due agree on what is to be sent.
-/

namespace Wakaama

variable {ops : DoubleOps} {env : ObserveEnv} {currentTime : Int} {uri : Lwm2mUri}

/-- What is made for a watcher of data that has been read: the format and the buffer. -/
def madeFor (env : ObserveEnv) (uri : Lwm2mUri) (dataP : Option (List Lwm2mData))
    (watcher : Watcher) : Option (UInt16 × Option (List UInt8)) :=
  match dataP with
  | some data => env.serialize uri data watcher.format
  | none => env.read uri watcher.format

/-- The data of an entry: for a resource what is read, and otherwise NULL. It is `none` where a
resource cannot be read. -/
def entryData (env : ObserveEnv) (uri : Lwm2mUri) : Option (Option (List Lwm2mData)) :=
  if uri.isSetResource then (env.readData uri).map some else some none

/-- The Content-Format and the payload of a message. -/
def shownMessage : UInt16 × Option (List UInt8) → UInt16 × List UInt8
  | (format, buffer) => (format, buffer.getD [])

/-- The watcher is to be notified. -/
def watcherDue (ops : DoubleOps) (currentTime : Int) (uri : Lwm2mUri)
    (dataP : Option (List Lwm2mData)) (watcher : Watcher) : Bool :=
  watcher.active && notifyDecision ops currentTime (valueOf uri dataP) watcher

/-- The notification is the watcher's own: its token, its counter, and the value in the format
made for it. Where there is none, the watcher is not due or nothing can be made for it. -/
def OwnNotification (ops : DoubleOps) (env : ObserveEnv) (currentTime : Int) (uri : Lwm2mUri)
    (dataP : Option (List Lwm2mData)) (stepped : SteppedWatcher) : Prop :=
  match stepped.notification with
  | some notification =>
    notification.server = stepped.before.server ∧ notification.token = stepped.before.token ∧
      notification.observe = stepped.before.counter ∧
      stepped.after.counter = stepped.before.counter + 1 ∧
      (madeFor env uri dataP stepped.before).map shownMessage =
        some (notification.contentType, notification.payload)
  | none => watcherDue ops currentTime uri dataP stepped.before = true →
    madeFor env uri dataP stepped.before = none

/-- The notifications of an entry are their watchers' own. A resource that cannot be read has
none. -/
def OwnNotifications (ops : DoubleOps) (env : ObserveEnv) (currentTime : Int)
    (entry : SteppedEntry) : Prop :=
  match entryData env entry.before.uri with
  | some dataP => ∀ stepped ∈ entry.watchers,
    OwnNotification ops env currentTime entry.before.uri dataP stepped
  | none => ∀ stepped ∈ entry.watchers, stepped.notification = none

/-- Behind the first watcher the second one gets its own message: if nothing can be made for the
first, nothing can be made for the second; if a buffer is made for the first, the second is to be
sent the same. A buffer that is NULL is made anew. -/
def ServedBehind (env : ObserveEnv) (uri : Lwm2mUri) (dataP : Option (List Lwm2mData))
    (first second : Watcher) : Prop :=
  match madeFor env uri dataP first with
  | none => madeFor env uri dataP second = none
  | some (format, some payload) =>
    (madeFor env uri dataP second).map shownMessage = some (format, payload)
  | some (_, none) => True

/-- The watchers of an entry that are due agree on what is to be sent. -/
def DueWatchersAgree (ops : DoubleOps) (env : ObserveEnv) (currentTime : Int)
    (observed : Observed) : Prop :=
  ∀ dataP ∈ entryData env observed.uri,
    (observed.watcherList.filter (watcherDue ops currentTime observed.uri dataP)).Pairwise
      (ServedBehind env observed.uri dataP)

variable {watcher : Watcher} {dataP : Option (List Lwm2mData)} {due : List Watcher}

theorem skippedWatcher_own :
    OwnNotification ops env currentTime uri dataP (skippedWatcher watcher) ↔
      (watcherDue ops currentTime uri dataP watcher = true →
        madeFor env uri dataP watcher = none) := Iff.rfl

theorem notifyBuffer_eq (dataP : Option (List Lwm2mData)) (watcher : Watcher)
    (state : NotifyState) : notifyBuffer env uri dataP watcher state =
      match state.buffer with
      | some (contentType, payload) => some (watcher.format, contentType, some payload)
      | none => (madeFor env uri dataP watcher).map fun out => (out.1, out) := by
  unfold notifyBuffer madeFor
  cases state.buffer with
  | some buffer => rfl
  | none => cases dataP <;> rfl

theorem stepWatcher_due (env : ObserveEnv) (state : NotifyState)
    (hdue : watcherDue ops currentTime uri dataP watcher = true) :
    (notifyBuffer env uri dataP watcher state = none ∧
      stepWatcher ops env currentTime uri dataP watcher state = none) ∨
    ∃ format contentType buffer stepped state',
      notifyBuffer env uri dataP watcher state = some (format, contentType, buffer) ∧
      stepWatcher ops env currentTime uri dataP watcher state = some (stepped, state') ∧
      state'.buffer = buffer.map (fun payload => (contentType, payload)) ∧
      (OwnNotification ops env currentTime uri dataP stepped ↔
        (madeFor env uri dataP watcher).map shownMessage =
          some (contentType, buffer.getD [])) := by
  obtain ⟨-, hnotify⟩ := Bool.and_eq_true_iff.1 hdue
  rw [← watcherNotifies_fst ops currentTime (valueOf uri dataP) watcher state.timeoutP,
    valueOf] at hnotify
  have hbuffer : ∀ timeoutP, notifyBuffer env uri dataP watcher { state with timeoutP } =
      notifyBuffer env uri dataP watcher state := fun _ => rfl
  unfold stepWatcher
  simp only [hnotify, if_true, hbuffer]
  cases hmessage : notifyBuffer env uri dataP watcher state with
  | none => exact .inl ⟨rfl, rfl⟩
  | some message =>
    obtain ⟨format, contentType, buffer⟩ := message
    refine .inr ⟨format, contentType, buffer, _, _, rfl, rfl, ?_, ?_⟩
    · unfold maxPeriodTimer
      split <;> rfl
    · exact ⟨fun h => h.2.2.2.2, fun h => ⟨rfl, rfl, rfl, rfl, h⟩⟩

theorem stepWatcher_notDue (env : ObserveEnv) (state : NotifyState)
    (hactive : watcher.active = true)
    (hdue : watcherDue ops currentTime uri dataP watcher = false) :
    ∃ state', stepWatcher ops env currentTime uri dataP watcher state =
      some (skippedWatcher watcher, state') ∧ state'.buffer = state.buffer := by
  have hnotify : notifyDecision ops currentTime (valueOf uri dataP) watcher = false := by
    simpa [watcherDue, hactive] using hdue
  rw [← watcherNotifies_fst ops currentTime (valueOf uri dataP) watcher state.timeoutP,
    valueOf] at hnotify
  unfold stepWatcher
  simp only [hnotify, Bool.false_eq_true, if_false]
  refine ⟨_, rfl, ?_⟩
  unfold maxPeriodTimer
  split <;> rfl

/-- What the watchers that are due have to agree on, the buffer being there already or not. -/
def WatchersAgree (env : ObserveEnv) (uri : Lwm2mUri) (dataP : Option (List Lwm2mData))
    (buffer : Option (UInt16 × List UInt8)) (due : List Watcher) : Prop :=
  match buffer with
  | some message => ∀ watcher ∈ due, (madeFor env uri dataP watcher).map shownMessage = some message
  | none => due.Pairwise (ServedBehind env uri dataP)

theorem watchersAgree_none (h : ∀ watcher ∈ due, madeFor env uri dataP watcher = none) :
    due.Pairwise (ServedBehind env uri dataP) := by
  refine List.pairwise_of_forall_mem_list fun first hfirst second hsecond => ?_
  rw [ServedBehind, h first hfirst]
  exact h second hsecond

theorem watchersAgree_same {message : UInt16 × List UInt8}
    (h : ∀ watcher ∈ due, (madeFor env uri dataP watcher).map shownMessage = some message) :
    due.Pairwise (ServedBehind env uri dataP) := by
  refine List.pairwise_of_forall_mem_list fun first hfirst second hsecond => ?_
  have hmade := h first hfirst
  unfold ServedBehind
  split
  · rename_i hnone
    rw [hnone] at hmade
    nomatch hmade
  · rename_i format payload hsome
    rw [hsome] at hmade
    rw [h second hsecond]
    exact hmade.symm
  · trivial

theorem watchersAgree_cons : WatchersAgree env uri dataP none (watcher :: due) ↔
      match madeFor env uri dataP watcher with
      | none => ∀ other ∈ due, madeFor env uri dataP other = none
      | some (format, buffer) =>
        WatchersAgree env uri dataP (buffer.map fun payload => (format, payload)) due := by
  simp only [WatchersAgree, List.pairwise_cons, ServedBehind]
  cases madeFor env uri dataP watcher with
  | none =>
    dsimp only
    exact and_iff_left_of_imp watchersAgree_none
  | some made =>
    obtain ⟨format, buffer⟩ := made
    cases buffer with
    | none =>
      dsimp only [Option.map_none]
      exact and_iff_right fun _ _ => trivial
    | some payload =>
      dsimp only [Option.map_some]
      exact and_iff_left_of_imp watchersAgree_same

theorem stepWatchers_own_iff (dataP : Option (List Lwm2mData)) (watchers : List Watcher)
    (state : NotifyState) :
    (∀ stepped ∈ (stepWatchers ops env currentTime uri dataP watchers state).1,
        OwnNotification ops env currentTime uri dataP stepped) ↔
      WatchersAgree env uri dataP state.buffer
        (watchers.filter (watcherDue ops currentTime uri dataP)) := by
  induction watchers generalizing state with
  | nil =>
    refine iff_of_true (fun _ hmem => absurd hmem List.not_mem_nil) ?_
    unfold WatchersAgree
    split
    · exact fun _ hmem => absurd hmem List.not_mem_nil
    · exact .nil
  | cons watcher next ih =>
    unfold stepWatchers
    cases hdue : watcherDue ops currentTime uri dataP watcher with
    | false =>
      rw [List.filter_cons_of_neg (Bool.eq_false_iff.1 hdue)]
      have hskipped : OwnNotification ops env currentTime uri dataP (skippedWatcher watcher) :=
        fun h => by cases hdue.symm.trans h
      by_cases hactive : watcher.active = true
      · obtain ⟨state', hstep, hbuffer⟩ := stepWatcher_notDue env state hactive hdue
        simp only [hactive, if_true, hstep, List.forall_mem_cons, hskipped, true_and, ih, hbuffer]
      · simp only [hactive, Bool.false_eq_true, if_false, List.forall_mem_cons, hskipped, true_and,
          ih]
    | true =>
      have hactive : watcher.active = true := (Bool.and_eq_true_iff.1 hdue).1
      rw [List.filter_cons_of_pos hdue, if_pos hactive]
      rcases stepWatcher_due env state hdue with
        ⟨hbuffer, hstep⟩ | ⟨format, contentType, buffer, stepped, state', hbuffer, hstep, hstate, hown⟩
      · -- nothing can be made: the loop ends, and the watchers behind get nothing
        simp only [hstep]
        rw [notifyBuffer_eq] at hbuffer
        cases hmade : state.buffer with
        | some message =>
          rw [hmade] at hbuffer
          cases hbuffer
        | none =>
          simp only [hmade, Option.map_eq_none_iff] at hbuffer
          rw [watchersAgree_cons, hbuffer]
          simp only [List.map_cons, List.forall_mem_cons, List.forall_mem_map, skippedWatcher_own,
            List.mem_filter, and_imp, hdue, hbuffer, true_imp_iff, true_and]
      · simp only [hstep, List.forall_mem_cons, hown, ih, hstate]
        rw [notifyBuffer_eq] at hbuffer
        cases hmade : state.buffer with
        | some message =>
          obtain ⟨sentType, payload⟩ := message
          simp only [hmade] at hbuffer
          cases hbuffer
          simp only [WatchersAgree, Option.map_some, List.forall_mem_cons, Option.getD_some]
        | none =>
          simp only [hmade] at hbuffer
          obtain ⟨⟨made, makes⟩, hmakes, heq⟩ := Option.map_eq_some_iff.1 hbuffer
          cases heq
          rw [watchersAgree_cons, hmakes]
          exact and_iff_right rfl

theorem stepEntry_own_iff (observed : Observed) (nextMID : UInt16) (timeoutP : Int) :
    OwnNotifications ops env currentTime
        { before := observed
          watchers := (stepEntry ops env currentTime observed nextMID timeoutP).1 } ↔
      DueWatchersAgree ops env currentTime observed := by
  simp only [OwnNotifications, DueWatchersAgree, stepEntry, entryData]
  by_cases hset : observed.uri.isSetResource = true
  · simp only [hset, if_true]
    cases hdata : env.readData observed.uri with
    | none =>
      refine iff_of_true (fun stepped hmem => ?_) fun _ hmem => absurd hmem nofun
      obtain ⟨watcher, -, rfl⟩ := List.mem_map.1 hmem
      rfl
    | some data =>
      simp only [Option.map_some, Option.mem_def, Option.some.injEq, forall_eq']
      exact stepWatchers_own_iff (some data) observed.watcherList _
  · simp only [hset, Bool.false_eq_true, if_false, Option.mem_def, Option.some.injEq, forall_eq']
    exact stepWatchers_own_iff none observed.watcherList _

theorem stepEntries_own_iff {observedList : List Observed} {nextMID : UInt16} {timeoutP : Int}
    {out : List SteppedEntry × UInt16 × Int}
    (h : stepEntries ops env currentTime observedList nextMID timeoutP = .ok out) :
    (∀ entry ∈ out.1, OwnNotifications ops env currentTime entry) ↔
      ∀ observed ∈ observedList, DueWatchersAgree ops env currentTime observed := by
  induction observedList generalizing nextMID timeoutP out with
  | nil =>
    cases h
    exact iff_of_true (List.forall_mem_nil _) (List.forall_mem_nil _)
  | cons observed next ih =>
    simp only [stepEntries] at h
    split at h
    · cases h
    · obtain ⟨rest, hrest, rfl⟩ := exceptMap_inv h
      rw [List.forall_mem_cons, List.forall_mem_cons, ih hrest, stepEntry_own_iff]

/-- A step sends every watcher its own notification exactly if the watchers of each entry that are
due agree on what is to be sent. -/
theorem observeStep_own_iff (ops : DoubleOps) (env : ObserveEnv) (context context' : ObserveContext)
    (currentTime timeoutP timeoutP' : Int) (entries : List SteppedEntry)
    (hstep : context.observeStep ops env currentTime timeoutP =
      .ok (context', entries, timeoutP')) :
    (∀ entry ∈ entries, OwnNotifications ops env currentTime entry) ↔
      ∀ observed ∈ context.observedList, DueWatchersAgree ops env currentTime observed := by
  obtain ⟨out, hentries, heq⟩ := exceptMap_inv hstep
  cases heq
  exact stepEntries_own_iff hentries

/-- The battery level 21 as text and in TLV. -/
def levelEnv : ObserveEnv where
  readData _ := some [.node .integer 9 (.asInteger 21)]
  serialize _ _ format :=
    if format = 0 then some (0, some [50, 49])
    else if format = 11542 then some (11542, some [0xC1, 9, 21])
    else none
  read _ _ := none

/-- A watcher whose value has changed. -/
def changedWatcher (server format : UInt16) : Watcher :=
  { newWatcher server with active := true, update := true, format, token := [server.toUInt8] }

/-- Two servers that observe the battery level in these formats. -/
def twoWatchers (first second : UInt16) : ObserveContext where
  observedList := [⟨⟨3, 0, 9, lwm2mMaxId⟩, [changedWatcher 1 first, changedWatcher 2 second], false⟩]
  nextMID := 7

/-- The second server observes in TLV and is sent text. -/
theorem secondFormat_ignored : ∃ context' entries timeoutP,
    (twoWatchers 0 11542).observeStep wholeDoubles levelEnv 10 60 =
      .ok (context', entries, timeoutP) ∧
    ¬ ∀ entry ∈ entries, OwnNotifications wholeDoubles levelEnv 10 entry := by
  refine ⟨_, _, _, rfl, fun hown => ?_⟩
  -- the message of the second watcher
  obtain ⟨-, -, -, -, hmade⟩ := hown _ (.head _) _ (.tail _ (.head _))
  exact absurd hmade nofun

/-- Two servers that observe in the same format are each notified. -/
theorem sameFormat_own : ∃ context' entries timeoutP,
    (twoWatchers 0 0).observeStep wholeDoubles levelEnv 10 60 = .ok (context', entries, timeoutP) ∧
    ∀ entry ∈ entries, OwnNotifications wholeDoubles levelEnv 10 entry := by
  refine ⟨_, _, _, rfl, ?_⟩
  refine (observeStep_own_iff wholeDoubles levelEnv (twoWatchers 0 0) _ 10 60 _ _ rfl).2 ?_
  intro observed hmem dataP hdata
  obtain rfl := List.mem_singleton.1 hmem
  cases hdata
  refine .cons (fun other hother => ?_) (.cons (fun _ hmem => nomatch hmem) .nil)
  obtain rfl := List.mem_singleton.1 hother
  rfl

end Wakaama
