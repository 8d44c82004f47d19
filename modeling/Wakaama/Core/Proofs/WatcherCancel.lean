import Wakaama.Core.Proofs.NotifyPeriods

/-!
# Which watcher a cancellation removes

`observe_cancel` searches all entries for a message id and a session. A watcher has an id there
before its first notification: that of the request, or zero. So a cancellation can meet a watcher
of another URI, and a reset one that was never notified.
-/

namespace Wakaama

/-- What changes the observed list: notifications and changes of values, requests, resets, and the
removal of an object or an instance. -/
inductive WatchCall where
  | step (currentTime timeoutP : Int) (env : ObserveEnv)
  | valueChanged (uri : Lwm2mUri)
  | request (call : ObserveCall)
  | reset (server mid : UInt16)
  | clear (uri : Lwm2mUri)

/-- The context, and the message id of the latest notification of each watcher there is. -/
structure WatchState where
  context : ObserveContext
  notified : Lwm2mUri → UInt16 → Option UInt16

/-- The message id of the notification that a step sends for a watcher. -/
def sentTo (entries : List SteppedEntry) (uri : Lwm2mUri) (server : UInt16) : Option UInt16 :=
  entries.findSome? fun entry =>
    if entry.before.uri = uri then
      entry.watchers.findSome? fun stepped =>
        if stepped.before.server = server then stepped.notification.map Notification.mid else none
    else none

/-- The state behind an event. A watcher that is gone takes its notification along. -/
def WatchState.next (state : WatchState) (context : ObserveContext)
    (sent : Lwm2mUri → UInt16 → Option UInt16) : WatchState where
  context := context
  notified uri server :=
    if (watcherAt context.observedList uri server).isSome then
      (sent uri server).or (state.notified uri server)
    else none

/-- One event. -/
def watchStep (sessionIsEqual : UInt16 → UInt16 → Bool)
    (tooClose : UInt64 → UInt64 → UInt64 → Bool) (ops : DoubleOps) (state : WatchState)
    (call : WatchCall) : Except Fault (WatchState × Unit) :=
  let context := state.context
  let unsent (observedList : List Observed) : WatchState × Unit :=
    (state.next { context with observedList } fun _ _ => none, ())
  match call with
  | .step currentTime timeoutP env =>
    (context.observeStep ops env currentTime timeoutP).map fun out =>
      (state.next out.1 (sentTo out.2.1), ())
  | .valueChanged uri => (lwm2mResourceValueChanged uri context.observedList).map unsent
  | .request call =>
    (observeStep sessionIsEqual tooClose context.observedList call).map fun out => unsent out.1
  | .reset server mid => (observeCancel mid (sessionIsEqual server) context.observedList).map unsent
  | .clear uri => (observeClear uri context.observedList).map unsent

/-- No watchers. -/
def noWatchers (nextMID : UInt16) : WatchState := ⟨⟨[], nextMID⟩, fun _ _ => none⟩

/-- Where a new entry can be allocated, so can its watcher. -/
def WatcherAllocated (_ : WatchState) : WatchCall → Prop
  | .request call => call.alloc.observed = true → call.alloc.watcher = true
  | _ => True

variable {observedList observedList' : List Observed} {uri : Lwm2mUri} {server : UInt16}
  {alloc : ObserveAlloc}

theorem ObservedWf.observedUnique (h : ObservedWf observedList) :
    ObservedUnique observedList := ⟨h.uris, h.servers⟩

theorem prvGetWatcher_around {place : WatcherAt}
    (h : prvGetWatcher alloc uri server observedList = .ok (.found place)) :
    ∀ observed ∈ place.before ++ place.after, observed ∈ observedList := by
  unfold prvGetWatcher at h
  split at h
  · cases h
  · split at h
    · cases h
    split at h
    · cases h
      exact fun observed hmem => hmem
    · cases h
  · rename_i before observed after hfound
    obtain ⟨rfl, -⟩ := prvFindObserved_found hfound
    have haround : ∀ other ∈ before ++ after, other ∈ before ++ observed :: after := by
      intro other hmem
      rcases List.mem_append.1 hmem with hmem | hmem
      · exact List.mem_append_left _ hmem
      · exact List.mem_append_right _ (List.mem_cons_of_mem _ hmem)
    split at h
    · cases h
      exact haround
    · split at h
      · cases h
        exact haround
      · cases h

theorem prvGetWatcher_unchanged (halloc : alloc.observed = true → alloc.watcher = true)
    (h : prvGetWatcher alloc uri server observedList = .ok (.null observedList')) :
    observedList' = observedList := by
  unfold prvGetWatcher at h
  split at h
  · cases h
  · split at h
    · cases h
      rfl
    · rename_i hobserved
      rw [if_pos (halloc (by simpa using hobserved))] at h
      cases h
  · split at h
    · cases h
    · split at h <;> cases h
      rfl

theorem ObservedWf.put {place : WatcherAt} (hwf : ObservedWf observedList)
    (h : prvGetWatcher alloc uri server observedList = .ok (.found place)) (watcher : Watcher)
    (hserver : watcher.server = place.watcher.server) : ObservedWf (place.put watcher) := by
  have hplace := prvGetWatcher_gotAt hwf.observedUnique h
  have haround := prvGetWatcher_around h
  have hunique := hplace.unique watcher (hserver.trans hplace.owner)
  have hmem : ∀ observed ∈ place.put watcher, observed ∈ observedList ∨
      observed = { uri := place.uri
                   watcherList := place.watchersBefore ++ watcher :: place.watchersAfter
                   freed := false } := by
    intro observed hmem
    rcases List.mem_append.1 hmem with hmem | hmem
    · exact .inl (haround observed (List.mem_append_left _ hmem))
    · rcases List.mem_cons.1 hmem with rfl | hmem
      · exact .inr rfl
      · exact .inl (haround observed (List.mem_append_right _ hmem))
  refine ⟨hunique.uris, fun observed hobserved => ?_, fun observed hobserved => ?_, hunique.servers⟩
  · rcases hmem observed hobserved with hold | rfl
    · exact hwf.live observed hold
    · rfl
  · rcases hmem observed hobserved with hold | rfl
    · exact hwf.watched observed hold
    · simp

theorem observeHandleRequest_wf {sessionIsEqual : UInt16 → UInt16 → Bool} {now : Int}
    {message : ObserveMessage} {out : List Observed × ObserveReply}
    (halloc : alloc.observed = true → alloc.watcher = true) (hwf : ObservedWf observedList)
    (h : observeHandleRequest sessionIsEqual now alloc uri server message observedList = .ok out) :
    ObservedWf out.1 := by
  simp only [observeHandleRequest] at h
  split at h
  · split at h
    · cases h
      exact hwf
    split at h
    · cases h
      exact hwf
    split at h
    · cases h
    · rename_i hnull
      cases h
      rwa [prvGetWatcher_unchanged halloc hnull]
    · rename_i hfound
      cases h
      exact hwf.put hfound _ rfl
  · split at h
    · split at h
      · cases h
      · cases h
        exact hwf
      · split at h
        · cases h
          exact hwf
        · rename_i watcher _ _
          obtain ⟨observedList', hcancel, hwf', -⟩ :=
            observeCancel_spec watcher.lastMid (sessionIsEqual server) hwf
          rw [hcancel] at h
          cases h
          exact hwf'
    · cases h
      exact hwf

theorem observeSetParameters_wf {tooClose : UInt64 → UInt64 → UInt64 → Bool} {readable : CoapCode}
    {attr : Lwm2mAttributes} {out : List Observed × ObserveReply}
    (halloc : alloc.observed = true → alloc.watcher = true) (hwf : ObservedWf observedList)
    (h : observeSetParameters tooClose readable alloc uri server attr observedList = .ok out) :
    ObservedWf out.1 := by
  simp only [observeSetParameters] at h
  split at h
  · cases h
    exact hwf
  split at h
  · cases h
    exact hwf
  split at h
  · cases h
  · rename_i hnull
    cases h
    rwa [prvGetWatcher_unchanged halloc hnull]
  · rename_i hfound
    split at h
    · cases h
    · cases h
      exact hwf.put hfound _ rfl
    split at h
    · split at h
      · split at h <;> cases h <;> exact hwf.put hfound _ rfl
      · cases h
        exact hwf.put hfound _ rfl
    · cases h
      exact hwf.put hfound _ rfl

theorem ObservedWf.map {ι : Type} {f g : ι → Observed} {xs : List ι} (h : ObservedWf (xs.map f))
    (huri : ∀ x ∈ xs, (g x).uri = (f x).uri) (hfreed : ∀ x ∈ xs, (g x).freed = (f x).freed)
    (hservers : ∀ x ∈ xs, (g x).watcherList.map Watcher.server =
      (f x).watcherList.map Watcher.server) : ObservedWf (xs.map g) := by
  have hunique := h.observedUnique.map huri hservers
  refine ⟨hunique.uris, fun observed hmem => ?_, fun observed hmem => ?_, hunique.servers⟩
  · obtain ⟨x, hx, rfl⟩ := List.mem_map.1 hmem
    rw [hfreed x hx]
    exact h.live (f x) (List.mem_map_of_mem hx)
  · obtain ⟨x, hx, rfl⟩ := List.mem_map.1 hmem
    intro hnil
    have hempty := hservers x hx
    rw [hnil, List.map_nil, eq_comm, List.map_eq_nil_iff] at hempty
    exact h.watched (f x) (List.mem_map_of_mem hx) hempty

theorem ObservedWf.sublist (h : ObservedWf observedList)
    (hsub : observedList'.Sublist observedList) : ObservedWf observedList' where
  uris := h.uris.sublist (hsub.map _)
  live observed hmem := h.live observed (hsub.subset hmem)
  watched observed hmem := h.watched observed (hsub.subset hmem)
  servers observed hmem := h.servers observed (hsub.subset hmem)

theorem observeClear_sublist (h : observeClear uri observedList = .ok observedList') :
    observedList'.Sublist observedList := by
  induction observedList generalizing observedList' with
  | nil =>
    cases h
    exact List.Sublist.refl []
  | cons observed next ih =>
    simp only [observeClear] at h
    split at h
    · cases h
    split at h
    · cases h
    · rename_i hnext
      split at h
      · cases h
        exact (ih hnext).cons observed
      · cases h
        exact (ih hnext).cons_cons observed

theorem watchStep_wf {sessionIsEqual : UInt16 → UInt16 → Bool}
    {tooClose : UInt64 → UInt64 → UInt64 → Bool} {ops : DoubleOps} (state : WatchState)
    (call : WatchCall) (state' : WatchState) (reply : Unit)
    (hwf : ObservedWf state.context.observedList) (halloc : WatcherAllocated state call)
    (hstep : watchStep sessionIsEqual tooClose ops state call = .ok (state', reply)) :
    ObservedWf state'.context.observedList := by
  cases call with
  | step currentTime timeoutP env =>
    obtain ⟨out, hout, heq⟩ := exceptMap_inv hstep
    obtain ⟨rfl, -⟩ := Prod.mk.inj heq
    obtain ⟨stepped, hentries, rfl⟩ := exceptMap_inv hout
    obtain ⟨hbefore, heffect⟩ := stepEntries_effect hentries
    rw [← hbefore] at hwf
    exact hwf.map (fun _ _ => rfl) (fun _ _ => rfl) fun entry hentry =>
      (heffect entry hentry).servers
  | valueChanged uri =>
    obtain ⟨observedList, hchanged, heq⟩ := exceptMap_inv hstep
    obtain ⟨rfl, -⟩ := Prod.mk.inj heq
    obtain rfl := lwm2mResourceValueChanged_spec hchanged
    have hself : ObservedWf (state.context.observedList.map fun observed => observed) := by
      rwa [List.map_id']
    refine hself.map (fun observed _ => ?_) (fun observed _ => ?_) fun observed _ => ?_
    · split <;> rfl
    · split <;> rfl
    · split
      · rw [List.map_map]
        exact List.map_congr_left fun watcher _ => (tagWatcher_keeps watcher).1
      · rfl
  | request call =>
    obtain ⟨out, hrequest, heq⟩ := exceptMap_inv hstep
    obtain ⟨rfl, -⟩ := Prod.mk.inj heq
    unfold observeStep at hrequest
    split at hrequest
    · exact observeHandleRequest_wf halloc hwf hrequest
    · exact observeSetParameters_wf halloc hwf hrequest
  | reset server mid =>
    obtain ⟨observedList, hcancel, heq⟩ := exceptMap_inv hstep
    obtain ⟨rfl, -⟩ := Prod.mk.inj heq
    obtain ⟨observedList', hcancel', hwf', -⟩ := observeCancel_spec mid (sessionIsEqual server) hwf
    rw [hcancel'] at hcancel
    obtain rfl := Except.ok.inj hcancel
    exact hwf'
  | clear uri =>
    obtain ⟨observedList, hclear, heq⟩ := exceptMap_inv hstep
    obtain ⟨rfl, -⟩ := Prod.mk.inj heq
    exact hwf.sublist (observeClear_sublist hclear)

/-- Exactly the watcher of the server on the URI is gone, with its entry when it was the last one,
and every other one is as it was. -/
def RemovesExactly (observedList observedList' : List Observed) (uri : Lwm2mUri)
    (server : UInt16) : Prop :=
  ObservedWf observedList' ∧ ∀ uri' server', watcherAt observedList' uri' server' =
    if uri' = uri ∧ server' = server then none else watcherAt observedList uri' server'

/-- An Observe = 1 request is answered and removes exactly the watcher of the server on the URI. -/
def CancelledExactly (sessionIsEqual : UInt16 → UInt16 → Bool) (observedList : List Observed)
    (call : ObserveCall) (message : ObserveMessage) : Prop :=
  ∃ observedList' reply, observeHandleRequest sessionIsEqual call.now call.alloc call.uri
      call.server message observedList = .ok (observedList', reply) ∧
    RemovesExactly observedList observedList' call.uri call.server

/-- The first entry that agrees with the URI on the segments it sets has a watcher of the server,
and the first watcher of all with the message id of that one and an equal session is the one of the
server on the URI; or the cancellation meets no watcher, and the server has none on the URI. -/
def CancelMeets (sessionIsEqual : UInt16 → UInt16 → Bool) (observedList : List Observed)
    (uri : Lwm2mUri) (server : UInt16) : Prop :=
  match observedList.find? fun observed => matchesUri uri observed.uri with
  | none => watcherAt observedList uri server = none
  | some observed =>
    match observed.watcherList.find? fun watcher => watcher.server == server with
    | none => watcherAt observedList uri server = none
    | some watcher =>
      match firstWith watcher.lastMid (sessionIsEqual server) observedList with
      | none => watcherAt observedList uri server = none
      | some hit => hit = (uri, server)

/-- A reset removes only watchers of the server whose latest notification had the message id. -/
def ResetRemovesOnly (sessionIsEqual : UInt16 → UInt16 → Bool) (state : WatchState)
    (server mid : UInt16) : Prop :=
  ∃ observedList', observeCancel mid (sessionIsEqual server) state.context.observedList =
      .ok observedList' ∧ ObservedWf observedList' ∧
    ∀ uri' server', watcherAt observedList' uri' server' ≠
        watcherAt state.context.observedList uri' server' →
      sessionIsEqual server server' = true ∧ state.notified uri' server' = some mid

/-- The first watcher with the message id and an equal session has the id from a notification. -/
def ResetMeets (sessionIsEqual : UInt16 → UInt16 → Bool) (state : WatchState)
    (server mid : UInt16) : Prop :=
  ∀ hit, firstWith mid (sessionIsEqual server) state.context.observedList = some hit →
    state.notified hit.1 hit.2 = some mid

theorem splitFirst_isNone {α : Type} {p : α → Bool} {xs : List α} (h : splitFirst p xs = none) :
    xs.find? p = none := by
  rw [List.find?_eq_none]
  intro x hx
  rw [splitFirst_none h x hx]
  exact Bool.false_ne_true

theorem firstWith_watcherAt (hwf : ObservedWf observedList) {mid : UInt16}
    {fromSession : UInt16 → Bool} {hit : Lwm2mUri × UInt16}
    (h : firstWith mid fromSession observedList = some hit) :
    watcherAt observedList hit.1 hit.2 ≠ none ∧ fromSession hit.2 = true := by
  unfold firstWith at h
  obtain ⟨observed, hmem, hhit⟩ := List.exists_of_findSome?_eq_some h
  obtain ⟨watcher, hwatcher, rfl⟩ := Option.map_eq_some_iff.1 hhit
  have hsession := List.find?_some hwatcher
  have hthere := List.mem_of_find?_eq_some hwatcher
  obtain ⟨before, after, rfl⟩ := List.append_of_mem hmem
  refine ⟨?_, by simpa using (Bool.and_eq_true _ _ ▸ hsession).2⟩
  rw [watcherAt_of_split hwf.uris, ne_eq, lookupKey_eq_none_iff]
  exact fun habsent => habsent (List.mem_map_of_mem hthere)

theorem removesExactly_refl (hwf : ObservedWf observedList) (uri : Lwm2mUri) (server : UInt16) :
    RemovesExactly observedList observedList uri server ↔
      watcherAt observedList uri server = none := by
  constructor
  · intro h
    have hgone := h.2 uri server
    rwa [if_pos ⟨rfl, rfl⟩] at hgone
  · intro hnone
    refine ⟨hwf, fun uri' server' => ?_⟩
    by_cases hsame : uri' = uri ∧ server' = server
    · rw [if_pos hsame, hsame.1, hsame.2, hnone]
    · rw [if_neg hsame]

theorem observeCancel_removesExactly (hwf : ObservedWf observedList)
    (hwf' : ObservedWf observedList') {mid : UInt16} {fromSession : UInt16 → Bool}
    (hfound : ∀ uri server, watcherAt observedList' uri server = if firstWith mid fromSession observedList = some (uri, server) then none else watcherAt observedList uri server)
    (uri : Lwm2mUri) (server : UInt16) :
    RemovesExactly observedList observedList' uri server ↔
      match firstWith mid fromSession observedList with
      | none => watcherAt observedList uri server = none
      | some hit => hit = (uri, server) := by
  cases hhit : firstWith mid fromSession observedList with
  | none =>
    simp only [hhit, reduceCtorEq, if_false] at hfound
    rw [← removesExactly_refl hwf]
    unfold RemovesExactly
    simp only [hfound, hwf, hwf']
  | some hit =>
    obtain ⟨huri, hserver⟩ := hit
    constructor
    · intro h
      by_contra hother
      have hkept := h.2 huri hserver
      rw [hfound, if_pos hhit, if_neg fun hsame => hother (Prod.ext hsame.1 hsame.2)] at hkept
      exact (firstWith_watcherAt hwf hhit).1 hkept.symm
    · intro heq
      obtain ⟨rfl, rfl⟩ := Prod.mk.inj heq
      refine ⟨hwf', fun uri' server' => ?_⟩
      rw [hfound, hhit]
      by_cases hsame : uri' = huri ∧ server' = hserver
      · rw [if_pos (by rw [hsame.1, hsame.2]), if_pos hsame]
      · rw [if_neg hsame, if_neg fun h => hsame ?_]
        obtain ⟨rfl, rfl⟩ := Prod.mk.inj (Option.some.inj h)
        exact ⟨rfl, rfl⟩

theorem cancelledExactly_iff (sessionIsEqual : UInt16 → UInt16 → Bool)
    (hwf : ObservedWf observedList) (call : ObserveCall) {message : ObserveMessage}
    (hcount : message.count = 1) :
    CancelledExactly sessionIsEqual observedList call message ↔
      CancelMeets sessionIsEqual observedList call.uri call.server := by
  have hunchanged : (∃ observedList' reply,
      (Except.ok (observedList, ⟨.content205, none⟩) : Except Fault (List Observed × ObserveReply)) =
        .ok (observedList', reply) ∧ RemovesExactly observedList observedList' call.uri call.server) ↔
      watcherAt observedList call.uri call.server = none := by
    rw [← removesExactly_refl hwf]
    constructor
    · rintro ⟨observedList', reply, heq, hremoves⟩
      cases heq
      exact hremoves
    · exact fun hremoves => ⟨_, _, rfl, hremoves⟩
  have hzero : message.count ≠ 0 := by
    rw [hcount]
    decide
  unfold CancelledExactly CancelMeets observeHandleRequest
  simp only [if_neg hzero, if_pos hcount, prvFindObserved_live hwf.live]
  cases hentry : splitFirst (fun observed => matchesUri call.uri observed.uri) observedList with
  | none =>
    rw [splitFirst_isNone hentry]
    exact hunchanged
  | some found =>
    obtain ⟨before, observed, after⟩ := found
    rw [splitFirst_find hentry]
    dsimp only
    cases hwatcher : prvFindWatcher call.server observed.watcherList with
    | none =>
      rw [splitFirst_isNone hwatcher]
      exact hunchanged
    | some split =>
      obtain ⟨watchersBefore, watcher, watchersAfter⟩ := split
      rw [splitFirst_find hwatcher]
      obtain ⟨observedList', hcancel, hwf', -, hfound⟩ :=
        observeCancel_spec watcher.lastMid (sessionIsEqual call.server) hwf
      dsimp only
      rw [hcancel, ← observeCancel_removesExactly hwf hwf' hfound]
      constructor
      · rintro ⟨observedList'', reply, heq, hremoves⟩
        cases heq
        exact hremoves
      · exact fun hremoves => ⟨_, _, rfl, hremoves⟩

theorem resetRemovesOnly_iff (sessionIsEqual : UInt16 → UInt16 → Bool) {state : WatchState}
    (hwf : ObservedWf state.context.observedList) (server mid : UInt16) :
    ResetRemovesOnly sessionIsEqual state server mid ↔
      ResetMeets sessionIsEqual state server mid := by
  obtain ⟨observedList', hcancel, hwf', -, hfound⟩ :=
    observeCancel_spec mid (sessionIsEqual server) hwf
  constructor
  · rintro ⟨observedList'', hcancel', -, honly⟩ hit hhit
    rw [hcancel] at hcancel'
    obtain rfl := Except.ok.inj hcancel'
    refine (honly hit.1 hit.2 ?_).2
    rw [hfound, if_pos hhit]
    exact fun hnone => (firstWith_watcherAt hwf hhit).1 hnone.symm
  · intro hmeets
    refine ⟨observedList', hcancel, hwf', fun uri' server' hchanged => ?_⟩
    rw [hfound] at hchanged
    split at hchanged
    · rename_i hhit
      exact ⟨(firstWith_watcherAt hwf hhit).2, hmeets _ hhit⟩
    · exact absurd rfl hchanged

/-- After every run in which a new entry is never allocated without its watcher, an Observe = 1
request removes exactly the watcher of the server on the URI if that is the one it meets, and a
reset removes only watchers whose latest notification had its id if the one it meets is. -/
theorem watchRun_cancel_iff {sessionIsEqual : UInt16 → UInt16 → Bool}
    {tooClose : UInt64 → UInt64 → UInt64 → Bool} {ops : DoubleOps} {nextMID : UInt16}
    {calls : List WatchCall}
    (hmeet : StepsMeet (watchStep sessionIsEqual tooClose ops) WatcherAllocated
      (noWatchers nextMID) calls) {final : WatchState} {replies : List Unit}
    (hrun : run (watchStep sessionIsEqual tooClose ops) (noWatchers nextMID) calls =
      .ok (final, replies)) :
    (∀ (call : ObserveCall) (message : ObserveMessage), message.count = 1 →
      (CancelledExactly sessionIsEqual final.context.observedList call message ↔
        CancelMeets sessionIsEqual final.context.observedList call.uri call.server)) ∧
    ∀ server mid, ResetRemovesOnly sessionIsEqual final server mid ↔
      ResetMeets sessionIsEqual final server mid := by
  have hempty : ObservedWf (noWatchers nextMID).context.observedList :=
    ⟨List.nodup_nil, fun _ hmem => (nomatch hmem), fun _ hmem => (nomatch hmem),
      fun _ hmem => (nomatch hmem)⟩
  have hwf := run_invariant watchStep_wf calls _ final replies hempty hmeet hrun
  exact ⟨fun call message hcount => cancelledExactly_iff sessionIsEqual hwf call hcount,
    fun server mid => resetRemovesOnly_iff sessionIsEqual hwf server mid⟩

/-- The message of an Observe = 1 request. -/
def cancelMessage : ObserveMessage where
  count := 1
  token := []
  responseMid := 12
  contentType := 112
  data := .node .integer 0 (.asInteger 21)

/-- Two servers observe the battery level; the first of them can cancel. -/
def batteryWatched : List WatchCall :=
  [.request (observeCall deviceBattery 1 0 [1] 10), .request (observeCall deviceBattery 2 0 [2] 11)]

theorem batteryWatched_cancelled :
    ∃ final replies, run (watchStep (· == ·) (fun _ _ _ => false) wholeDoubles) (noWatchers 0)
        batteryWatched = .ok (final, replies) ∧
      CancelledExactly (· == ·) final.context.observedList (observeCall deviceBattery 1 1 [] 12)
        cancelMessage := by
  have hmeet : StepsMeet (watchStep (· == ·) (fun _ _ _ => false) wholeDoubles) WatcherAllocated
      (noWatchers 0) batteryWatched :=
    ⟨fun _ => rfl, fun _ _ _ => ⟨fun _ => rfl, fun _ _ _ => trivial⟩⟩
  refine ⟨_, _, rfl, ?_⟩
  apply ((watchRun_cancel_iff hmeet rfl).1 _ cancelMessage rfl).2
  rfl

/-- `/1/0`. -/
def serverInstance : Lwm2mUri :=
  { objectId := 1, instanceId := 0, resourceId := lwm2mMaxId, resourceInstanceId := lwm2mMaxId }

/-- One server sets an attribute of two instances, and cancels the observation of the first one or
sends a reset for the message id zero: the watcher of the second one is removed. -/
theorem attributeWatchers_confused :
    ∃ final replies, run (watchStep (· == ·) (fun _ _ _ => false) wholeDoubles) (noWatchers 0)
        [.request (minPeriodCall serverInstance 1), .request (minPeriodCall deviceInstance 1)] =
          .ok (final, replies) ∧
      ¬ CancelledExactly (· == ·) final.context.observedList (observeCall serverInstance 1 1 [] 12)
        cancelMessage ∧
      ¬ ResetRemovesOnly (· == ·) final 1 0 := by
  refine ⟨_, _, rfl, ?_, ?_⟩
  · rintro ⟨observedList', reply, hcancel, -, hremoves⟩
    obtain ⟨rfl, -⟩ := Prod.mk.inj (Except.ok.inj hcancel)
    exact nomatch hremoves serverInstance 1
  · rintro ⟨observedList', hcancel, -, honly⟩
    obtain rfl := Except.ok.inj hcancel
    have hnotified := (honly deviceInstance 1 (by decide)).2
    nomatch hnotified

end Wakaama
