import Wakaama.Core.Proofs.NotifyStep
import Wakaama.Core.Proofs.ObservedKeys

/-!
# The minimum period of a watcher

`lastTime` of an active watcher is the time of its last notification, or of its registration
since then. A notification comes no earlier than `minPeriod` after that, unless the maximum
period ends before the minimum period: its branch runs last.
-/

namespace Wakaama

/-! ## Runs -/

/-- What happens to the observed list: a step, a change that the application reports, a request
of a server. -/
inductive NotifyCall where
  | step (currentTime timeoutP : Int) (env : ObserveEnv)
  | valueChanged (uri : Lwm2mUri)
  | request (call : ObserveCall)

/-- The entry and the server whose observation was established, and the watchers that were
notified, as they were before. -/
structure NotifyReply where
  established : Option (Lwm2mUri × UInt16) := none
  notified : List (Lwm2mUri × Watcher) := []

/-- The watchers of a step that were notified. -/
def notifiedWatchers (entries : List SteppedEntry) : List (Lwm2mUri × Watcher) :=
  entries.flatMap fun entry =>
    (entry.watchers.filter fun stepped => stepped.notification.isSome).map fun stepped =>
      (entry.before.uri, stepped.before)

/-- The URI of the entry that a request is about: that of the first match, or its own. -/
def observedUri (uri : Lwm2mUri) (observedList : List Observed) : Lwm2mUri :=
  ((observedList.find? fun observed => matchesUri uri observed.uri).map Observed.uri).getD uri

/-- The observation that a request establishes; its answer has the Observe option. -/
def establishedBy (observedList : List Observed) (call : ObserveCall) (reply : ObserveReply) :
    Option (Lwm2mUri × UInt16) :=
  if reply.observe.isSome then some (observedUri call.uri observedList, call.server) else none

/-- One event. -/
def notifyStep (sessionIsEqual : UInt16 → UInt16 → Bool)
    (tooClose : UInt64 → UInt64 → UInt64 → Bool) (ops : DoubleOps) (context : ObserveContext) :
    NotifyCall → Except Fault (ObserveContext × NotifyReply)
  | .step currentTime timeoutP env =>
    (context.observeStep ops env currentTime timeoutP).map fun out =>
      (out.1, { notified := notifiedWatchers out.2.1 })
  | .valueChanged uri =>
    (lwm2mResourceValueChanged uri context.observedList).map fun observedList =>
      ({ context with observedList }, {})
  | .request call =>
    (observeStep sessionIsEqual tooClose context.observedList call).map fun out =>
      ({ context with observedList := out.1 },
        { established := establishedBy context.observedList call out.2 })

/-- When an event established the observation or notified the watcher of a server. -/
def touchedAt (uri : Lwm2mUri) (server : UInt16) (event : NotifyCall × NotifyReply) : Option Int :=
  match event.1 with
  | .step currentTime _ _ =>
    if event.2.notified.any fun notified => notified.1 == uri && notified.2.server == server then
      some currentTime
    else none
  | .valueChanged _ => none
  | .request call => if event.2.established = some (uri, server) then some call.now else none

/-- When the observation was established or the watcher notified last. -/
def lastTouched (past : List (NotifyCall × NotifyReply)) (uri : Lwm2mUri) (server : UInt16) :
    Option Int :=
  (past.filterMap (touchedAt uri server)).getLast?

/-- A watcher with a minimum period is notified no earlier than that after its last notification
and after its observation was established. -/
def MinPeriodHonoured (past : List (NotifyCall × NotifyReply))
    (event : NotifyCall × NotifyReply) : Prop :=
  ∀ notified ∈ event.2.notified, ∀ parameters ∈ notified.2.parameters,
    parameters.isSet attrFlagMinPeriod = true →
      ∃ last, lastTouched past notified.1 notified.2.server = some last ∧
        ∃ currentTime timeoutP env, event.1 = .step currentTime timeoutP env ∧
          last + parameters.minPeriod.toNat ≤ currentTime

/-- The maximum period of an active watcher is not over before its minimum period. -/
def PeriodsOrdered (context : ObserveContext) : NotifyCall → Prop
  | .step currentTime _ _ =>
    ∀ observed ∈ context.observedList, ∀ watcher ∈ observed.watcherList, watcher.active = true →
      ∀ minEnd ∈ minPeriodEnd watcher, ∀ maxEnd ∈ maxPeriodEnd watcher,
        maxEnd ≤ currentTime → minEnd ≤ currentTime
  | _ => True

/-! ## One watcher for a URI and a server -/

def HasWatcher (observedList : List Observed) (uri : Lwm2mUri) (watcher : Watcher) : Prop :=
  ∃ observed ∈ observedList, observed.uri = uri ∧ watcher ∈ observed.watcherList

structure ObservedUnique (observedList : List Observed) : Prop where
  uris : (observedList.map Observed.uri).Nodup
  servers : ∀ observed ∈ observedList, (observed.watcherList.map Watcher.server).Nodup

variable {uri : Lwm2mUri} {observedList : List Observed} {server : UInt16} {place : WatcherAt}
  {out : List Observed × ObserveReply} {call : ObserveCall}
  {sessionIsEqual : UInt16 → UInt16 → Bool} {tooClose : UInt64 → UInt64 → UInt64 → Bool}

theorem prvFindObserved_found {observed : Observed} {after : List Observed} :
    ∀ {observedList before : List Observed},
      prvFindObserved uri observedList = .ok (some (before, observed, after)) →
      observedList = before ++ observed :: after ∧
        observedList.find? (fun target => matchesUri uri target.uri) = some observed := by
  intro observedList
  induction observedList with
  | nil => exact fun h => nomatch h
  | cons target next ih =>
    intro before h
    unfold prvFindObserved at h
    split at h
    · cases h
    split at h
    · rename_i hmatch
      cases h
      exact ⟨rfl, List.find?_cons_of_pos hmatch⟩
    · rename_i hmatch
      split at h
      · cases h
      · cases h
      · rename_i hrest
        cases h
        obtain ⟨rfl, hfind⟩ := ih hrest
        exact ⟨rfl, by simp only [List.find?_cons, hmatch, hfind]⟩

theorem prvFindObserved_missing :
    ∀ {observedList : List Observed}, prvFindObserved uri observedList = .ok none →
      observedList.find? (fun target => matchesUri uri target.uri) = none := by
  intro observedList
  induction observedList with
  | nil => exact fun _ => rfl
  | cons target next ih =>
    intro h
    unfold prvFindObserved at h
    split at h
    · cases h
    split at h
    · cases h
    · rename_i hmatch
      split at h
      · cases h
      · rename_i hrest
        simp only [List.find?_cons, hmatch, ih hrest]
      · cases h

theorem uri_notMem_of_find
    (h : observedList.find? (fun target => matchesUri uri target.uri) = none) :
    uri ∉ observedList.map Observed.uri := by
  intro hmem
  obtain ⟨observed, hobserved, rfl⟩ := List.mem_map.mp hmem
  have hmatch := List.find?_eq_none.mp h observed hobserved
  exact hmatch (matchesUri_self _)

/-- A place at which a watcher is put: the others are those of the list, under other keys. -/
structure GotAt (observedList : List Observed) (uri : Lwm2mUri) (server : UInt16)
    (place : WatcherAt) : Prop where
  entry : place.uri = observedUri uri observedList
  owner : place.watcher.server = server
  old : place.watcher = newWatcher server ∨ HasWatcher observedList place.uri place.watcher
  unique : ∀ watcher : Watcher, watcher.server = server → ObservedUnique (place.put watcher)
  mem : ∀ watcher uri' watcher', HasWatcher (place.put watcher) uri' watcher' →
    (uri' = place.uri ∧ watcher' = watcher) ∨
      ((uri', watcher'.server) ≠ (place.uri, server) ∧ HasWatcher observedList uri' watcher')

theorem GotAt.of_parts (hunique : ObservedUnique observedList)
    (huri : place.uri = observedUri uri observedList) (hserver : place.watcher.server = server)
    (hold : place.watcher = newWatcher server ∨ HasWatcher observedList place.uri place.watcher)
    (hothers : ∀ observed ∈ place.before ++ place.after, observed ∈ observedList)
    (huris : (place.uri :: (place.before ++ place.after).map Observed.uri).Nodup)
    (hwatchers : ∀ watcher ∈ place.watchersBefore ++ place.watchersAfter, HasWatcher observedList place.uri watcher)
    (hservers : (server :: (place.watchersBefore ++ place.watchersAfter).map Watcher.server).Nodup) :
    GotAt observedList uri server place := by
  refine ⟨huri, hserver, hold, fun watcher hwatcher => ⟨?_, ?_⟩, ?_⟩
  · unfold WatcherAt.put
    rw [List.map_append, List.map_cons, List.nodup_middle, ← List.map_append]
    exact huris
  · intro observed hmem
    rcases List.mem_append.mp hmem with hmem | hmem
    · exact hunique.servers observed (hothers observed (List.mem_append_left _ hmem))
    · rcases List.mem_cons.mp hmem with rfl | hmem
      · simp only
        rw [List.map_append, List.map_cons, List.nodup_middle, ← List.map_append, hwatcher]
        exact hservers
      · exact hunique.servers observed (hothers observed (List.mem_append_right _ hmem))
  · rintro watcher uri' watcher' ⟨observed, hmem, rfl, hwatcher'⟩
    by_cases hentry : observed ∈ place.before ++ place.after
    · right
      refine ⟨fun heq => ?_, observed, hothers observed hentry, rfl, hwatcher'⟩
      have hsame : observed.uri = place.uri := (Prod.mk.inj heq).1
      apply (List.nodup_cons.mp huris).1
      exact List.mem_map.mpr ⟨observed, hentry, hsame⟩
    · have hthis : observed = { uri := place.uri
                                watcherList := place.watchersBefore ++ watcher ::
                                  place.watchersAfter
                                freed := false } := by
        rcases List.mem_append.mp hmem with hmem | hmem
        · exact absurd (List.mem_append_left _ hmem) hentry
        · rcases List.mem_cons.mp hmem with rfl | hmem
          · rfl
          · exact absurd (List.mem_append_right _ hmem) hentry
      subst hthis
      by_cases hother : watcher' ∈ place.watchersBefore ++ place.watchersAfter
      · right
        refine ⟨fun heq => ?_, hwatchers watcher' hother⟩
        have hsame : watcher'.server = server := (Prod.mk.inj heq).2
        apply (List.nodup_cons.mp hservers).1
        exact List.mem_map.mpr ⟨watcher', hother, hsame⟩
      · left
        refine ⟨rfl, ?_⟩
        rcases List.mem_append.mp hwatcher' with hw | hw
        · exact absurd (List.mem_append_left _ hw) hother
        · rcases List.mem_cons.mp hw with rfl | hw
          · rfl
          · exact absurd (List.mem_append_right _ hw) hother

theorem prvGetWatcher_gotAt {alloc : ObserveAlloc} (hunique : ObservedUnique observedList)
    (h : prvGetWatcher alloc uri server observedList = .ok (.found place)) :
    GotAt observedList uri server place := by
  unfold prvGetWatcher at h
  split at h
  · cases h
  · rename_i hnone
    have hfind := prvFindObserved_missing hnone
    split at h
    · cases h
    split at h
    · cases h
      refine .of_parts hunique ?_ rfl (.inl rfl) (fun _ hmem => hmem) ?_ (fun _ hmem => nomatch hmem) ?_
      · simp [observedUri, hfind]
      · exact List.nodup_cons.mpr ⟨uri_notMem_of_find hfind, hunique.uris⟩
      · exact List.nodup_singleton server
    · cases h
  · rename_i before observed after hsome
    obtain ⟨rfl, hfind⟩ := prvFindObserved_found hsome
    have hmem : observed ∈ before ++ observed :: after := by simp
    have hservers := hunique.servers observed hmem
    have huris := hunique.uris
    rw [List.map_append, List.map_cons, List.nodup_middle, ← List.map_append] at huris
    have hothers : ∀ other ∈ before ++ after, other ∈ before ++ observed :: after := by
      intro other hother
      rcases List.mem_append.mp hother with hother | hother
      · exact List.mem_append_left _ hother
      · exact List.mem_append_right _ (List.mem_cons_of_mem _ hother)
    split at h
    · rename_i watchersBefore watcher watchersAfter hwatcher
      cases h
      obtain ⟨hwatchers, hserver, -⟩ := splitFirst_some hwatcher
      rw [hwatchers, List.map_append, List.map_cons, List.nodup_middle, ← List.map_append]
        at hservers
      have hserver' : watcher.server = server := by simpa using hserver
      refine .of_parts hunique ?_ hserver' (.inr ⟨observed, hmem, rfl, ?_⟩) hothers huris ?_ ?_
      · simp [observedUri, hfind]
      · rw [hwatchers]
        simp
      · intro other hother
        refine ⟨observed, hmem, rfl, ?_⟩
        rw [hwatchers]
        rcases List.mem_append.mp hother with hother | hother
        · exact List.mem_append_left _ hother
        · exact List.mem_append_right _ (List.mem_cons_of_mem _ hother)
      · rw [← hserver']
        exact hservers
    · rename_i hnone
      split at h
      · cases h
        refine .of_parts hunique ?_ rfl (.inl rfl) hothers huris ?_ ?_
        · simp [observedUri, hfind]
        · exact fun other hother => ⟨observed, hmem, rfl, hother⟩
        · refine List.nodup_cons.mpr ⟨fun hsame => ?_, hservers⟩
          obtain ⟨other, hother, heq⟩ := List.mem_map.mp hsame
          have hno := splitFirst_none hnone other hother
          simp [heq] at hno
      · cases h

theorem prvGetWatcher_nowhere {alloc : ObserveAlloc} {observedList' : List Observed}
    (hunique : ObservedUnique observedList)
    (h : prvGetWatcher alloc uri server observedList = .ok (.null observedList')) :
    ObservedUnique observedList' ∧
      ∀ uri' watcher, HasWatcher observedList' uri' watcher →
        HasWatcher observedList uri' watcher := by
  unfold prvGetWatcher at h
  split at h
  · cases h
  · rename_i hnone
    have hfind := prvFindObserved_missing hnone
    split at h
    · cases h
      exact ⟨hunique, fun _ _ hwatcher => hwatcher⟩
    split at h
    · cases h
    · cases h
      refine ⟨⟨?_, ?_⟩, ?_⟩
      · exact List.nodup_cons.mpr ⟨uri_notMem_of_find hfind, hunique.uris⟩
      · exact List.forall_mem_cons.mpr ⟨List.nodup_nil, hunique.servers⟩
      · rintro uri' watcher ⟨observed, hmem, heq, hwatcher⟩
        rcases List.mem_cons.mp hmem with rfl | hmem
        · exact nomatch hwatcher
        · exact ⟨observed, hmem, heq, hwatcher⟩
  · split at h
    · cases h
    split at h
    · cases h
    · cases h
      exact ⟨hunique, fun _ _ hwatcher => hwatcher⟩

theorem observeCancel_sublist {mid : UInt16} {fromSession : UInt16 → Bool} :
    ∀ {observedList observedList' : List Observed},
      observeCancel mid fromSession observedList = .ok observedList' →
      (observedList'.map Observed.uri).Sublist (observedList.map Observed.uri) ∧
        ∀ observed' ∈ observedList', ∃ observed ∈ observedList, observed'.uri = observed.uri ∧
          observed'.watcherList.Sublist observed.watcherList := by
  intro observedList
  induction observedList with
  | nil =>
    intro observedList' h
    cases h
    exact ⟨.refl _, fun _ hmem => nomatch hmem⟩
  | cons observed next ih =>
    intro observedList' h
    have hkept : ∀ observed' ∈ next, ∃ target ∈ observed :: next, observed'.uri = target.uri ∧
        observed'.watcherList.Sublist target.watcherList :=
      fun observed' hmem => ⟨observed', List.mem_cons_of_mem _ hmem, rfl, .refl _⟩
    unfold observeCancel at h
    split at h
    · cases h
    split at h
    · cases h
    split at h
    · rename_i before watcher after hsplit
      obtain ⟨hwatchers, -, -⟩ := splitFirst_some hsplit
      split at h
      · cases h
        exact ⟨List.sublist_cons_self _ _, hkept⟩
      · cases h
        refine ⟨.refl _, fun observed' hmem => ?_⟩
        rcases List.mem_cons.mp hmem with rfl | hmem
        · refine ⟨observed, List.mem_cons_self, rfl, ?_⟩
          rw [hwatchers]
          exact (List.sublist_cons_self watcher after).append_left before
        · exact hkept observed' hmem
    · split at h
      · cases h
      · rename_i hrest
        cases h
        obtain ⟨huris, hmem⟩ := ih hrest
        refine ⟨huris.cons_cons _, fun observed' hobserved' => ?_⟩
        rcases List.mem_cons.mp hobserved' with rfl | hobserved'
        · exact ⟨observed', List.mem_cons_self, rfl, .refl _⟩
        · obtain ⟨target, htarget, heq⟩ := hmem observed' hobserved'
          exact ⟨target, List.mem_cons_of_mem _ htarget, heq⟩

theorem observeCancel_unique {mid : UInt16} {fromSession : UInt16 → Bool}
    {observedList' : List Observed} (hunique : ObservedUnique observedList)
    (h : observeCancel mid fromSession observedList = .ok observedList') :
    ObservedUnique observedList' ∧
      ∀ uri watcher, HasWatcher observedList' uri watcher →
        HasWatcher observedList uri watcher := by
  obtain ⟨huris, hmem⟩ := observeCancel_sublist h
  refine ⟨⟨hunique.uris.sublist huris, fun observed' hobserved' => ?_⟩, ?_⟩
  · obtain ⟨observed, hobserved, -, hwatchers⟩ := hmem observed' hobserved'
    exact (hunique.servers observed hobserved).sublist (hwatchers.map _)
  · rintro uri watcher ⟨observed', hobserved', rfl, hwatcher⟩
    obtain ⟨observed, hobserved, heq, hwatchers⟩ := hmem observed' hobserved'
    exact ⟨observed, hobserved, heq.symm, hwatchers.mem hwatcher⟩

/-! ## Requests -/

/-- What a request does to `lastTime`: the watcher whose observation it establishes has the
time of the request, the other active ones have theirs. -/
structure RequestTimes (observedList : List Observed) (call : ObserveCall)
    (out : List Observed × ObserveReply) : Prop where
  unique : ObservedUnique out.1
  times : ∀ uri watcher, HasWatcher out.1 uri watcher → watcher.active = true →
    (establishedBy observedList call out.2 = some (uri, watcher.server) ∧
        watcher.lastTime = call.now) ∨
      (establishedBy observedList call out.2 ≠ some (uri, watcher.server) ∧
        ∃ before, HasWatcher observedList uri before ∧ before.active = true ∧
          before.server = watcher.server ∧ before.lastTime = watcher.lastTime)

theorem RequestTimes.of_subset (hreply : out.2.observe = none)
    (hout : ObservedUnique out.1 ∧ ∀ uri watcher, HasWatcher out.1 uri watcher → HasWatcher observedList uri watcher) :
    RequestTimes observedList call out := by
  refine ⟨hout.1, fun uri watcher hwatcher hactive => .inr ⟨?_, ?_⟩⟩
  · simp [establishedBy, hreply]
  · exact ⟨watcher, hout.2 uri watcher hwatcher, hactive, rfl, rfl⟩

theorem RequestTimes.of_put {watcher : Watcher} {reply : ObserveReply}
    (hplace : GotAt observedList call.uri call.server place) (hreply : reply.observe = none)
    (hserver : watcher.server = place.watcher.server)
    (hactive : watcher.active = place.watcher.active)
    (htime : watcher.lastTime = place.watcher.lastTime) :
    RequestTimes observedList call (place.put watcher, reply) := by
  refine ⟨hplace.unique watcher (hserver.trans hplace.owner), fun uri watcher' hwatcher' h => ?_⟩
  right
  refine ⟨by simp [establishedBy, hreply], ?_⟩
  rcases hplace.mem watcher uri watcher' hwatcher' with ⟨rfl, rfl⟩ | ⟨-, hold⟩
  · rcases hplace.old with hnew | hold
    · rw [hactive, hnew] at h
      cases h
    · exact ⟨place.watcher, hold, hactive ▸ h, hserver.symm, htime.symm⟩
  · exact ⟨watcher', hold, h, rfl, rfl⟩

theorem observeHandleRequest_times {message : ObserveMessage}
    (hunique : ObservedUnique observedList)
    (h : observeHandleRequest sessionIsEqual call.now call.alloc call.uri call.server message observedList = .ok out) :
    RequestTimes observedList call out := by
  have hsame : ∀ code : CoapCode, RequestTimes observedList call (observedList, ⟨code, none⟩) :=
    fun code => .of_subset rfl ⟨hunique, fun _ _ hwatcher => hwatcher⟩
  simp only [observeHandleRequest] at h
  split at h
  · split at h
    · cases h
      exact hsame _
    split at h
    · cases h
      exact hsame _
    split at h
    · cases h
    · rename_i hnull
      cases h
      exact .of_subset rfl (prvGetWatcher_nowhere hunique hnull)
    · rename_i place hfound
      have hplace := prvGetWatcher_gotAt hunique hfound
      have hentry := hplace.entry
      cases h
      refine ⟨hplace.unique _ hplace.owner, fun uri watcher hwatcher hactive => ?_⟩
      rcases hplace.mem _ uri watcher hwatcher with ⟨rfl, rfl⟩ | ⟨hother, hold⟩
      · left
        exact ⟨by simp [establishedBy, hentry, hplace.owner], rfl⟩
      · right
        refine ⟨?_, watcher, hold, hactive, rfl, rfl⟩
        simp only [establishedBy, Option.isSome_some, if_true, ne_eq, Option.some.injEq, ← hentry]
        exact fun heq => hother heq.symm
  · split at h
    · split at h
      · cases h
      · cases h
        exact hsame _
      · split at h
        · cases h
          exact hsame _
        · split at h
          · cases h
          · rename_i hcancel
            cases h
            exact .of_subset rfl (observeCancel_unique hunique hcancel)
    · cases h
      exact hsame _

theorem observeSetParameters_times {readable : CoapCode} {attr : Lwm2mAttributes}
    (hunique : ObservedUnique observedList)
    (h : observeSetParameters tooClose readable call.alloc call.uri call.server attr observedList = .ok out) :
    RequestTimes observedList call out := by
  have hsame : ∀ code : CoapCode, RequestTimes observedList call (observedList, ⟨code, none⟩) :=
    fun code => .of_subset rfl ⟨hunique, fun _ _ hwatcher => hwatcher⟩
  simp only [observeSetParameters] at h
  split at h
  · cases h
    exact hsame _
  split at h
  · cases h
    exact hsame _
  split at h
  · cases h
  · rename_i hnull
    cases h
    exact .of_subset rfl (prvGetWatcher_nowhere hunique hnull)
  · rename_i place hfound
    have hplace := prvGetWatcher_gotAt hunique hfound
    split at h
    · cases h
    · cases h
      exact .of_put hplace rfl rfl rfl rfl
    split at h
    · split at h
      · split at h
        · cases h
          exact .of_put hplace rfl rfl rfl rfl
        · cases h
          exact .of_put hplace rfl rfl rfl rfl
      · cases h
        exact .of_put hplace rfl rfl rfl rfl
    · cases h
      exact .of_put hplace rfl rfl rfl rfl

/-! ## Steps of the run -/

structure TimesTracked (past : List (NotifyCall × NotifyReply)) (context : ObserveContext) :
    Prop where
  unique : ObservedUnique context.observedList
  times : ∀ uri watcher, HasWatcher context.observedList uri watcher → watcher.active = true →
    lastTouched past uri watcher.server = some watcher.lastTime

theorem lastTouched_append (past : List (NotifyCall × NotifyReply))
    (event : NotifyCall × NotifyReply) (uri : Lwm2mUri) (server : UInt16) :
    lastTouched (past ++ [event]) uri server =
      (touchedAt uri server event).or (lastTouched past uri server) := by
  unfold lastTouched
  rw [List.filterMap_append]
  cases h : touchedAt uri server event with
  | none => simp [h]
  | some time => simp [h]

theorem touchedAt_step (uri : Lwm2mUri) (server : UInt16) (currentTime timeoutP : Int)
    (env : ObserveEnv) (notified : List (Lwm2mUri × Watcher)) :
    touchedAt uri server (.step currentTime timeoutP env, { notified }) =
      if notified.any fun notified => notified.1 == uri && notified.2.server == server then
        some currentTime
      else none := rfl

theorem TimesTracked.request {past : List (NotifyCall × NotifyReply)} {context : ObserveContext}
    (h : TimesTracked past context)
    (hrequest : observeStep sessionIsEqual tooClose context.observedList call = .ok out) :
    TimesTracked (past ++ [(.request call,
        { established := establishedBy context.observedList call out.2 })])
      { context with observedList := out.1 } := by
  have heffect : RequestTimes context.observedList call out := by
    unfold observeStep at hrequest
    split at hrequest
    · exact observeHandleRequest_times h.unique hrequest
    · exact observeSetParameters_times h.unique hrequest
  refine ⟨heffect.unique, fun uri watcher hwatcher hactive => ?_⟩
  rw [lastTouched_append]
  rcases heffect.times uri watcher hwatcher hactive with ⟨hestablished, htime⟩ | ⟨hother, hold⟩
  · simp [touchedAt, hestablished, htime]
  · obtain ⟨before, hbefore, hbeforeActive, hserver, htime⟩ := hold
    have hkept := h.times uri before hbefore hbeforeActive
    rw [hserver, htime] at hkept
    simp [touchedAt, hother, hkept]

theorem ObservedUnique.map {ι : Type} {f g : ι → Observed} {xs : List ι}
    (h : ObservedUnique (xs.map f)) (huri : ∀ x ∈ xs, (g x).uri = (f x).uri)
    (hservers : ∀ x ∈ xs, (g x).watcherList.map Watcher.server =
      (f x).watcherList.map Watcher.server) : ObservedUnique (xs.map g) := by
  constructor
  · have huris := h.uris
    rw [List.map_map] at huris ⊢
    have hsame : xs.map (Observed.uri ∘ g) = xs.map (Observed.uri ∘ f) := List.map_congr_left huri
    rwa [hsame]
  · intro observed hmem
    obtain ⟨x, hx, rfl⟩ := List.mem_map.mp hmem
    rw [hservers x hx]
    exact h.servers (f x) (List.mem_map_of_mem hx)

theorem TimesTracked.valueChanged {past : List (NotifyCall × NotifyReply)}
    {context : ObserveContext} (h : TimesTracked past context)
    (hchanged : lwm2mResourceValueChanged uri context.observedList = .ok observedList) :
    TimesTracked (past ++ [(.valueChanged uri, ⟨none, []⟩)]) { context with observedList } := by
  obtain rfl := lwm2mResourceValueChanged_spec hchanged
  constructor
  · have hunique : ObservedUnique (context.observedList.map fun observed => observed) := by
      rw [List.map_id']
      exact h.unique
    refine hunique.map (fun observed _ => ?_) fun observed _ => ?_
    · split <;> rfl
    · split
      · rw [List.map_map]
        exact List.map_congr_left fun watcher _ => (tagWatcher_keeps watcher).1
      · rfl
  · rintro uri' watcher' ⟨observed', hmem', rfl, hwatcher'⟩ hactive
    obtain ⟨observed, hmem, rfl⟩ := List.mem_map.mp hmem'
    rw [lastTouched_append]
    simp only [touchedAt, Option.none_or]
    split at hwatcher'
    · rename_i hconcerns
      rw [if_pos hconcerns]
      obtain ⟨watcher, hwatcher, rfl⟩ := List.mem_map.mp hwatcher'
      obtain ⟨hserver, hsame, htime⟩ := tagWatcher_keeps watcher
      rw [hserver, htime]
      exact h.times _ watcher ⟨observed, hmem, rfl, hwatcher⟩ (hsame ▸ hactive)
    · rename_i hconcerns
      rw [if_neg hconcerns]
      exact h.times _ watcher' ⟨observed, hmem, rfl, hwatcher'⟩ hactive

section Step

variable {ops : DoubleOps} {currentTime : Int} {entries : List SteppedEntry}

theorem stepped_hasWatcher (heffect : ∀ entry ∈ entries, EntryEffect ops currentTime entry)
    {entry : SteppedEntry} (hentry : entry ∈ entries) {stepped : SteppedWatcher}
    (hstepped : stepped ∈ entry.watchers) :
    HasWatcher (entries.map SteppedEntry.before) entry.before.uri stepped.before := by
  refine ⟨entry.before, List.mem_map_of_mem hentry, rfl, ?_⟩
  rw [← (heffect entry hentry).before]
  exact List.mem_map_of_mem hstepped

theorem stepped_unique (hunique : ObservedUnique (entries.map SteppedEntry.before))
    (heffect : ∀ entry ∈ entries, EntryEffect ops currentTime entry)
    {entry entry' : SteppedEntry} (hentry : entry ∈ entries) (hentry' : entry' ∈ entries)
    {stepped stepped' : SteppedWatcher} (hstepped : stepped ∈ entry.watchers)
    (hstepped' : stepped' ∈ entry'.watchers) (huri : entry'.before.uri = entry.before.uri)
    (hserver : stepped'.before.server = stepped.before.server) : stepped' = stepped := by
  have huris := hunique.uris
  rw [List.map_map] at huris
  obtain rfl := List.inj_on_of_nodup_map huris hentry' hentry huri
  have hservers := hunique.servers _ (List.mem_map_of_mem hentry)
  rw [← (heffect _ hentry).before, List.map_map] at hservers
  exact List.inj_on_of_nodup_map hservers hstepped' hstepped hserver

theorem mem_notifiedWatchers {notified : Lwm2mUri × Watcher} :
    notified ∈ notifiedWatchers entries ↔ ∃ entry ∈ entries, ∃ stepped ∈ entry.watchers,
      stepped.notification.isSome = true ∧ (entry.before.uri, stepped.before) = notified := by
  simp only [notifiedWatchers, List.mem_flatMap, List.mem_map, List.mem_filter]
  constructor
  · rintro ⟨entry, hentry, stepped, ⟨hstepped, hsome⟩, rfl⟩
    exact ⟨entry, hentry, stepped, hstepped, hsome, rfl⟩
  · rintro ⟨entry, hentry, stepped, hstepped, hsome, rfl⟩
    exact ⟨entry, hentry, stepped, ⟨hstepped, hsome⟩, rfl⟩

theorem TimesTracked.step {past : List (NotifyCall × NotifyReply)} {nextMID nextMID' : UInt16}
    {timeoutP : Int} {env : ObserveEnv}
    (h : TimesTracked past ⟨entries.map SteppedEntry.before, nextMID⟩)
    (heffect : ∀ entry ∈ entries, EntryEffect ops currentTime entry) :
    TimesTracked (past ++ [(.step currentTime timeoutP env,
        { notified := notifiedWatchers entries })])
      ⟨entries.map SteppedEntry.after, nextMID'⟩ := by
  have hunique : ObservedUnique (entries.map SteppedEntry.before) := h.unique
  refine ⟨hunique.map (fun _ _ => rfl) fun entry hentry => (heffect entry hentry).servers, ?_⟩
  rintro uri watcher ⟨observed, hmem, rfl, hwatcher⟩ hactive
  obtain ⟨entry, hentry, rfl⟩ := List.mem_map.mp hmem
  obtain ⟨stepped, hstepped, rfl⟩ := List.mem_map.mp hwatcher
  obtain ⟨value, hone⟩ := (heffect entry hentry).watchers stepped hstepped
  have huri : entry.after.uri = entry.before.uri := rfl
  rw [lastTouched_append, hone.server]
  cases hnotification : stepped.notification with
  | none =>
    rw [hone.kept hnotification] at hactive ⊢
    have hnot : ¬ ((notifiedWatchers entries).any fun notified =>
        notified.1 == entry.before.uri && notified.2.server == stepped.before.server) = true := by
      rw [List.any_eq_true]
      rintro ⟨notified, hnotified, hkey⟩
      obtain ⟨entry', hentry', stepped', hstepped', hsome, rfl⟩ :=
        mem_notifiedWatchers.mp hnotified
      simp only [Bool.and_eq_true, beq_iff_eq] at hkey
      obtain rfl := stepped_unique hunique heffect hentry hentry' hstepped hstepped' hkey.1 hkey.2
      rw [hnotification] at hsome
      cases hsome
    rw [huri, touchedAt_step, if_neg hnot, Option.none_or]
    exact h.times _ _ (stepped_hasWatcher heffect hentry hstepped) hactive
  | some notification =>
    have hsome : stepped.notification.isSome = true := by rw [hnotification]; rfl
    have hnotified : ((notifiedWatchers entries).any fun notified =>
        notified.1 == entry.before.uri && notified.2.server == stepped.before.server) = true := by
      rw [List.any_eq_true]
      refine ⟨_, mem_notifiedWatchers.mpr ⟨entry, hentry, stepped, hstepped, hsome, rfl⟩, ?_⟩
      simp
    rw [huri, touchedAt_step, if_pos hnotified, Option.some_or, (hone.sent hsome).2.2.1]

theorem notifyDecision_minPeriod {value : Option Lwm2mData} {watcher : Watcher}
    {parameters : Lwm2mAttributes} (hparameters : watcher.parameters = some parameters)
    (hset : parameters.isSet attrFlagMinPeriod = true)
    (hordered : ∀ minEnd ∈ minPeriodEnd watcher, ∀ maxEnd ∈ maxPeriodEnd watcher,
      maxEnd ≤ currentTime → minEnd ≤ currentTime)
    (hdecision : notifyDecision ops currentTime value watcher = true) :
    watcher.lastTime + parameters.minPeriod.toNat ≤ currentTime := by
  have hmin : minPeriodEnd watcher = some (watcher.lastTime + parameters.minPeriod.toNat) := by
    simp [minPeriodEnd, hparameters, hset]
  unfold notifyDecision at hdecision
  rcases Bool.or_eq_true_iff.mp hdecision with hchange | hmax
  · simp only [changeDecision, hmin, Bool.and_eq_true, decide_eq_true_eq] at hchange
    exact hchange.2
  · obtain ⟨maxEnd, hmaxEnd, hover⟩ := (Option.any_eq_true _ _).mp hmax
    exact hordered _ hmin maxEnd hmaxEnd (of_decide_eq_true hover)

end Step

theorem notifyStep_tracked {ops : DoubleOps} (past : List (NotifyCall × NotifyReply))
    (context : ObserveContext) (call : NotifyCall) (context' : ObserveContext) (reply : NotifyReply)
    (h : TimesTracked past context) (hordered : PeriodsOrdered context call)
    (hstep : notifyStep sessionIsEqual tooClose ops context call = .ok (context', reply)) :
    MinPeriodHonoured past (call, reply) ∧ TimesTracked (past ++ [(call, reply)]) context' := by
  cases call with
  | step currentTime timeoutP env =>
    obtain ⟨out, hout, heq⟩ := exceptMap_inv hstep
    obtain ⟨rfl, rfl⟩ := Prod.mk.inj heq
    obtain ⟨stepped, hentries, rfl⟩ := exceptMap_inv hout
    obtain ⟨hbefore, heffect⟩ := stepEntries_effect hentries
    have hcontext : context = ⟨stepped.1.map SteppedEntry.before, context.nextMID⟩ := by
      rw [hbefore]
    rw [hcontext] at h
    refine ⟨?_, h.step heffect⟩
    intro notified hnotified parameters hparameters hset
    obtain ⟨entry, hentry, watcher, hwatcher, hsome, rfl⟩ := mem_notifiedWatchers.mp hnotified
    obtain ⟨value, hone⟩ := (heffect entry hentry).watchers watcher hwatcher
    obtain ⟨hactive, hdecision, -, -⟩ := hone.sent hsome
    have hmem := stepped_hasWatcher heffect hentry hwatcher
    refine ⟨_, h.times _ _ hmem hactive, currentTime, timeoutP, env, rfl, ?_⟩
    apply notifyDecision_minPeriod hparameters hset _ hdecision
    obtain ⟨observed, hobserved, -, hin⟩ := hmem
    rw [hbefore] at hobserved
    exact hordered observed hobserved watcher.before hin hactive
  | valueChanged uri =>
    obtain ⟨observedList, hchanged, heq⟩ := exceptMap_inv hstep
    obtain ⟨rfl, rfl⟩ := Prod.mk.inj heq
    exact ⟨fun _ hmem => (nomatch hmem), h.valueChanged hchanged⟩
  | request call =>
    obtain ⟨out, hrequest, heq⟩ := exceptMap_inv hstep
    obtain ⟨rfl, rfl⟩ := Prod.mk.inj heq
    exact ⟨fun _ hmem => (nomatch hmem), h.request hrequest⟩

/-- Over any run of steps, changes and requests in which no step finds a maximum period over
before the minimum period, every notification to a watcher with a minimum period comes at least
that after the observation was established and after the notification before it. -/
theorem notifyRun_minPeriod {sessionIsEqual : UInt16 → UInt16 → Bool}
    {tooClose : UInt64 → UInt64 → UInt64 → Bool} {ops : DoubleOps} {nextMID : UInt16}
    {calls : List NotifyCall}
    (hmeet : StepsMeet (notifyStep sessionIsEqual tooClose ops) PeriodsOrdered ⟨[], nextMID⟩ calls)
    {final : ObserveContext} {replies : List NotifyReply}
    (hrun : run (notifyStep sessionIsEqual tooClose ops) ⟨[], nextMID⟩ calls =
      .ok (final, replies)) : EachEvent MinPeriodHonoured [] (calls.zip replies) := by
  have hinit : TimesTracked [] ⟨[], nextMID⟩ := by
    refine ⟨⟨List.nodup_nil, fun _ hmem => nomatch hmem⟩, ?_⟩
    rintro uri watcher ⟨observed, hmem, -⟩
    exact nomatch hmem
  exact run_eachEvent notifyStep_tracked calls [] _ final replies hinit hmeet hrun

/-! ## One observation -/

/-- The battery level can be read and serialized. -/
def batteryEnv : ObserveEnv where
  readData _ := some [.node .integer 9 (.asInteger 21)]
  serialize _ _ format := some (format, some [50, 49])
  read _ _ := none

/-- The server sets both periods of the battery level, at time 0. -/
def batteryPeriods (minPeriod maxPeriod : UInt32) : NotifyCall :=
  .request
    { uri := deviceBattery
      server := 1
      now := 0
      alloc := plentyOfMemory
      request := .writeAttributes .content205
        { toSet := attrFlagMinPeriod ||| attrFlagMaxPeriod, toClear := 0, minPeriod, maxPeriod,
          greaterThan := 0, lessThan := 0, step := 0 } }

/-- Server 1 observes the battery level, which changes once. -/
def batteryRun (minPeriod maxPeriod : UInt32) (times : List Int) : List NotifyCall :=
  .request (observeCall deviceBattery 1 0 [1] 10) :: batteryPeriods minPeriod maxPeriod ::
    .valueChanged deviceBattery :: times.map fun currentTime => .step currentTime 60 batteryEnv

/-- The times at which the battery level is notified. -/
def notifiedTimes (events : List (NotifyCall × NotifyReply)) : List Int :=
  (events.filter fun event => !event.2.notified.isEmpty).map fun event =>
    match event.1 with
    | .step currentTime _ _ => currentTime
    | _ => 0

/-- With the periods 10 and 60 the change is notified at 10, and the value again at 70. -/
theorem batteryRun_minPeriod :
    ∃ final replies, run (notifyStep (· == ·) (fun _ _ _ => false) wholeDoubles) ⟨[], 0⟩
        (batteryRun 10 60 [5, 10, 69, 70]) = .ok (final, replies) ∧
      notifiedTimes ((batteryRun 10 60 [5, 10, 69, 70]).zip replies) = [10, 70] ∧
      EachEvent MinPeriodHonoured [] ((batteryRun 10 60 [5, 10, 69, 70]).zip replies) := by
  have hmeet : StepsMeet (notifyStep (· == ·) (fun _ _ _ => false) wholeDoubles) PeriodsOrdered
      ⟨[], 0⟩ (batteryRun 10 60 [5, 10, 69, 70]) := by
    refine .cons trivial rfl (.cons trivial rfl (.cons trivial rfl ?_))
    refine .cons ?_ rfl (.cons ?_ rfl (.cons ?_ rfl (.cons ?_ rfl trivial)))
    all_goals
      intro observed hobserved watcher hwatcher _ minEnd hmin maxEnd hmax hover
      obtain rfl := List.mem_singleton.mp hobserved
      obtain rfl := List.mem_singleton.mp hwatcher
      cases hmin
      cases hmax
      revert hover
      decide
  have hrun : run (notifyStep (· == ·) (fun _ _ _ => false) wholeDoubles) ⟨[], 0⟩
      (batteryRun 10 60 [5, 10, 69, 70]) = .ok (_, _) := rfl
  exact ⟨_, _, hrun, rfl, notifyRun_minPeriod hmeet hrun⟩

/-- With the periods 10 and 5 the change is notified at 5. -/
theorem batteryRun_early :
    ¬ (∀ (calls : List NotifyCall) (final : ObserveContext) (replies : List NotifyReply),
        run (notifyStep (· == ·) (fun _ _ _ => false) wholeDoubles) ⟨[], 0⟩ calls =
          .ok (final, replies) → EachEvent MinPeriodHonoured [] (calls.zip replies)) := by
  intro h
  obtain ⟨-, -, -, hearly, -⟩ := h (batteryRun 10 5 [5]) _ _ rfl
  obtain ⟨last, hlast, currentTime, timeoutP, env, hcall, hperiod⟩ :=
    hearly _ (List.Mem.head _) _ rfl rfl
  cases hlast
  cases hcall
  exact absurd hperiod (by decide)

end Wakaama
