import Wakaama.Core.Proofs.NotifyChanges
import Wakaama.Core.Proofs.SortedList
import Wakaama.Core.Step

/-!
# No deadline is slept through

Each module leaves a wake-up time that covers the deadlines it knows, and what comes after it only
lowers that time or, where a transaction is removed, sets it to one second from now. No deadline
that lies ahead is nearer than that.
-/

namespace Wakaama

variable {Node Session : Type} {currentTime timeoutP timeoutP' deadline : Int}

/-! ## Wake-up times -/

theorem WakesBy.mono (h : WakesBy currentTime timeoutP deadline) (hle : timeoutP' ≤ timeoutP) :
    WakesBy currentTime timeoutP' deadline := by
  intro hlater
  have := h hlater
  omega

theorem wakesBy_one (h : timeoutP ≤ 1) : WakesBy currentTime timeoutP deadline := by
  intro hlater
  omega

theorem wakesBy_min (currentTime timeoutP deadline : Int) :
    WakesBy currentTime (min timeoutP (deadline - currentTime)) deadline := by
  intro _
  omega

theorem lowerTimeout_le (currentTime deadline timeoutP : Int) :
    lowerTimeout currentTime deadline timeoutP ≤ timeoutP := by
  unfold lowerTimeout
  split <;> omega

theorem lowerTimeout_wakesBy (currentTime deadline timeoutP : Int) :
    WakesBy currentTime (lowerTimeout currentTime deadline timeoutP) deadline := by
  intro hlater
  rw [lowerTimeout, if_neg (Int.not_le.mpr hlater)]
  omega

theorem lowerTimeout_pos (currentTime deadline : Int) (h : 0 < timeoutP) :
    0 < lowerTimeout currentTime deadline timeoutP := by
  unfold lowerTimeout
  split <;> omega

/-! ## The watchers -/

section Watchers

variable {ops : DoubleOps} {env : ObserveEnv}

structure WatcherWakes (currentTime timeoutP : Int) (watcher : Watcher) : Prop where
  maxPeriod : ∀ deadline ∈ maxPeriodEnd watcher, WakesBy currentTime timeoutP deadline
  minPeriod : watcher.update = true →
    ∀ deadline ∈ minPeriodEnd watcher, WakesBy currentTime timeoutP deadline

variable {watcher : Watcher} {state : NotifyState} {uri : Lwm2mUri}
  {dataP : Option (List Lwm2mData)}

theorem WatcherWakes.mono (h : WatcherWakes currentTime timeoutP watcher)
    (hle : timeoutP' ≤ timeoutP) : WatcherWakes currentTime timeoutP' watcher where
  maxPeriod deadline hdeadline := (h.maxPeriod deadline hdeadline).mono hle
  minPeriod hupdate deadline hdeadline := (h.minPeriod hupdate deadline hdeadline).mono hle

theorem updateNotifies_timeout (ops : DoubleOps) (currentTime : Int) (value : Option Lwm2mData)
    (watcher : Watcher) (timeoutP : Int) :
    (updateNotifies ops currentTime value watcher timeoutP).2 ≤ timeoutP ∧
      ∀ deadline ∈ minPeriodEnd watcher,
        WakesBy currentTime (updateNotifies ops currentTime value watcher timeoutP).2 deadline := by
  unfold updateNotifies
  cases minPeriodEnd watcher with
  | none => exact ⟨Int.le_refl _, fun deadline hdeadline => nomatch hdeadline⟩
  | some periodEnd =>
    by_cases hearly : currentTime < periodEnd
    · simp only [if_pos hearly]
      refine ⟨by omega, fun deadline hdeadline => ?_⟩
      cases hdeadline
      exact wakesBy_min _ _ _
    · simp only [if_neg hearly]
      refine ⟨Int.le_refl _, fun deadline hdeadline hlater => ?_⟩
      cases hdeadline
      exact absurd hlater hearly

theorem updateNotifies_pos (value : Option Lwm2mData) (watcher : Watcher) (h : 0 < timeoutP) :
    0 < (updateNotifies ops currentTime value watcher timeoutP).2 := by
  unfold updateNotifies
  cases minPeriodEnd watcher with
  | none => exact h
  | some periodEnd =>
    by_cases hearly : currentTime < periodEnd
    · simp only [if_pos hearly]
      omega
    · simpa only [if_neg hearly] using h

theorem watcherNotifies_timeout (ops : DoubleOps) (currentTime : Int) (value : Option Lwm2mData)
    (watcher : Watcher) (timeoutP : Int) :
    (watcherNotifies ops currentTime value watcher timeoutP).2 ≤ timeoutP ∧
      (watcher.update = true → ∀ deadline ∈ minPeriodEnd watcher,
        WakesBy currentTime (watcherNotifies ops currentTime value watcher timeoutP).2
          deadline) := by
  unfold watcherNotifies
  cases hupdate : watcher.update with
  | false => exact ⟨Int.le_refl _, fun h => nomatch h⟩
  | true =>
    obtain ⟨hle, hwakes⟩ := updateNotifies_timeout ops currentTime value watcher timeoutP
    exact ⟨hle, fun _ => hwakes⟩

theorem watcherNotifies_pos (ops : DoubleOps) (currentTime : Int) (value : Option Lwm2mData)
    (watcher : Watcher) (h : 0 < timeoutP) :
    0 < (watcherNotifies ops currentTime value watcher timeoutP).2 := by
  unfold watcherNotifies
  cases hupdate : watcher.update with
  | false => exact h
  | true => exact updateNotifies_pos value watcher h

theorem maxPeriodTimer_timeout (currentTime : Int) (watcher : Watcher) (state : NotifyState) :
    (maxPeriodTimer currentTime watcher state).timeoutP ≤ state.timeoutP ∧
      ∀ deadline ∈ maxPeriodEnd watcher,
        WakesBy currentTime (maxPeriodTimer currentTime watcher state).timeoutP deadline := by
  unfold maxPeriodTimer
  cases maxPeriodEnd watcher with
  | none => exact ⟨Int.le_refl _, fun deadline hdeadline => nomatch hdeadline⟩
  | some periodEnd =>
    refine ⟨Int.min_le_left _ _, fun deadline hdeadline => ?_⟩
    cases hdeadline
    exact wakesBy_min _ _ _

theorem maxPeriodTimer_pos (h : 0 < state.timeoutP)
    (hlater : ∀ periodEnd ∈ maxPeriodEnd watcher, currentTime < periodEnd) :
    0 < (maxPeriodTimer currentTime watcher state).timeoutP := by
  unfold maxPeriodTimer
  cases hend : maxPeriodEnd watcher with
  | none => exact h
  | some periodEnd =>
    have := hlater periodEnd hend
    simp only
    omega

theorem stepWatcher_timeout {state' : NotifyState} {stepped : SteppedWatcher}
    (h : stepWatcher ops env currentTime uri dataP watcher state = some (stepped, state')) :
    state'.timeoutP ≤ state.timeoutP ∧
      WatcherWakes currentTime state'.timeoutP stepped.after := by
  obtain ⟨hle, hwakes⟩ :=
    watcherNotifies_timeout ops currentTime (valueOf uri dataP) watcher state.timeoutP
  simp only [stepWatcher] at h
  split at h
  · obtain ⟨⟨format, contentType, buffer⟩, -, heq⟩ := Option.map_eq_some_iff.mp h
    cases heq
    have htimer := maxPeriodTimer_timeout currentTime
      (notifiedWatcher currentTime uri dataP state.nextMID format watcher)
      { nextMID := state.nextMID + 1
        buffer := buffer.map fun payload => (contentType, payload)
        timeoutP :=
          (watcherNotifies ops currentTime (valueOf uri dataP) watcher state.timeoutP).2 }
    -- a watcher that was notified has no change left to report
    exact ⟨Int.le_trans htimer.1 hle, htimer.2, fun hupdate => absurd hupdate Bool.false_ne_true⟩
  · cases h
    have htimer := maxPeriodTimer_timeout currentTime watcher
      { state with
        timeoutP :=
          (watcherNotifies ops currentTime (valueOf uri dataP) watcher state.timeoutP).2 }
    refine ⟨Int.le_trans htimer.1 hle, htimer.2, fun hupdate deadline hdeadline => ?_⟩
    exact (hwakes hupdate deadline hdeadline).mono htimer.1

theorem notifiedWatcher_maxPeriodEnd {nextMID format : UInt16}
    (hpositive : ∀ periodEnd ∈ maxPeriodEnd watcher, watcher.lastTime < periodEnd) :
    ∀ periodEnd ∈ maxPeriodEnd (notifiedWatcher currentTime uri dataP nextMID format watcher),
      currentTime < periodEnd := by
  intro periodEnd hmem
  obtain ⟨parameters, hparameters, rfl⟩ := Option.map_eq_some_iff.mp hmem
  have := hpositive _ (Option.map_eq_some_iff.mpr ⟨parameters, hparameters, rfl⟩)
  simp only [notifiedWatcher]
  omega

theorem stepWatcher_pos {state' : NotifyState} {stepped : SteppedWatcher}
    (h : stepWatcher ops env currentTime uri dataP watcher state = some (stepped, state'))
    (hpositive : ∀ periodEnd ∈ maxPeriodEnd watcher, watcher.lastTime < periodEnd)
    (htimeout : 0 < state.timeoutP) : 0 < state'.timeoutP := by
  have hdecision := watcherNotifies_fst ops currentTime (valueOf uri dataP) watcher state.timeoutP
  have hnext := watcherNotifies_pos ops currentTime (valueOf uri dataP) watcher htimeout
  simp only [stepWatcher] at h
  split at h
  · obtain ⟨⟨format, contentType, buffer⟩, -, heq⟩ := Option.map_eq_some_iff.mp h
    cases heq
    exact maxPeriodTimer_pos hnext (notifiedWatcher_maxPeriodEnd hpositive)
  · rename_i hnotify
    cases h
    refine maxPeriodTimer_pos hnext fun periodEnd hmem => ?_
    have hno := hdecision.symm.trans (Bool.not_eq_true _ ▸ hnotify)
    simp only [notifyDecision, Bool.or_eq_false_iff] at hno
    by_contra hpast
    have hany : (maxPeriodEnd watcher).any (fun periodEnd => periodEnd ≤ currentTime) = true := by
      rw [Option.mem_def.mp hmem]
      exact decide_eq_true (Int.not_lt.mp hpast)
    cases hany.symm.trans hno.2

theorem stepWatchers_timeout (ops : DoubleOps) (currentTime : Int) :
    ∀ {watchers : List Watcher} (state : NotifyState),
      (∀ watcher ∈ watchers, watcher.active = true → serializes env uri dataP watcher) →
      (stepWatchers ops env currentTime uri dataP watchers state).2.timeoutP ≤ state.timeoutP ∧
        ∀ stepped ∈ (stepWatchers ops env currentTime uri dataP watchers state).1,
          stepped.after.active = true → WatcherWakes currentTime
            (stepWatchers ops env currentTime uri dataP watchers state).2.timeoutP
            stepped.after := by
  intro watchers
  induction watchers with
  | nil => exact fun _ _ => ⟨Int.le_refl _, fun _ hmem => nomatch hmem⟩
  | cons watcher next ih =>
    intro state h
    have hnext := fun other hother => h other (List.mem_cons_of_mem watcher hother)
    unfold stepWatchers
    split
    · rename_i hactive
      split
      · rename_i hnone
        exact absurd hnone (stepWatcher_serializes (h watcher List.mem_cons_self hactive))
      · rename_i state' hstep
        obtain ⟨hle, hwakes⟩ := stepWatcher_timeout hstep
        obtain ⟨hrest, hothers⟩ := ih state' hnext
        refine ⟨Int.le_trans hrest hle, fun stepped hmem hafter => ?_⟩
        rcases List.mem_cons.mp hmem with rfl | hmem
        · exact hwakes.mono hrest
        · exact hothers stepped hmem hafter
    · rename_i hactive
      obtain ⟨hrest, hothers⟩ := ih state hnext
      refine ⟨hrest, fun stepped hmem hafter => ?_⟩
      rcases List.mem_cons.mp hmem with rfl | hmem
      · exact absurd hafter hactive
      · exact hothers stepped hmem hafter

theorem stepWatchers_pos :
    ∀ {watchers : List Watcher} {state : NotifyState},
      (∀ watcher ∈ watchers, watcher.active = true → serializes env uri dataP watcher) →
      (∀ watcher ∈ watchers, watcher.active = true →
        ∀ periodEnd ∈ maxPeriodEnd watcher, watcher.lastTime < periodEnd) →
      0 < state.timeoutP →
      0 < (stepWatchers ops env currentTime uri dataP watchers state).2.timeoutP := by
  intro watchers
  induction watchers with
  | nil => exact fun _ _ htimeout => htimeout
  | cons watcher next ih =>
    intro state h hpositive htimeout
    have hnext := fun other hother => h other (List.mem_cons_of_mem watcher hother)
    have hothers := fun other hother => hpositive other (List.mem_cons_of_mem watcher hother)
    unfold stepWatchers
    split
    · rename_i hactive
      split
      · rename_i hnone
        exact absurd hnone (stepWatcher_serializes (h watcher List.mem_cons_self hactive))
      · rename_i hstep
        exact ih hnext hothers
          (stepWatcher_pos hstep (hpositive watcher List.mem_cons_self hactive) htimeout)
    · exact ih hnext hothers htimeout

theorem stepEntry_watchers (ops : DoubleOps) {observed : Observed}
    (h : EntrySucceeds env observed) (currentTime : Int) (nextMID : UInt16) (timeoutP : Int) :
    ∃ dataP, (∀ watcher ∈ observed.watcherList, watcher.active = true →
        serializes env observed.uri dataP watcher) ∧
      stepEntry ops env currentTime observed nextMID timeoutP =
        ((stepWatchers ops env currentTime observed.uri dataP observed.watcherList
            ⟨nextMID, none, timeoutP⟩).1,
          (stepWatchers ops env currentTime observed.uri dataP observed.watcherList
            ⟨nextMID, none, timeoutP⟩).2.nextMID,
          (stepWatchers ops env currentTime observed.uri dataP observed.watcherList
            ⟨nextMID, none, timeoutP⟩).2.timeoutP) := by
  unfold EntrySucceeds at h
  unfold stepEntry
  split at h
  · rename_i hresource
    obtain ⟨data, hread, hserializes⟩ := h
    rw [if_pos hresource, hread]
    exact ⟨some data, hserializes, rfl⟩
  · rename_i hresource
    rw [if_neg hresource]
    exact ⟨none, h, rfl⟩

theorem stepEntries_timeout :
    ∀ {observedList : List Observed} {nextMID : UInt16} {timeoutP : Int}
      {out : List SteppedEntry × UInt16 × Int},
      stepEntries ops env currentTime observedList nextMID timeoutP = .ok out →
      (∀ observed ∈ observedList, EntrySucceeds env observed) →
      out.2.2 ≤ timeoutP ∧ ∀ entry ∈ out.1, ∀ stepped ∈ entry.watchers,
        stepped.after.active = true → WatcherWakes currentTime out.2.2 stepped.after := by
  intro observedList
  induction observedList with
  | nil =>
    intro nextMID timeoutP out h _
    cases h
    exact ⟨Int.le_refl _, fun _ hentry => nomatch hentry⟩
  | cons observed next ih =>
    intro nextMID timeoutP out h hsucceeds
    obtain ⟨dataP, hserializes, hentry⟩ :=
      stepEntry_watchers ops (hsucceeds observed List.mem_cons_self) currentTime nextMID
        timeoutP
    obtain ⟨hle, hwakes⟩ :=
      stepWatchers_timeout ops currentTime ⟨nextMID, none, timeoutP⟩ hserializes
    simp only [stepEntries, hentry] at h
    split at h
    · cases h
    · obtain ⟨rest, hrest, rfl⟩ := exceptMap_inv h
      obtain ⟨hlower, hothers⟩ :=
        ih hrest fun other hother => hsucceeds other (List.mem_cons_of_mem observed hother)
      refine ⟨Int.le_trans hlower hle, fun entry hmem => ?_⟩
      rcases List.mem_cons.mp hmem with rfl | hmem
      · exact fun stepped hstepped hactive => (hwakes stepped hstepped hactive).mono hlower
      · exact hothers entry hmem

theorem stepEntries_pos :
    ∀ {observedList : List Observed} {nextMID : UInt16} {timeoutP : Int}
      {out : List SteppedEntry × UInt16 × Int},
      stepEntries ops env currentTime observedList nextMID timeoutP = .ok out →
      (∀ observed ∈ observedList, EntrySucceeds env observed) →
      MaxPeriodsPositive observedList → 0 < timeoutP → 0 < out.2.2 := by
  intro observedList
  induction observedList with
  | nil =>
    intro nextMID timeoutP out h _ _ htimeout
    cases h
    exact htimeout
  | cons observed next ih =>
    intro nextMID timeoutP out h hsucceeds hpositive htimeout
    obtain ⟨dataP, hserializes, hentry⟩ :=
      stepEntry_watchers ops (hsucceeds observed List.mem_cons_self) currentTime nextMID
        timeoutP
    simp only [stepEntries, hentry] at h
    split at h
    · cases h
    · obtain ⟨rest, hrest, rfl⟩ := exceptMap_inv h
      apply ih hrest
      · exact fun other hother => hsucceeds other (List.mem_cons_of_mem observed hother)
      · exact fun other hother => hpositive other (List.mem_cons_of_mem observed hother)
      · exact stepWatchers_pos hserializes (hpositive observed List.mem_cons_self) htimeout

end Watchers

/-- The reads and serializations of a step succeed. -/
def StepReadsSucceed (env : StepEnv Node Session) (context : StepContext Node Session) : Prop :=
  ∀ observed ∈ context.observedList, EntrySucceeds env.observe observed

/-- What `observe_step` leaves behind. -/
structure ObserveStepped (currentTime timeoutP timeoutP' : Int)
    (context context' : StepContext Node Session) : Prop where
  le : timeoutP' ≤ timeoutP
  watchers : ∀ observed ∈ context'.observedList, ∀ watcher ∈ observed.watcherList,
    watcher.active = true → WatcherWakes currentTime timeoutP' watcher
  pos : MaxPeriodsPositive context.observedList → 0 < timeoutP → 0 < timeoutP'

variable {context context' : StepContext Node Session} {env : StepEnv Node Session}
  {server : RegistrationServer} {transacP : Transaction Session}
  {before after : List (Transaction Session)}

theorem observeStep_spec (hreads : StepReadsSucceed env context)
    (h : context.observeStep env currentTime timeoutP = .ok (context', timeoutP')) :
    ObserveStepped currentTime timeoutP timeoutP' context context' := by
  obtain ⟨out, hout, heq⟩ := exceptMap_inv h
  obtain ⟨entries, hentries, rfl⟩ := exceptMap_inv hout
  cases heq
  obtain ⟨hle, hwakes⟩ := stepEntries_timeout hentries hreads
  refine ⟨hle, ?_, stepEntries_pos hentries hreads⟩
  intro observed hobserved watcher hwatcher hactive
  obtain ⟨entry, hentry, rfl⟩ := List.mem_map.mp hobserved
  obtain ⟨stepped, hstepped, rfl⟩ := List.mem_map.mp hwatcher
  exact hwakes entry hentry stepped hstepped hactive

/-! ## The servers -/

structure ServerWakes (currentTime timeoutP : Int) (targetP : RegistrationServer) : Prop where
  holdOff : targetP.status = .regHoldOff → WakesBy currentTime timeoutP targetP.registration
  update : targetP.status = .registered →
    WakesBy currentTime timeoutP (nextUpdateTime targetP.toLwm2mServer)

theorem ServerWakes.mono {targetP : RegistrationServer} (h : ServerWakes currentTime timeoutP targetP)
    (hle : timeoutP' ≤ timeoutP) : ServerWakes currentTime timeoutP' targetP where
  holdOff hstatus := (h.holdOff hstatus).mono hle
  update hstatus := (h.update hstatus).mono hle

theorem serverWakes_idle {targetP : RegistrationServer} (hholdOff : targetP.status ≠ .regHoldOff)
    (hregistered : targetP.status ≠ .registered) : ServerWakes currentTime timeoutP targetP where
  holdOff hstatus := absurd hstatus hholdOff
  update hstatus := absurd hstatus hregistered

theorem wakesBy_past (h : deadline ≤ currentTime) : WakesBy currentTime timeoutP deadline :=
  fun hlater => absurd h (Int.not_le.mpr hlater)

theorem prvUpdateRegistration_or (outcome : UpdateOutcome) (withObjects : Bool)
    {server : Lwm2mServer} (h : server.status ≠ .regUpdatePending) :
    (prvUpdateRegistration noObjects outcome withObjects server).1 = server ∨
      (prvUpdateRegistration noObjects outcome withObjects server).1.status =
        .regUpdatePending := by
  cases outcome with
  | notSent => exact .inl rfl
  | sentFailed =>
    left
    simp only [prvUpdateRegistration, prvHandleRegistrationUpdateReply, if_neg h]
  | sent => exact .inr rfl

theorem prvRegisterCounted_or (env : ServerEnv) (server : RegistrationServer) :
    (prvRegisterCounted env server).registration = server.registration ∧
      ((prvRegisterCounted env server).status = server.status ∨
        (prvRegisterCounted env server).status = .regPending) := by
  have hregister : (prvRegister env server.toLwm2mServer).registration = server.registration ∧
      ((prvRegister env server.toLwm2mServer).status = server.status ∨
        (prvRegister env server.toLwm2mServer).status = .regPending) := by
    unfold prvRegister
    split
    · split
      · exact ⟨rfl, .inl rfl⟩
      · simp only
        split
        · exact ⟨rfl, .inr rfl⟩
        · exact ⟨rfl, .inl rfl⟩
    · exact ⟨rfl, .inl rfl⟩
  unfold prvRegisterCounted
  simp only
  split <;> exact hregister

theorem registrationStepCounted_holdOff {env : ServerEnv} (hstatus : server.status = .regHoldOff) :
    ServerWakes currentTime (lowerTimeout currentTime server.registration timeoutP)
      (registrationStepCounted currentTime env server) := by
  rw [registrationStepCounted, if_pos hstatus]
  by_cases hdue : server.registration - currentTime ≤ 0
  · rw [if_pos hdue]
    obtain ⟨hregistration, hnext⟩ := prvRegisterCounted_or env server
    refine ⟨fun _ => wakesBy_past (by omega), fun hregistered => ?_⟩
    rw [hregistered, hstatus] at hnext
    rcases hnext with hnext | hnext <;> nomatch hnext
  · rw [if_neg hdue]
    refine ⟨fun _ => lowerTimeout_wakesBy _ _ _, fun hregistered => ?_⟩
    exact nomatch hstatus.symm.trans hregistered

theorem updated_wakes {outcome : UpdateOutcome} {withObjects : Bool}
    (hstatus : server.status ≠ .regUpdatePending) (h : ServerWakes currentTime timeoutP server) :
    ServerWakes currentTime timeoutP
      { server with
        toLwm2mServer :=
          (prvUpdateRegistration noObjects outcome withObjects server.toLwm2mServer).1 } := by
  rcases prvUpdateRegistration_or outcome withObjects hstatus with hsame | hpending
  · rw [hsame]
    exact h
  · apply serverWakes_idle
    · exact fun hholdOff => nomatch hpending.symm.trans hholdOff
    · exact fun hregistered => nomatch hpending.symm.trans hregistered

theorem registrationStepCounted_registered {env : ServerEnv}
    (hstatus : server.status = .registered) :
    ServerWakes currentTime
      (lowerTimeout currentTime (nextUpdateTime server.toLwm2mServer) timeoutP)
      (registrationStepCounted currentTime env server) := by
  have hholdOff : server.status ≠ .regHoldOff := fun h => nomatch hstatus.symm.trans h
  have hwakes : ServerWakes currentTime
      (lowerTimeout currentTime (nextUpdateTime server.toLwm2mServer) timeoutP) server :=
    ⟨fun h => absurd h hholdOff, fun _ => lowerTimeout_wakesBy _ _ _⟩
  rw [registrationStepCounted, if_neg hholdOff]
  simp only [registrationStepServer, hstatus]
  split
  · exact updated_wakes (fun h => nomatch hstatus.symm.trans h) hwakes
  · exact hwakes

theorem registrationStepCounted_wakes (env : ServerEnv) (server : RegistrationServer)
    (timeoutP : Int) :
    ServerWakes currentTime (registrationTimeout currentTime server timeoutP)
      (registrationStepCounted currentTime env server) := by
  unfold registrationTimeout
  split
  · rename_i hstatus
    exact registrationStepCounted_holdOff hstatus
  · rename_i hstatus
    exact registrationStepCounted_registered hstatus
  · rename_i hholdOff hregistered
    have hidle : ServerWakes currentTime timeoutP server := serverWakes_idle hholdOff hregistered
    rw [registrationStepCounted, if_neg hholdOff]
    unfold registrationStepServer
    split
    · rename_i hstatus
      exact absurd hstatus hholdOff
    · rename_i hstatus
      exact absurd hstatus hregistered
    · rename_i hstatus
      exact updated_wakes (fun h => nomatch hstatus.symm.trans h) hidle
    · rename_i hstatus
      exact updated_wakes (fun h => nomatch hstatus.symm.trans h) hidle
    · exact ⟨hidle.holdOff, hidle.update⟩
    · exact hidle

theorem registrationTimeout_le (currentTime : Int) (server : RegistrationServer) (timeoutP : Int) :
    registrationTimeout currentTime server timeoutP ≤ timeoutP := by
  unfold registrationTimeout
  split
  · exact lowerTimeout_le _ _ _
  · exact lowerTimeout_le _ _ _
  · exact Int.le_refl _

theorem registrationTimeout_pos (currentTime : Int) (server : RegistrationServer)
    (h : 0 < timeoutP) : 0 < registrationTimeout currentTime server timeoutP := by
  unfold registrationTimeout
  split
  · exact lowerTimeout_pos _ _ h
  · exact lowerTimeout_pos _ _ h
  · exact h

theorem registrationStepLoop_spec (env : StepEnv Node Session) (currentTime : Int) :
    ∀ (serverList : List RegistrationServer) (transactions : TransactionContext Session)
      (timeoutP : Int),
      let out := registrationStepLoop env currentTime serverList transactions timeoutP
      out.2.2 ≤ timeoutP ∧ (0 < timeoutP → 0 < out.2.2) ∧
        ∀ targetP ∈ out.1, ServerWakes currentTime out.2.2 targetP := by
  intro serverList
  induction serverList with
  | nil => exact fun _ _ => ⟨Int.le_refl _, id, fun _ hmem => nomatch hmem⟩
  | cons server next ih =>
    intro transactions timeoutP
    simp only [registrationStepLoop]
    obtain ⟨hle, hpos, hothers⟩ :=
      ih (transactions.requestIf (sendsRegistration env currentTime server) env.sendTime
          (env.request server.toLwm2mServer)).1
        (registrationTimeout currentTime server timeoutP)
    have hlower := registrationTimeout_le currentTime server timeoutP
    refine ⟨Int.le_trans hle hlower, fun htimeout => ?_, fun targetP hmem => ?_⟩
    · exact hpos (registrationTimeout_pos currentTime server htimeout)
    · rcases List.mem_cons.mp hmem with rfl | hmem
      · exact (registrationStepCounted_wakes _ _ _).mono hle
      · exact hothers targetP hmem

/-! ## The clients -/

structure ClientsStepped (currentTime timeoutP : Int) (clientList : List (LifetimeClient Session))
    (context : StepContext Node Session) (out : StepContext Node Session × Int) : Prop where
  le : out.2 ≤ timeoutP
  pos : 0 < timeoutP → 0 < out.2
  observed : out.1.observedList = context.observedList
  servers : out.1.serverList = context.serverList
  clients : ∀ clientP ∈ out.1.clientList, clientP ∈ context.clientList
  wakes : ∀ clientP ∈ clientList, WakesBy currentTime out.2 clientP.endOfLife

theorem clientExpiryLoop_spec :
    ∀ {clientList : List (LifetimeClient Session)} {context : StepContext Node Session}
      {timeoutP : Int} {out : StepContext Node Session × Int},
      clientExpiryLoop env currentTime clientList context timeoutP = .ok out →
      ClientsStepped currentTime timeoutP clientList context out := by
  intro clientList
  induction clientList with
  | nil =>
    intro context timeoutP out h
    cases h
    exact ⟨Int.le_refl _, id, rfl, rfl, fun _ hmem => hmem, fun _ hmem => nomatch hmem⟩
  | cons clientP next ih =>
    intro context timeoutP out h
    unfold clientExpiryLoop at h
    split at h
    · rename_i hexpired
      simp only at h
      split at h
      · cases h
      · have hrest := ih h
        refine ⟨hrest.le, hrest.pos, hrest.observed, hrest.servers, fun other hmem => ?_,
          fun other hmem => ?_⟩
        · exact lwm2mListRemove_subset _ _ _ other (hrest.clients other hmem)
        · rcases List.mem_cons.mp hmem with rfl | hmem
          · exact wakesBy_past hexpired
          · exact hrest.wakes other hmem
    · have hrest := ih h
      have hlower := lowerTimeout_le currentTime clientP.endOfLife timeoutP
      refine ⟨Int.le_trans hrest.le hlower,
        fun htimeout => hrest.pos (lowerTimeout_pos _ _ htimeout), hrest.observed, hrest.servers,
        hrest.clients, fun other hmem => ?_⟩
      rcases List.mem_cons.mp hmem with rfl | hmem
      · exact (lowerTimeout_wakesBy _ _ _).mono hrest.le
      · exact hrest.wakes other hmem

/-- What `registration_step` leaves behind. -/
structure RegistrationStepped (currentTime timeoutP timeoutP' : Int)
    (context context' : StepContext Node Session) : Prop where
  le : timeoutP' ≤ timeoutP
  pos : 0 < timeoutP → 0 < timeoutP'
  observed : context'.observedList = context.observedList
  servers : ∀ targetP ∈ context'.serverList, ServerWakes currentTime timeoutP' targetP
  clients : ∀ clientP ∈ context'.clientList, WakesBy currentTime timeoutP' clientP.endOfLife

theorem registrationStep_spec
    (h : context.registrationStep env currentTime timeoutP = .ok (context', timeoutP')) :
    RegistrationStepped currentTime timeoutP timeoutP' context context' := by
  obtain ⟨hle, hpos, hservers⟩ :=
    registrationStepLoop_spec env currentTime context.serverList context.transactions timeoutP
  have hclients := clientExpiryLoop_spec h
  refine ⟨Int.le_trans hclients.le hle, fun htimeout => hclients.pos (hpos htimeout),
    hclients.observed, fun targetP hmem => ?_, fun clientP hmem => ?_⟩
  · rw [hclients.servers] at hmem
    exact (hservers targetP hmem).mono hclients.le
  · exact hclients.wakes clientP (hclients.clients clientP hmem)

/-! ## The transactions -/

structure SameTimers (context context' : StepContext Node Session) : Prop where
  observed : context'.observedList = context.observedList
  servers : context'.serverList = context.serverList
  clients : context'.clientList = context.clientList

/-- The body of the loop at a transaction: one was removed, or the transaction has a time to be
sent again that is covered, and those around it stay. -/
structure TransactionStepped (currentTime timeoutP : Int) (transacP : Transaction Session)
    (context : StepContext Node Session) (out : StepContext Node Session × Int) : Prop where
  le : out.2 ≤ timeoutP
  same : SameTimers context out.1
  list : ∀ before after, context.transactions.transactionList = before ++ transacP :: after →
    (∀ other ∈ before, other.address ≠ transacP.address) →
    ∃ next after', out.1.transactions.transactionList = before ++ next :: after' ∧
      after'.map Transaction.address = after.map Transaction.address ∧
      WakesBy currentTime out.2 next.retransTime

theorem setTransaction_split {old : Transaction Session} (haddress : transacP.address = old.address)
    (hbefore : ∀ other ∈ before, other.address ≠ old.address) :
    setTransaction transacP (before ++ old :: after) =
      before ++ transacP :: setTransaction transacP after := by
  have hsame : setTransaction transacP before = before := by
    unfold setTransaction
    conv => rhs; rw [← List.map_id before]
    exact List.map_congr_left fun other hmem => if_neg (haddress ▸ hbefore other hmem)
  calc setTransaction transacP (before ++ old :: after)
      = setTransaction transacP before ++ setTransaction transacP (old :: after) :=
        List.map_append
    _ = before ++ transacP :: setTransaction transacP after := by
        rw [hsame, setTransaction, List.map_cons, if_pos haddress.symm, setTransaction]

theorem setTransaction_addresses (transacP : Transaction Session)
    (transactionList : List (Transaction Session)) :
    (setTransaction transacP transactionList).map Transaction.address =
      transactionList.map Transaction.address := by
  unfold setTransaction
  rw [List.map_map]
  refine List.map_congr_left fun other _ => ?_
  simp only [Function.comp_apply]
  split
  · rename_i hsame
    exact hsame.symm
  · rfl

theorem transactionSendOutcome_address {serialized : Bool} {tvSec : Int}
    {transacP' : Transaction Session}
    (h : transactionSendOutcome serialized tvSec transacP = .sent transacP') :
    transacP'.address = transacP.address := by
  unfold transactionSendOutcome at h
  split at h
  · cases h
  · simp only at h
    split at h
    · cases h
    · split at h
      · split at h
        · cases h
          rfl
        · cases h
      · split at h
        · cases h
          rfl
        · cases h

theorem transactionStepOne_spec (env : StepEnv Node Session) (currentTime : Int)
    (transacP : Transaction Session) (context : StepContext Node Session) (timeoutP : Int) :
    (transactionStepOne env currentTime transacP context timeoutP).2 = 1 ∨
      TransactionStepped currentTime timeoutP transacP context
        (transactionStepOne env currentTime transacP context timeoutP) := by
  unfold transactionStepOne
  split
  · right
    refine ⟨Int.min_le_left _ _, ⟨rfl, rfl, rfl⟩, fun before after hlist _ => ?_⟩
    exact ⟨transacP, after, hlist, rfl, wakesBy_min _ _ _⟩
  · split
    · exact .inl rfl
    · rename_i sent hsent
      right
      have haddress := transactionSendOutcome_address hsent
      refine ⟨Int.min_le_left _ _, ⟨rfl, rfl, rfl⟩, fun before after hlist hbefore => ?_⟩
      refine ⟨sent, setTransaction sent after, ?_, setTransaction_addresses sent after, ?_⟩
      · simp only [TransactionContext.set, hlist]
        exact setTransaction_split haddress hbefore
      · intro hlater
        simp only [if_pos hlater]
        omega
    · exact .inl rfl

theorem transactionStepOne_pos (env : StepEnv Node Session) (currentTime : Int)
    (transacP : Transaction Session) (context : StepContext Node Session) (timeoutP : Int)
    (h : 0 < timeoutP) :
    0 < (transactionStepOne env currentTime transacP context timeoutP).2 := by
  unfold transactionStepOne
  split
  · simp only
    omega
  · split
    · exact Int.one_pos
    · simp only
      split <;> omega
    · exact Int.one_pos

theorem nextTransaction_split (hbefore : ∀ other ∈ before, other.address ≠ transacP.address) :
    nextTransaction transacP.address (before ++ transacP :: after) =
      after.head?.map Transaction.address := by
  induction before with
  | nil => exact if_pos rfl
  | cons other before ih =>
    rw [List.cons_append, nextTransaction, if_neg (hbefore other List.mem_cons_self)]
    exact ih fun another hmem => hbefore another (List.mem_cons_of_mem other hmem)

theorem mem_takeWhile_append {other : Transaction Session}
    (h : other ∈ (before ++ transacP :: after).takeWhile fun another => another.address != transacP.address) :
    other ∈ before := by
  induction before with
  | nil =>
    rw [List.nil_append, List.takeWhile_cons_of_neg (by simp)] at h
    exact nomatch h
  | cons first before ih =>
    rw [List.cons_append, List.takeWhile_cons] at h
    split at h
    · rcases List.mem_cons.mp h with rfl | h
      · exact List.mem_cons_self
      · exact List.mem_cons_of_mem first (ih h)
    · exact nomatch h

/-- The walk has come to the transaction at `nextP`: what lies before it is covered. -/
def WalkedTo (currentTime timeoutP : Int) (nextP : Option Nat)
    (transactionList : List (Transaction Session)) : Prop :=
  match nextP with
  | none => ∀ other ∈ transactionList, WakesBy currentTime timeoutP other.retransTime
  | some address => ∀ other ∈ transactionList.takeWhile fun another => another.address != address,
      WakesBy currentTime timeoutP other.retransTime

theorem walkedTo_head (currentTime timeoutP : Int)
    (transactionList : List (Transaction Session)) :
    WalkedTo currentTime timeoutP (transactionList.head?.map Transaction.address)
      transactionList := by
  cases transactionList with
  | nil => exact fun _ hmem => nomatch hmem
  | cons first next =>
    intro other hmem
    have hnone : other ∈ ([] : List (Transaction Session)) := mem_takeWhile_append hmem
    exact nomatch hnone

theorem walkedTo_next {out : StepContext Node Session × Int}
    (hstep : TransactionStepped currentTime timeoutP transacP context out)
    (hlist : context.transactions.transactionList = before ++ transacP :: after)
    (hbefore : ∀ other ∈ before, other.address ≠ transacP.address)
    (hwalked : WalkedTo currentTime timeoutP (some transacP.address) context.transactions.transactionList) :
    WalkedTo currentTime out.2
      (nextTransaction transacP.address context.transactions.transactionList)
      out.1.transactions.transactionList := by
  obtain ⟨next, after', hlist', haddresses, hwakes⟩ := hstep.list before after hlist hbefore
  have hdone : ∀ other ∈ before ++ [next], WakesBy currentTime out.2 other.retransTime := by
    intro other hmem
    rcases List.mem_append.mp hmem with hmem | hmem
    · refine (hwalked other ?_).mono hstep.le
      rw [hlist, List.takeWhile_append_of_pos fun another hother => bne_iff_ne.mpr
        (hbefore another hother)]
      exact List.mem_append_left _ hmem
    · rw [List.mem_singleton.mp hmem]
      exact hwakes
  rw [hlist, nextTransaction_split hbefore, hlist']
  cases after with
  | nil =>
    rw [List.map_eq_nil_iff.mp haddresses]
    exact hdone
  | cons following rest =>
    obtain ⟨following', rest', rfl, hsame, -⟩ := List.map_eq_cons_iff.mp haddresses
    intro other hmem
    rw [← hsame, List.append_cons] at hmem
    exact hdone other (mem_takeWhile_append hmem)

/-- What the walk leaves behind: a wake-up after a second at most, or all is as it was but for the
transactions, which are covered. -/
structure TransactionsStepped (currentTime timeoutP : Int) (context : StepContext Node Session)
    (out : StepContext Node Session × Int) : Prop where
  le : out.2 ≤ max timeoutP 1
  pos : 0 < timeoutP → 0 < out.2
  covered : out.2 ≤ 1 ∨ out.2 ≤ timeoutP ∧ SameTimers context out.1 ∧
    ∀ transacP ∈ out.1.transactions.transactionList,
      WakesBy currentTime out.2 transacP.retransTime

theorem transactionStepLoop_spec {rounds : Nat} {nextP : Option Nat}
    {out : StepContext Node Session × Int}
    (h : transactionStepLoop env currentTime rounds nextP context timeoutP = .ok out)
    (hwalked : 1 < timeoutP → WalkedTo currentTime timeoutP nextP context.transactions.transactionList) :
    TransactionsStepped currentTime timeoutP context out := by
  induction rounds generalizing nextP context timeoutP with
  | zero =>
    cases nextP with
    | none =>
      cases h
      refine ⟨by omega, id, ?_⟩
      by_cases hsoon : timeoutP ≤ 1
      · exact .inl hsoon
      · exact .inr ⟨Int.le_refl _, ⟨rfl, rfl, rfl⟩, hwalked (by omega)⟩
    | some address => cases h
  | succ rounds ih =>
    cases nextP with
    | none =>
      cases h
      refine ⟨by omega, id, ?_⟩
      by_cases hsoon : timeoutP ≤ 1
      · exact .inl hsoon
      · exact .inr ⟨Int.le_refl _, ⟨rfl, rfl, rfl⟩, hwalked (by omega)⟩
    | some address =>
      unfold transactionStepLoop at h
      split at h
      · cases h
      · rename_i transacP hfound
        split at h
        · cases h
        · obtain ⟨haddress, before, after, hlist, hbefore⟩ :=
            List.find?_eq_some_iff_append.mp hfound
          obtain rfl := beq_iff_eq.mp haddress
          have hpos := transactionStepOne_pos env currentTime transacP context timeoutP
          have hcases := transactionStepOne_spec env currentTime transacP context timeoutP
          generalize transactionStepOne env currentTime transacP context timeoutP = stepped
            at h hpos hcases
          rcases hcases with hremoved | hstep
          · have hrest := ih h fun hlate => absurd hlate (by omega)
            have hle := hrest.le
            exact ⟨by omega, fun htimeout => hrest.pos (hpos htimeout), .inl (by omega)⟩
          · have hone := hstep.le
            have hrest := ih h fun hlate => walkedTo_next hstep hlist
              (fun other hmem => by simpa using hbefore other hmem) (hwalked (by omega))
            have hle := hrest.le
            refine ⟨by omega, fun htimeout => hrest.pos (hpos htimeout), ?_⟩
            rcases hrest.covered with hsoon | ⟨hlower, hsame, hwakes⟩
            · exact .inl hsoon
            · have hkept := hstep.same
              exact .inr ⟨Int.le_trans hlower hone,
                ⟨hsame.observed.trans hkept.observed, hsame.servers.trans hkept.servers,
                  hsame.clients.trans hkept.clients⟩, hwakes⟩

/-! ## The state -/

theorem bootstrapStepServer_timeout (currentTime : Int) (env : BootstrapEnv)
    (targetP : Lwm2mServer) (timeoutP : Int) :
    (bootstrapStepServer currentTime env targetP timeoutP).2 ≤ max timeoutP 0 := by
  unfold bootstrapStepServer
  split
  · simp only
    omega
  · split <;> simp only <;> omega
  · split <;> simp only <;> omega
  all_goals
    simp only
    omega

theorem bootstrapStepLoop_timeout (env : StepEnv Node Session) (currentTime : Int)
    (bootstrapServerList : List Lwm2mServer) (transactions : TransactionContext Session)
    (timeoutP : Int) :
    (bootstrapStepLoop env currentTime bootstrapServerList transactions timeoutP).2.2 ≤
      max timeoutP 0 := by
  induction bootstrapServerList generalizing transactions timeoutP with
  | nil => exact Int.le_max_left _ _
  | cons targetP next ih =>
    have hlower : ∀ (env : BootstrapEnv) (transactions : TransactionContext Session),
        (bootstrapStepLoop ‹StepEnv Node Session› currentTime next transactions
          (bootstrapStepServer currentTime env targetP timeoutP).2).2.2 ≤ max timeoutP 0 := by
      intro env transactions
      have hnext := ih transactions (bootstrapStepServer currentTime env targetP timeoutP).2
      have hfirst := bootstrapStepServer_timeout currentTime env targetP timeoutP
      omega
    exact hlower _ _

structure StateStepped (timeoutP : Int) (context : StepContext Node Session)
    (out : StepContext Node Session × Int × CoapCode) : Prop where
  le : out.2.1 ≤ max timeoutP 0
  observed : out.1.observedList = context.observedList

theorem stepBootstrapRequired_spec (env : StepEnv Node Session) (currentTime : Int)
    (context : StepContext Node Session) (timeoutP : Int) :
    StateStepped timeoutP context (stepBootstrapRequired env currentTime context timeoutP) := by
  unfold stepBootstrapRequired
  split
  · exact ⟨Int.le_max_left _ _, rfl⟩
  · exact ⟨bootstrapStepLoop_timeout _ _ _ _ _, rfl⟩

theorem stepRegisterRequired_spec (env : StepEnv Node Session)
    (context : StepContext Node Session) (timeoutP : Int) :
    StateStepped timeoutP context (stepRegisterRequired env context timeoutP) := by
  unfold stepRegisterRequired
  simp only
  split
  · exact ⟨Int.le_max_left _ _, rfl⟩
  · exact ⟨Int.le_max_left _ _, rfl⟩

theorem stepInitial_spec {out : StepContext Node Session × Int × CoapCode}
    (h : stepInitial env currentTime context timeoutP = .ok out) :
    StateStepped timeoutP context out := by
  obtain ⟨⟨refreshed, found⟩, hrefresh, rfl⟩ := exceptMap_inv h
  obtain ⟨servers, -, heq⟩ := exceptMap_inv hrefresh
  cases heq
  simp only
  split
  · exact ⟨Int.le_max_left _ _, rfl⟩
  · split
    · exact ⟨(stepBootstrapRequired_spec _ _ _ _).le, (stepBootstrapRequired_spec _ _ _ _).observed⟩
    · exact ⟨(stepRegisterRequired_spec _ _ _).le, (stepRegisterRequired_spec _ _ _).observed⟩

theorem stepState_spec {out : StepContext Node Session × Int × CoapCode}
    (h : stepState env currentTime context timeoutP = .ok out) :
    StateStepped timeoutP context out := by
  have hbootstrap : ∀ state,
      StateStepped timeoutP context
        (stepBootstrapRequired env currentTime { context with state } timeoutP) := fun state =>
    ⟨(stepBootstrapRequired_spec _ _ _ _).le, (stepBootstrapRequired_spec _ _ _ _).observed⟩
  unfold stepState at h
  split at h
  · exact stepInitial_spec h
  · cases h
    exact stepBootstrapRequired_spec _ _ _ _
  · split at h
    · exact ⟨(stepInitial_spec h).le, (stepInitial_spec h).observed⟩
    · cases h
      exact ⟨Int.le_max_left _ _, rfl⟩
    · cases h
      exact ⟨bootstrapStepLoop_timeout _ _ _ _ _, rfl⟩
  · cases h
    exact stepRegisterRequired_spec _ _ _
  · split at h
    · cases h
      exact ⟨Int.le_max_left _ _, rfl⟩
    · cases h
      exact hbootstrap _
    · cases h
      exact ⟨Int.le_max_left _ _, rfl⟩
  · split at h
    · cases h
      exact hbootstrap _
    · cases h
      exact ⟨Int.le_max_left _ _, rfl⟩

/-! ## The step -/

theorem lwm2mStep_inv
    (h : lwm2mStep env currentTime context timeoutP = .ok (context', timeoutP', .noError)) :
    ∃ switched t₁ observed t₂ registered t₃,
      stepState env currentTime context timeoutP = .ok (switched, t₁, .noError) ∧
      switched.observeStep env currentTime t₁ = .ok (observed, t₂) ∧
      observed.registrationStep env currentTime t₂ = .ok (registered, t₃) ∧
      registered.transactionStep env currentTime t₃ = .ok (context', timeoutP') := by
  unfold lwm2mStep at h
  split at h
  · nomatch h
  · obtain ⟨⟨switched, t₁, result⟩, hswitch, h⟩ := exceptBind_inv h
    simp only at h
    split at h
    · rename_i hresult
      cases h
      exact absurd rfl hresult
    · rename_i hresult
      obtain rfl := Decidable.not_not.mp hresult
      obtain ⟨⟨observed, t₂⟩, hobserve, h⟩ := exceptBind_inv h
      obtain ⟨⟨registered, t₃⟩, hregister, h⟩ := exceptBind_inv h
      obtain ⟨⟨final, t₄⟩, htransaction, h⟩ := exceptBind_inv h
      cases h
      exact ⟨switched, t₁, observed, t₂, registered, t₃, hswitch, hobserve, hregister,
        htransaction⟩

theorem deadline_wakesBy
    (hwatchers : ∀ observed ∈ context.observedList, ∀ watcher ∈ observed.watcherList, watcher.active = true → WatcherWakes currentTime timeoutP watcher)
    (hservers : ∀ targetP ∈ context.serverList, ServerWakes currentTime timeoutP targetP)
    (hclients : ∀ clientP ∈ context.clientList, WakesBy currentTime timeoutP clientP.endOfLife)
    (htransactions : ∀ transacP ∈ context.transactions.transactionList, WakesBy currentTime timeoutP transacP.retransTime)
    (h : Deadline context deadline) : WakesBy currentTime timeoutP deadline := by
  cases h with
  | maxPeriod hobserved hwatcher hactive hdeadline =>
    exact (hwatchers _ hobserved _ hwatcher hactive).maxPeriod _ hdeadline
  | minPeriod hobserved hwatcher hactive hupdate hdeadline =>
    exact (hwatchers _ hobserved _ hwatcher hactive).minPeriod hupdate _ hdeadline
  | holdOff hserver hstatus => exact (hservers _ hserver).holdOff hstatus
  | update hserver hstatus => exact (hservers _ hserver).update hstatus
  | expiry hclient => exact hclients _ hclient
  | retransmission htransaction => exact htransactions _ htransaction

/-- A step that runs all modules returns a wake-up time that is not later than the one it was
given and not later than any deadline that lies ahead. It is positive unless `bootstrap_step`
asks to be called again at once or a watcher has a maximum period of 0. -/
theorem lwm2mStep_wakesBy (env : StepEnv Node Session) (context context' : StepContext Node Session)
    (currentTime timeoutP timeoutP' : Int) (htimeout : 0 < timeoutP)
    (hreads : StepReadsSucceed env context)
    (h : lwm2mStep env currentTime context timeoutP = .ok (context', timeoutP', .noError)) :
    timeoutP' ≤ timeoutP ∧
      (∀ deadline, Deadline context' deadline → currentTime < deadline →
        currentTime + timeoutP' ≤ deadline) ∧
      ((∀ out, stepState env currentTime context timeoutP = .ok out → 0 < out.2.1) →
        MaxPeriodsPositive context.observedList → 0 < timeoutP') := by
  obtain ⟨switched, t₁, observed, t₂, registered, t₃, hswitch, hobserve, hregister,
    htransaction⟩ := lwm2mStep_inv h
  have hstate := stepState_spec hswitch
  have hsame : switched.observedList = context.observedList := hstate.observed
  have hwatched := observeStep_spec
    (fun observed hmem => hreads observed (hsame ▸ hmem)) hobserve
  have hregistered := registrationStep_spec hregister
  have hwalked := transactionStepLoop_spec htransaction fun _ => walkedTo_head _ _ _
  have h₁ : t₁ ≤ max timeoutP 0 := hstate.le
  have h₂ := hwatched.le
  have h₃ := hregistered.le
  have h₄ : timeoutP' ≤ max t₃ 1 := hwalked.le
  refine ⟨by omega, fun deadline hdeadline => ?_, fun hpositive hperiods => ?_⟩
  · rcases hwalked.covered with hsoon | ⟨hlower, hkept, htransactions⟩
    · exact wakesBy_one hsoon
    · have hlower' : timeoutP' ≤ t₃ := hlower
      have hservers : context'.serverList = registered.serverList := hkept.servers
      have hclients : context'.clientList = registered.clientList := hkept.clients
      have hentries : context'.observedList = observed.observedList :=
        hkept.observed.trans hregistered.observed
      refine deadline_wakesBy (fun entry hentry watcher hwatcher hactive => ?_)
        (fun targetP hmem => ?_) (fun clientP hmem => ?_) htransactions hdeadline
      · rw [hentries] at hentry
        exact (hwatched.watchers entry hentry watcher hwatcher hactive).mono (by omega)
      · rw [hservers] at hmem
        exact (hregistered.servers targetP hmem).mono hlower'
      · rw [hclients] at hmem
        exact (hregistered.clients clientP hmem).mono hlower'
  · have hstart : 0 < t₁ := hpositive _ hswitch
    rw [← hsame] at hperiods
    exact hwalked.pos (hregistered.pos (hwatched.pos hperiods hstart))

/-- A platform on which everything goes well, and callbacks that do nothing. -/
def quietEnv : StepEnv Unit Unit where
  ident _ := 0
  ops := wholeDoubles
  observe :=
    { readData := fun _ => none, serialize := fun _ _ _ => none
      read := fun _ format => some (format, some []) }
  queryFits _ := true
  payloadFits _ := true
  connect _ := some 1
  transactionNew _ := true
  request server := transactionNew 0 () 2 0 [server.secObjInstID.toUInt8]
  now := 10
  sendTime _ := 10
  serialized _ := true
  sessionIsEqual _ _ := true
  monitorCallback _ transactions := transactions
  callback _ context := context
  rounds := 2

/-- A client with an instance observed and two servers: the one wants an update, the other one is
registered. -/
def registeredContext : StepContext Unit Unit where
  state := .ready
  serverList :=
    [{ zeroServer 1 with status := .regUpdateNeeded, attempt := 0, sequence := 0 },
      { zeroServer 2 with status := .registered, lifetime := 300, attempt := 0, sequence := 0 }]
  serverObj := none
  bootstrapServerList := []
  objectList := []
  observedList :=
    [{ uri := ⟨3, 0, lwm2mMaxId, lwm2mMaxId⟩
       watcherList := [{ newWatcher 2 with active := true }]
       freed := false }]
  clientList := []
  transactions := startContext 0

/-- The request of the update is sent at 10, so that it is due again at 12. -/
theorem registeredContext_wakesBy : ∃ context', ∃ timeoutP' ≤ (60 : Int),
    lwm2mStep quietEnv 10 registeredContext 60 = .ok (context', timeoutP', .noError) ∧
      ∀ deadline, Deadline context' deadline → 10 < deadline → 10 + timeoutP' ≤ deadline := by
  have hreads : StepReadsSucceed quietEnv registeredContext := by
    intro observed hmem
    rw [List.mem_singleton.mp hmem]
    exact fun watcher _ _ => rfl
  obtain ⟨context', hstep⟩ : ∃ context', lwm2mStep quietEnv 10 registeredContext 60 =
      .ok (context', 2, .noError) := ⟨_, rfl⟩
  obtain ⟨hle, hdeadlines, -⟩ :=
    lwm2mStep_wakesBy quietEnv registeredContext context' 10 60 2 (by decide) hreads hstep
  exact ⟨context', 2, hle, hstep, hdeadlines⟩

/-- A client whose bootstrap server has finished. -/
def finishingContext : StepContext Unit Unit where
  state := .bootstrapping
  serverList := []
  serverObj := none
  bootstrapServerList := [{ zeroServer 0 with status := .bsFinishing }]
  objectList := []
  observedList := []
  clientList := []
  transactions := startContext 0

/-- A bootstrap that ends asks for the next step at once, and all modules have had their turn. -/
theorem finishingContext_timeout : StepReadsSucceed quietEnv finishingContext ∧
    ∃ context', lwm2mStep quietEnv 10 finishingContext 60 = .ok (context', 0, .noError) :=
  ⟨fun _ hmem => absurd hmem List.not_mem_nil, _, rfl⟩

end Wakaama
