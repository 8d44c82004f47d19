import Wakaama.Core.Notify
import Wakaama.Misc.Run

/-!
# One step of the notifications

What `observe_step` does to each watcher: it is left as it is, or it is notified because the
decision says so. Where the objects can be read and serialized, the decision is carried out.
-/

namespace Wakaama

variable {ops : DoubleOps} {env : ObserveEnv} {currentTime : Int} {value : Option Lwm2mData}

/-- Whether a change is reported. A minimum period that is over decides it alone. -/
def changeDecision (ops : DoubleOps) (currentTime : Int) (value : Option Lwm2mData)
    (watcher : Watcher) : Bool :=
  match minPeriodEnd watcher with
  | none => changeNotifies ops value watcher
  | some periodEnd => decide (periodEnd ≤ currentTime)

theorem updateNotifies_fst (ops : DoubleOps) (currentTime : Int) (value : Option Lwm2mData)
    (watcher : Watcher) (timeoutP : Int) :
    (updateNotifies ops currentTime value watcher timeoutP).1 =
      changeDecision ops currentTime value watcher := by
  unfold updateNotifies changeDecision
  cases minPeriodEnd watcher with
  | none => rfl
  | some periodEnd =>
    by_cases hearly : currentTime < periodEnd
    · simp only [if_pos hearly, decide_eq_false (Int.not_le.mpr hearly)]
    · simp only [if_neg hearly, decide_eq_true (Int.not_lt.mp hearly)]

/-- The decision to notify an active watcher. -/
def notifyDecision (ops : DoubleOps) (currentTime : Int) (value : Option Lwm2mData)
    (watcher : Watcher) : Bool :=
  watcher.update && changeDecision ops currentTime value watcher ||
    (maxPeriodEnd watcher).any fun periodEnd => periodEnd ≤ currentTime

theorem watcherNotifies_fst (ops : DoubleOps) (currentTime : Int) (value : Option Lwm2mData)
    (watcher : Watcher) (timeoutP : Int) :
    (watcherNotifies ops currentTime value watcher timeoutP).1 =
      notifyDecision ops currentTime value watcher := by
  unfold watcherNotifies notifyDecision
  cases watcher.update with
  | false => rfl
  | true => simp only [if_true, updateNotifies_fst, Bool.true_and]

structure StepEffect (ops : DoubleOps) (currentTime : Int) (value : Option Lwm2mData)
    (stepped : SteppedWatcher) : Prop where
  kept : stepped.notification = none → stepped.after = stepped.before
  sent : stepped.notification.isSome → stepped.before.active = true ∧
    notifyDecision ops currentTime value stepped.before = true ∧
    stepped.after.lastTime = currentTime ∧ stepped.after.update = false
  server : stepped.after.server = stepped.before.server
  active : stepped.after.active = stepped.before.active
  parameters : stepped.after.parameters = stepped.before.parameters

theorem skippedWatcher_effect (ops : DoubleOps) (currentTime : Int) (value : Option Lwm2mData)
    (watcher : Watcher) : StepEffect ops currentTime value (skippedWatcher watcher) where
  kept _ := rfl
  sent h := nomatch h
  server := rfl
  active := rfl
  parameters := rfl

/-- The value that a watcher's thresholds are compared with. -/
def valueOf (uri : Lwm2mUri) (dataP : Option (List Lwm2mData)) : Option Lwm2mData :=
  dataP.map fun data => observedValue uri (data.headD lwm2mDataNew)

theorem stepWatcher_effect {uri : Lwm2mUri} {dataP : Option (List Lwm2mData)} {watcher : Watcher}
    {state state' : NotifyState} {stepped : SteppedWatcher} (hactive : watcher.active = true)
    (h : stepWatcher ops env currentTime uri dataP watcher state = some (stepped, state')) :
    stepped.before = watcher ∧ StepEffect ops currentTime (valueOf uri dataP) stepped ∧
      stepped.notification.isSome =
        notifyDecision ops currentTime (valueOf uri dataP) watcher := by
  have hdecision := watcherNotifies_fst ops currentTime (valueOf uri dataP) watcher state.timeoutP
  simp only [stepWatcher] at h
  split at h
  · rename_i hnotify
    have hyes := hdecision.symm.trans hnotify
    obtain ⟨⟨format, contentType, payload⟩, -, heq⟩ := Option.map_eq_some_iff.mp h
    cases heq
    exact ⟨rfl, ⟨fun h => (nomatch h), fun _ => ⟨hactive, hyes, rfl, rfl⟩, rfl, rfl, rfl⟩, hyes.symm⟩
  · rename_i hnotify
    have hno := hdecision.symm.trans (Bool.not_eq_true _ ▸ hnotify)
    cases h
    exact ⟨rfl, skippedWatcher_effect _ _ _ _, hno.symm⟩

theorem skippedWatchers_before (watchers : List Watcher) :
    (watchers.map skippedWatcher).map SteppedWatcher.before = watchers := by
  rw [List.map_map]
  exact List.map_id _

theorem stepWatchers_before (uri : Lwm2mUri) (dataP : Option (List Lwm2mData)) :
    ∀ (watchers : List Watcher) (state : NotifyState),
      (stepWatchers ops env currentTime uri dataP watchers state).1.map SteppedWatcher.before =
        watchers := by
  intro watchers
  induction watchers with
  | nil => exact fun _ => rfl
  | cons watcher next ih =>
    intro state
    unfold stepWatchers
    split
    · rename_i hactive
      split
      · exact skippedWatchers_before _
      · rename_i stepped state' hstep
        simp only [List.map_cons, ih state', (stepWatcher_effect hactive hstep).1]
    · simp only [List.map_cons, ih state, skippedWatcher]

theorem stepWatchers_effect (uri : Lwm2mUri) (dataP : Option (List Lwm2mData)) :
    ∀ (watchers : List Watcher) (state : NotifyState),
      ∀ stepped ∈ (stepWatchers ops env currentTime uri dataP watchers state).1,
        StepEffect ops currentTime (valueOf uri dataP) stepped := by
  intro watchers
  induction watchers with
  | nil => exact fun _ _ hmem => nomatch hmem
  | cons watcher next ih =>
    intro state stepped hmem
    unfold stepWatchers at hmem
    split at hmem
    · rename_i hactive
      split at hmem
      · obtain ⟨skipped, -, rfl⟩ := List.mem_map.mp hmem
        exact skippedWatcher_effect _ _ _ _
      · rename_i hstep
        rcases List.mem_cons.mp hmem with rfl | hmem
        · exact (stepWatcher_effect hactive hstep).2.1
        · exact ih _ stepped hmem
    · rcases List.mem_cons.mp hmem with rfl | hmem
      · exact skippedWatcher_effect _ _ _ _
      · exact ih _ stepped hmem

theorem stepEntry_before (ops : DoubleOps) (env : ObserveEnv) (currentTime : Int)
    (observed : Observed) (nextMID : UInt16) (timeoutP : Int) :
    (stepEntry ops env currentTime observed nextMID timeoutP).1.map SteppedWatcher.before =
      observed.watcherList := by
  unfold stepEntry
  split
  · split
    · exact skippedWatchers_before _
    · exact stepWatchers_before _ _ _ _
  · exact stepWatchers_before _ _ _ _

theorem stepEntry_effect (ops : DoubleOps) (env : ObserveEnv) (currentTime : Int)
    (observed : Observed) (nextMID : UInt16) (timeoutP : Int) :
    ∀ stepped ∈ (stepEntry ops env currentTime observed nextMID timeoutP).1,
      ∃ value, StepEffect ops currentTime value stepped := by
  intro stepped hmem
  unfold stepEntry at hmem
  split at hmem
  · split at hmem
    · obtain ⟨skipped, -, rfl⟩ := List.mem_map.mp hmem
      exact ⟨none, skippedWatcher_effect _ _ _ _⟩
    · exact ⟨_, stepWatchers_effect _ _ _ _ stepped hmem⟩
  · exact ⟨_, stepWatchers_effect _ _ _ _ stepped hmem⟩

structure EntryEffect (ops : DoubleOps) (currentTime : Int) (entry : SteppedEntry) : Prop where
  before : entry.watchers.map SteppedWatcher.before = entry.before.watcherList
  watchers : ∀ stepped ∈ entry.watchers, ∃ value, StepEffect ops currentTime value stepped

theorem stepEntries_effect :
    ∀ {observedList : List Observed} {nextMID : UInt16} {timeoutP : Int}
      {out : List SteppedEntry × UInt16 × Int},
      stepEntries ops env currentTime observedList nextMID timeoutP = .ok out →
      out.1.map SteppedEntry.before = observedList ∧
        ∀ entry ∈ out.1, EntryEffect ops currentTime entry := by
  intro observedList
  induction observedList with
  | nil =>
    intro nextMID timeoutP out h
    cases h
    exact ⟨rfl, fun _ hmem => nomatch hmem⟩
  | cons observed next ih =>
    intro nextMID timeoutP out h
    simp only [stepEntries] at h
    split at h
    · cases h
    · obtain ⟨rest, hrest, rfl⟩ := exceptMap_inv h
      obtain ⟨hbefore, heffect⟩ := ih hrest
      refine ⟨by rw [List.map_cons, hbefore], fun entry hmem => ?_⟩
      rcases List.mem_cons.mp hmem with rfl | hmem
      · exact ⟨stepEntry_before _ _ _ _ _ _, stepEntry_effect _ _ _ _ _ _⟩
      · exact heffect entry hmem

theorem EntryEffect.servers {entry : SteppedEntry} (h : EntryEffect ops currentTime entry) :
    entry.after.watcherList.map Watcher.server = entry.before.watcherList.map Watcher.server := by
  rw [← h.before]
  simp only [SteppedEntry.after, List.map_map]
  refine List.map_congr_left fun stepped hmem => ?_
  obtain ⟨value, heffect⟩ := h.watchers stepped hmem
  exact heffect.server

theorem lwm2mResourceValueChanged_spec {uri : Lwm2mUri} :
    ∀ {observedList observedList' : List Observed},
      lwm2mResourceValueChanged uri observedList = .ok observedList' →
      observedList' = observedList.map fun observed =>
        if concerns uri observed.uri then
          { observed with watcherList := observed.watcherList.map tagWatcher }
        else observed := by
  intro observedList
  induction observedList with
  | nil =>
    intro observedList' h
    cases h
    rfl
  | cons observed next ih =>
    intro observedList' h
    simp only [lwm2mResourceValueChanged] at h
    split at h
    · cases h
    · obtain ⟨rest, hrest, rfl⟩ := exceptMap_inv h
      rw [ih hrest, List.map_cons]

theorem tagWatcher_keeps (watcher : Watcher) : (tagWatcher watcher).server = watcher.server ∧
    (tagWatcher watcher).active = watcher.active ∧
    (tagWatcher watcher).lastTime = watcher.lastTime := by
  unfold tagWatcher
  split <;> exact ⟨rfl, rfl, rfl⟩

/-- Doubles that are whole numbers, given by their values. -/
def wholeDoubles : DoubleOps where
  ofInteger value := value.toUInt64
  ofUnsigned value := value
  less a b := decide (a < b)
  lessEq a b := decide (a ≤ b)
  sub a b := a - b

end Wakaama
