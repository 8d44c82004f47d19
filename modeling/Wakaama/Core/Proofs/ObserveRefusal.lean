import Mathlib.Tactic.ByContra
import Wakaama.Core.ObserveRequest
import Wakaama.Core.Proofs.WriteAttributes

/-!
# Observe requests that fail

What `prv_getWatcher` does to the list is told once, by the four cases it has. An error changes
nothing as long as it is found before the watcher is there, or the watcher was there already and is
left alone.
-/

namespace Wakaama

variable {alloc : ObserveAlloc} {uri : Lwm2mUri} {server : UInt16} {observedList : List Observed}

/-! ## Looking for the watcher -/

theorem prvFindObserved_entryOf {observed : Observed}
    (hlive : ∀ observed ∈ observedList, observed.freed = false)
    (hentry : entryOf uri observedList = some observed) :
    ∃ before after, observedList = before ++ observed :: after ∧
      prvFindObserved uri observedList = .ok (some (before, observed, after)) := by
  obtain ⟨hmatch, before, after, rfl, hbefore⟩ := List.find?_eq_some_iff_append.1 hentry
  refine ⟨before, after, rfl, ?_⟩
  apply prvFindObserved_append
  · exact hlive observed (List.mem_append_right _ List.mem_cons_self)
  · exact hmatch
  · intro other hmem
    exact ⟨hlive other (List.mem_append_left _ hmem), by simpa using hbefore other hmem⟩

theorem prvFindObserved_absent (hlive : ∀ observed ∈ observedList, observed.freed = false)
    (hentry : entryOf uri observedList = none) : prvFindObserved uri observedList = .ok none := by
  induction observedList with
  | nil => rfl
  | cons first next ih =>
    rw [entryOf, List.find?_cons] at hentry
    cases hmatch : matchesUri uri first.uri with
    | true =>
      rw [hmatch] at hentry
      nomatch hentry
    | false =>
      rw [hmatch] at hentry
      have hrest := ih (fun other hmem => hlive other (List.mem_cons_of_mem _ hmem)) hentry
      rw [prvFindObserved, hlive first List.mem_cons_self, hmatch, hrest]
      rfl

/-- The watcher was not there: writing any watcher changes the list. -/
structure FreshPlace (server : UInt16) (observedList : List Observed) (place : WatcherAt) :
    Prop where
  watcher : place.watcher = newWatcher server
  put : ∀ watcher, place.put watcher ≠ observedList

/-- The watcher was there: writing it changes the list if it is another one. -/
structure OldPlace (observedList : List Observed) (place : WatcherAt) : Prop where
  put : place.put place.watcher = observedList
  only : ∀ watcher, place.put watcher = observedList → watcher = place.watcher

/-- The four cases of `prv_getWatcher`. -/
inductive GetWatcherCase (alloc : ObserveAlloc) (uri : Lwm2mUri) (server : UInt16)
    (observedList : List Observed) : GotWatcher → Prop where
  | old {place : WatcherAt} (hwatcher : watcherOf uri server observedList = some place.watcher)
    (hplace : OldPlace observedList place) :
    GetWatcherCase alloc uri server observedList (.found place)
  | fresh {place : WatcherAt} (hadded : WatcherAdded alloc uri server observedList)
    (hplace : FreshPlace server observedList place) :
    GetWatcherCase alloc uri server observedList (.found place)
  | freed (hleft : EntryLeftFreed alloc uri observedList) :
    GetWatcherCase alloc uri server observedList
      (.null ({ uri, watcherList := [], freed := true } :: observedList))
  | none (hunavailable : ¬ WatcherAvailable alloc uri server observedList)
    (hleft : ¬ EntryLeftFreed alloc uri observedList) :
    GetWatcherCase alloc uri server observedList (.null observedList)

theorem splitFirst_find_eq {α : Type} {p : α → Bool} {xs : List α} :
    xs.find? p = (splitFirst p xs).map fun split => split.2.1 := by
  induction xs with
  | nil => rfl
  | cons x xs ih =>
    rw [List.find?_cons, splitFirst]
    cases hp : p x with
    | true => rfl
    | false =>
      simp only [Bool.false_eq_true, if_false, ih, Option.map_map]
      rfl

theorem watcherOf_eq (server : UInt16) {observed : Observed}
    (hentry : entryOf uri observedList = some observed) :
    watcherOf uri server observedList =
      (prvFindWatcher server observed.watcherList).map fun split => split.2.1 := by
  rw [watcherOf, hentry, Option.bind_some, splitFirst_find_eq]
  rfl

theorem oldPlace_split {before after : List Observed} {observed : Observed}
    {watchersBefore watchersAfter : List Watcher} {watcher : Watcher}
    (hlive : observed.freed = false)
    (hwatchers : observed.watcherList = watchersBefore ++ watcher :: watchersAfter) :
    OldPlace (before ++ observed :: after)
      { before, uri := observed.uri, watchersBefore, watcher, watchersAfter, after } := by
  obtain ⟨uri, watcherList, freed⟩ := observed
  obtain rfl : watcherList = watchersBefore ++ watcher :: watchersAfter := hwatchers
  obtain rfl : freed = false := hlive
  refine ⟨rfl, fun other hput => ?_⟩
  have hentry := (List.cons.inj (List.append_cancel_left hput)).1
  have hlist := congrArg Observed.watcherList hentry
  exact (List.cons.inj (List.append_cancel_left hlist)).1

theorem freshPlace_split {before after : List Observed} {observed : Observed} (server : UInt16) :
    FreshPlace server (before ++ observed :: after)
      { before, uri := observed.uri, watchersBefore := [], watcher := newWatcher server,
        watchersAfter := observed.watcherList, after } := by
  refine ⟨rfl, fun watcher hput => ?_⟩
  have hentry := (List.cons.inj (List.append_cancel_left hput)).1
  have hlength := congrArg (fun observed => observed.watcherList.length) hentry
  simp at hlength

theorem freshPlace_cons (uri : Lwm2mUri) (server : UInt16) (observedList : List Observed) :
    FreshPlace server observedList
      { before := [], uri, watchersBefore := [], watcher := newWatcher server,
        watchersAfter := [], after := observedList } := by
  refine ⟨rfl, fun watcher hput => ?_⟩
  have hlength := congrArg List.length hput
  simp [WatcherAt.put] at hlength

theorem prvGetWatcher_cases (alloc : ObserveAlloc) (uri : Lwm2mUri) (server : UInt16)
    (hlive : ∀ observed ∈ observedList, observed.freed = false) :
    ∃ got, prvGetWatcher alloc uri server observedList = .ok got ∧
      GetWatcherCase alloc uri server observedList got := by
  unfold prvGetWatcher
  cases hentry : entryOf uri observedList with
  | none =>
    have hmissing : watcherOf uri server observedList = none := by
      rw [watcherOf, hentry]
      rfl
    rw [prvFindObserved_absent hlive hentry]
    dsimp only
    cases hobserved : alloc.observed with
    | false =>
      refine ⟨_, rfl, .none ?_ fun hleft => absurd (hobserved.symm.trans hleft.2.1) nofun⟩
      rintro (hthere | hadded)
      · exact hthere hmissing
      · exact absurd (hobserved.symm.trans (hadded.2.2 hentry)) nofun
    | true =>
      cases hwatcher : alloc.watcher with
      | false => exact ⟨_, rfl, .freed ⟨hentry, hobserved, hwatcher⟩⟩
      | true =>
        exact ⟨_, rfl, .fresh ⟨hmissing, hwatcher, fun _ => hobserved⟩ (freshPlace_cons _ _ _)⟩
  | some observed =>
    have hleft : ¬ EntryLeftFreed alloc uri observedList := fun hleft =>
      absurd (hentry.symm.trans hleft.1) nofun
    have hwatcherOf := watcherOf_eq server hentry
    obtain ⟨before, after, rfl, hfind⟩ := prvFindObserved_entryOf hlive hentry
    have hfreed : observed.freed = false :=
      hlive observed (List.mem_append_right _ List.mem_cons_self)
    rw [hfind]
    dsimp only
    cases hwatcher : prvFindWatcher server observed.watcherList with
    | some split =>
      obtain ⟨watchersBefore, watcher, watchersAfter⟩ := split
      rw [hwatcher] at hwatcherOf
      exact ⟨_, rfl, .old hwatcherOf (oldPlace_split hfreed (splitFirst_some hwatcher).1)⟩
    | none =>
      rw [hwatcher] at hwatcherOf
      dsimp only
      cases hmemory : alloc.watcher with
      | false =>
        refine ⟨_, rfl, .none ?_ hleft⟩
        rintro (hthere | hadded)
        · exact hthere hwatcherOf
        · exact absurd (hmemory.symm.trans hadded.2.1) nofun
      | true =>
        refine ⟨_, rfl, .fresh ⟨hwatcherOf, hmemory, fun hnone => ?_⟩ (freshPlace_split _)⟩
        exact absurd (hentry.symm.trans hnone) nofun

/-! ## The three functions -/

theorem errorLeavesNothing_iff (hlive : ObservedLive observedList) {request : ObserveInvocation}
    {observedList' : List Observed} {code : CoapCode}
    (h : invokeObserve alloc uri server request observedList = .ok (observedList', code)) :
    ErrorLeavesNothing alloc uri server request observedList ↔
      ¬ (code.isError = true ∧ observedList' ≠ observedList) := by
  constructor
  · rintro hleaves ⟨herror, hchanged⟩
    exact hchanged (hleaves observedList' code h herror).1
  · intro hkept list' code' h' herror
    obtain ⟨rfl, rfl⟩ := Prod.mk.inj (Except.ok.inj (h.symm.trans h'))
    obtain rfl := not_ne_iff.1 fun hchanged => hkept ⟨herror, hchanged⟩
    exact ⟨rfl, hlive.live⟩

theorem thresholdsClash_new (tooClose : UInt64 → UInt64 → UInt64 → Bool) (attr : Lwm2mAttributes) :
    ∃ clash, thresholdsClash tooClose attr none = .ok clash ∧
      (clash = true ↔ attr.toSet &&& ~~~attr.toClear &&& attrFlagNumeric = attrFlagNumeric ∧
        tooClose attr.lessThan attr.step attr.greaterThan = true) := by
  unfold thresholdsClash
  simp only [Option.map_none, Option.getD_none, UInt8.or_zero]
  by_cases hall : attr.toSet &&& ~~~attr.toClear &&& attrFlagNumeric = attrFlagNumeric
  · have hset := numericFlag_set hall
    rw [if_pos hall, if_pos (hset attrFlagGreaterThan (by decide) (by decide)),
      if_pos (hset attrFlagLessThan (by decide) (by decide)),
      if_pos (hset attrFlagStep (by decide) (by decide))]
    exact ⟨_, rfl, (and_iff_right hall).symm⟩
  · rw [if_neg hall]
    exact ⟨false, rfl, iff_of_false nofun fun h => hall h.1⟩

theorem EntryLeftFreed.not_watched {watcher : Watcher} (h : EntryLeftFreed alloc uri observedList)
    (hwatcher : watcherOf uri server observedList = some watcher) : False := by
  rw [watcherOf, h.1] at hwatcher
  nomatch hwatcher

theorem setParameters_leaves_iff (hlive : ObservedLive observedList)
    (tooClose : UInt64 → UInt64 → UInt64 → Bool) (readable : CoapCode) (attr : Lwm2mAttributes) :
    ErrorLeavesNothing alloc uri server (.setParameters tooClose readable attr) observedList ↔
      ¬ FailsTooLate alloc uri server (.setParameters tooClose readable attr) observedList := by
  obtain ⟨observedList', reply, hresult, htrace⟩ : ∃ observedList' reply,
      observeSetParameters tooClose readable alloc uri server attr observedList =
        .ok (observedList', reply) ∧
      ((reply.code.isError = true ∧ observedList' ≠ observedList) ↔
        FailsTooLate alloc uri server (.setParameters tooClose readable attr) observedList) := by
    unfold observeSetParameters FailsTooLate
    by_cases huri : uri.isSetResource = true → uri.isSetInstance = true
    · have hchecked : ¬ ((!uri.isSetInstance && uri.isSetResource) = true) := by
        cases hinstance : uri.isSetInstance <;> simp_all
      rw [if_neg hchecked]
      by_cases hreadable : readable = .content205
      · rw [if_neg (not_not_intro hreadable)]
        simp only [and_iff_right huri, and_iff_right hreadable]
        obtain ⟨got, hgot, hcase⟩ := prvGetWatcher_cases alloc uri server hlive.live
        rw [hgot]
        cases hcase with
        | none hunavailable hleft =>
          refine ⟨_, _, rfl, iff_of_false (fun h => h.2 rfl) ?_⟩
          rintro (h | ⟨hadded, -⟩)
          · exact hleft h
          · exact hunavailable (.inr hadded)
        | freed hleft =>
          refine ⟨_, _, rfl, iff_of_true ⟨rfl, fun heq => ?_⟩ (.inl hleft)⟩
          exact absurd (congrArg List.length heq) (by simp)
        | @old place hwatcher hplace =>
          have hnone : ∀ P : Prop, ¬ (EntryLeftFreed alloc uri observedList ∨
              WatcherAdded alloc uri server observedList ∧ P) := by
            rintro P (hleft | ⟨hadded, -⟩)
            · exact hleft.not_watched hwatcher
            · exact absurd (hwatcher.symm.trans hadded.1) nofun
          obtain ⟨clash, hclash⟩ := thresholdsClash_ok tooClose attr place.watcher.parameters
          simp only [hclash]
          cases clash with
          | true => exact ⟨_, _, rfl, iff_of_false (fun h => h.2 hplace.put) (hnone _)⟩
          | false =>
            cases place.watcher.parameters with
            | some parameters => exact ⟨_, _, rfl, iff_of_false (fun h => nomatch h.1) (hnone _)⟩
            | none =>
              dsimp only
              split
              · split
                · exact ⟨_, _, rfl, iff_of_false (fun h => nomatch h.1) (hnone _)⟩
                · exact ⟨_, _, rfl, iff_of_false (fun h => h.2 hplace.put) (hnone _)⟩
              · exact ⟨_, _, rfl, iff_of_false (fun h => nomatch h.1) (hnone _)⟩
        | @fresh place hadded hplace =>
          have hleft : ¬ EntryLeftFreed alloc uri observedList := fun h =>
            absurd (hadded.2.1.symm.trans h.2.2) nofun
          rw [or_iff_right hleft, and_iff_right hadded]
          obtain ⟨clash, hclash, hiff⟩ := thresholdsClash_new tooClose attr
          have hparameters : place.watcher.parameters = none := by rw [hplace.watcher]; rfl
          simp only [hparameters, hclash, ← hiff]
          cases clash with
          | true => exact ⟨_, _, rfl, iff_of_true ⟨rfl, hplace.put _⟩ (.inl rfl)⟩
          | false =>
            by_cases hset : attr.toSet = 0
            · rw [if_neg (not_not_intro hset)]
              refine ⟨_, _, rfl, iff_of_false (fun h => nomatch h.1) ?_⟩
              rintro (h | h)
              · nomatch h
              · exact h.1 hset
            · rw [if_pos hset]
              cases hmemory : alloc.parameters with
              | true =>
                refine ⟨_, _, rfl, iff_of_false (fun h => nomatch h.1) ?_⟩
                rintro (h | h)
                · nomatch h
                · nomatch h.2
              | false => exact ⟨_, _, rfl, iff_of_true ⟨rfl, hplace.put _⟩ (.inr ⟨hset, rfl⟩)⟩
      · rw [if_pos hreadable]
        exact ⟨_, _, rfl, iff_of_false (fun h => h.2 rfl) fun h => hreadable h.2.1⟩
    · have hchecked : (!uri.isSetInstance && uri.isSetResource) = true := by
        cases hinstance : uri.isSetInstance <;> simp_all
      rw [if_pos hchecked]
      exact ⟨_, _, rfl, iff_of_false (fun h => h.2 rfl) fun h => huri h.1⟩
  rw [errorLeavesNothing_iff hlive (by rw [invokeObserve, hresult]; rfl), htrace]

theorem observeCancel_changes (hlive : ObservedLive observedList) (mid : UInt16)
    (fromSession : UInt16 → Bool) :
    ∃ observedList', observeCancel mid fromSession observedList = .ok observedList' ∧
      (observedList' ≠ observedList ↔ ∃ observed ∈ observedList, ∃ watcher ∈ observed.watcherList,
        watcher.lastMid = mid ∧ fromSession watcher.server = true) := by
  induction observedList with
  | nil => exact ⟨[], rfl, iff_of_false (not_not_intro rfl) fun ⟨_, hmem, _⟩ => nomatch hmem⟩
  | cons observed next ih =>
    have hfreed : observed.freed = false := hlive.live observed List.mem_cons_self
    have hwatched : observed.watcherList ≠ [] := hlive.watched observed List.mem_cons_self
    rw [observeCancel, hfreed, if_neg Bool.false_ne_true, if_neg hwatched]
    cases hsplit : splitFirst (fun watcher => watcher.lastMid == mid && fromSession watcher.server)
        observed.watcherList with
    | some split =>
      obtain ⟨before, watcher, after⟩ := split
      obtain ⟨hwatchers, hmatch, -⟩ := splitFirst_some hsplit
      have hremoved : ∃ other ∈ observed :: next, ∃ watcher ∈ other.watcherList,
          watcher.lastMid = mid ∧ fromSession watcher.server = true := by
        refine ⟨observed, List.mem_cons_self, watcher, ?_, by simpa using hmatch⟩
        rw [hwatchers]
        exact List.mem_append_right _ List.mem_cons_self
      dsimp only
      split
      · refine ⟨_, rfl, iff_of_true (fun heq => ?_) hremoved⟩
        exact absurd (congrArg List.length heq) (by simp)
      · refine ⟨_, rfl, iff_of_true (fun heq => ?_) hremoved⟩
        have hlist := congrArg (fun other => other.watcherList.length) (List.cons.inj heq).1
        simp [hwatchers] at hlist
    | none =>
      have hnone := splitFirst_none hsplit
      obtain ⟨next', hcancel, hiff⟩ := ih
        ⟨fun other hmem => hlive.live other (List.mem_cons_of_mem _ hmem),
          fun other hmem => hlive.watched other (List.mem_cons_of_mem _ hmem)⟩
      rw [hcancel]
      refine ⟨observed :: next', rfl, ?_⟩
      rw [ne_eq, List.cons.injEq, and_iff_right rfl, ← ne_eq, hiff]
      constructor
      · rintro ⟨other, hmem, hwatcher⟩
        exact ⟨other, List.mem_cons_of_mem _ hmem, hwatcher⟩
      · rintro ⟨other, hmem, watcher, hwatcher, hmid, hsession⟩
        rcases List.mem_cons.1 hmem with rfl | hmem
        · have hmiss := hnone watcher hwatcher
          simp [hmid, hsession] at hmiss
        · exact ⟨other, hmem, watcher, hwatcher, hmid, hsession⟩

theorem EntryLeftFreed.unavailable (h : EntryLeftFreed alloc uri observedList) :
    ¬ WatcherAvailable alloc uri server observedList := by
  rintro (hthere | hadded)
  · exact hthere (by rw [watcherOf, h.1]; rfl)
  · exact absurd (hadded.2.1.symm.trans h.2.2) nofun

inductive RegisterCase (alloc : ObserveAlloc) (uri : Lwm2mUri) (server : UInt16)
    (observedList : List Observed) : List Observed → CoapCode → Prop where
  | registered {observedList' : List Observed}
    (havailable : WatcherAvailable alloc uri server observedList)
    (hchanged : observedList' ≠ observedList) :
    RegisterCase alloc uri server observedList observedList' .content205
  | freed {observedList' : List Observed} (hleft : EntryLeftFreed alloc uri observedList)
    (hchanged : observedList' ≠ observedList) :
    RegisterCase alloc uri server observedList observedList' .internalServerError500
  | refused (hunavailable : ¬ WatcherAvailable alloc uri server observedList)
    (hleft : ¬ EntryLeftFreed alloc uri observedList) :
    RegisterCase alloc uri server observedList observedList .internalServerError500

variable {sessionIsEqual : UInt16 → UInt16 → Bool} {now : Int}

theorem observeHandleRequest_registers (hlive : ObservedLive observedList)
    {message : ObserveMessage} (hregisters : Registers uri message) :
    ∃ observedList' reply,
      observeHandleRequest sessionIsEqual now alloc uri server message observedList =
        .ok (observedList', reply) ∧
      RegisterCase alloc uri server observedList observedList' reply.code := by
  obtain ⟨hcount, huri, htoken⟩ := hregisters
  have hchecked : ¬ ((!uri.isSetInstance && uri.isSetResource) = true) := by
    cases hinstance : uri.isSetInstance <;> simp_all
  unfold observeHandleRequest
  rw [if_pos hcount, if_neg hchecked, if_neg htoken]
  obtain ⟨got, hgot, hcase⟩ := prvGetWatcher_cases alloc uri server hlive.live
  rw [hgot]
  cases hcase with
  | old hwatcher hplace =>
    refine ⟨_, _, rfl, .registered (.inl fun hnone => ?_) fun hput => ?_⟩
    · exact absurd (hwatcher.symm.trans hnone) nofun
    · have hcounter := congrArg Watcher.counter (hplace.only _ hput)
      simp at hcounter
  | fresh hadded hplace => exact ⟨_, _, rfl, .registered (.inr hadded) (hplace.put _)⟩
  | freed hleft =>
    refine ⟨_, _, rfl, .freed hleft fun heq => ?_⟩
    exact absurd (congrArg List.length heq) (by simp)
  | none hunavailable hleft => exact ⟨_, _, rfl, .refused hunavailable hleft⟩

theorem observeHandleRequest_cancels (hlive : ObservedLive observedList) {message : ObserveMessage}
    (hcount : message.count = 1) :
    ∃ observedList' reply,
      observeHandleRequest sessionIsEqual now alloc uri server message observedList =
        .ok (observedList', reply) ∧ reply.code = .content205 ∧
      (observedList' ≠ observedList ↔ CancelsWatcher sessionIsEqual uri server observedList) := by
  have hzero : message.count ≠ 0 := by
    rw [hcount]
    decide
  unfold observeHandleRequest
  rw [if_neg hzero, if_pos hcount]
  have hnone : watcherOf uri server observedList = none →
      ¬ CancelsWatcher sessionIsEqual uri server observedList := by
    rintro hnone ⟨own, hown, -⟩
    exact absurd (hnone.symm.trans hown) nofun
  cases hentry : entryOf uri observedList with
  | none =>
    rw [prvFindObserved_absent hlive.live hentry]
    refine ⟨_, _, rfl, rfl, iff_of_false (not_not_intro rfl) (hnone ?_)⟩
    rw [watcherOf, hentry]
    rfl
  | some observed =>
    have hwatcherOf := watcherOf_eq server hentry
    obtain ⟨before, after, -, hfind⟩ := prvFindObserved_entryOf hlive.live hentry
    rw [hfind]
    dsimp only
    cases hwatcher : prvFindWatcher server observed.watcherList with
    | none =>
      rw [hwatcher] at hwatcherOf
      exact ⟨_, _, rfl, rfl, iff_of_false (not_not_intro rfl) (hnone hwatcherOf)⟩
    | some split =>
      rw [hwatcher] at hwatcherOf
      obtain ⟨watchersBefore, own, watchersAfter⟩ := split
      obtain ⟨observedList', hcancel, hiff⟩ :=
        observeCancel_changes hlive own.lastMid (sessionIsEqual server)
      simp only [hcancel]
      refine ⟨_, _, rfl, rfl, hiff.trans ⟨fun h => ⟨own, hwatcherOf, h⟩, ?_⟩⟩
      rintro ⟨other, hother, h⟩
      obtain rfl := Option.some.inj (hwatcherOf.symm.trans hother)
      exact h

theorem observeHandleRequest_refuses {message : ObserveMessage}
    (hregisters : ¬ Registers uri message) (hcount : message.count ≠ 1) :
    observeHandleRequest sessionIsEqual now alloc uri server message observedList =
      .ok (observedList, { code := .badRequest400, observe := none }) := by
  unfold observeHandleRequest
  by_cases hzero : message.count = 0
  · rw [if_pos hzero]
    split
    · rfl
    · rename_i hchecked
      split
      · rfl
      · rename_i htoken
        refine absurd ⟨hzero, fun hresource => ?_, htoken⟩ hregisters
        simpa [hresource] using hchecked
  · rw [if_neg hzero, if_neg hcount]


theorem observe_leaves_iff (hlive : ObservedLive observedList)
    (sessionIsEqual : UInt16 → UInt16 → Bool) (now : Int) (message : ObserveMessage) :
    ErrorLeavesNothing alloc uri server (.observe sessionIsEqual now message) observedList ↔
      ¬ FailsTooLate alloc uri server (.observe sessionIsEqual now message) observedList := by
  obtain ⟨observedList', reply, hresult, htrace⟩ : ∃ observedList' reply,
      observeHandleRequest sessionIsEqual now alloc uri server message observedList =
        .ok (observedList', reply) ∧
      ((reply.code.isError = true ∧ observedList' ≠ observedList) ↔
        Registers uri message ∧ EntryLeftFreed alloc uri observedList) := by
    by_cases hregisters : Registers uri message
    · obtain ⟨observedList', reply, hresult, hcase⟩ :=
        observeHandleRequest_registers hlive hregisters
      refine ⟨observedList', reply, hresult, ?_⟩
      rw [and_iff_right hregisters]
      generalize reply.code = code at hcase
      cases hcase with
      | registered havailable hchanged =>
        exact iff_of_false (fun h => nomatch h.1) fun hleft => hleft.unavailable havailable
      | freed hleft hchanged => exact iff_of_true ⟨rfl, hchanged⟩ hleft
      | refused hunavailable hleft => exact iff_of_false (fun h => h.2 rfl) hleft
    · have hnever : ¬ (Registers uri message ∧ EntryLeftFreed alloc uri observedList) :=
        fun h => hregisters h.1
      by_cases hcount : message.count = 1
      · obtain ⟨observedList', reply, hresult, hcode, -⟩ :=
          observeHandleRequest_cancels hlive hcount
        refine ⟨observedList', reply, hresult, iff_of_false ?_ hnever⟩
        rw [hcode]
        exact fun h => nomatch h.1
      · exact ⟨observedList, _, observeHandleRequest_refuses hregisters hcount,
          iff_of_false (fun h => h.2 rfl) hnever⟩
  rw [errorLeavesNothing_iff hlive (by rw [invokeObserve, hresult]; rfl), htrace]
  rfl

/-- What becomes of the answer of `observe_handleRequest` when the value is to be serialized. -/
theorem observeHandleRequest_serialized (hlive : ObservedLive observedList)
    (sessionIsEqual : UInt16 → UInt16 → Bool) (now : Int) (message : ObserveMessage)
    (failed : Prop) [Decidable failed] :
    ∃ observedList' code,
      ((observeHandleRequest sessionIsEqual now alloc uri server message observedList).map
        fun (observedList, reply) =>
          if reply.code = .content205 ∧ failed then
            (observedList, CoapCode.internalServerError500)
          else (observedList, reply.code)) = .ok (observedList', code) ∧
      ((code.isError = true ∧ observedList' ≠ observedList) ↔
        Registers uri message ∧ EntryLeftFreed alloc uri observedList ∨
          failed ∧ (Registers uri message ∧ WatcherAvailable alloc uri server observedList ∨
            message.count = 1 ∧ CancelsWatcher sessionIsEqual uri server observedList)) := by
  by_cases hregisters : Registers uri message
  · have hcount : message.count ≠ 1 := by
      rw [hregisters.1]
      decide
    simp only [and_iff_right hregisters, hcount, false_and, or_false]
    obtain ⟨observedList', reply, hresult, hcase⟩ := observeHandleRequest_registers hlive hregisters
    rw [hresult, Except.map]
    generalize reply.code = code at hcase
    cases hcase with
    | registered havailable hchanged =>
      have hleft : ¬ EntryLeftFreed alloc uri observedList := fun h =>
        h.unavailable havailable
      by_cases hfailed : failed
      · refine ⟨observedList', .internalServerError500, by simp [hfailed], ?_⟩
        exact iff_of_true ⟨rfl, hchanged⟩ (.inr ⟨hfailed, havailable⟩)
      · refine ⟨observedList', .content205, by simp [hfailed], ?_⟩
        exact iff_of_false (fun h => nomatch h.1) (not_or_intro hleft fun h => hfailed h.1)
    | freed hleft hchanged =>
      refine ⟨observedList', .internalServerError500, by simp, ?_⟩
      exact iff_of_true ⟨rfl, hchanged⟩ (.inl hleft)
    | refused hunavailable hleft =>
      refine ⟨observedList, .internalServerError500, by simp, ?_⟩
      exact iff_of_false (fun h => h.2 rfl) (not_or_intro hleft fun h => hunavailable h.2)
  · simp only [hregisters, false_and, false_or]
    by_cases hcount : message.count = 1
    · rw [and_iff_right hcount]
      obtain ⟨observedList', reply, hresult, hcode, hchanged⟩ :=
        observeHandleRequest_cancels hlive hcount
      rw [hresult, Except.map, hcode, ← hchanged]
      by_cases hfailed : failed
      · refine ⟨observedList', .internalServerError500, by simp [hfailed], ?_⟩
        exact (and_iff_right rfl).trans (and_iff_right hfailed).symm
      · refine ⟨observedList', .content205, by simp [hfailed], ?_⟩
        exact iff_of_false (fun h => nomatch h.1) fun h => hfailed h.1
    · rw [observeHandleRequest_refuses hregisters hcount]
      refine ⟨observedList, .badRequest400, by simp [Except.map], ?_⟩
      exact iff_of_false (fun h => h.2 rfl) fun h => hcount h.2.1

theorem get_leaves_iff (hlive : ObservedLive observedList) (env : DmObserveEnv)
    (sessionIsEqual : UInt16 → UInt16 → Bool) (now : Int) (status : ServerStatus)
    (message : ObserveMessage) :
    ErrorLeavesNothing alloc uri server (.get env sessionIsEqual now status message)
        observedList ↔
      ¬ FailsTooLate alloc uri server (.get env sessionIsEqual now status message)
        observedList := by
  obtain ⟨observedList', code, hresult, htrace⟩ : ∃ observedList' code,
      invokeObserve alloc uri server (.get env sessionIsEqual now status message) observedList =
        .ok (observedList', code) ∧
      ((code.isError = true ∧ observedList' ≠ observedList) ↔
        FailsTooLate alloc uri server (.get env sessionIsEqual now status message)
          observedList) := by
    unfold invokeObserve dmHandleObserve FailsTooLate
    dsimp only
    by_cases hsecurity : uri.objectId = lwm2mSecurityObjectId
    · rw [if_pos hsecurity]
      exact ⟨_, _, rfl, iff_of_false (fun h => h.2 rfl) fun h => h.1 hsecurity⟩
    rw [if_neg hsecurity, and_iff_right hsecurity]
    cases hstatus : status.isRegistered with
    | false => exact ⟨_, _, rfl, iff_of_false (fun h => h.2 rfl) fun h => nomatch h.1⟩
    | true =>
      rw [if_neg (by decide), and_iff_right rfl]
      by_cases hread : (env.readData uri).1 = .content205
      · rw [if_neg (not_not_intro hread), and_iff_right hread]
        by_cases hformat : (env.responseFormat (env.readData uri).2).1 = .content205
        · rw [if_neg (not_not_intro hformat), and_iff_right hformat]
          exact observeHandleRequest_serialized hlive sessionIsEqual now
            { message with
              contentType := (env.responseFormat (env.readData uri).2).2
              data := (env.readData uri).2.headD lwm2mDataNew } _
        · rw [if_pos hformat]
          exact ⟨_, _, rfl, iff_of_false (fun h => h.2 rfl) fun h => hformat h.1⟩
      · rw [if_pos hread]
        exact ⟨_, _, rfl, iff_of_false (fun h => h.2 rfl) fun h => hread h.1⟩
  rw [errorLeavesNothing_iff hlive hresult, htrace]

/-- An error leaves no trace exactly if it does not come too late. -/
theorem invokeObserve_leavesNothing_iff (hlive : ObservedLive observedList)
    (request : ObserveInvocation) :
    ErrorLeavesNothing alloc uri server request observedList ↔
      ¬ FailsTooLate alloc uri server request observedList := by
  cases request with
  | setParameters tooClose readable attr => exact setParameters_leaves_iff hlive _ _ _
  | observe sessionIsEqual now message => exact observe_leaves_iff hlive _ _ _
  | get env sessionIsEqual now status message => exact get_leaves_iff hlive _ _ _ _ _

/-- An entry for `/3/0/9` with one watcher, without attributes. -/
def watchedBattery : List Observed :=
  [{ uri := deviceBattery, watcherList := [newWatcher 1], freed := false }]

/-- A registration for `/3/0/9` with the token 1. -/
def batteryMessage : ObserveMessage where
  count := 0
  token := [1]
  responseMid := 10
  contentType := 0
  data := lwm2mDataNew

/-- Thresholds that clash leave a watcher as it is that was there before. -/
theorem watchedBattery_unchanged :
    ErrorLeavesNothing plentyOfMemory deviceBattery 1
      (.setParameters (fun _ _ _ => true) .content205
        { toSet := attrFlagNumeric, toClear := 0, minPeriod := 0, maxPeriod := 0,
          greaterThan := 0, lessThan := 0, step := 0 }) watchedBattery := by
  apply (invokeObserve_leavesNothing_iff ⟨by decide, by decide⟩ _).2
  rintro ⟨-, -, hleft | ⟨hadded, -⟩⟩
  · exact absurd hleft.2.2 (by decide)
  · exact absurd hadded.1 (by decide)

/-- Without memory for the watcher the new entry is freed, but it stays in the list. -/
theorem batteryEntry_leftFreed :
    ObservedLive [] ∧
      ¬ ErrorLeavesNothing { observed := true, watcher := false, parameters := true } deviceBattery
        1 (.observe (· == ·) 0 batteryMessage) [] := by
  refine ⟨⟨nofun, nofun⟩, fun hleaves => ?_⟩
  obtain ⟨hsame, -⟩ := hleaves [{ uri := deviceBattery, watcherList := [], freed := true }]
    .internalServerError500 rfl rfl
  nomatch hsame

end Wakaama
