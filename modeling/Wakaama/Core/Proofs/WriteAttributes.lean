import Wakaama.Core.Proofs.ObservedKeys
import Wakaama.Misc.Edit

/-!
# Write-Attributes on one URI

`observe_setParameters` driven by one server on one URI. The parameters of the watcher are a
partial map from attributes to values, and a request is an edit of it. The first request that
sets something is copied; the later ones are merged into it, which writes the values they set
but never their flags.
-/

namespace Wakaama

/-- The attributes of a Write-Attributes request. -/
inductive Attribute where
  | minPeriod
  | maxPeriod
  | greaterThan
  | lessThan
  | step
  deriving DecidableEq, Repr

namespace Attribute

/-- The flag of an attribute in `toSet` and `toClear`. -/
def flag : Attribute → UInt8
  | minPeriod => attrFlagMinPeriod
  | maxPeriod => attrFlagMaxPeriod
  | greaterThan => attrFlagGreaterThan
  | lessThan => attrFlagLessThan
  | step => attrFlagStep

/-- The value of an attribute in a request or in stored parameters. -/
def value (attr : Lwm2mAttributes) : Attribute → UInt64
  | minPeriod => attr.minPeriod.toUInt64
  | maxPeriod => attr.maxPeriod.toUInt64
  | greaterThan => attr.greaterThan
  | lessThan => attr.lessThan
  | step => attr.step

end Attribute

/-- The attribute is flagged. -/
def hasFlag (flags : UInt8) (key : Attribute) : Bool := flags &&& key.flag != 0

/-- The attributes flagged in `toSet`, with their values. -/
def Lwm2mAttributes.given (attr : Lwm2mAttributes) (key : Attribute) : Option UInt64 :=
  if hasFlag attr.toSet key then some (key.value attr) else none

/-- A request as an edit: what is in `toClear` goes, what is in `toSet` gets its value. -/
def Lwm2mAttributes.edit (attr : Lwm2mAttributes) : Edit Attribute UInt64 where
  set := attr.given
  clear := hasFlag attr.toClear

/-- One call, with what `object_checkReadable` returns and what the allocator does. -/
structure SetParametersCall where
  readable : CoapCode
  alloc : ObserveAlloc
  attr : Lwm2mAttributes

/-- A call of the server on the URI as a step of the observed list. -/
def setParametersStep (tooClose : UInt64 → UInt64 → UInt64 → Bool) (uri : Lwm2mUri)
    (server : UInt16) (observedList : List Observed) (call : SetParametersCall) :
    Except Fault (List Observed × ObserveReply) :=
  observeSetParameters tooClose call.readable call.alloc uri server call.attr observedList

/-- The parameters of the watcher that the look-ups find for the server and the URI. -/
def storedParameters (uri : Lwm2mUri) (server : UInt16) (observedList : List Observed) :
    Option Lwm2mAttributes :=
  match prvFindObserved uri observedList with
  | .error _ | .ok none => none
  | .ok (some (_, observed, _)) =>
    (prvFindWatcher server observed.watcherList).bind fun (_, watcher, _) => watcher.parameters

/-- The attributes in force there. -/
def storedAttributes (uri : Lwm2mUri) (server : UInt16) (observedList : List Observed)
    (key : Attribute) : Option UInt64 :=
  (storedParameters uri server observedList).bind fun parameters => parameters.given key

/-- The request is answered 2.04, by `observe_setParameters` itself: a result of the read
callback other than 2.05 is only passed on. -/
def SetParametersCall.accepted (call : SetParametersCall) (reply : ObserveReply) : Bool :=
  call.readable == .content205 && reply.code == .changed204

/-- The accepted requests in order. -/
def acceptedEdits (events : List (SetParametersCall × ObserveReply)) :
    List (Edit Attribute UInt64) :=
  (events.filter fun event => event.1.accepted event.2).map fun event => event.1.attr.edit

/-- The call gets past the checks and finds parameters to merge into. -/
def Merges (tooClose : UInt64 → UInt64 → UInt64 → Bool) (uri : Lwm2mUri)
    (call : SetParametersCall) (parameters : Lwm2mAttributes) : Prop :=
  (uri.isSetInstance || !uri.isSetResource) = true ∧ call.readable = .content205 ∧
    thresholdsClash tooClose call.attr (some parameters) = .ok false

/-- Where the request is merged into stored parameters, it sets attributes only that are
flagged there already and that it does not clear itself. -/
def SetsOnlyFlagged (tooClose : UInt64 → UInt64 → UInt64 → Bool) (uri : Lwm2mUri)
    (server : UInt16) (observedList : List Observed) (call : SetParametersCall) : Prop :=
  ∀ parameters ∈ storedParameters uri server observedList,
    Merges tooClose uri call parameters →
      ∀ key, hasFlag call.attr.toSet key = true →
        hasFlag parameters.toSet key = true ∧ hasFlag call.attr.toClear key = false

theorem and_flag (flags : UInt8) (key : Attribute) :
    flags &&& key.flag = 0 ∨ flags &&& key.flag = key.flag := by
  have hbits : ∀ bits : BitVec 8, UInt8.ofBitVec bits &&& key.flag = 0 ∨
      UInt8.ofBitVec bits &&& key.flag = key.flag := by
    cases key <;> decide
  exact hbits flags.toBitVec

theorem hasFlag_andNot (flags cleared : UInt8) (key : Attribute) :
    hasFlag (flags &&& ~~~cleared) key =
      (hasFlag flags key && !hasFlag cleared key) := by
  have hand : (flags &&& ~~~cleared) &&& key.flag =
      (flags &&& key.flag) &&& ~~~(cleared &&& key.flag) := by
    apply UInt8.toBitVec_inj.mp
    ext i
    simp
    grind
  unfold hasFlag
  rw [hand]
  rcases and_flag flags key with hf | hf <;>
    rcases and_flag cleared key with hc | hc <;>
    rw [hf, hc] <;> cases key <;> decide

theorem hasFlag_zero (key : Attribute) : hasFlag 0 key = false := by
  cases key <;> decide

theorem mergeParameters_given (attr parameters : Lwm2mAttributes) (key : Attribute) :
    (mergeParameters attr parameters).given key =
      if hasFlag parameters.toSet key && !hasFlag attr.toClear key then
        some (if hasFlag attr.toSet key then key.value attr
          else key.value parameters)
      else none := by
  unfold Lwm2mAttributes.given
  rw [show (mergeParameters attr parameters).toSet = parameters.toSet &&& ~~~attr.toClear from rfl,
    hasFlag_andNot]
  have hvalue : key.value (mergeParameters attr parameters) =
      if hasFlag attr.toSet key then key.value attr
      else key.value parameters := by
    cases key <;> simp only [Attribute.value, mergeParameters, hasFlag, Attribute.flag] <;>
      split <;> rename_i hset <;> simp [hset]
  rw [hvalue]

theorem mergeParameters_edit_iff (attr parameters : Lwm2mAttributes) :
    (mergeParameters attr parameters).given = attr.edit.apply parameters.given ↔
      ∀ key, hasFlag attr.toSet key = true →
        hasFlag parameters.toSet key = true ∧ hasFlag attr.toClear key = false := by
  constructor
  · intro h key hset
    have hat := congrFun h key
    rw [mergeParameters_given] at hat
    simp only [Edit.apply, Lwm2mAttributes.edit, Lwm2mAttributes.given, hset, if_true] at hat
    split at hat
    · rename_i hkept
      simpa using hkept
    · contradiction
  · intro h
    funext key
    rw [mergeParameters_given]
    simp only [Edit.apply, Lwm2mAttributes.edit, Lwm2mAttributes.given]
    cases hset : hasFlag attr.toSet key with
    | true =>
      obtain ⟨hflag, hclear⟩ := h key hset
      simp [hflag, hclear]
    | false =>
      cases hasFlag parameters.toSet key
      · simp
      · by_cases hclear : hasFlag attr.toClear key = true <;> simp [hclear]

variable {uri : Lwm2mUri} {observedList observedList' : List Observed} {server : UInt16}
  {tooClose : UInt64 → UInt64 → UInt64 → Bool} {call : SetParametersCall}

theorem prvFindObserved_some {before after : List Observed} {observed : Observed}
    (h : prvFindObserved uri observedList = .ok (some (before, observed, after))) :
    observedList = before ++ observed :: after ∧ observed.freed = false ∧
      matchesUri uri observed.uri = true ∧
      ∀ other ∈ before, other.freed = false ∧ matchesUri uri other.uri = false := by
  induction observedList generalizing before with
  | nil => simp [prvFindObserved] at h
  | cons target next ih =>
    unfold prvFindObserved at h
    split at h
    · cases h
    rename_i hlive
    split at h
    · rename_i hmatch
      simp only [Except.ok.injEq, Option.some.injEq, Prod.mk.injEq] at h
      obtain ⟨rfl, rfl, rfl⟩ := h
      exact ⟨rfl, by simpa using hlive, hmatch, by simp⟩
    · rename_i hmatch
      split at h
      · cases h
      · cases h
      · rename_i before' found after' hnext
        simp only [Except.ok.injEq, Option.some.injEq, Prod.mk.injEq] at h
        obtain ⟨rfl, rfl, rfl⟩ := h
        obtain ⟨hlist, hfreed, huri, hbefore⟩ := ih hnext
        refine ⟨by rw [hlist]; rfl, hfreed, huri, fun other hother => ?_⟩
        rcases List.mem_cons.mp hother with heq | hrest
        · rw [heq]
          exact ⟨by simpa using hlive, by simpa using hmatch⟩
        · exact hbefore other hrest

theorem prvFindObserved_append {before : List Observed} (observed : Observed)
    (hfreed : observed.freed = false) (huri : matchesUri uri observed.uri = true)
    (hbefore : ∀ other ∈ before, other.freed = false ∧ matchesUri uri other.uri = false)
    (after : List Observed) :
    prvFindObserved uri (before ++ observed :: after) = .ok (some (before, observed, after)) := by
  induction before with
  | nil => simp [prvFindObserved, hfreed, huri]
  | cons other before ih =>
    obtain ⟨hlive, hother⟩ := hbefore other (by simp)
    have hrest := ih fun o ho => hbefore o (List.mem_cons_of_mem _ ho)
    rw [List.cons_append]
    unfold prvFindObserved
    rw [hlive, hother, hrest]
    rfl

/-- A watcher that was looked up: the parameters stored are its own, and so are those stored
once it is written back. -/
structure OwnPlace (uri : Lwm2mUri) (server : UInt16) (observedList : List Observed)
    (place : WatcherAt) : Prop where
  owner : place.watcher.server = server
  parameters : storedParameters uri server observedList = place.watcher.parameters
  put : ∀ watcher : Watcher, watcher.server = server →
    storedParameters uri server (place.put watcher) = watcher.parameters

theorem storedParameters_put {place : WatcherAt} {watcher : Watcher}
    (huri : matchesUri uri place.uri = true)
    (hbefore : ∀ other ∈ place.before, other.freed = false ∧ matchesUri uri other.uri = false)
    (hothers : ∀ other ∈ place.watchersBefore, other.server ≠ watcher.server) :
    storedParameters uri watcher.server (place.put watcher) = watcher.parameters := by
  unfold storedParameters WatcherAt.put
  have hobserved := prvFindObserved_append
    { uri := place.uri
      watcherList := place.watchersBefore ++ watcher :: place.watchersAfter
      freed := false } rfl huri hbefore place.after
  rw [hobserved]
  show (prvFindWatcher watcher.server
    (place.watchersBefore ++ watcher :: place.watchersAfter)).bind _ = _
  have hwatcher : prvFindWatcher watcher.server
      (place.watchersBefore ++ watcher :: place.watchersAfter) =
        some (place.watchersBefore, watcher, place.watchersAfter) := by
    apply splitFirst_append
    · simp
    · intro other hother
      simpa using hothers other hother
  rw [hwatcher]
  rfl

theorem prvGetWatcher_own {alloc : ObserveAlloc} {place : WatcherAt}
    (h : prvGetWatcher alloc uri server observedList = .ok (.found place)) :
    OwnPlace uri server observedList place := by
  unfold prvGetWatcher at h
  cases hfind : prvFindObserved uri observedList with
  | error fault => simp [hfind] at h
  | ok found =>
    rw [hfind] at h
    rcases found with _ | ⟨before, observed, after⟩
    · dsimp only at h
      split at h
      · cases h
      split at h
      · cases h
        refine ⟨rfl, by simp [storedParameters, hfind, newWatcher], fun watcher howner => ?_⟩
        subst howner
        apply storedParameters_put
        · exact matchesUri_self uri
        · simp
        · simp
      · cases h
    · obtain ⟨-, hfreed, huri, hbefore⟩ := prvFindObserved_some hfind
      dsimp only at h
      cases hwatcher : prvFindWatcher server observed.watcherList with
      | some split =>
        obtain ⟨watchersBefore, watcher, watchersAfter⟩ := split
        rw [hwatcher] at h
        cases h
        obtain ⟨-, howner, hothers⟩ := splitFirst_some hwatcher
        refine ⟨by simpa using howner, by simp [storedParameters, hfind, hwatcher],
          fun watcher' howner' => ?_⟩
        subst howner'
        apply storedParameters_put
        · exact huri
        · exact hbefore
        · intro other hother
          simpa using hothers other hother
      | none =>
        rw [hwatcher] at h
        dsimp only at h
        split at h
        · cases h
          refine ⟨rfl, by simp [storedParameters, hfind, hwatcher, newWatcher],
            fun watcher howner => ?_⟩
          subst howner
          apply storedParameters_put
          · exact huri
          · exact hbefore
          · simp
        · cases h

theorem prvGetWatcher_null {alloc : ObserveAlloc}
    (h : prvGetWatcher alloc uri server observedList = .ok (.null observedList')) :
    storedParameters uri server observedList = none ∧
      storedParameters uri server observedList' = none := by
  unfold prvGetWatcher at h
  cases hfind : prvFindObserved uri observedList with
  | error fault => simp [hfind] at h
  | ok found =>
    rw [hfind] at h
    rcases found with _ | ⟨before, observed, after⟩
    · have hbefore : storedParameters uri server observedList = none := by
        simp [storedParameters, hfind]
      dsimp only at h
      split at h
      · cases h
        exact ⟨hbefore, hbefore⟩
      split at h
      · cases h
      · cases h
        exact ⟨hbefore, by simp [storedParameters, prvFindObserved]⟩
    · dsimp only at h
      cases hwatcher : prvFindWatcher server observed.watcherList with
      | some split => simp [hwatcher] at h
      | none =>
        have hbefore : storedParameters uri server observedList = none := by
          simp [storedParameters, hfind, hwatcher]
        rw [hwatcher] at h
        dsimp only at h
        split at h
        · cases h
        · cases h
          exact ⟨hbefore, hbefore⟩

theorem acceptedEdits_concat (events : List (SetParametersCall × ObserveReply))
    (call : SetParametersCall) (reply : ObserveReply) :
    acceptedEdits (events ++ [(call, reply)]) =
      if call.accepted reply then acceptedEdits events ++ [call.attr.edit]
      else acceptedEdits events := by
  unfold acceptedEdits
  by_cases haccepted : call.accepted reply = true <;> simp [haccepted]

/-- What a request makes of the parameters, and whether it is accepted. -/
inductive ParametersEffect (tooClose : UInt64 → UInt64 → UInt64 → Bool) (uri : Lwm2mUri)
    (call : SetParametersCall) (stored : Option Lwm2mAttributes) :
    Option Lwm2mAttributes → Bool → Prop where
  | refused (hchecks : ∀ parameters ∈ stored, ¬Merges tooClose uri call parameters) :
      ParametersEffect tooClose uri call stored stored false
  | nothing (hnone : stored = none) (hset : call.attr.toSet = 0) :
      ParametersEffect tooClose uri call stored none true
  | copied (hnone : stored = none) :
      ParametersEffect tooClose uri call stored (some call.attr) true
  | merged {parameters : Lwm2mAttributes} (hsome : stored = some parameters)
      (hmerges : Merges tooClose uri call parameters) :
      ParametersEffect tooClose uri call stored (some (mergeParameters call.attr parameters)) true

theorem setParametersStep_effect {reply : ObserveReply}
    (h : setParametersStep tooClose uri server observedList call = .ok (observedList', reply)) :
    ParametersEffect tooClose uri call (storedParameters uri server observedList)
      (storedParameters uri server observedList') (call.accepted reply) := by
  unfold setParametersStep observeSetParameters at h
  split at h
  · rename_i huri
    cases h
    rw [show call.accepted _ = false by simp [SetParametersCall.accepted]]
    apply ParametersEffect.refused
    intro parameters _ hmerges
    have hdepth := hmerges.1
    simp_all
  rename_i huri
  split at h
  · rename_i hreadable
    cases h
    rw [show call.accepted _ = false by simp [SetParametersCall.accepted, hreadable]]
    apply ParametersEffect.refused
    intro parameters _ hmerges
    exact hreadable hmerges.2.1
  rename_i hreadable
  have hcontent : call.readable = .content205 := by simpa using hreadable
  have hdepth : (uri.isSetInstance || !uri.isSetResource) = true := by
    cases hinstance : uri.isSetInstance <;> simp_all
  cases hgot : prvGetWatcher call.alloc uri server observedList with
  | error fault => simp [hgot] at h
  | ok got =>
    rw [hgot] at h
    cases got with
    | null observedList'' =>
      cases h
      obtain ⟨hbefore, hafter⟩ := prvGetWatcher_null hgot
      rw [hbefore, hafter, show call.accepted _ = false by simp [SetParametersCall.accepted]]
      apply ParametersEffect.refused
      simp
    | found place =>
      have hplace := prvGetWatcher_own hgot
      have hkeep := hplace.put place.watcher hplace.owner
      have hput : ∀ parameters, storedParameters uri server
          (place.put { place.watcher with parameters }) = parameters :=
        fun parameters => hplace.put { place.watcher with parameters } hplace.owner
      rw [hplace.parameters]
      dsimp only at h
      cases hclash : thresholdsClash tooClose call.attr place.watcher.parameters with
      | error fault => simp [hclash] at h
      | ok clash =>
        rw [hclash] at h
        cases clash with
        | true =>
          cases h
          rw [hkeep, show call.accepted _ = false by simp [SetParametersCall.accepted]]
          apply ParametersEffect.refused
          intro parameters hparameters hmerges
          have hsome : place.watcher.parameters = some parameters := hparameters
          rw [hsome, hmerges.2.2] at hclash
          cases hclash
        | false =>
          dsimp only at h
          cases hparameters : place.watcher.parameters with
          | none =>
            rw [hparameters] at h
            dsimp only at h
            split at h
            · split at h
              · cases h
                rw [hput,
                  show call.accepted _ = true by simp [SetParametersCall.accepted, hcontent]]
                exact ParametersEffect.copied rfl
              · cases h
                rw [hkeep, hparameters,
                  show call.accepted _ = false by simp [SetParametersCall.accepted]]
                apply ParametersEffect.refused
                simp
            · rename_i hset
              cases h
              rw [hkeep, hparameters,
                show call.accepted _ = true by simp [SetParametersCall.accepted, hcontent]]
              exact ParametersEffect.nothing rfl (by simpa using hset)
          | some parameters =>
            rw [hparameters] at h hclash
            cases h
            rw [hput,
              show call.accepted _ = true by simp [SetParametersCall.accepted, hcontent]]
            exact ParametersEffect.merged rfl ⟨hdepth, hcontent, hclash⟩

/-- The attributes in force are the accepted requests applied in order to those in force at
the start. -/
def Accumulated (uri : Lwm2mUri) (server : UInt16) (start : List Observed)
    (events : List (SetParametersCall × ObserveReply)) (observedList : List Observed) : Prop :=
  storedAttributes uri server observedList =
    Edit.applyAll (storedAttributes uri server start) (acceptedEdits events)

theorem setParametersStep_accumulated_iff {start : List Observed}
    {past : List (SetParametersCall × ObserveReply)} {reply : ObserveReply}
    (hpast : Accumulated uri server start past observedList)
    (h : setParametersStep tooClose uri server observedList call = .ok (observedList', reply)) :
    Accumulated uri server start (past ++ [(call, reply)]) observedList' ↔
      SetsOnlyFlagged tooClose uri server observedList call := by
  have heffect := setParametersStep_effect h
  unfold Accumulated at hpast ⊢
  rw [acceptedEdits_concat]
  generalize hstored : storedParameters uri server observedList = stored at heffect
  generalize hstored' : storedParameters uri server observedList' = stored' at heffect
  generalize call.accepted reply = accepted at heffect
  have hbefore : storedAttributes uri server observedList = fun key => stored.bind (·.given key) := by
    funext key
    simp [storedAttributes, hstored]
  have hafter : storedAttributes uri server observedList' =
      fun key => stored'.bind (·.given key) := by
    funext key
    simp [storedAttributes, hstored']
  have hmerge : SetsOnlyFlagged tooClose uri server observedList call ↔
      ∀ parameters ∈ stored, Merges tooClose uri call parameters →
        (mergeParameters call.attr parameters).given = call.attr.edit.apply parameters.given := by
    unfold SetsOnlyFlagged
    simp only [hstored, mergeParameters_edit_iff]
  rw [hmerge]
  cases heffect with
  | refused hchecks =>
    rw [if_neg (by simp), ← hpast, hbefore, hafter]
    constructor
    · intro _ parameters hparameters hmerges
      exact absurd hmerges (hchecks parameters hparameters)
    · intro _
      rfl
  | nothing hnone hset =>
    rw [if_pos rfl, Edit.applyAll_concat, ← hpast, hbefore, hafter, hnone]
    have hnothing : call.attr.given = fun _ => none := by
      funext key
      simp [Lwm2mAttributes.given, hset, hasFlag_zero]
    simp [Edit.apply_empty, Lwm2mAttributes.edit, hnothing]
  | copied hnone =>
    rw [if_pos rfl, Edit.applyAll_concat, ← hpast, hbefore, hafter, hnone]
    simp [Edit.apply_empty, Lwm2mAttributes.edit]
  | @merged parameters hsome hmerges =>
    rw [if_pos rfl, Edit.applyAll_concat, ← hpast, hbefore, hafter, hsome]
    simp [hmerges]

theorem setParametersStep_fault {fault : Fault}
    (h : setParametersStep tooClose uri server observedList call = .error fault) :
    SetsOnlyFlagged tooClose uri server observedList call := by
  intro parameters hparameters hmerges
  -- a step that faults has met freed memory in its look-up, which finds no parameters then
  exfalso
  unfold storedParameters at hparameters
  unfold setParametersStep observeSetParameters at h
  cases hfind : prvFindObserved uri observedList with
  | error fault => simp [hfind] at hparameters
  | ok found =>
    have hgot : ∃ got, prvGetWatcher call.alloc uri server observedList = .ok got := by
      unfold prvGetWatcher
      rw [hfind]
      rcases found with _ | ⟨before, observed, after⟩
      · dsimp only
        split
        · exact ⟨_, rfl⟩
        · split <;> exact ⟨_, rfl⟩
      · dsimp only
        split
        · exact ⟨_, rfl⟩
        · split <;> exact ⟨_, rfl⟩
    obtain ⟨got, hgot⟩ := hgot
    rw [hgot] at h
    split at h
    · cases h
    split at h
    · cases h
    cases got with
    | null observedList' => cases h
    | found place =>
      obtain ⟨clash, hclash⟩ := thresholdsClash_ok tooClose call.attr place.watcher.parameters
      dsimp only at h
      rw [hclash] at h
      cases clash with
      | true => cases h
      | false =>
        dsimp only at h
        split at h
        · split at h
          · split at h <;> cases h
          · cases h
        · cases h

/-- Over any calls of one server on one URI, the attributes in force stay those set and not
cleared since by the accepted requests exactly when every request that is merged into stored
parameters sets only attributes which are flagged there already. -/
theorem observeSetParameters_accumulates_iff (tooClose : UInt64 → UInt64 → UInt64 → Bool)
    (uri : Lwm2mUri) (server : UInt16) (start : List Observed) (calls : List SetParametersCall) :
    EachReached (setParametersStep tooClose uri server) (Accumulated uri server start) [] start
        calls ↔
      StepsMeet (setParametersStep tooClose uri server) (SetsOnlyFlagged tooClose uri server)
        start calls := by
  apply eachReached_iff fun _ => True
  · intro _ _ _ _ _ _
    trivial
  · intro past observedList call observedList' reply _ hpast h
    exact setParametersStep_accumulated_iff hpast h
  · intro observedList call fault _ h
    exact setParametersStep_fault h
  · trivial
  · rfl

/-- A Write-Attributes request that sets the periods flagged. -/
def periodsCall (toSet : UInt8) (minPeriod maxPeriod : UInt32) : SetParametersCall where
  readable := .content205
  alloc := plentyOfMemory
  attr :=
    { toSet, toClear := 0, minPeriod, maxPeriod, greaterThan := 0, lessThan := 0, step := 0 }

/-- pmin=10, then pmax=60: both are answered 2.04, but only pmin is in force. -/
theorem minThenMaxPeriod_notAccumulated :
    ¬EachReached (setParametersStep (fun _ _ _ => false) deviceInstance 1)
      (Accumulated deviceInstance 1 []) [] []
      [periodsCall attrFlagMinPeriod 10 0, periodsCall attrFlagMaxPeriod 0 60] := by
  intro h
  obtain ⟨-, hsecond⟩ := h _ _ rfl
  obtain ⟨haccount, -⟩ := hsecond _ _ rfl
  have hmaxPeriod := congrFun haccount Attribute.maxPeriod
  exact absurd hmaxPeriod (by decide)

end Wakaama
