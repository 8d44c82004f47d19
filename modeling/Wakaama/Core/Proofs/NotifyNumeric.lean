import Mathlib.Algebra.Order.Group.Abs
import Wakaama.Core.Proofs.NotifyChanges

/-!
# The numeric conditions of a watcher

`lt`, `gt` and `st` are compared with a value after its conversion to a double, the difference
for `st` is taken in 64 bits, and a minimum period that is over replaces the outcome. Where none of
this makes a difference, the notifications of an integer resource follow the conditions on the
numbers.
-/

namespace Wakaama

variable {ops : DoubleOps} {env : ObserveEnv} {currentTime : Int} {uri : Lwm2mUri}

/-! ## Numbers -/

/-- The number in the union, as its type has it. -/
def numberIn (type : DataType) (bits : UInt64) : Int :=
  if type = .integer then bits.toInt64.toInt else bits.toNat

/-- The union of an integer or an unsigned integer. -/
def integralBits : Lwm2mData → Option UInt64
  | .node .integer _ (.asInteger value) => some value.toUInt64
  | .node .unsignedInteger _ (.asUnsigned value) => some value
  | _ => none

/-- The number of a resource, as a step reads it. -/
def readBits (env : ObserveEnv) (uri : Lwm2mUri) : Option UInt64 :=
  (env.readData uri).bind fun data => integralBits (observedValue uri (data.headD lwm2mDataNew))

/-- The threshold lies between the two values. -/
def CrossesThreshold (threshold : ℚ) (value last : Int) : Prop :=
  (value : ℚ) < threshold ∧ threshold < (last : ℚ) ∨
    threshold < (value : ℚ) ∧ (last : ℚ) < threshold

/-- The conditions on the numbers themselves. -/
def NumericCondition (parameters : Lwm2mAttributes) (value last : Int) : Prop :=
  parameters.isSet attrFlagLessThan = true ∧
      CrossesThreshold (doubleValue parameters.lessThan) value last ∨
    parameters.isSet attrFlagGreaterThan = true ∧
        CrossesThreshold (doubleValue parameters.greaterThan) value last ∨
      parameters.isSet attrFlagStep = true ∧
        doubleValue parameters.step ≤ ((|value - last| : Int) : ℚ)

/-- The attributes that are set are numbers. -/
structure ThresholdsAreNumbers (parameters : Lwm2mAttributes) : Prop where
  lessThan : parameters.isSet attrFlagLessThan = true → isNan parameters.lessThan = false
  greaterThan : parameters.isSet attrFlagGreaterThan = true → isNan parameters.greaterThan = false
  step : parameters.isSet attrFlagStep = true → isNan parameters.step = false

/-- No number that is compared is rounded to the attribute that it is compared with. -/
structure ComparedExactly (parameters : Lwm2mAttributes) (value last : Int) : Prop where
  lessThan : parameters.isSet attrFlagLessThan = true →
    ¬ RoundsTo value parameters.lessThan ∧ ¬ RoundsTo last parameters.lessThan
  greaterThan : parameters.isSet attrFlagGreaterThan = true →
    ¬ RoundsTo value parameters.greaterThan ∧ ¬ RoundsTo last parameters.greaterThan
  step : parameters.isSet attrFlagStep = true → ¬ RoundsTo |value - last| parameters.step

/-- The difference that the check on `st` compares. -/
def stepDifference (type : DataType) (value last : UInt64) : Int :=
  if type = .integer then
    let diff := value.toInt64 - last.toInt64
    if diff < 0 then (0 - diff).toInt else diff.toInt
  else if last ≤ value then (value - last).toNat
  else (last - value).toNat

theorem numberIn_bounds (type : DataType) (bits : UInt64) : (numberIn type bits).natAbs ≤ 2 ^ 64 := by
  unfold numberIn
  split
  · have hlow := Int64.le_toInt bits.toInt64
    have hhigh := Int64.toInt_lt bits.toInt64
    omega
  · have := bits.toNat_lt
    omega

variable {type : DataType} {bits : UInt64} {data : Lwm2mData} {parameters : Lwm2mAttributes}
  {watcher : Watcher} {timeoutP : Int} {nextMID : UInt16} {observed : Observed}
  {place : WatcherPlace}

theorem stepDifference_exact {value last : UInt64}
    (h : type = .integer → |numberIn type value - numberIn type last| < 2 ^ 63) :
    stepDifference type value last = |numberIn type value - numberIn type last| := by
  unfold stepDifference numberIn at *
  split
  · rename_i hinteger
    simp only [if_pos hinteger] at *
    have hbound := abs_lt.1 (h hinteger)
    generalize value.toInt64 = value at *
    generalize last.toInt64 = last at *
    have hdiff : (value - last).toInt = value.toInt - last.toInt := by
      rw [Int64.toInt_sub]
      apply Int.bmod_eq_of_le <;> omega
    have hsign : value - last < 0 ↔ value.toInt - last.toInt < 0 := by
      rw [Int64.lt_iff_toInt_lt, hdiff]
      rfl
    split
    · rename_i hneg
      rw [hsign] at hneg
      rw [Int64.toInt_sub, hdiff, abs_of_neg hneg]
      have hzero : (0 : Int64).toInt = 0 := rfl
      rw [hzero, Int.zero_sub]
      apply Int.bmod_eq_of_le <;> omega
    · rename_i hpos
      rw [hsign] at hpos
      rw [hdiff, abs_of_nonneg (not_lt.1 hpos)]
  · split
    · rename_i hle
      rw [UInt64.toNat_sub_of_le _ _ hle, abs_of_nonneg]
      · have := UInt64.le_iff_toNat_le.1 hle
        omega
      · have := UInt64.le_iff_toNat_le.1 hle
        omega
    · rename_i hgt
      have hle : value ≤ last := by
        rw [UInt64.le_iff_toNat_le] at *
        omega
      have := UInt64.le_iff_toNat_le.1 hle
      rw [UInt64.toNat_sub_of_le _ _ hle, abs_of_nonpos]
      · omega
      · omega

/-- From the least to the greatest integer the subtraction comes to a step of 1. -/
example : stepDifference .integer 0x7fffffffffffffff 0x8000000000000000 = 1 := by decide

/-! ## The checks -/

theorem integralBits_cases (h : integralBits data = some bits) :
    (∃ id value, data = .node .integer id (.asInteger value) ∧ bits = value.toUInt64) ∨
      ∃ id, data = .node .unsignedInteger id (.asUnsigned bits) := by
  unfold integralBits at h
  split at h
  · rename_i id value
    exact .inl ⟨id, value, rfl, (Option.some.inj h).symm⟩
  · rename_i id value
    obtain rfl := Option.some.inj h
    exact .inr ⟨id, rfl⟩
  · nomatch h

theorem crosses_iff {threshold : UInt64} {value last : Int} (hvalue : value.natAbs ≤ 2 ^ 64)
    (hlast : last.natAbs ≤ 2 ^ 64) (hnan : isNan threshold = false) :
    crosses cDoubles threshold (doubleOfInt value) (doubleOfInt last) = true ↔
      CrossesThreshold (doubleValue threshold) value last ∧ ¬ RoundsTo value threshold ∧
        ¬ RoundsTo last threshold := by
  unfold crosses CrossesThreshold
  simp only [cDoubles, Bool.or_eq_true, Bool.and_eq_true, doubleLess_ofInt hvalue hnan,
    doubleLess_ofInt hlast hnan, doubleLess_double_ofInt hvalue hnan,
    doubleLess_double_ofInt hlast hnan]
  tauto

theorem thresholdCrossed_iff {threshold : UInt64} (last : UInt64)
    (hbits : integralBits data = some bits) (hnan : isNan threshold = false) :
    thresholdCrossed cDoubles threshold data last = true ↔
      CrossesThreshold (doubleValue threshold) (numberIn data.type bits)
          (numberIn data.type last) ∧
        ¬ RoundsTo (numberIn data.type bits) threshold ∧
          ¬ RoundsTo (numberIn data.type last) threshold := by
  rw [← crosses_iff (numberIn_bounds _ _) (numberIn_bounds _ _) hnan]
  rcases integralBits_cases hbits with ⟨id, value, rfl, rfl⟩ | ⟨id, rfl⟩
  · rfl
  · rfl

theorem stepReached_iff {step : UInt64} (last : UInt64) (hbits : integralBits data = some bits)
    (hnan : isNan step = false) :
    stepReached cDoubles step data last = true ↔
      doubleValue step ≤ ((stepDifference data.type bits last : Int) : ℚ) ∨
        RoundsTo (stepDifference data.type bits last) step := by
  have hbound : (stepDifference data.type bits last).natAbs ≤ 2 ^ 64 := by
    unfold stepDifference
    split
    · dsimp only
      generalize bits.toInt64 - last.toInt64 = diff
      split
      · have hlow := Int64.le_toInt (0 - diff)
        have hhigh := Int64.toInt_lt (0 - diff)
        omega
      · have hlow := Int64.le_toInt diff
        have hhigh := Int64.toInt_lt diff
        omega
    · split
      · have := (bits - last).toNat_lt
        omega
      · have := (last - bits).toNat_lt
        omega
  rw [← doubleLessEq_ofInt hbound hnan]
  rcases integralBits_cases hbits with ⟨id, value, rfl, rfl⟩ | ⟨id, rfl⟩
  · change (decide (value - last.toInt64 < 0) && doubleLessEq step
          (doubleOfInt (0 - (value - last.toInt64)).toInt) ||
        decide (0 ≤ value - last.toInt64) && doubleLessEq step
          (doubleOfInt (value - last.toInt64).toInt)) = true ↔
      doubleLessEq step (doubleOfInt (if value - last.toInt64 < 0 then
        (0 - (value - last.toInt64)).toInt else (value - last.toInt64).toInt)) = true
    generalize value - last.toInt64 = diff
    have hzero : (0 ≤ diff) ↔ ¬ diff < 0 := by
      rw [Int64.le_iff_toInt_le, Int64.lt_iff_toInt_lt]
      omega
    by_cases hneg : diff < 0
    · simp [hneg, hzero]
    · simp [hneg, hzero]
  · unfold stepReached stepDifference
    change doubleLessEq step (doubleOfInt
        (if last ≤ bits then bits - last else last - bits).toNat) = true ↔
      doubleLessEq step (doubleOfInt (if last ≤ bits then ((bits - last).toNat : Int)
        else (last - bits).toNat)) = true
    split <;> rfl

theorem numericNotifies_iff {last : UInt64} (hset : parameters.isSet attrFlagNumeric = true)
    (hnumbers : ThresholdsAreNumbers parameters) (hbits : integralBits data = some bits)
    (hexact : ComparedExactly parameters (numberIn data.type bits) (numberIn data.type last))
    (hdiff : parameters.isSet attrFlagStep = true → stepDifference data.type bits last = |numberIn data.type bits - numberIn data.type last|) :
    numericNotifies cDoubles (some data) parameters last = true ↔
      NumericCondition parameters (numberIn data.type bits) (numberIn data.type last) := by
  unfold numericNotifies NumericCondition
  rw [hset, Bool.true_and, Option.any_some]
  simp only [Bool.or_eq_true, Bool.and_eq_true, or_assoc]
  apply or_congr
  · apply and_congr_right
    intro hlt
    rw [thresholdCrossed_iff last hbits (hnumbers.lessThan hlt)]
    exact and_iff_left (hexact.lessThan hlt)
  apply or_congr
  · apply and_congr_right
    intro hgt
    rw [thresholdCrossed_iff last hbits (hnumbers.greaterThan hgt)]
    exact and_iff_left (hexact.greaterThan hgt)
  · apply and_congr_right
    intro hst
    rw [stepReached_iff last hbits (hnumbers.step hst), hdiff hst]
    exact or_iff_left (hexact.step hst)

/-! ## A step on a resource -/

/-- What a step does to the watcher of a resource that is read as `data`. -/
structure ReadEffect (ops : DoubleOps) (currentTime : Int) (uri : Lwm2mUri)
    (data : List Lwm2mData) (stepped : SteppedWatcher) : Prop where
  kept : stepped.notification = none → stepped.after = stepped.before
  sent : stepped.notification.isSome = true →
    notifyDecision ops currentTime (valueOf uri (some data)) stepped.before = true ∧
      stepped.after.lastTime = currentTime ∧ stepped.after.update = false ∧
      stepped.after.lastValue =
        storedValue uri (data.headD lwm2mDataNew) stepped.before.lastValue
  active : stepped.after.active = stepped.before.active
  parameters : stepped.after.parameters = stepped.before.parameters

theorem stepWatcher_lastValue {data : List Lwm2mData} {state state' : NotifyState}
    {stepped : SteppedWatcher}
    (h : stepWatcher ops env currentTime uri (some data) watcher state = some (stepped, state')) :
    stepped.notification.isSome = true → stepped.after.lastValue =
      storedValue uri (data.headD lwm2mDataNew) stepped.before.lastValue := by
  simp only [stepWatcher] at h
  split at h
  · obtain ⟨message, -, heq⟩ := Option.map_eq_some_iff.mp h
    cases heq
    exact fun _ => rfl
  · cases h
    exact fun hsent => absurd hsent Bool.false_ne_true

theorem stepWatchers_lastValue {data : List Lwm2mData} {watchers : List Watcher} :
    ∀ {state : NotifyState},
      ∀ stepped ∈ (stepWatchers ops env currentTime uri (some data) watchers state).1,
        stepped.notification.isSome = true → stepped.after.lastValue =
          storedValue uri (data.headD lwm2mDataNew) stepped.before.lastValue := by
  induction watchers with
  | nil => exact fun _ hmem => nomatch hmem
  | cons watcher next ih =>
    intro state stepped hmem
    unfold stepWatchers at hmem
    split at hmem
    · split at hmem
      · obtain ⟨skipped, -, rfl⟩ := List.mem_map.mp hmem
        exact fun hsent => nomatch hsent
      · rename_i hstep
        rcases List.mem_cons.mp hmem with rfl | hmem
        · exact stepWatcher_lastValue hstep
        · exact ih stepped hmem
    · rcases List.mem_cons.mp hmem with rfl | hmem
      · exact fun hsent => nomatch hsent
      · exact ih stepped hmem

theorem stepEntries_entry :
    ∀ {observedList : List Observed} {nextMID : UInt16} {timeoutP : Int}
      {out : List SteppedEntry × UInt16 × Int},
      stepEntries ops env currentTime observedList nextMID timeoutP = .ok out →
      ∀ entry ∈ out.1, ∃ nextMID timeoutP,
        entry.watchers = (stepEntry ops env currentTime entry.before nextMID timeoutP).1 := by
  intro observedList
  induction observedList with
  | nil =>
    intro nextMID timeoutP out h entry hmem
    cases h
    nomatch hmem
  | cons observed next ih =>
    intro nextMID timeoutP out h entry hmem
    simp only [stepEntries] at h
    split at h
    · cases h
    · obtain ⟨rest, hrest, rfl⟩ := exceptMap_inv h
      rcases List.mem_cons.mp hmem with rfl | hmem
      · exact ⟨nextMID, timeoutP, rfl⟩
      · exact ih hrest entry hmem

theorem stepEntry_read {data : List Lwm2mData} (hresource : observed.uri.isSetResource = true)
    (hread : env.readData observed.uri = some data) :
    ∀ stepped ∈ (stepEntry ops env currentTime observed nextMID timeoutP).1,
      ReadEffect ops currentTime observed.uri data stepped ∧
        (EntrySucceeds env observed → stepped.before.active = true →
          stepped.notification.isSome =
            notifyDecision ops currentTime (valueOf observed.uri (some data)) stepped.before) := by
  intro stepped hmem
  unfold stepEntry at hmem
  rw [if_pos hresource, hread] at hmem
  have heffect := stepWatchers_effect _ _ _ _ stepped hmem
  refine ⟨⟨heffect.kept, fun hsent => ?_, heffect.active, heffect.parameters⟩, ?_⟩
  · obtain ⟨-, hdecided, htime, hclear⟩ := heffect.sent hsent
    exact ⟨hdecided, htime, hclear, stepWatchers_lastValue stepped hmem hsent⟩
  · intro hsucceeds hactive
    unfold EntrySucceeds at hsucceeds
    rw [if_pos hresource, hread] at hsucceeds
    obtain ⟨other, hother, hserializes⟩ := hsucceeds
    obtain rfl := Option.some.inj hother
    exact stepWatchers_decided hserializes stepped hmem hactive

theorem stepEntry_unread (hresource : observed.uri.isSetResource = true)
    (hread : env.readData observed.uri = none) :
    ∀ stepped ∈ (stepEntry ops env currentTime observed nextMID timeoutP).1,
      stepped.notification = none ∧ stepped.after = stepped.before := by
  intro stepped hmem
  unfold stepEntry at hmem
  rw [if_pos hresource, hread] at hmem
  obtain ⟨watcher, -, rfl⟩ := List.mem_map.mp hmem
  exact ⟨rfl, rfl⟩

structure SteppedAt (ops : DoubleOps) (env : ObserveEnv) (currentTime : Int) (uri : Lwm2mUri)
    (observed : Observed) (stepped : SteppedWatcher) : Prop where
  unread : env.readData uri = none →
    stepped.notification = none ∧ stepped.after = stepped.before
  read : ∀ data, env.readData uri = some data → ReadEffect ops currentTime uri data stepped ∧
    (EntrySucceeds env observed → stepped.before.active = true →
      stepped.notification.isSome =
        notifyDecision ops currentTime (valueOf uri (some data)) stepped.before)

theorem stepEntries_at {observedList : List Observed} {out : List SteppedEntry × UInt16 × Int}
    (h : stepEntries ops env currentTime observedList nextMID timeoutP = .ok out)
    (hplace : place.get observedList = some (uri, watcher)) (hresource : uri.isSetResource = true) :
    ∃ observed stepped, observedList[place.entry]? = some observed ∧ stepped.before = watcher ∧
      SteppedAt ops env currentTime uri observed stepped ∧
      place.get (out.1.map SteppedEntry.after) = some (uri, stepped.after) ∧
      place.notified (out.1.map fun entry =>
        entry.watchers.map fun stepped => stepped.notification.isSome) =
          stepped.notification.isSome := by
  obtain ⟨hbefore, heffect⟩ := stepEntries_effect h
  obtain ⟨observed, hobserved, rfl, hwatcher⟩ := WatcherPlace.get_eq_some.mp hplace
  have hfound := hobserved
  rw [← hbefore, List.getElem?_map, Option.map_eq_some_iff] at hfound
  obtain ⟨entry, hentry, rfl⟩ := hfound
  have hmem := List.mem_of_getElem? hentry
  rw [← (heffect entry hmem).before, List.getElem?_map, Option.map_eq_some_iff] at hwatcher
  obtain ⟨stepped, hstepped, rfl⟩ := hwatcher
  obtain ⟨nextMID', timeoutP', hwatchers⟩ := stepEntries_entry h entry hmem
  have hmem' : stepped ∈ (stepEntry ops env currentTime entry.before nextMID' timeoutP').1 :=
    hwatchers ▸ List.mem_of_getElem? hstepped
  refine ⟨entry.before, stepped, hobserved, rfl, ⟨fun hread => ?_, fun data hread => ?_⟩, ?_, ?_⟩
  · exact stepEntry_unread hresource hread stepped hmem'
  · exact stepEntry_read hresource hread stepped hmem'
  · apply WatcherPlace.get_eq_some.mpr
    refine ⟨entry.after, ?_, rfl, ?_⟩
    · rw [List.getElem?_map, hentry, Option.map_some]
    · simp only [SteppedEntry.after, List.getElem?_map, hstepped, Option.map_some]
  · simp only [WatcherPlace.notified, List.getElem?_map, hentry, hstepped, Option.map_some,
      Option.bind_some, Option.getD_some]

/-! ## Runs -/

/-- What a watcher has been told: whether a change is still to be reported, and when it was
notified last and of which value. -/
structure NotifiedHistory where
  pending : Bool
  time : Int
  last : UInt64

/-- What an event makes of that. -/
def NotifiedHistory.after (place : WatcherPlace) (uri : Lwm2mUri) (history : NotifiedHistory)
    (event : ChangeCall × List (List Bool)) : NotifiedHistory :=
  match event.1 with
  | .valueChanged changed => { history with pending := history.pending || concerns changed uri }
  | .step currentTime _ env =>
    if place.notified event.2 then
      { pending := false, time := currentTime, last := (readBits env uri).getD history.last }
    else history

/-- The history of a watcher that was found at the place at first. -/
def notifiedHistory (place : WatcherPlace) (uri : Lwm2mUri) (watcher : Watcher)
    (past : List (ChangeCall × List (List Bool))) : NotifiedHistory :=
  past.foldl (NotifiedHistory.after place uri)
    { pending := watcher.update, time := watcher.lastTime, last := valueBits watcher.lastValue }

/-- A step notifies as the numbers say: before the maximum period is over only where a condition
holds, and of a reported change whenever one holds and the minimum period is over. The difference
it compares with `st` is that of the numbers. -/
structure NumericFilter (parameters : Lwm2mAttributes) (type : DataType)
    (history : NotifiedHistory) (currentTime : Int) (bits : UInt64) (notified : Bool) : Prop where
  only : notified = true →
    (parameters.isSet attrFlagMaxPeriod = true →
      currentTime < history.time + parameters.maxPeriod.toNat) →
    NumericCondition parameters (numberIn type bits) (numberIn type history.last)
  whenever : history.pending = true →
    NumericCondition parameters (numberIn type bits) (numberIn type history.last) →
    (parameters.isSet attrFlagMinPeriod = true →
      history.time + parameters.minPeriod.toNat ≤ currentTime) → notified = true
  difference : history.pending = true → parameters.isSet attrFlagStep = true →
    stepDifference type bits history.last = |numberIn type bits - numberIn type history.last|

/-- The steps that read a number notify as the numbers say. -/
def FiltersByNumbers (place : WatcherPlace) (uri : Lwm2mUri) (type : DataType)
    (parameters : Lwm2mAttributes) (watcher : Watcher)
    (past : List (ChangeCall × List (List Bool))) (event : ChangeCall × List (List Bool)) : Prop :=
  ∀ currentTime timeoutP env bits, event.1 = .step currentTime timeoutP env →
    readBits env uri = some bits →
    NumericFilter parameters type (notifiedHistory place uri watcher past) currentTime bits
      (place.notified event.2)

/-- The resource has one of the two integer types wherever it is read. -/
def ReadsType (uri : Lwm2mUri) (type : DataType) : ChangeCall → Prop
  | .valueChanged _ => True
  | .step _ _ env => ∀ data, env.readData uri = some data →
    (observedValue uri (data.headD lwm2mDataNew)).type = type ∧
      (integralBits (observedValue uri (data.headD lwm2mDataNew))).isSome = true

/-- Nothing but the numbers decides on a flagged watcher: a minimum period that is over finds a
condition that holds, without one no number is rounded to a threshold, the difference of two
integers fits, and what is to be sent can be sent. -/
structure NumbersDecide (env : ObserveEnv) (currentTime : Int) (observed : Observed)
    (watcher : Watcher) (parameters : Lwm2mAttributes) (type : DataType) (value last : Int) :
    Prop where
  minPeriod : ∀ minEnd ∈ minPeriodEnd watcher, minEnd ≤ currentTime →
    (∀ maxEnd ∈ maxPeriodEnd watcher, currentTime < maxEnd) →
    NumericCondition parameters value last
  exact : minPeriodEnd watcher = none → (∀ maxEnd ∈ maxPeriodEnd watcher, currentTime < maxEnd) →
    ComparedExactly parameters value last
  difference : parameters.isSet attrFlagStep = true → type = .integer → |value - last| < 2 ^ 63
  sendable : NumericCondition parameters value last →
    (∀ minEnd ∈ minPeriodEnd watcher, minEnd ≤ currentTime) → EntrySucceeds env observed

/-- Every step that finds the watcher flagged and reads a number decides by the numbers. -/
def NumbersCount (place : WatcherPlace) (parameters : Lwm2mAttributes) (type : DataType)
    (context : ObserveContext) : ChangeCall → Prop
  | .valueChanged _ => True
  | .step currentTime _ env => ∀ uri observed watcher bits,
    place.get context.observedList = some (uri, watcher) →
    context.observedList[place.entry]? = some observed → watcher.update = true →
    readBits env uri = some bits →
    NumbersDecide env currentTime observed watcher parameters type (numberIn type bits)
      (numberIn type (valueBits watcher.lastValue))

/-- What the run keeps: the watcher is at its place with its attributes, and its flag, its time
and its value are those of its history. -/
structure FollowsNumbers (place : WatcherPlace) (uri : Lwm2mUri) (watcher : Watcher)
    (history : NotifiedHistory) (context : ObserveContext) (current : Watcher) : Prop where
  at_place : place.get context.observedList = some (uri, current)
  active : current.active = true
  parameters : current.parameters = watcher.parameters
  update : current.update = history.pending
  time : current.lastTime = history.time
  last : valueBits current.lastValue = history.last

theorem storedValue_resource (last : DataValue Empty) (hresource : uri.isSetResource = true) :
    storedValue uri data last =
      match (observedValue uri data).type, (observedValue uri data).value with
      | .integer, .asInteger value => .asInteger value
      | .unsignedInteger, .asUnsigned value => .asUnsigned value
      | .float, .asFloat bits => .asFloat bits
      | _, _ => last :=
  if_pos hresource

theorem storedValue_bits (last : DataValue Empty) (hresource : uri.isSetResource = true)
    (h : integralBits (observedValue uri data) = some bits) :
    valueBits (storedValue uri data last) = bits := by
  rw [storedValue_resource last hresource]
  rcases integralBits_cases h with ⟨id, value, hvalue, rfl⟩ | ⟨id, hvalue⟩
  · rw [hvalue]
    rfl
  · rw [hvalue]
    rfl

theorem toSet_ne_zero {flag : UInt8} (h : parameters.isSet flag = true) :
    (parameters.toSet == 0) = false := by
  rw [beq_eq_false_iff_ne]
  intro hzero
  unfold Lwm2mAttributes.isSet at h
  rw [hzero, UInt8.zero_and] at h
  nomatch h

theorem minPeriodEnd_forall {P : Int → Prop} (hparameters : watcher.parameters = some parameters) :
    (∀ minEnd ∈ minPeriodEnd watcher, P minEnd) ↔
      (parameters.isSet attrFlagMinPeriod = true →
        P (watcher.lastTime + parameters.minPeriod.toNat)) := by
  unfold minPeriodEnd
  rw [hparameters]
  cases hset : parameters.isSet attrFlagMinPeriod with
  | false => simp [Option.filter, hset]
  | true => simp [Option.filter, hset]

theorem maxPeriodEnd_forall {P : Int → Prop} (hparameters : watcher.parameters = some parameters) :
    (∀ maxEnd ∈ maxPeriodEnd watcher, P maxEnd) ↔
      (parameters.isSet attrFlagMaxPeriod = true →
        P (watcher.lastTime + parameters.maxPeriod.toNat)) := by
  unfold maxPeriodEnd
  rw [hparameters]
  cases hset : parameters.isSet attrFlagMaxPeriod with
  | false => simp [Option.filter, hset]
  | true => simp [Option.filter, hset]

theorem notifyDecision_beforeMax {value : Option Lwm2mData}
    (hmax : ∀ maxEnd ∈ maxPeriodEnd watcher, currentTime < maxEnd) :
    notifyDecision ops currentTime value watcher = true ↔
      watcher.update = true ∧ changeDecision ops currentTime value watcher = true := by
  have hnone : ((maxPeriodEnd watcher).any fun periodEnd => periodEnd ≤ currentTime) = false := by
    cases hend : maxPeriodEnd watcher with
    | none => rfl
    | some periodEnd => exact decide_eq_false (not_le.2 (hmax periodEnd hend))
  unfold notifyDecision
  rw [hnone, Bool.or_false, Bool.and_eq_true]

theorem changeDecision_iff (hparameters : watcher.parameters = some parameters)
    (hnumeric : parameters.isSet attrFlagNumeric = true)
    (hnumbers : ThresholdsAreNumbers parameters) (hbits : integralBits data = some bits)
    (hmax : ∀ maxEnd ∈ maxPeriodEnd watcher, currentTime < maxEnd)
    (hdecide : NumbersDecide env currentTime observed watcher parameters data.type (numberIn data.type bits) (numberIn data.type (valueBits watcher.lastValue))) :
    changeDecision cDoubles currentTime (some data) watcher = true ↔
      NumericCondition parameters (numberIn data.type bits)
          (numberIn data.type (valueBits watcher.lastValue)) ∧
        ∀ minEnd ∈ minPeriodEnd watcher, minEnd ≤ currentTime := by
  unfold changeDecision
  cases hmin : minPeriodEnd watcher with
  | none =>
    unfold changeNotifies
    rw [hparameters]
    dsimp only
    rw [toSet_ne_zero hnumeric, Bool.false_or, numericNotifies_iff hnumeric hnumbers hbits
      (hdecide.exact hmin hmax) fun hstep => stepDifference_exact (hdecide.difference hstep)]
    exact (and_iff_left nofun).symm
  | some minEnd =>
    simp only [decide_eq_true_eq, Option.mem_def, Option.some.injEq, forall_eq']
    exact ⟨fun hover => ⟨hdecide.minPeriod minEnd hmin hover hmax, hover⟩, fun h => h.2⟩

theorem NumbersDecide.filter {current : Watcher} {history : NotifiedHistory}
    {context : ObserveContext} {stepped : SteppedWatcher} {data : List Lwm2mData}
    (hfollows : FollowsNumbers place uri watcher history context current)
    (hparameters : watcher.parameters = some parameters)
    (hnumeric : parameters.isSet attrFlagNumeric = true)
    (hnumbers : ThresholdsAreNumbers parameters) (hread : env.readData uri = some data)
    (htype : (observedValue uri (data.headD lwm2mDataNew)).type = type)
    (hbits : integralBits (observedValue uri (data.headD lwm2mDataNew)) = some bits)
    (hbefore : stepped.before = current)
    (hat : SteppedAt cDoubles env currentTime uri observed stepped)
    (hdecide : current.update = true → NumbersDecide env currentTime observed current parameters type (numberIn type bits) (numberIn type (valueBits current.lastValue))) :
    NumericFilter parameters type history currentTime bits stepped.notification.isSome := by
  subst htype
  obtain ⟨hplace, hactive, hkept, hupdate, htime, hlast⟩ := hfollows
  have hcurrent : current.parameters = some parameters := hkept.trans hparameters
  obtain ⟨heffect, hsends⟩ := hat.read data hread
  rw [hlast] at hdecide
  constructor
  · intro hsent hmax
    have hbeforeMax : ∀ maxEnd ∈ maxPeriodEnd current, currentTime < maxEnd := by
      rw [maxPeriodEnd_forall hcurrent, htime]
      exact hmax
    obtain ⟨hdecided, -⟩ := heffect.sent hsent
    rw [hbefore, notifyDecision_beforeMax hbeforeMax] at hdecided
    obtain ⟨hflag, hchange⟩ := hdecided
    have hdecide := hdecide hflag
    rw [← hlast] at hdecide ⊢
    exact ((changeDecision_iff hcurrent hnumeric hnumbers hbits hbeforeMax hdecide).1 hchange).1
  · intro hpending hcondition hmin
    have hflag : current.update = true := hupdate.trans hpending
    have hover : ∀ minEnd ∈ minPeriodEnd current, minEnd ≤ currentTime := by
      rw [minPeriodEnd_forall hcurrent, htime]
      exact hmin
    have hdecide := hdecide hflag
    rw [hsends (hdecide.sendable hcondition hover) (hbefore ▸ hactive), hbefore]
    by_cases hmax : ∀ maxEnd ∈ maxPeriodEnd current, currentTime < maxEnd
    · rw [notifyDecision_beforeMax hmax]
      rw [← hlast] at hdecide hcondition
      exact ⟨hflag, (changeDecision_iff hcurrent hnumeric hnumbers hbits hmax hdecide).2
        ⟨hcondition, hover⟩⟩
    · push Not at hmax
      obtain ⟨maxEnd, hend, hdone⟩ := hmax
      unfold notifyDecision
      rw [hend, Bool.or_eq_true]
      exact .inr (decide_eq_true hdone)
  · intro hpending hstep
    exact stepDifference_exact ((hdecide (hupdate.trans hpending)).difference hstep)

theorem notifiedHistory_append (place : WatcherPlace) (uri : Lwm2mUri) (watcher : Watcher)
    (past : List (ChangeCall × List (List Bool))) (event : ChangeCall × List (List Bool)) :
    notifiedHistory place uri watcher (past ++ [event]) =
      (notifiedHistory place uri watcher past).after place uri event := by
  simp [notifiedHistory]

theorem changeStep_followsNumbers (hresource : uri.isSetResource = true)
    (hparameters : watcher.parameters = some parameters)
    (hnumeric : parameters.isSet attrFlagNumeric = true)
    (hnumbers : ThresholdsAreNumbers parameters) (past : List (ChangeCall × List (List Bool)))
    (context : ObserveContext) (call : ChangeCall) (context' : ObserveContext)
    (reply : List (List Bool))
    (h : ∃ current, FollowsNumbers place uri watcher (notifiedHistory place uri watcher past) context current)
    (hcond : NumbersCount place parameters type context call ∧ ReadsType uri type call)
    (hstep : changeStep cDoubles context call = .ok (context', reply)) :
    FiltersByNumbers place uri type parameters watcher past (call, reply) ∧
      ∃ current, FollowsNumbers place uri watcher
        (notifiedHistory place uri watcher (past ++ [(call, reply)])) context' current := by
  obtain ⟨current, hfollows⟩ := h
  rw [notifiedHistory_append]
  generalize hhistory : notifiedHistory place uri watcher past = history at *
  obtain ⟨hplace, hactive, hkept, hupdate, htime, hlast⟩ := hfollows
  cases call with
  | valueChanged changed =>
    obtain ⟨observedList, hchanged, heq⟩ := exceptMap_inv hstep
    obtain ⟨rfl, rfl⟩ := Prod.mk.inj heq
    refine ⟨fun _ _ _ _ hcall => (nomatch hcall),
      { current with update := current.update || concerns changed uri }, ?_⟩
    refine ⟨lwm2mResourceValueChanged_place hchanged hplace hactive, hactive, hkept, ?_, htime,
      hlast⟩
    simp only [NotifiedHistory.after, hupdate]
  | step currentTime timeoutP env =>
    obtain ⟨out, hout, heq⟩ := exceptMap_inv hstep
    obtain ⟨rfl, rfl⟩ := Prod.mk.inj heq
    obtain ⟨entries, hentries, rfl⟩ := exceptMap_inv hout
    obtain ⟨observed, stepped, hobserved, rfl, hat, hplace', hnotified⟩ :=
      stepEntries_at hentries hplace hresource
    constructor
    · rintro time timeout env' bits hcall hbits
      cases hcall
      rw [hhistory, hnotified]
      obtain ⟨data, hread, hbits'⟩ := Option.bind_eq_some_iff.1 hbits
      apply NumbersDecide.filter ⟨hplace, hactive, hkept, hupdate, htime, hlast⟩ hparameters
        hnumeric hnumbers hread (hcond.2 data hread).1 hbits' rfl hat
      intro hflag
      exact hcond.1 uri observed stepped.before bits hplace hobserved hflag hbits
    · refine ⟨stepped.after, ?_⟩
      unfold NotifiedHistory.after
      simp only [hnotified]
      cases hread : env.readData uri with
      | none =>
        obtain ⟨hquiet, hsame⟩ := hat.unread hread
        rw [hquiet]
        rw [hsame] at hplace' ⊢
        exact ⟨hplace', hactive, hkept, hupdate, htime, hlast⟩
      | some data =>
        obtain ⟨heffect, -⟩ := hat.read data hread
        cases hnotification : stepped.notification with
        | none =>
          rw [heffect.kept hnotification] at hplace' ⊢
          exact ⟨hplace', hactive, hkept, hupdate, htime, hlast⟩
        | some notification =>
          obtain ⟨-, hnow, hclear, hstored⟩ := heffect.sent (by rw [hnotification]; rfl)
          refine ⟨hplace', heffect.active.trans hactive, heffect.parameters.trans hkept, hclear,
            hnow, ?_⟩
          obtain ⟨-, hintegral⟩ := hcond.2 data hread
          obtain ⟨bits, hbits⟩ := Option.isSome_iff_exists.1 hintegral
          have hbits' : readBits env uri = some bits := by
            rw [readBits, hread]
            exact hbits
          rw [hstored, storedValue_bits _ hresource hbits, hbits']
          rfl

/-- Over any run of changes and steps in which, for a watcher with numeric attributes on an integer
resource, nothing but the numbers decides: every step notifies as the numbers say. -/
theorem changeRun_numeric {context : ObserveContext} {place : WatcherPlace} {type : DataType}
    {watcher : Watcher} {parameters : Lwm2mAttributes} {calls : List ChangeCall}
    (hplace : place.get context.observedList = some (uri, watcher))
    (hactive : watcher.active = true) (hresource : uri.isSetResource = true)
    (hparameters : watcher.parameters = some parameters)
    (hnumeric : parameters.isSet attrFlagNumeric = true)
    (hnumbers : ThresholdsAreNumbers parameters)
    (hreads : ∀ call ∈ calls, ReadsType uri type call)
    (hmeet : StepsMeet (changeStep cDoubles) (NumbersCount place parameters type) context calls)
    {final : ObserveContext} {replies : List (List (List Bool))}
    (hrun : run (changeStep cDoubles) context calls = .ok (final, replies)) :
    EachEvent (FiltersByNumbers place uri type parameters watcher) [] (calls.zip replies) := by
  apply run_eachEvent (changeStep_followsNumbers hresource hparameters hnumeric hnumbers) calls []
    context final replies _ (hmeet.and_forall calls context hreads) hrun
  exact ⟨watcher, hplace, hactive, rfl, rfl, rfl, rfl⟩

/-! ## One watcher -/

/-- The double 100. -/
def hundred : UInt64 := 0x4059000000000000

/-- `gt` is 100 and `pmin` 10. -/
def over100 : Lwm2mAttributes where
  toSet := attrFlagGreaterThan ||| attrFlagMinPeriod
  toClear := 0
  minPeriod := 10
  maxPeriod := 0
  greaterThan := hundred
  lessThan := 0
  step := 0

/-- A watcher that was notified of 20 at the time 0. -/
def watcherAt20 : Watcher :=
  { newWatcher 1 with
    active := true, parameters := some over100, token := [1], lastValue := .asInteger 20 }

/-- It is the only one. -/
def contextAt20 : ObserveContext where
  observedList := [⟨currentTimeUri, [watcherAt20], false⟩]
  nextMID := 0

/-- The resource has this value and can be serialized. -/
def numberEnv (value : Int64) : ObserveEnv where
  readData _ := some [.node .integer 13 (.asInteger value)]
  serialize _ _ format := some (format, some [49])
  read _ format := some (format, some [])

/-- The value changes, and the client steps. -/
def changeTo (value : Int64) (currentTime : Int) : List ChangeCall :=
  [.valueChanged currentTimeUri, .step currentTime 60 (numberEnv value)]

theorem over100_numbers : ThresholdsAreNumbers over100 where
  lessThan := by decide
  greaterThan := by decide
  step := by decide

theorem over100_condition {value last : Int} :
    NumericCondition over100 value last ↔
      CrossesThreshold (doubleValue hundred) value last := by
  have hlt : over100.isSet attrFlagLessThan = false := by decide
  have hgt : over100.isSet attrFlagGreaterThan = true := by decide
  have hst : over100.isSet attrFlagStep = false := by decide
  rw [NumericCondition, hlt, hgt, hst]
  simp only [Bool.false_eq_true, false_and, false_or, or_false, true_and]
  rfl

theorem numberEnv_succeeds (value : Int64) (observed : Observed) :
    EntrySucceeds (numberEnv value) observed := by
  unfold EntrySucceeds
  split
  · exact ⟨_, rfl, fun _ _ _ => rfl⟩
  · exact fun _ _ _ => rfl

theorem changeTo_readsType (value : Int64) (currentTime : Int) :
    ∀ call ∈ changeTo value currentTime, ReadsType currentTimeUri .integer call := by
  intro call hmem
  unfold changeTo at hmem
  rcases List.mem_cons.1 hmem with rfl | hmem
  · trivial
  · obtain rfl := List.mem_singleton.1 hmem
    rintro data hdata
    obtain rfl := Option.some.inj hdata
    exact ⟨rfl, rfl⟩

/-- From 20 to 150 is reported when the minimum period is over, what follows has to wait. -/
theorem overThreshold_filtered :
    ∃ final replies, run (changeStep cDoubles) contextAt20 (changeTo 150 10 ++ changeTo 160 12) =
        .ok (final, replies) ∧
      replies = [[], [[true]], [], [[false]]] ∧
      EachEvent (FiltersByNumbers ⟨0, 0⟩ currentTimeUri .integer over100 watcherAt20) []
        ((changeTo 150 10 ++ changeTo 160 12).zip replies) := by
  have hrun : run (changeStep cDoubles) contextAt20 (changeTo 150 10 ++ changeTo 160 12) =
      .ok (_, _) := rfl
  have hcross : CrossesThreshold (doubleValue hundred) 150 20 := by
    right
    rw [doubleValue_lt_intCast, intCast_lt_doubleValue]
    decide +kernel
  have hfirst : NumbersCount ⟨0, 0⟩ over100 .integer { contextAt20 with
      observedList := [⟨currentTimeUri, [{ watcherAt20 with update := true }], false⟩] }
      (.step 10 60 (numberEnv 150)) := by
    rintro uri observed watcher bits hget hobserved - hbits
    cases hget
    cases hobserved
    cases hbits
    refine ⟨fun _ _ _ _ => over100_condition.2 hcross, nofun, nofun, fun _ _ => ?_⟩
    exact numberEnv_succeeds _ _
  refine ⟨_, _, hrun, rfl, changeRun_numeric rfl rfl rfl rfl rfl over100_numbers ?_ ?_ hrun⟩
  · intro call hmem
    rcases List.mem_append.1 hmem with hmem | hmem
    · exact changeTo_readsType 150 10 call hmem
    · exact changeTo_readsType 160 12 call hmem
  · refine .cons trivial rfl (.cons hfirst rfl (.cons trivial rfl (.cons ?_ rfl trivial)))
    rintro uri observed watcher bits hget hobserved - hbits
    cases hget
    cases hobserved
    cases hbits
    refine ⟨?_, nofun, nofun, fun _ _ => numberEnv_succeeds _ _⟩
    rintro minEnd hmin hover -
    cases hmin
    exact absurd hover (by decide)

/-- A minimum period that is over reports a change from 20 to 21, far from the threshold. -/
theorem minPeriodOver_unfiltered :
    ∃ final replies, run (changeStep cDoubles) contextAt20 (changeTo 21 10) =
        .ok (final, replies) ∧
      ¬ EachEvent (FiltersByNumbers ⟨0, 0⟩ currentTimeUri .integer over100 watcherAt20) []
        ((changeTo 21 10).zip replies) := by
  refine ⟨_, _, rfl, ?_⟩
  rintro ⟨-, hfilters, -⟩
  have hcondition := (hfilters 10 60 (numberEnv 21) _ rfl rfl).only rfl (by decide)
  rw [over100_condition] at hcondition
  rcases hcondition with ⟨-, hlast⟩ | ⟨hvalue, -⟩
  · rw [doubleValue_lt_intCast] at hlast
    exact absurd hlast (by decide +kernel)
  · rw [doubleValue_lt_intCast] at hvalue
    exact absurd hvalue (by decide +kernel)

end Wakaama
