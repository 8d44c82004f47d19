import Wakaama.Core.Registration.Parameters
import Wakaama.Core.Proofs.StringToUri

/-!
# Which queries a registration is accepted with

A segment has at most one key. What the loop has collected behind some segments is a function of
the values behind each key, and so is what it turns down.
-/

namespace Wakaama

/-! ## Keys -/

theorem lwm2mStrncmp_eq (segment key : List UInt8) :
    lwm2mStrncmp segment key =
      if key <+: segment then .ok true
      else if segment <+: key then .error .outOfBounds else .ok false := by
  induction segment generalizing key with
  | nil =>
    cases key with
    | nil => rfl
    | cons expected key => rfl
  | cons byte segment ih =>
    cases key with
    | nil => rfl
    | cons expected key =>
      simp only [lwm2mStrncmp, ih, List.cons_prefix_cons]
      by_cases hbyte : byte = expected
      · simp only [hbyte, ne_eq, not_true_eq_false, if_false, true_and]
      · simp only [hbyte, Ne.symm hbyte, ne_eq, not_false_eq_true, if_true, false_and, if_false]

variable {key : QueryKey} {value : List UInt8}
  {before passed query rest : List (MultiOption × Bool)} {segment : MultiOption × Bool}
  {occurrences : List (List UInt8 × Bool)} {parameters : RegisterParameters}

theorem queryKey_starts {other : QueryKey} (h : key.text <+: other.text) : key = other := by
  rw [← List.isPrefixOf_iff_prefix] at h
  revert h
  cases key <;> cases other <;> decide

theorem queryKey_unique {other : QueryKey} {segment : List UInt8} (h : key.text <+: segment)
    (h' : other.text <+: segment) : key = other := by
  rcases List.prefix_or_prefix_of_prefix h h' with hstart | hstart
  · exact queryKey_starts hstart
  · exact (queryKey_starts hstart).symm

theorem mem_queryKeys (key : QueryKey) : key ∈ queryKeys := by
  cases key <;> decide

theorem valueIn_eq_some {segment : List UInt8} :
    key.valueIn segment = some value ↔ segment = key.text ++ value := by
  unfold QueryKey.valueIn
  constructor
  · intro h
    split at h
    · rename_i hstart
      obtain ⟨rest, rfl⟩ := List.isPrefixOf_iff_prefix.1 hstart
      rw [List.drop_left] at h
      rw [Option.some.inj h]
    · nomatch h
  · rintro rfl
    rw [if_pos (List.isPrefixOf_iff_prefix.2 (List.prefix_append _ _)), List.drop_left]

theorem findKey_some {segment : List UInt8} (h : key.valueIn segment = some value)
    {keys : List QueryKey} (hmem : key ∈ keys) : findKey segment keys = .ok (some key) := by
  obtain rfl := valueIn_eq_some.1 h
  have hstarts : key.text <+: key.text ++ value := List.prefix_append _ _
  induction keys with
  | nil => nomatch hmem
  | cons first keys ih =>
    rw [findKey, lwm2mStrncmp_eq]
    by_cases hfirst : first = key
    · subst hfirst
      rw [if_pos hstarts]
    · have hnot : ¬ first.text <+: key.text ++ value := fun h =>
        hfirst (queryKey_unique h hstarts)
      have hlonger : ¬ key.text ++ value <+: first.text := fun h =>
        hfirst (queryKey_starts (hstarts.trans h)).symm
      rw [if_neg hnot, if_neg hlonger]
      exact ih ((List.mem_cons.1 hmem).resolve_left (Ne.symm hfirst))

theorem findKey_truncated {segment : List UInt8} (hstart : segment <+: key.text)
    (hne : segment ≠ key.text) {keys : List QueryKey} (hmem : key ∈ keys) :
    findKey segment keys = .error .outOfBounds := by
  induction keys with
  | nil => nomatch hmem
  | cons first keys ih =>
    have hnot : ¬ first.text <+: segment := by
      intro h
      obtain rfl := queryKey_starts (h.trans hstart)
      exact hne (hstart.eq_of_length (Nat.le_antisymm hstart.length_le h.length_le))
    rw [findKey, lwm2mStrncmp_eq, if_neg hnot]
    by_cases hfirst : segment <+: first.text
    · rw [if_pos hfirst]
    · rw [if_neg hfirst]
      refine ih ((List.mem_cons.1 hmem).resolve_left fun h => ?_)
      exact hfirst (h ▸ hstart)

theorem findKey_none {segment : List UInt8} (htruncated : ¬ TruncatedKey segment)
    (hnone : ∀ key : QueryKey, key.valueIn segment = none) (keys : List QueryKey) :
    findKey segment keys = .ok none := by
  induction keys with
  | nil => rfl
  | cons first keys ih =>
    have hnot : ¬ first.text <+: segment := by
      rintro ⟨value, rfl⟩
      exact absurd ((hnone first).symm.trans (valueIn_eq_some.2 rfl)) nofun
    have hlonger : ¬ segment <+: first.text := by
      intro h
      exact htruncated ⟨first, h, fun heq => hnot (heq ▸ List.prefix_rfl)⟩
    rw [findKey, lwm2mStrncmp_eq, if_neg hnot, if_neg hlonger]
    exact ih

/-! ## Occurrences -/

theorem occurrences_other (h : key.valueIn segment.1.text = none) :
    key.occurrences (before ++ [segment]) = key.occurrences before := by
  simp only [QueryKey.occurrences, List.filterMap_append, List.filterMap_cons, h, Option.map_none,
    List.filterMap_nil, List.append_nil]

theorem occurrences_own (h : key.valueIn segment.1.text = some value) :
    key.occurrences (before ++ [segment]) = key.occurrences before ++ [(value, segment.2)] := by
  simp only [QueryKey.occurrences, List.filterMap_append, List.filterMap_cons, h, Option.map_some,
    List.filterMap_nil]

theorem valueIn_other {other : QueryKey} {segment : List UInt8}
    (h : key.valueIn segment = some value) (hne : other ≠ key) : other.valueIn segment = none := by
  cases hvalue : other.valueIn segment with
  | none => rfl
  | some value' =>
    have hkey : key.text <+: segment := valueIn_eq_some.1 h ▸ List.prefix_append _ _
    have hother : other.text <+: segment := valueIn_eq_some.1 hvalue ▸ List.prefix_append _ _
    exact absurd (queryKey_unique hother hkey) hne

theorem occurrences_values (key : QueryKey) (query : List (MultiOption × Bool)) :
    (key.occurrences query).map Prod.fst = key.valuesIn (querySegments query) := by
  unfold QueryKey.occurrences QueryKey.valuesIn querySegments
  rw [List.map_filterMap, List.filterMap_map]
  refine List.filterMap_congr fun segment _ => ?_
  rw [Option.map_map]
  exact Option.map_id'

/-! ## Lifetimes and bindings -/

theorem readLifetime_wraps {data : List UInt8}
    (hdigits : ∀ character ∈ data, isDigit character = true) (value : Nat) :
    readLifetime data (UInt32.ofNat value) = some (UInt32.ofNat (decimalFrom value data)) := by
  induction data generalizing value with
  | nil => rfl
  | cons character data ih =>
    have hdigit := hdigits character List.mem_cons_self
    obtain ⟨hlow, hhigh⟩ := isDigit_iff.1 hdigit
    have hrange : ¬ (character < 48 ∨ 57 < character) := by
      rintro (h | h)
      · exact absurd hlow (UInt8.not_le.2 h)
      · exact absurd hhigh (UInt8.not_le.2 h)
    have hvalue : (character - 48).toUInt32 = UInt32.ofNat (character.toNat - 48) := by
      rw [← UInt32.toNat_inj, UInt8.toNat_toUInt32, UInt32.toNat_ofNat',
        show (character - 48).toNat = character.toNat - 48 from isDigit_value hdigit]
      have hbyte := character.toNat_lt
      omega
    have hten : (10 : UInt32) = UInt32.ofNat 10 := rfl
    rw [readLifetime, if_neg hrange, hvalue, hten, ← UInt32.ofNat_mul, ← UInt32.ofNat_add]
    exact ih (fun other hmem => hdigits other (List.mem_cons_of_mem _ hmem)) _

theorem readLifetime_digits {data : List UInt8} {lifetime result : UInt32}
    (h : readLifetime data lifetime = some result) :
    ∀ character ∈ data, isDigit character = true := by
  induction data generalizing lifetime with
  | nil => exact fun _ hmem => nomatch hmem
  | cons character data ih =>
    rw [readLifetime] at h
    split at h
    · nomatch h
    · rename_i hrange
      obtain ⟨hlow, hhigh⟩ := not_or.1 hrange
      have hdigit := isDigit_iff.2 ⟨UInt8.not_lt.1 hlow, UInt8.not_lt.1 hhigh⟩
      intro other hmem
      rcases List.mem_cons.1 hmem with rfl | hmem
      · exact hdigit
      · exact ih h other hmem

theorem readLifetime_zero (hnumeral : IsNumeral value) :
    readLifetime value 0 = some (UInt32.ofNat (numeralValue value)) :=
  readLifetime_wraps hnumeral.digits 0

theorem uint8_or_and (x y z : UInt8) : (x ||| y) &&& z = x &&& z ||| y &&& z := by
  apply UInt8.toBitVec_inj.1
  ext i hi
  simp only [UInt8.toBitVec_and, UInt8.toBitVec_or, BitVec.getElem_and, BitVec.getElem_or,
    Bool.and_or_distrib_right]

theorem uint8_or_absorb (x y : UInt8) : x ||| y &&& x = x := by
  apply UInt8.toBitVec_inj.1
  ext i hi
  simp only [UInt8.toBitVec_and, UInt8.toBitVec_or, BitVec.getElem_and, BitVec.getElem_or]
  cases x.toBitVec[i] <;> simp

theorem stringToBindingLoop_unknown {buffer : List UInt8} {binding : UInt8}
    (h : binding &&& bindingUnknown = bindingUnknown) :
    stringToBindingLoop binding buffer &&& bindingUnknown = bindingUnknown := by
  induction buffer generalizing binding with
  | nil => exact h
  | cons character buffer ih =>
    rw [stringToBindingLoop]
    split
    · apply ih
      rw [uint8_or_and, h, uint8_or_absorb]
    · rfl

theorem utilsStringToBinding_set (buffer : List UInt8) :
    utilsStringToBinding buffer &&& ~~~bindingQ ≠ 0 := by
  intro hzero
  have hunknown : utilsStringToBinding buffer &&& bindingUnknown = bindingUnknown :=
    stringToBindingLoop_unknown rfl
  have hmask : ~~~bindingQ &&& bindingUnknown = bindingUnknown := rfl
  rw [← hmask, ← UInt8.and_assoc, hzero, hmask] at hunknown
  exact absurd hunknown (by decide)

/-! ## What has been collected -/

/-- The bits that the values behind `b=` leave. -/
def bindingBits (occurrences : List (List UInt8 × Bool)) : UInt8 :=
  occurrences.head?.elim 0 fun earlier => utilsStringToBinding earlier.1

/-- The bit that `Q` leaves. -/
def queueBits (occurrences : List (List UInt8 × Bool)) : UInt8 :=
  if occurrences = [] then 0 else bindingQ

def lifetimeBits (occurrences : List (List UInt8 × Bool)) : Nat :=
  (occurrences.find? fun earlier => numeralValue earlier.1 % 2 ^ 32 != 0).elim 0
    fun earlier => numeralValue earlier.1 % 2 ^ 32

def storedValue? (occurrences : List (List UInt8 × Bool)) : Option (List UInt8) :=
  (occurrences.find? Prod.snd).map Prod.fst

/-- The parameters that these values, found behind each key, make. -/
structure CollectedFrom (values : QueryKey → List (List UInt8 × Bool))
    (parameters : RegisterParameters) : Prop where
  name : parameters.name = storedValue? (values .name)
  msisdn : parameters.msisdn = storedValue? (values .sms)
  lifetime : parameters.lifetime.toNat = lifetimeBits (values .lifetime)
  version : parameters.version =
    (values .version).head?.elim .missing fun earlier => utilsStringToVersion earlier.1
  versionSet : ∀ earlier ∈ values .version, earlier.1 ≠ []
  versionOnce : (values .version).length ≤ 1
  binding : parameters.binding = bindingBits (values .binding) ||| queueBits (values .queueMode)
  bindingOnce : (values .binding).length ≤ 1

def Collected (before : List (MultiOption × Bool)) (parameters : RegisterParameters) : Prop :=
  CollectedFrom (fun key => key.occurrences before) parameters

theorem Collected.nil : Collected [] noParameters :=
  ⟨rfl, rfl, rfl, rfl, List.forall_mem_nil _, Nat.zero_le 1, rfl, Nat.zero_le 1⟩

theorem storedValue?_eq_none :
    storedValue? occurrences = none ↔ ¬ ∃ earlier ∈ occurrences, earlier.2 = true := by
  simp [storedValue?]

theorem storedValue?_snoc (value : List UInt8) (allocated : Bool)
    (h : storedValue? occurrences = none) :
    storedValue? (occurrences ++ [(value, allocated)]) =
      if allocated then some value else none := by
  unfold storedValue? at h ⊢
  rw [Option.map_eq_none_iff] at h
  rw [List.find?_append, h]
  cases allocated <;> rfl

theorem lifetimeBits_eq_zero :
    lifetimeBits occurrences = 0 ↔
      ¬ ∃ earlier ∈ occurrences, numeralValue earlier.1 % 2 ^ 32 ≠ 0 := by
  unfold lifetimeBits
  cases hfind : occurrences.find? fun earlier => numeralValue earlier.1 % 2 ^ 32 != 0 with
  | none =>
    rw [List.find?_eq_none] at hfind
    refine iff_of_true rfl ?_
    rintro ⟨earlier, hmem, hne⟩
    exact hfind earlier hmem (by simpa using hne)
  | some earlier =>
    have hne : numeralValue earlier.1 % 2 ^ 32 ≠ 0 := by simpa using List.find?_some hfind
    exact iff_of_false hne fun h => h ⟨earlier, List.mem_of_find?_eq_some hfind, hne⟩

theorem lifetimeBits_snoc (value : List UInt8) (allocated : Bool)
    (h : lifetimeBits occurrences = 0) :
    lifetimeBits (occurrences ++ [(value, allocated)]) = numeralValue value % 2 ^ 32 := by
  rw [lifetimeBits_eq_zero] at h
  have hnone : occurrences.find? (fun earlier => numeralValue earlier.1 % 2 ^ 32 != 0) = none := by
    rw [List.find?_eq_none]
    exact fun earlier hmem hne => h ⟨earlier, hmem, by simpa using hne⟩
  unfold lifetimeBits
  rw [List.find?_append, hnone, Option.none_or, List.find?_singleton]
  split
  · rfl
  · rename_i hzero
    simpa using (Eq.symm (by simpa using hzero))

theorem queueBits_mask (occurrences : List (List UInt8 × Bool)) :
    queueBits occurrences &&& ~~~bindingQ = 0 := by
  unfold queueBits
  split <;> rfl

theorem Collected.bindingSet (h : Collected before parameters) :
    parameters.binding &&& ~~~bindingQ ≠ 0 ↔ QueryKey.binding.occurrences before ≠ [] := by
  rw [h.binding, uint8_or_and, queueBits_mask, UInt8.or_zero]
  cases QueryKey.binding.occurrences before with
  | nil => exact iff_of_false (not_not_intro rfl) (not_not_intro rfl)
  | cons earlier rest => exact iff_of_true (utilsStringToBinding_set _) (List.cons_ne_nil _ _)

theorem Collected.queueSet (h : Collected before parameters) :
    parameters.binding &&& bindingQ ≠ 0 ↔ QueryKey.queueMode.occurrences before ≠ [] ∨
      ∃ earlier ∈ QueryKey.binding.occurrences before,
        utilsStringToBinding earlier.1 &&& bindingQ ≠ 0 := by
  have honce := h.bindingOnce
  rw [h.binding, uint8_or_and, queueBits]
  by_cases hqueue : QueryKey.queueMode.occurrences before = []
  · rw [if_pos hqueue, show (0 : UInt8) &&& bindingQ = 0 from rfl, UInt8.or_zero]
    refine Iff.trans ?_ (or_iff_right (not_not_intro hqueue)).symm
    cases hbinding : QueryKey.binding.occurrences before with
    | nil => exact iff_of_false (not_not_intro rfl) fun ⟨_, hmem, _⟩ => absurd hmem List.not_mem_nil
    | cons earlier rest =>
      rw [hbinding, List.length_cons] at honce
      obtain rfl := List.length_eq_zero_iff.1 (Nat.le_zero.1 (Nat.le_of_succ_le_succ honce))
      simp only [List.mem_singleton, exists_eq_left]
      rfl
  · rw [if_neg hqueue]
    refine iff_of_true (fun hzero => ?_) (.inl hqueue)
    have hor : bindingQ ||| bindingBits (QueryKey.binding.occurrences before) &&& bindingQ =
        bindingQ := uint8_or_absorb _ _
    rw [UInt8.or_comm, show bindingQ &&& bindingQ = bindingQ from rfl, hor] at hzero
    exact absurd hzero (by decide)

/-! ## One segment -/

theorem isNumeral_iff_readLifetime :
    IsNumeral value ↔ ¬ (value = [] ∨ readLifetime value 0 = none) := by
  constructor
  · rintro hnumeral (hnil | hnone)
    · exact hnumeral.nonempty hnil
    · exact absurd ((readLifetime_zero hnumeral).symm.trans hnone) nofun
  · intro h
    obtain ⟨hne, hsome⟩ := not_or.1 h
    obtain ⟨result, hresult⟩ := Option.ne_none_iff_exists'.1 hsome
    exact ⟨hne, readLifetime_digits hresult⟩

theorem Collected.versionMissing (h : Collected before parameters) :
    parameters.version ≠ .missing ↔ QueryKey.version.occurrences before ≠ [] := by
  have hset := h.versionSet
  rw [h.version]
  generalize QueryKey.version.occurrences before = occurrences at hset
  cases occurrences with
  | nil => exact iff_of_false (not_not_intro rfl) (not_not_intro rfl)
  | cons earlier rest =>
    refine iff_of_true (fun hmissing => ?_) (List.cons_ne_nil _ _)
    have hne := hset earlier List.mem_cons_self
    dsimp only [List.head?_cons, Option.elim_some] at hmissing
    unfold utilsStringToVersion at hmissing
    split at hmissing
    · rename_i hnil
      exact hne hnil
    all_goals nomatch hmissing

theorem Collected.lifetimeSet (h : Collected before parameters) :
    parameters.lifetime ≠ 0 ↔
      ∃ earlier ∈ QueryKey.lifetime.occurrences before, numeralValue earlier.1 % 2 ^ 32 ≠ 0 := by
  rw [← not_iff_not, ← lifetimeBits_eq_zero, ← h.lifetime, not_ne_iff, ← UInt32.toNat_inj]
  rfl

theorem setParameter_eq_none (h : Collected before parameters) (key : QueryKey) (value : List UInt8)
    (allocated : Bool) :
    setParameter key value allocated parameters = none ↔ ValueRefused key before value := by
  cases key with
  | name =>
    rw [ValueRefused, ← not_not (a := ∃ earlier ∈ QueryKey.name.occurrences before, _),
      ← storedValue?_eq_none, ← h.name]
    simp only [setParameter, ite_eq_left_iff, reduceCtorEq, imp_false, not_not]
  | sms =>
    rw [ValueRefused, ← not_not (a := ∃ earlier ∈ QueryKey.sms.occurrences before, _),
      ← storedValue?_eq_none, ← h.msisdn]
    simp only [setParameter, ite_eq_left_iff, reduceCtorEq, imp_false, not_not]
  | lifetime =>
    rw [ValueRefused, ← h.lifetimeSet, isNumeral_iff_readLifetime, not_not, setParameter]
    by_cases hset : parameters.lifetime ≠ 0
    · exact iff_of_true (if_pos (.inl hset)) (.inl hset)
    · rw [not_ne_iff.1 hset]
      by_cases hnil : value = []
      · exact iff_of_true (if_pos (.inr hnil)) (.inr (.inl hnil))
      · simp only [ne_eq, not_true_eq_false, hnil, or_self, if_false, Option.map_eq_none_iff,
          false_or]
  | version =>
    rw [ValueRefused, ← h.versionMissing]
    simp only [setParameter, ite_eq_left_iff, reduceCtorEq, imp_false, not_not]
  | binding =>
    rw [ValueRefused, ← h.bindingSet]
    simp only [setParameter, ite_eq_left_iff, reduceCtorEq, imp_false, not_not]
  | queueMode =>
    rw [ValueRefused, ← or_assoc, ← h.queueSet]
    simp only [setParameter, ite_eq_left_iff, reduceCtorEq, imp_false, not_not]

theorem Collected.other {before : List (MultiOption × Bool)} {parameters : RegisterParameters}
    {segment : MultiOption × Bool} (h : Collected before parameters)
    (hnone : ∀ key : QueryKey, key.valueIn segment.1.text = none) :
    Collected (before ++ [segment]) parameters := by
  have hsame : (fun key : QueryKey => key.occurrences (before ++ [segment])) =
      fun key => key.occurrences before := funext fun key => occurrences_other (hnone key)
  rw [Collected, hsame]
  exact h

theorem occurrences_snoc (hvalue : key.valueIn segment.1.text = some value) :
    (fun other : QueryKey => other.occurrences (before ++ [segment])) =
      Function.update (fun other => other.occurrences before) key
        (key.occurrences before ++ [(value, segment.2)]) := by
  funext other
  by_cases hkey : other = key
  · subst hkey
    rw [Function.update_self, occurrences_own hvalue]
  · rw [Function.update_of_ne hkey, occurrences_other (valueIn_other hvalue hkey)]

theorem setParameter_collected {parameters' : RegisterParameters} (h : Collected before parameters)
    (hvalue : key.valueIn segment.1.text = some value)
    (hset : setParameter key value segment.2 parameters = some parameters') :
    Collected (before ++ [segment]) parameters' := by
  have haccepted : ¬ ValueRefused key before value := by
    rw [← setParameter_eq_none h key value segment.2, hset]
    nofun
  rw [Collected, occurrences_snoc hvalue]
  cases key with
  | name =>
    obtain ⟨hfresh, hne⟩ := not_or.1 haccepted
    have hnone := storedValue?_eq_none.2 hfresh
    have hunset : parameters.name = none := h.name.trans hnone
    simp only [setParameter, hunset, hne, ne_eq, not_true_eq_false, or_self, if_false,
      Option.some.injEq] at hset
    subst hset
    exact { h with name := (storedValue?_snoc value segment.2 hnone).symm }
  | sms =>
    obtain ⟨hfresh, hne⟩ := not_or.1 haccepted
    have hnone := storedValue?_eq_none.2 hfresh
    have hunset : parameters.msisdn = none := h.msisdn.trans hnone
    simp only [setParameter, hunset, hne, ne_eq, not_true_eq_false, or_self, if_false,
      Option.some.injEq] at hset
    subst hset
    exact { h with msisdn := (storedValue?_snoc value segment.2 hnone).symm }
  | lifetime =>
    obtain ⟨hfresh, hnumeral⟩ := not_or.1 haccepted
    have hnumeral := not_not.1 hnumeral
    have hunset : parameters.lifetime = 0 := not_ne_iff.1 (mt h.lifetimeSet.1 hfresh)
    simp only [setParameter, hunset, hnumeral.nonempty, ne_eq, not_true_eq_false, or_self, if_false,
      readLifetime_zero hnumeral, Option.map_some, Option.some.injEq] at hset
    subst hset
    refine { h with lifetime := ?_ }
    exact (UInt32.toNat_ofNat' ..).trans
      (lifetimeBits_snoc value segment.2 (lifetimeBits_eq_zero.2 hfresh)).symm
  | version =>
    obtain ⟨hfresh, hne⟩ := not_or.1 haccepted
    have hnone := not_ne_iff.1 hfresh
    have hunset : parameters.version = .missing := not_ne_iff.1 (mt h.versionMissing.1 hfresh)
    simp only [setParameter, hunset, hne, ne_eq, not_true_eq_false, or_self, if_false,
      Option.some.injEq] at hset
    subst hset
    rw [hnone]
    exact { h with
      version := rfl
      versionSet := fun earlier hmem => List.mem_singleton.1 hmem ▸ hne
      versionOnce := Nat.le_refl 1 }
  | binding =>
    obtain ⟨hfresh, hne⟩ := not_or.1 haccepted
    have hnone := not_ne_iff.1 hfresh
    have hunset := not_ne_iff.1 (mt h.bindingSet.1 hfresh)
    simp only [setParameter, hunset, hne, ne_eq, not_true_eq_false, or_self, if_false,
      Option.some.injEq] at hset
    subst hset
    rw [hnone]
    refine { h with binding := ?_, bindingOnce := Nat.le_refl 1 }
    have hbits : parameters.binding = 0 ||| queueBits (QueryKey.queueMode.occurrences before) :=
      h.binding.trans (by rw [hnone]; rfl)
    change parameters.binding ||| utilsStringToBinding value =
      utilsStringToBinding value ||| queueBits (QueryKey.queueMode.occurrences before)
    rw [hbits, UInt8.zero_or, UInt8.or_comm]
  | queueMode =>
    obtain ⟨hfresh, hrest⟩ := not_or.1 haccepted
    obtain ⟨hflag, hempty⟩ := not_or.1 hrest
    have hnone := not_ne_iff.1 hfresh
    have hunset : parameters.binding &&& bindingQ = 0 := by
      refine not_ne_iff.1 (mt h.queueSet.1 ?_)
      exact not_or.2 ⟨hfresh, hflag⟩
    simp only [setParameter, hunset, not_ne_iff.1 hempty, ne_eq, not_true_eq_false, or_self,
      if_false, Option.some.injEq] at hset
    subst hset
    refine { h with binding := ?_ }
    have hbits : parameters.binding = bindingBits (QueryKey.binding.occurrences before) ||| 0 :=
      h.binding.trans (by rw [hnone]; rfl)
    change parameters.binding ||| bindingQ =
      bindingBits (QueryKey.binding.occurrences before) |||
        queueBits (QueryKey.queueMode.occurrences before ++ [(value, segment.2)])
    rw [hbits, UInt8.or_zero, hnone]
    rfl

/-! ## The loop -/

theorem getParametersLoop_passes (h : Collected before parameters)
    (hpasses : PassesBehind before segment) (rest : List (MultiOption × Bool)) :
    ∃ parameters', Collected (before ++ [segment]) parameters' ∧
      getParametersLoop (segment :: rest) parameters = getParametersLoop rest parameters' := by
  obtain ⟨htruncated, haccepted⟩ := hpasses
  rw [getParametersLoop]
  by_cases hnone : ∀ key : QueryKey, key.valueIn segment.1.text = none
  · rw [findKey_none htruncated hnone]
    exact ⟨parameters, h.other hnone, rfl⟩
  · obtain ⟨key, hkey⟩ := not_forall.1 hnone
    obtain ⟨value, hvalue⟩ := Option.ne_none_iff_exists'.1 hkey
    have hdrop : segment.1.text.drop key.text.length = value := by
      rw [valueIn_eq_some.1 hvalue, List.drop_left]
    rw [findKey_some hvalue (mem_queryKeys key)]
    simp only [hdrop]
    have hset := mt (setParameter_eq_none h key value segment.2).1 (haccepted key value hvalue)
    obtain ⟨parameters', hset⟩ := Option.ne_none_iff_exists'.1 hset
    rw [hset]
    exact ⟨parameters', setParameter_collected h hvalue hset, rfl⟩

theorem getParametersLoop_append (rest : List (MultiOption × Bool)) :
    ∀ {before : List (MultiOption × Bool)} {parameters : RegisterParameters},
      Collected before parameters → EachEvent PassesBehind before passed →
      ∃ parameters', Collected (before ++ passed) parameters' ∧
        getParametersLoop (passed ++ rest) parameters = getParametersLoop rest parameters' := by
  induction passed with
  | nil =>
    intro before parameters h _
    exact ⟨parameters, (List.append_nil before).symm ▸ h, rfl⟩
  | cons segment passed ih =>
    intro before parameters h hpasses
    obtain ⟨next, hnext, hloop⟩ := getParametersLoop_passes h hpasses.1 (passed ++ rest)
    obtain ⟨last, hlast, hrest⟩ := ih hnext hpasses.2
    rw [List.append_cons before, List.cons_append, hloop]
    exact ⟨last, hlast, hrest⟩

theorem getParametersLoop_stops :
    ∀ {before : List (MultiOption × Bool)} {parameters : RegisterParameters},
      Collected before parameters → ¬ EachEvent PassesBehind before query →
      ∃ passed segment rest, query = passed ++ segment :: rest ∧
        EachEvent PassesBehind before passed ∧
        (TruncatedKey segment.1.text ∧
            getParametersLoop query parameters = .error .outOfBounds ∨
          (∃ key : QueryKey, ∃ value ∈ key.valueIn segment.1.text,
              ValueRefused key (before ++ passed) value) ∧
            getParametersLoop query parameters = .ok none) := by
  induction query with
  | nil => exact fun _ hstops => absurd trivial hstops
  | cons segment rest ih =>
    intro before parameters h hstops
    by_cases hpasses : PassesBehind before segment
    · obtain ⟨next, hnext, hloop⟩ := getParametersLoop_passes h hpasses rest
      obtain ⟨passed, last, after, hrest, heach, hend⟩ :=
        ih hnext fun heach => hstops ⟨hpasses, heach⟩
      rw [hloop]
      refine ⟨segment :: passed, last, after, by rw [hrest]; rfl, ⟨hpasses, heach⟩, ?_⟩
      rw [List.append_cons]
      exact hend
    · refine ⟨[], segment, rest, rfl, trivial, ?_⟩
      rw [getParametersLoop, List.append_nil]
      by_cases htruncated : TruncatedKey segment.1.text
      · obtain ⟨key, hstart, hne⟩ := htruncated
        rw [findKey_truncated hstart hne (mem_queryKeys key)]
        exact .inl ⟨⟨key, hstart, hne⟩, rfl⟩
      · obtain ⟨key, hkey⟩ := not_forall.1 fun haccepted => hpasses ⟨htruncated, haccepted⟩
        obtain ⟨value, hrefused⟩ := not_forall.1 hkey
        obtain ⟨hvalue, hrefused⟩ := Classical.not_imp.1 hrefused
        have hrefused := not_not.1 hrefused
        have hdrop : segment.1.text.drop key.text.length = value := by
          rw [valueIn_eq_some.1 hvalue, List.drop_left]
        rw [findKey_some hvalue (mem_queryKeys key)]
        simp only [hdrop, (setParameter_eq_none h key value segment.2).2 hrefused]
        exact .inr ⟨⟨key, value, hvalue, hrefused⟩, trivial⟩

/-! ## What the values mean -/

theorem MalformedQuery.twice (hearlier : key.occurrences passed ≠ [])
    (hvalue : key.valueIn segment.1.text = some value) :
    MalformedQuery (querySegments (passed ++ segment :: rest)) := by
  refine ⟨key, .inl ?_⟩
  have hpos : 0 < (key.occurrences passed).length := List.length_pos_iff.2 hearlier
  rw [← occurrences_values, List.length_map, List.append_cons]
  have hsplit : key.occurrences ((passed ++ [segment]) ++ rest) =
      key.occurrences (passed ++ [segment]) ++ key.occurrences rest :=
    List.filterMap_append ..
  rw [hsplit, occurrences_own hvalue]
  simp only [List.length_append, List.length_singleton]
  omega

theorem MalformedQuery.unfit (hvalue : key.valueIn segment.1.text = some value)
    (hunfit : ¬ key.Fits value) : MalformedQuery (querySegments (passed ++ segment :: rest)) := by
  refine ⟨key, .inr ⟨value, ?_, hunfit⟩⟩
  refine List.mem_filterMap.2 ⟨segment.1.text, ?_, hvalue⟩
  exact List.mem_map.2 ⟨segment, List.mem_append_right _ List.mem_cons_self, rfl⟩

/-- What is turned down makes the query malformed, but for queue mode behind a binding that has
it. -/
theorem ValueRefused.malformed (hvalue : key.valueIn segment.1.text = some value)
    (hrefused : ValueRefused key passed value) :
    MalformedQuery (querySegments (passed ++ segment :: rest)) ∨
      segment.1.text = QueryKey.queueMode.text ∧
        ∃ binding ∈ QueryKey.binding.valuesIn (querySegments passed),
          utilsStringToBinding binding &&& bindingQ ≠ 0 := by
  cases key with
  | name =>
    refine .inl (hrefused.elim (fun ⟨earlier, hmem, _⟩ => ?_) fun hempty => ?_)
    · exact .twice (List.ne_nil_of_mem hmem) hvalue
    · exact .unfit hvalue fun hfits => hfits hempty
  | sms =>
    refine .inl (hrefused.elim (fun ⟨earlier, hmem, _⟩ => ?_) fun hempty => ?_)
    · exact .twice (List.ne_nil_of_mem hmem) hvalue
    · exact .unfit hvalue fun hfits => hfits hempty
  | lifetime =>
    refine .inl (hrefused.elim (fun ⟨earlier, hmem, _⟩ => ?_) fun hno => ?_)
    · exact .twice (List.ne_nil_of_mem hmem) hvalue
    · exact .unfit hvalue fun hfits => hno hfits.1
  | version =>
    refine .inl (hrefused.elim (fun hearlier => ?_) fun hempty => ?_)
    · exact .twice hearlier hvalue
    · exact .unfit hvalue fun hfits => hfits hempty
  | binding =>
    refine .inl (hrefused.elim (fun hearlier => ?_) fun hempty => ?_)
    · exact .twice hearlier hvalue
    · exact .unfit hvalue fun hfits => hfits hempty
  | queueMode =>
    rcases hrefused with hearlier | ⟨⟨binding, allocated⟩, hmem, hflag⟩ | hlonger
    · exact .inl (.twice hearlier hvalue)
    · by_cases hempty : value = []
      · refine .inr ⟨?_, binding, ?_, hflag⟩
        · rw [valueIn_eq_some.1 hvalue, hempty, List.append_nil]
        · rw [← occurrences_values]
          exact List.mem_map_of_mem hmem
      · exact .inl (.unfit hvalue hempty)
    · exact .inl (.unfit hvalue hlonger)

theorem Collected.excludes (h : Collected query parameters) :
    VersionExcludesBinding (querySegments query) ↔
      parameters.version = .version10 ∧ parameters.binding &&& (bindingT ||| bindingN) ≠ 0 := by
  have hqueue : queueBits (QueryKey.queueMode.occurrences query) &&& (bindingT ||| bindingN) = 0 := by
    unfold queueBits
    split <;> rfl
  have hversion := h.version
  have hbinding := h.binding
  have hversionOnce := h.versionOnce
  have hbindingOnce := h.bindingOnce
  rw [VersionExcludesBinding, hversion, hbinding, uint8_or_and, hqueue, UInt8.or_zero,
    ← occurrences_values, ← occurrences_values]
  refine and_congr ?_ ?_
  · generalize QueryKey.version.occurrences query = occurrences at hversionOnce
    match occurrences, hversionOnce with
    | [], _ => exact iff_of_false (fun ⟨_, hmem, _⟩ => absurd hmem List.not_mem_nil) nofun
    | [earlier], _ => simp
  · generalize QueryKey.binding.occurrences query = occurrences at hbindingOnce
    match occurrences, hbindingOnce with
    | [], _ =>
      exact iff_of_false (fun ⟨_, hmem, _⟩ => absurd hmem List.not_mem_nil) (not_not_intro rfl)
    | [earlier], _ => simp [bindingBits]

theorem checkParameters_eq (parameters : RegisterParameters) :
    (checkParameters parameters = none ↔
      parameters.version = .version10 ∧ parameters.binding &&& (bindingT ||| bindingN) ≠ 0) ∧
    ∀ result, checkParameters parameters = some result → result.name = parameters.name ∧
      result.msisdn = parameters.msisdn ∧ result.lifetime = parameters.lifetime := by
  unfold checkParameters
  by_cases hzero : parameters.binding = 0
  · have hbits : bindingUnknown &&& (bindingT ||| bindingN) = 0 := rfl
    simp [hzero, hbits]
  · simp only [hzero, if_false]
    constructor
    · simp
    · intro result hresult
      split at hresult
      · nomatch hresult
      · cases hresult
        exact ⟨rfl, rfl, rfl⟩

theorem storedValue?_eq_some (hall : ∀ earlier ∈ occurrences, earlier.2 = true)
    (honce : occurrences.length ≤ 1) (value : List UInt8) :
    storedValue? occurrences = some value ↔ value ∈ occurrences.map Prod.fst := by
  match occurrences, honce with
  | [], _ => exact iff_of_false nofun List.not_mem_nil
  | [earlier], _ =>
    have hstored := hall earlier List.mem_cons_self
    simp [storedValue?, hstored, eq_comm]

theorem occurrences_once (h : ¬ MalformedQuery (querySegments query)) (key : QueryKey) :
    (key.occurrences query).length ≤ 1 := by
  refine Nat.le_of_not_lt fun htwice => h ⟨key, .inl ?_⟩
  rw [← occurrences_values, List.length_map]
  exact htwice

theorem occurrences_allocated (hall : ∀ segment ∈ query, segment.2 = true) (key : QueryKey) :
    ∀ earlier ∈ key.occurrences query, earlier.2 = true := by
  intro earlier hmem
  obtain ⟨segment, hsegment, hvalue⟩ := List.mem_filterMap.1 hmem
  obtain ⟨value, -, rfl⟩ := Option.map_eq_some_iff.1 hvalue
  exact hall segment hsegment

theorem Collected.lifetimeValue (h : Collected query parameters)
    (hformed : ¬ MalformedQuery (querySegments query))
    (hmem : value ∈ QueryKey.lifetime.valuesIn (querySegments query)) :
    parameters.lifetime.toNat = numeralValue value := by
  have hfits : QueryKey.lifetime.Fits value := by
    by_contra hunfit
    exact hformed ⟨.lifetime, .inr ⟨value, hmem, hunfit⟩⟩
  have honce := occurrences_once hformed .lifetime
  have hlifetime : parameters.lifetime.toNat =
    lifetimeBits (QueryKey.lifetime.occurrences query) := h.lifetime
  rw [← occurrences_values] at hmem
  generalize QueryKey.lifetime.occurrences query = occurrences at honce hlifetime hmem
  match occurrences, honce with
  | [], _ => nomatch hmem
  | [earlier], _ =>
    obtain rfl := List.mem_singleton.1 hmem
    have hbits : lifetimeBits ([] ++ [(earlier.1, earlier.2)]) = numeralValue earlier.1 % 2 ^ 32 :=
      lifetimeBits_snoc earlier.1 earlier.2 rfl
    rw [hlifetime]
    exact hbits.trans (Nat.mod_eq_of_lt hfits.2)

/-! ## Right and wrong queries -/

theorem EachEvent.at {Event : Type} {good : List Event → Event → Prop} {event : Event}
    {rest : List Event} {passed : List Event} :
    ∀ {past : List Event}, EachEvent good past (passed ++ event :: rest) →
      good (past ++ passed) event := by
  induction passed with
  | nil =>
    intro past h
    rw [List.append_nil]
    exact h.1
  | cons first passed ih =>
    intro past h
    rw [List.append_cons]
    exact ih h.2

theorem TruncatedKeyRead.fault (h : TruncatedKeyRead query) :
    prvGetParameters query = .error .outOfBounds := by
  obtain ⟨passed, segment, rest, rfl, hpasses, key, hstart, hne⟩ := h
  obtain ⟨parameters, -, hloop⟩ := getParametersLoop_append (segment :: rest) .nil hpasses
  rw [prvGetParameters, hloop, getParametersLoop, findKey_truncated hstart hne (mem_queryKeys key)]
  rfl

theorem QueueModeRefused.stops (h : QueueModeRefused query) : ¬ QueryPasses query := by
  obtain ⟨-, -, -, before, segment, rest, rfl, htext, binding, hmem, hflag⟩ := h
  intro hpasses
  have hvalue : QueryKey.queueMode.valueIn segment.1.text = some [] :=
    valueIn_eq_some.2 (by rw [htext, List.append_nil])
  rw [← occurrences_values] at hmem
  obtain ⟨earlier, hearlier, rfl⟩ := List.mem_map.1 hmem
  have hbehind : PassesBehind ([] ++ before) segment := EachEvent.at hpasses
  rw [List.nil_append] at hbehind
  exact hbehind.2 .queueMode [] hvalue (.inr (.inl ⟨earlier, hearlier, hflag⟩))

theorem parametersRight_passes (hpasses : QueryPasses query) :
    ParametersRight query ↔ ¬ MalformedPasses query := by
  obtain ⟨parameters, hcollected, hloop⟩ := getParametersLoop_append [] .nil hpasses
  rw [List.append_nil] at hloop
  have hresult : prvGetParameters query = .ok (checkParameters parameters) := by
    rw [prvGetParameters, hloop]
    rfl
  obtain ⟨hnone, hsome⟩ := checkParameters_eq parameters
  rw [← Collected.excludes hcollected, List.nil_append] at hnone
  rw [List.nil_append] at hcollected
  constructor
  · rintro hright ⟨-, hmalformed, hexcluded⟩
    have hrefused := hright.refuses hmalformed
    rw [hresult, Except.ok.injEq] at hrefused
    exact hexcluded (hnone.1 hrefused)
  · intro h
    refine ⟨fun fault hfault => ?_, fun hmalformed => ?_, fun hall hformed hincluded => ?_⟩
    · rw [hresult] at hfault
      nomatch hfault
    · rw [hresult, hnone.2 (not_not.1 fun hincluded => h ⟨hpasses, hmalformed, hincluded⟩)]
    · obtain ⟨result, hchecked⟩ := Option.ne_none_iff_exists'.1 (mt hnone.1 hincluded)
      obtain ⟨hname, hmsisdn, hlifetime⟩ := hsome result hchecked
      refine ⟨result, by rw [hresult, hchecked], fun value => ?_, fun value => ?_,
        fun value hmem => ?_⟩
      · rw [hname, hcollected.name, ← occurrences_values]
        exact storedValue?_eq_some (occurrences_allocated hall _) (occurrences_once hformed _) value
      · rw [hmsisdn, hcollected.msisdn, ← occurrences_values]
        exact storedValue?_eq_some (occurrences_allocated hall _) (occurrences_once hformed _) value
      · rw [hlifetime]
        exact hcollected.lifetimeValue hformed hmem

/-- `prv_getParameters` does what is asked exactly if it compares no truncated key, lets no
malformed query pass, and does not turn queue mode down behind a binding that has it. -/
theorem prvGetParameters_right_iff (query : List (MultiOption × Bool)) :
    ParametersRight query ↔
      ¬ TruncatedKeyRead query ∧ ¬ MalformedPasses query ∧ ¬ QueueModeRefused query := by
  by_cases hpasses : QueryPasses query
  · have hinside : ¬ TruncatedKeyRead query := by
      rintro ⟨passed, segment, rest, rfl, -, htruncated⟩
      exact (EachEvent.at hpasses).1 htruncated
    have hqueue : ¬ QueueModeRefused query := fun h => h.stops hpasses
    rw [parametersRight_passes hpasses]
    exact ⟨fun h => ⟨hinside, h, hqueue⟩, fun h => h.2.1⟩
  · obtain ⟨passed, segment, rest, rfl, heach, hend⟩ := getParametersLoop_stops .nil hpasses
    have hpassed : ¬ MalformedPasses (passed ++ segment :: rest) := fun h => hpasses h.1
    rcases hend with ⟨htruncated, -⟩ | ⟨⟨key, value, hvalue, hrefused⟩, hloop⟩
    · have hread : TruncatedKeyRead (passed ++ segment :: rest) :=
        ⟨passed, segment, rest, rfl, heach, htruncated⟩
      exact iff_of_false (fun h => h.inside _ hread.fault) fun h => h.1 hread
    · have hresult : prvGetParameters (passed ++ segment :: rest) = .ok none := by
        rw [prvGetParameters, hloop]
        rfl
      have hinside : ¬ TruncatedKeyRead (passed ++ segment :: rest) := by
        intro hread
        exact absurd (hresult.symm.trans hread.fault) nofun
      constructor
      · refine fun h => ⟨hinside, hpassed, fun hqueue => ?_⟩
        obtain ⟨hall, hformed, hincluded, -⟩ := hqueue
        obtain ⟨parameters, hsome, -⟩ := h.accepts hall hformed hincluded
        exact absurd (hresult.symm.trans hsome) nofun
      · rintro ⟨-, -, hqueue⟩
        refine ⟨fun fault hfault => ?_, fun _ => hresult, fun hall hformed hincluded => ?_⟩
        · exact absurd (hresult.symm.trans hfault) nofun
        · rcases hrefused.malformed hvalue with hmalformed | ⟨htext, hflag⟩
          · exact absurd hmalformed hformed
          · exact absurd ⟨hall, hformed, hincluded, passed, segment, rest, rfl, htext, hflag⟩ hqueue

/-! ## Three queries -/

/-- A segment, and memory for its value. -/
def storedSegment (text : List UInt8) : MultiOption × Bool := (⟨text.length.toUInt8, text⟩, true)

/-- `lt` is compared with a byte behind it, `lt=4294967297` is taken for 1, and `Q` behind `b=UQ`
is turned down. -/
theorem registrationQueries_wrong :
    prvGetParameters [storedSegment [108, 116]] = .error .outOfBounds ∧
    ¬ ParametersRight [storedSegment [108, 116]] ∧
    ¬ ParametersRight
      [storedSegment [108, 116, 61, 52, 50, 57, 52, 57, 54, 55, 50, 57, 55]] ∧
    prvGetParameters [storedSegment [98, 61, 85, 81], storedSegment [81]] = .ok none := by
  refine ⟨rfl, fun h => h.inside .outOfBounds rfl, fun h => ?_, rfl⟩
  have hwide : ¬ QueryKey.lifetime.Fits [52, 50, 57, 52, 57, 54, 55, 50, 57, 55] :=
    fun hfits => absurd hfits.2 (by decide)
  have hrefused := h.refuses ⟨.lifetime, .inr ⟨_, .head _, hwide⟩⟩
  exact absurd hrefused (by decide)

end Wakaama
