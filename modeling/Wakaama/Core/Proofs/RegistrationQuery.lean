import Wakaama.Core.Registration.Query
import Wakaama.Core.Proofs.GetParameters
import Wakaama.Core.Proofs.RegisterWrite

/-!
# The query of a registration is read back

The length pass, the writer and the parser each go through the parts of the query on their own.
All three are compared with one list of fields, a key with what stands behind it.
-/

namespace Wakaama

/-! ## The fields of a query -/

def lettersOf (binding : UInt8) (letters : List (UInt8 × UInt8)) : List UInt8 :=
  letters.filterMap fun (flag, letter) => if binding &&& flag ≠ 0 then some letter else none

/-- `b=` with its letters, and `Q`. -/
def bindingFields (binding : UInt8) : List (QueryKey × List UInt8) :=
  (if hasLetters binding then [(.binding, lettersOf binding bindingLetters)] else []) ++
    if binding &&& bindingQ ≠ 0 then [(.queueMode, [])] else []

/-- `sms=`. -/
def msisdnFields (msisdn : Option (List UInt8)) : List (QueryKey × List UInt8) :=
  msisdn.toList.map fun text => (.sms, text)

/-- `lt=`. -/
def lifetimeFields (lifetime : Int64) : List (QueryKey × List UInt8) :=
  if lifetime ≠ 0 then [(.lifetime, decimalText lifetime.toInt.toNat)] else []

def QuerySource.optionalFields (source : QuerySource) : List (QueryKey × List UInt8) :=
  msisdnFields source.msisdn ++ bindingFields source.binding ++ lifetimeFields source.lifetime

def QuerySource.fields (source : QuerySource) : List (QueryKey × List UInt8) :=
  (.version, lwm2mVersionText) :: (.name, source.endpointName) :: source.optionalFields

def fieldSegment (field : QueryKey × List UInt8) : List UInt8 := field.1.text ++ field.2

/-- A field with the `&` in front of it. -/
def delimitedField (field : QueryKey × List UInt8) : List UInt8 := field.1.delimited ++ field.2

def QuerySource.text (source : QuerySource) : List UInt8 :=
  queryFront ++ source.endpointName ++ source.optionalFields.flatMap delimitedField

/-! ## The writer -/

variable {binding : UInt8} {length index : Nat} {msisdn : Option (List UInt8)}
  {source : QuerySource} {parameters : RegisterParameters}

theorem writeLetters_fits :
    ∀ {letters : List (UInt8 × UInt8)} {text : List UInt8},
      text.length + (lettersOf binding letters).length ≤ length →
      writeLetters length binding letters text = .ok (text ++ lettersOf binding letters) := by
  intro letters
  induction letters with
  | nil =>
    intro text _
    simp [writeLetters, lettersOf]
  | cons first letters ih =>
    intro text hfits
    obtain ⟨flag, letter⟩ := first
    by_cases hset : binding &&& flag = 0
    · have hsame : lettersOf binding ((flag, letter) :: letters) = lettersOf binding letters := by
        simp [lettersOf, hset]
      rw [hsame] at hfits ⊢
      rw [writeLetters, if_neg (not_not.mpr hset)]
      exact ih hfits
    · have hmore : lettersOf binding ((flag, letter) :: letters) =
          letter :: lettersOf binding letters := by
        simp [lettersOf, hset]
      rw [hmore, List.length_cons] at hfits
      have hrest : (text ++ [letter]).length + (lettersOf binding letters).length ≤ length := by
        rw [List.length_append, List.length_singleton]
        omega
      simp only [writeLetters, if_pos hset, writeByte_fits (show text.length < length by omega),
        ok_bind]
      rw [ih hrest, hmore, List.append_assoc, List.singleton_append]

theorem writeMsisdn_fits {text : List UInt8} (hsmall : length < 2 ^ 31)
    (hfits : text.length + ((msisdnFields msisdn).flatMap delimitedField).length + 1 ≤ length) :
    writeMsisdn length msisdn text =
      .ok (text ++ (msisdnFields msisdn).flatMap delimitedField) := by
  cases msisdn with
  | none => simp [writeMsisdn, msisdnFields]
  | some msisdn =>
    simp only [msisdnFields, Option.toList_some, List.map_cons, List.map_nil, List.flatMap_cons,
      List.flatMap_nil, List.append_nil, delimitedField, List.length_append] at hfits ⊢
    rw [writeMsisdn, writeString_fits hsmall (by omega), ok_bind,
      writeString_fits hsmall (by rw [List.length_append]; omega), List.append_assoc]

theorem writeBinding_fits {text : List UInt8} (hsmall : length < 2 ^ 31)
    (hfits : text.length + ((bindingFields binding).flatMap delimitedField).length + 1 ≤ length) :
    writeBinding length binding text =
      .ok (text ++ (bindingFields binding).flatMap delimitedField) := by
  simp only [bindingFields, List.flatMap_append, List.length_append] at hfits ⊢
  have hqueue : ∀ text : List UInt8,
      text.length + ((if binding &&& bindingQ ≠ 0 then [(QueryKey.queueMode, ([] : List UInt8))]
        else []).flatMap delimitedField).length + 1 ≤ length →
      (if binding &&& bindingQ ≠ 0 then writeString length QueryKey.queueMode.delimited text
        else .ok text) =
      .ok (text ++ (if binding &&& bindingQ ≠ 0 then [(QueryKey.queueMode, ([] : List UInt8))]
        else []).flatMap delimitedField) := by
    intro text hroom
    split_ifs at hroom ⊢ with hset
    · simp only [List.flatMap_cons, List.flatMap_nil, List.append_nil, delimitedField] at hroom ⊢
      exact writeString_fits hsmall hroom
    · simp
  rw [writeBinding]
  by_cases hletters : hasLetters binding = true
  · simp only [hletters, if_true, List.flatMap_cons, List.flatMap_nil, List.append_nil,
      delimitedField, List.length_append] at hfits ⊢
    rw [writeString_fits hsmall (by omega), ok_bind,
      writeLetters_fits (by rw [List.length_append]; omega), ok_bind,
      hqueue _ (by simp only [List.length_append]; omega)]
    simp only [List.append_assoc]
  · simp only [hletters, Bool.false_eq_true, if_false, List.flatMap_nil, List.length_nil,
      List.nil_append, ok_bind] at hfits ⊢
    exact hqueue text (by omega)

/-- The lifetimes of which the query tells. -/
def LifetimeInRange (lifetime : Int64) : Prop := 0 ≤ lifetime.toInt ∧ lifetime.toInt < 2 ^ 32

theorem writeLifetime_fits {lifetime : Int64} {text : List UInt8} (hsmall : length < 2 ^ 31)
    (hrange : LifetimeInRange lifetime)
    (hfits : text.length + ((lifetimeFields lifetime).flatMap delimitedField).length + 1 ≤ length) :
    writeLifetime length lifetime text =
      .ok (text ++ (lifetimeFields lifetime).flatMap delimitedField) := by
  rw [writeLifetime]
  by_cases hzero : lifetime = 0
  · simp [lifetimeFields, hzero]
  · simp only [lifetimeFields, ne_eq, hzero, not_false_eq_true, if_true, List.flatMap_cons,
      List.flatMap_nil, List.append_nil, delimitedField, List.length_append] at hfits ⊢
    have hdigits : utilsIntToText lifetime
        (length - (text ++ QueryKey.lifetime.delimited).length) =
          decimalText lifetime.toInt.toNat := by
      rw [utilsIntToText_nonneg hrange.1, if_pos (by rw [List.length_append]; omega)]
    rw [writeString_fits hsmall (by omega), ok_bind,
      roomBehind_le (by rw [List.length_append]; omega), ok_bind, hdigits]
    cases htext : decimalText lifetime.toInt.toNat with
    | nil => exact absurd htext (decimalText_ne_nil _)
    | cons first rest => simp

theorem prvGetRegistrationQuery_fits (hsmall : length < 2 ^ 31)
    (hrange : LifetimeInRange source.lifetime) (hfits : source.text.length + 1 ≤ length) :
    prvGetRegistrationQuery source length = .ok (source.text ++ [0]) := by
  simp only [QuerySource.text, QuerySource.optionalFields, List.flatMap_append,
    List.length_append] at hfits
  rw [prvGetRegistrationQuery, writeString_fits hsmall (by simp; omega), ok_bind,
    writeString_fits hsmall (by simp; omega), ok_bind,
    writeMsisdn_fits hsmall (by simp only [List.length_append, List.length_nil]; omega), ok_bind,
    writeBinding_fits hsmall (by simp only [List.length_append, List.length_nil]; omega), ok_bind,
    writeLifetime_fits hsmall hrange (by simp only [List.length_append, List.length_nil]; omega),
    ok_bind, writeByte_fits (by simp only [List.length_append, List.length_nil]; omega)]
  simp only [QuerySource.text, QuerySource.optionalFields, List.flatMap_append, List.nil_append,
    List.append_assoc]

/-! ## The length -/

theorem queryLengthAdd_small {n : Nat} (hsmall : index + n < 2 ^ 31) :
    queryLengthAdd index n = ((index + n : Nat) : Int) := by
  rw [queryLengthAdd, ← Nat.cast_add]
  exact intOfSize_small hsmall

theorem lettersLength_small :
    ∀ {letters : List (UInt8 × UInt8)} {index : Nat},
      index + (lettersOf binding letters).length < 2 ^ 31 →
      lettersLength binding letters index =
        ((index + (lettersOf binding letters).length : Nat) : Int) := by
  intro letters
  induction letters with
  | nil =>
    intro index _
    simp [lettersLength, lettersOf]
  | cons first letters ih =>
    intro index hsmall
    obtain ⟨flag, letter⟩ := first
    by_cases hset : binding &&& flag = 0
    · have hsame : lettersOf binding ((flag, letter) :: letters) = lettersOf binding letters := by
        simp [lettersOf, hset]
      rw [hsame] at hsmall ⊢
      rw [lettersLength, if_neg (not_not.mpr hset)]
      exact ih hsmall
    · have hmore : lettersOf binding ((flag, letter) :: letters) =
          letter :: lettersOf binding letters := by
        simp [lettersOf, hset]
      rw [hmore, List.length_cons] at hsmall ⊢
      rw [lettersLength, if_pos hset, queryLengthAdd_small (n := 1) (by omega), ih (by omega)]
      congr 1
      omega

theorem msisdnLength_small
    (hsmall : index + ((msisdnFields msisdn).flatMap delimitedField).length < 2 ^ 31) :
    msisdnLength msisdn index =
      ((index + ((msisdnFields msisdn).flatMap delimitedField).length : Nat) : Int) := by
  cases msisdn with
  | none => simp [msisdnLength, msisdnFields]
  | some msisdn =>
    simp only [msisdnFields, Option.toList_some, List.map_cons, List.map_nil, List.flatMap_cons,
      List.flatMap_nil, List.append_nil, delimitedField, List.length_append] at hsmall ⊢
    rw [msisdnLength, queryLengthAdd_small (by omega), queryLengthAdd_small (by omega),
      Nat.add_assoc]

theorem bindingLength_small
    (hsmall : index + ((bindingFields binding).flatMap delimitedField).length < 2 ^ 31) :
    bindingLength binding index =
      ((index + ((bindingFields binding).flatMap delimitedField).length : Nat) : Int) := by
  simp only [bindingFields, List.flatMap_append, List.length_append, bindingLength] at hsmall ⊢
  split_ifs at hsmall ⊢ <;>
    simp only [List.flatMap_cons, List.flatMap_nil, List.append_nil, delimitedField,
      List.length_append, List.length_nil] at hsmall ⊢
  · rw [queryLengthAdd_small (by omega), lettersLength_small (by omega),
      queryLengthAdd_small (by omega)]
    congr 1
    omega
  · rw [queryLengthAdd_small (by omega), Nat.zero_add]
  · rw [queryLengthAdd_small (by omega), lettersLength_small (by omega)]
    congr 1
    omega
  · simp

theorem lifetimeLength_small {lifetime : Int64} (hrange : LifetimeInRange lifetime)
    (hsmall : index + ((lifetimeFields lifetime).flatMap delimitedField).length + 1 < 2 ^ 31) :
    lifetimeLength lifetime index =
      ((index + ((lifetimeFields lifetime).flatMap delimitedField).length + 1 : Nat) : Int) := by
  rw [lifetimeLength]
  by_cases hzero : lifetime = 0
  · simp only [lifetimeFields, ne_eq, hzero, not_true_eq_false, if_false, List.flatMap_nil,
      List.length_nil, Nat.add_zero] at hsmall ⊢
    exact queryLengthAdd_small hsmall
  · simp only [lifetimeFields, ne_eq, hzero, not_false_eq_true, if_true, List.flatMap_cons,
      List.flatMap_nil, List.append_nil, delimitedField, List.length_append] at hsmall ⊢
    have hdigits : utilsIntToText lifetime 21 = decimalText lifetime.toInt.toNat := by
      have hlength : (decimalText lifetime.toInt.toNat).length ≤ 9 + 1 :=
        decimalText_length_le (by have := hrange.2; omega)
      rw [utilsIntToText_nonneg hrange.1, if_pos (by omega)]
    rw [hdigits]
    cases htext : decimalText lifetime.toInt.toNat with
    | nil => exact absurd htext (decimalText_ne_nil _)
    | cons first rest =>
      rw [htext] at hsmall
      simp only
      rw [queryLengthAdd_small (by omega), queryLengthAdd_small (by omega),
        queryLengthAdd_small (n := 1) (by omega)]
      congr 1
      omega

theorem prvGetRegistrationQueryLength_eq (hrange : LifetimeInRange source.lifetime)
    (hsmall : source.text.length + 1 < 2 ^ 31) :
    prvGetRegistrationQueryLength source = ((source.text.length + 1 : Nat) : Int) := by
  simp only [QuerySource.text, QuerySource.optionalFields, List.flatMap_append,
    List.length_append] at hsmall ⊢
  have hfront : queryLengthAdd 0 queryFront.length = (queryFront.length : Int) := by decide
  have hname : queryLengthAdd queryFront.length source.endpointName.length =
      ((queryFront.length + source.endpointName.length : Nat) : Int) :=
    queryLengthAdd_small (by omega)
  simp only [prvGetRegistrationQueryLength, hfront, hname]
  rw [msisdnLength_small (by omega), bindingLength_small (by omega),
    lifetimeLength_small hrange (by omega)]
  omega

/-! ## The options -/

theorem uriQuerySegments_last {last : List UInt8} (hnot : queryDelimiter ∉ last) :
    ∀ segment : List UInt8, uriQuerySegments segment last = [segment ++ last] := by
  induction last with
  | nil =>
    intro segment
    simp [uriQuerySegments]
  | cons character last ih =>
    intro segment
    obtain ⟨hother, hrest⟩ := not_or.mp (mt List.mem_cons.mpr hnot)
    rw [uriQuerySegments, if_neg (Ne.symm hother), ih hrest, List.append_assoc,
      List.singleton_append]

theorem uriQuerySegments_next {first query : List UInt8} (hnot : queryDelimiter ∉ first)
    (hquery : query ≠ []) :
    ∀ segment : List UInt8, uriQuerySegments segment (first ++ queryDelimiter :: query) =
      (segment ++ first) :: uriQuerySegments [] query := by
  induction first with
  | nil =>
    intro segment
    rw [List.nil_append, uriQuerySegments, if_pos rfl, if_neg hquery, List.append_nil]
  | cons character first ih =>
    intro segment
    obtain ⟨hother, hrest⟩ := not_or.mp (mt List.mem_cons.mpr hnot)
    rw [List.cons_append, uriQuerySegments, if_neg (Ne.symm hother), ih hrest, List.append_assoc,
      List.singleton_append]

theorem uriQuerySegments_fields {fields : List (QueryKey × List UInt8)} :
    ∀ {first : QueryKey × List UInt8},
      (∀ field ∈ first :: fields, queryDelimiter ∉ fieldSegment field) →
      uriQuerySegments [] (fieldSegment first ++ fields.flatMap delimitedField) =
        (first :: fields).map fieldSegment := by
  induction fields with
  | nil =>
    intro first hnot
    simpa using uriQuerySegments_last (hnot first (by simp)) []
  | cons next fields ih =>
    intro first hnot
    have hdelimited : (next :: fields).flatMap delimitedField =
        queryDelimiter :: (fieldSegment next ++ fields.flatMap delimitedField) := by
      simp [delimitedField, fieldSegment, QueryKey.delimited]
    have hnext : fieldSegment next ++ fields.flatMap delimitedField ≠ [] := by
      obtain ⟨key, value⟩ := next
      cases key <;> simp [fieldSegment, QueryKey.text]
    rw [hdelimited, uriQuerySegments_next (hnot first (by simp)) hnext,
      ih (fun field hmem => hnot field (List.mem_cons_of_mem _ hmem))]
    rfl

def fieldOption (field : QueryKey × List UInt8) : MultiOption :=
  { len := (fieldSegment field).length.toUInt8, data := fieldSegment field }

theorem isDigit_ne_delimiter {character : UInt8} (hdigit : isDigit character = true) :
    character ≠ queryDelimiter := by
  rintro rfl
  exact absurd hdigit (by decide)

theorem lettersOf_mem {character : UInt8} {letters : List (UInt8 × UInt8)}
    (hmem : character ∈ lettersOf binding letters) : character ∈ letters.map Prod.snd := by
  obtain ⟨⟨flag, letter⟩, hletter, hset⟩ := List.mem_filterMap.mp hmem
  have heq : letter = character := by
    by_cases hzero : binding &&& flag = 0
    · simp [hzero] at hset
    · simpa [hzero] using hset
  exact List.mem_map.mpr ⟨(flag, letter), hletter, heq⟩

theorem fields_undelimited (hdelimited : source.Undelimited) :
    ∀ field ∈ source.fields, queryDelimiter ∉ fieldSegment field := by
  have hkey : ∀ key : QueryKey, queryDelimiter ∉ key.text := by
    intro key
    cases key <;> decide
  have hvalue : ∀ field ∈ source.fields, queryDelimiter ∉ field.2 := by
    intro field hfield
    simp only [QuerySource.fields, QuerySource.optionalFields, List.mem_cons, List.mem_append]
      at hfield
    rcases hfield with rfl | rfl | (hmsisdn | hbinding) | hlifetime
    · exact (by decide : queryDelimiter ∉ lwm2mVersionText)
    · exact hdelimited.endpointName
    · obtain ⟨text, htext, rfl⟩ := List.mem_map.mp hmsisdn
      exact hdelimited.msisdn text (Option.mem_toList.mp htext)
    · rcases List.mem_append.mp hbinding with hletters | hqueue
      · obtain rfl : field = (.binding, lettersOf source.binding bindingLetters) := by
          split_ifs at hletters
          · exact List.mem_singleton.mp hletters
          · nomatch hletters
        intro hmem
        exact absurd (lettersOf_mem hmem) (by decide)
      · obtain rfl : field = (.queueMode, []) := by
          split_ifs at hqueue
          · exact List.mem_singleton.mp hqueue
          · nomatch hqueue
        exact List.not_mem_nil
    · obtain rfl : field = (.lifetime, decimalText source.lifetime.toInt.toNat) := by
        unfold lifetimeFields at hlifetime
        split_ifs at hlifetime
        · exact List.mem_singleton.mp hlifetime
        · nomatch hlifetime
      intro hmem
      exact isDigit_ne_delimiter (decimalText_isDigit _ _ hmem) rfl
  intro field hfield hmem
  rcases List.mem_append.mp hmem with hmem | hmem
  · exact hkey field.1 hmem
  · exact hvalue field hfield hmem

theorem coapSetHeaderUriQuery_text (hdelimited : source.Undelimited) :
    coapSetHeaderUriQuery source.text = source.fields.map fieldOption := by
  have htext : source.text = queryStarter ::
      (fieldSegment (.version, lwm2mVersionText) ++
        ((.name, source.endpointName) :: source.optionalFields).flatMap delimitedField) := by
    simp [QuerySource.text, queryFront, fieldSegment, delimitedField, QueryKey.delimited]
  rw [htext, coapSetHeaderUriQuery]
  simp only [List.head?_cons, List.tail_cons, if_true]
  rw [uriQuerySegments_fields (fields_undelimited hdelimited), List.map_map]
  rfl

/-! ## The parameters -/

theorem getParametersLoop_field {key : QueryKey} {value : List UInt8}
    {parameters' : RegisterParameters} (hshort : (key.text ++ value).length < 2 ^ 8)
    (hset : setParameter key value true parameters = some parameters')
    (rest : List (MultiOption × Bool)) :
    getParametersLoop ((fieldOption (key, value), true) :: rest) parameters =
      getParametersLoop rest parameters' := by
  have htext : (fieldOption (key, value)).text = key.text ++ value := by
    have hlen : ((key.text ++ value).length.toUInt8).toNat = (key.text ++ value).length := by
      rw [Nat.toUInt8_eq, UInt8.toNat_ofNat']
      exact Nat.mod_eq_of_lt hshort
    simp only [MultiOption.text, fieldOption, fieldSegment, hlen, List.take_length]
  have hfound : findKey (key.text ++ value) queryKeys = .ok (some key) :=
    findKey_some (valueIn_eq_some.mpr rfl) (mem_queryKeys key)
  rw [getParametersLoop, htext, hfound]
  simp only [List.drop_left, hset]

def fieldQuery (fields : List (QueryKey × List UInt8)) : List (MultiOption × Bool) :=
  fields.map fun field => (fieldOption field, true)

theorem getParametersLoop_msisdn (hunset : parameters.msisdn = none)
    (hcarried : ∀ text ∈ msisdn, text ≠ [] ∧ (QueryKey.sms.text ++ text).length < 2 ^ 8)
    (rest : List (MultiOption × Bool)) :
    getParametersLoop (fieldQuery (msisdnFields msisdn) ++ rest) parameters =
      getParametersLoop rest { parameters with msisdn } := by
  cases msisdn with
  | none =>
    have hsame : { parameters with msisdn := none } = parameters := by rw [← hunset]
    rw [hsame]
    rfl
  | some msisdn =>
    obtain ⟨hsome, hshort⟩ := hcarried msisdn rfl
    exact getParametersLoop_field hshort (by simp [setParameter, hunset, hsome]) rest

def flagsRead (binding : UInt8) : UInt8 :=
  (if hasLetters binding then utilsStringToBinding (lettersOf binding bindingLetters) else 0) |||
    if binding &&& bindingQ ≠ 0 then bindingQ else 0

theorem byte_forall {P : UInt8 → Prop} [DecidablePred P]
    (hall : ∀ n : Fin 256, P (UInt8.ofNat n)) (byte : UInt8) : P byte := by
  have hbyte := hall ⟨byte.toNat, byte.toNat_lt⟩
  rwa [UInt8.ofNat_toNat] at hbyte

theorem lettersRead_queue (binding : UInt8) :
    utilsStringToBinding (lettersOf binding bindingLetters) &&& bindingQ = 0 := by
  revert binding
  exact byte_forall (by decide +kernel)

theorem flagsRead_flags (binding : UInt8) :
    (hasLetters binding = true → ∃ letter ∈ bindingLetters, binding &&& letter.1 ≠ 0) →
    flagsRead binding &&& bindingFlags = binding &&& bindingFlags := by
  revert binding
  exact byte_forall (by decide +kernel)

theorem lettersOf_ne_nil (hletter : ∃ letter ∈ bindingLetters, binding &&& letter.1 ≠ 0) :
    lettersOf binding bindingLetters ≠ [] := by
  obtain ⟨⟨flag, letter⟩, hmem, hset⟩ := hletter
  intro hnil
  have hin : letter ∈ lettersOf binding bindingLetters :=
    List.mem_filterMap.mpr ⟨(flag, letter), hmem, if_pos hset⟩
  rw [hnil] at hin
  nomatch hin

theorem lettersOf_length (binding : UInt8) : (lettersOf binding bindingLetters).length ≤ 4 :=
  List.length_filterMap_le _ _

theorem getParametersLoop_binding (hunset : parameters.binding = 0)
    (hcarried : hasLetters binding = true → ∃ letter ∈ bindingLetters, binding &&& letter.1 ≠ 0)
    (rest : List (MultiOption × Bool)) :
    getParametersLoop (fieldQuery (bindingFields binding) ++ rest) parameters =
      getParametersLoop rest { parameters with binding := flagsRead binding } := by
  have hqueue : ∀ parameters : RegisterParameters, parameters.binding &&& bindingQ = 0 →
      getParametersLoop (fieldQuery (if binding &&& bindingQ ≠ 0 then
          [(QueryKey.queueMode, ([] : List UInt8))] else []) ++ rest) parameters =
        getParametersLoop rest { parameters with
          binding := parameters.binding ||| if binding &&& bindingQ ≠ 0 then bindingQ else 0 } := by
    intro parameters hclear
    split_ifs
    · exact getParametersLoop_field (by decide) (by simp [setParameter, hclear]) rest
    · rw [UInt8.or_zero]
      rfl
  rw [bindingFields, fieldQuery, List.map_append, List.append_assoc, flagsRead]
  by_cases hletters : hasLetters binding = true
  · simp only [hletters, if_true]
    have hsome := lettersOf_ne_nil (hcarried hletters)
    have hlength := lettersOf_length binding
    have hset : setParameter .binding (lettersOf binding bindingLetters) true parameters =
        some { parameters with
          binding := utilsStringToBinding (lettersOf binding bindingLetters) } := by
      simp [setParameter, hunset, hsome]
    have hkey : QueryKey.binding.text.length = 2 := rfl
    refine (getParametersLoop_field ?_ hset _).trans (hqueue _ (lettersRead_queue binding))
    rw [List.length_append]
    omega
  · simp only [hletters, Bool.false_eq_true, if_false, List.map_nil, List.nil_append]
    refine (hqueue parameters (by rw [hunset]; rfl)).trans ?_
    rw [hunset]

theorem getParametersLoop_lifetime {lifetime : Int64} {parameters : RegisterParameters}
    (hunset : parameters.lifetime = 0) (hrange : LifetimeInRange lifetime) :
    ∃ value : UInt32, (value.toNat : Int) = lifetime.toInt ∧
      getParametersLoop (fieldQuery (lifetimeFields lifetime)) parameters =
        .ok (some { parameters with lifetime := value }) := by
  obtain ⟨hlow, hhigh⟩ := hrange
  by_cases hzero : lifetime = 0
  · refine ⟨0, by rw [hzero]; rfl, ?_⟩
    rw [lifetimeFields, if_neg (not_not.mpr hzero), ← hunset]
    rfl
  · have hnumeral : IsNumeral (decimalText lifetime.toInt.toNat) :=
      ⟨decimalText_ne_nil _, decimalText_isDigit _⟩
    have hvalue : numeralValue (decimalText lifetime.toInt.toNat) = lifetime.toInt.toNat :=
      decimalFrom_decimalText _
    refine ⟨UInt32.ofNat lifetime.toInt.toNat, ?_, ?_⟩
    · rw [UInt32.toNat_ofNat', Nat.mod_eq_of_lt (by omega)]
      omega
    · have hset : setParameter .lifetime (decimalText lifetime.toInt.toNat) true parameters =
          some { parameters with lifetime := UInt32.ofNat lifetime.toInt.toNat } := by
        have hempty : ¬ (parameters.lifetime ≠ 0 ∨ decimalText lifetime.toInt.toNat = []) := by
          rintro (hset | hnil)
          · exact hset hunset
          · exact decimalText_ne_nil _ hnil
        rw [setParameter, if_neg hempty, hunset, readLifetime_zero hnumeral, hvalue]
        rfl
      have hlength : (decimalText lifetime.toInt.toNat).length ≤ 9 + 1 :=
        decimalText_length_le (by omega)
      have hkey : QueryKey.lifetime.text.length = 3 := rfl
      rw [lifetimeFields, if_pos hzero]
      refine getParametersLoop_field ?_ hset []
      rw [List.length_append]
      omega

theorem checkParameters_version11 (hversion : parameters.version = .version11) :
    checkParameters parameters = some { parameters with
      binding := if parameters.binding = 0 then bindingUnknown else parameters.binding } := by
  obtain ⟨name, lifetime, msisdn, binding, version⟩ := parameters
  obtain rfl : version = .version11 := hversion
  unfold checkParameters
  by_cases hzero : binding = 0 <;> simp [hzero]

theorem flagsRead_unknown {flags : UInt8}
    (hflags : flags &&& bindingFlags = binding &&& bindingFlags) :
    (if flags = 0 then bindingUnknown else flags) &&& bindingFlags = binding &&& bindingFlags := by
  split_ifs with hzero
  · rw [← hflags, hzero]
    rfl
  · exact hflags

theorem prvGetParameters_fields (hcarried : source.Carried)
    (hrange : LifetimeInRange source.lifetime) :
    ∃ parameters, prvGetParameters (fieldQuery source.fields) = .ok (some parameters) ∧
      ParametersOf source parameters := by
  let named : RegisterParameters :=
    { noParameters with version := .version11, name := some source.endpointName }
  have hversion : setParameter .version lwm2mVersionText true noParameters =
      some { noParameters with version := .version11 } := by decide
  have hname : setParameter .name source.endpointName true
      { noParameters with version := .version11 } = some named := by
    simp [setParameter, noParameters, named, hcarried.endpointName.1]
  obtain ⟨lifetime, hlifetime, hrest⟩ := @getParametersLoop_lifetime source.lifetime
    { named with msisdn := source.msisdn, binding := flagsRead source.binding } rfl hrange
  have hfields : fieldQuery source.fields =
      (fieldOption (.version, lwm2mVersionText), true) ::
        (fieldOption (.name, source.endpointName), true) ::
          (fieldQuery (msisdnFields source.msisdn) ++
            (fieldQuery (bindingFields source.binding) ++
              fieldQuery (lifetimeFields source.lifetime))) := by
    simp [QuerySource.fields, QuerySource.optionalFields, fieldQuery]
  have hloop : getParametersLoop (fieldQuery source.fields) noParameters =
      .ok (some { named with
        msisdn := source.msisdn, binding := flagsRead source.binding, lifetime }) := by
    rw [hfields, getParametersLoop_field (by decide) hversion,
      getParametersLoop_field hcarried.endpointName.2 hname,
      getParametersLoop_msisdn rfl hcarried.msisdn, getParametersLoop_binding rfl hcarried.binding]
    exact hrest
  refine ⟨_, by rw [prvGetParameters, hloop]; exact congrArg _ (checkParameters_version11 rfl), ?_⟩
  exact
    { name := rfl
      msisdn := rfl
      lifetime := hlifetime
      version := rfl
      binding := flagsRead_unknown (flagsRead_flags source.binding hcarried.binding) }

theorem optionalFields_length (hcarried : source.Carried)
    (hrange : LifetimeInRange source.lifetime) :
    (source.optionalFields.flatMap delimitedField).length < 300 := by
  have hmsisdn : ((msisdnFields source.msisdn).flatMap delimitedField).length ≤ 256 := by
    cases htext : source.msisdn with
    | none => simp [msisdnFields]
    | some text =>
      have hshort := (hcarried.msisdn text htext).2
      simp [msisdnFields, delimitedField, QueryKey.delimited, QueryKey.text] at hshort ⊢
      omega
  have hletters := lettersOf_length source.binding
  have hbinding : ((bindingFields source.binding).flatMap delimitedField).length ≤ 9 := by
    unfold bindingFields
    split_ifs <;> simp [delimitedField, QueryKey.delimited, QueryKey.text] <;> omega
  have hlifetime : ((lifetimeFields source.lifetime).flatMap delimitedField).length ≤ 14 := by
    have hlength : (decimalText source.lifetime.toInt.toNat).length ≤ 9 + 1 :=
      decimalText_length_le (by have := hrange.2; omega)
    unfold lifetimeFields
    split_ifs
    · simp only [List.flatMap_cons, List.flatMap_nil, List.append_nil, delimitedField,
        List.length_append]
      exact Nat.add_le_add (Nat.le_refl 4) hlength
    · simp
  simp only [QuerySource.optionalFields, List.flatMap_append, List.length_append]
  omega

/-- The query of a client whose texts hold no `&`, fit an option with their keys and are not
empty, whose binding's flags have letters and whose lifetime is below 2^32, has the length that
was added up, and the server reads from its options what the client told. -/
theorem registrationQuery_roundTrip (source : QuerySource) (hdelimited : source.Undelimited)
    (hcarried : source.Carried) (hrange : LifetimeInRange source.lifetime) :
    QueryRoundTrip source := by
  have hsmall : source.text.length + 1 < 2 ^ 31 := by
    have hoptional := optionalFields_length hcarried hrange
    have hname := hcarried.endpointName.2
    have hfront : queryFront.length = 14 := rfl
    simp only [QuerySource.text, List.length_append] at hname ⊢
    omega
  have hlength := prvGetRegistrationQueryLength_eq hrange hsmall
  obtain ⟨parameters, hparameters, hsame⟩ := prvGetParameters_fields hcarried hrange
  refine ⟨source.text, ?_, ?_, parameters, ?_, hsame⟩
  · rw [hlength, Int.toNat_natCast]
    exact prvGetRegistrationQuery_fits hsmall hrange (Nat.le_refl _)
  · rw [hlength, List.length_append, List.length_singleton]
  · rw [coapSetHeaderUriQuery_text hdelimited, List.map_map]
    exact hparameters

/-- A client named `node` with an msisdn, all bindings with queue mode, and a day's lifetime. -/
def fullSource : QuerySource where
  endpointName := [110, 111, 100, 101]
  msisdn := some [43, 52, 54]
  binding := 0x3E
  lifetime := 86400
  endpointName_string := by decide
  msisdn_string := by decide

theorem fullSource_roundTrip : QueryRoundTrip fullSource :=
  registrationQuery_roundTrip fullSource ⟨by decide, by decide⟩
    ⟨by decide, by decide, by decide⟩ (by unfold LifetimeInRange; decide)

/-- A client with this name, and no more to tell. -/
def namedSource (endpointName : List UInt8) (hstring : 0 ∉ endpointName) : QuerySource where
  endpointName
  msisdn := none
  binding := 0
  lifetime := 0
  endpointName_string := hstring
  msisdn_string := by simp

theorem not_queryRoundTrip {source : QuerySource} {answer : Except Fault (Option RegisterParameters)}
    (hwritten : prvGetRegistrationQuery source (prvGetRegistrationQueryLength source).toNat =
      .ok (source.text ++ [0]))
    (hread : prvGetParameters ((coapSetHeaderUriQuery source.text).map fun option => (option, true)) =
      answer)
    (hnone : ∀ parameters, answer ≠ .ok (some parameters)) : ¬ QueryRoundTrip source := by
  intro hround
  obtain ⟨query, hquery, -, parameters, hparameters, -⟩ := hround
  obtain rfl : source.text = query := by simpa [hwritten] using hquery
  exact hnone parameters (hread.symm.trans hparameters)

/-- The server refuses the query of a client with an empty name, one with an empty msisdn and one
whose binding has only flags without a letter; a name of 253 bytes leaves no byte in its option. -/
theorem registrationQuery_notAll :
    ¬ QueryRoundTrip (namedSource [] (by decide)) ∧
    ¬ QueryRoundTrip { fullSource with msisdn := some [], msisdn_string := by decide } ∧
    ¬ QueryRoundTrip { fullSource with binding := 0x40 } ∧
    ¬ QueryRoundTrip (namedSource (List.replicate 253 97) (by decide)) := by
  refine ⟨@not_queryRoundTrip _ (.ok none) ?_ ?_ nofun, @not_queryRoundTrip _ (.ok none) ?_ ?_ nofun,
    @not_queryRoundTrip _ (.ok none) ?_ ?_ nofun,
    @not_queryRoundTrip _ (.error .outOfBounds) ?_ ?_ nofun⟩ <;> decide +kernel

end Wakaama
