import Mathlib.Tactic.ByContra
import Wakaama.Core.Proofs.NumberText
import Wakaama.Core.UriPath

/-!
# Request paths read back

`uri_decode` gives back the URI of a request unless the alternate path is taken for one of the
segments that are reserved for other requests.
-/

namespace Wakaama

theorem parseNumberLoop_digits {rest : List UInt8} (hrest : rest = [] ∨ rest.head? = some 47) :
    ∀ {text : List UInt8} {value : Nat}, (∀ character ∈ text, isDigit character = true) →
      decimalFrom value text < 2 ^ 31 →
      parseNumberLoop value (text ++ rest) = some (((decimalFrom value text : Nat) : Int), rest) := by
  intro text
  induction text with
  | nil =>
    intro value _ _
    rcases hrest with rfl | hslash
    · rfl
    · obtain ⟨tail, rfl⟩ := List.head?_eq_some_iff.1 hslash
      rfl
  | cons character text ih =>
    intro value hdigits hvalue
    have hdigit := hdigits character (by simp)
    have hnext : value * 10 + (character.toNat - 48) < 2 ^ 31 :=
      Nat.lt_of_le_of_lt (decimalFrom_le _ text) hvalue
    simp only [isDigit, Bool.and_eq_true, decide_eq_true_eq, UInt8.le_iff_toNat_le] at hdigit
    have hlow : 48 ≤ character.toNat := hdigit.1
    have hhigh : character.toNat ≤ 57 := hdigit.2
    have hslash : character ≠ 47 := by
      rintro rfl
      exact absurd hlow (by decide)
    have hrange : digitZero ≤ character ∧ character ≤ digitNine := by
      simp only [digitZero, digitNine, UInt8.le_iff_toNat_le]
      exact hdigit
    have hcharacter : (character - digitZero).toNat = character.toNat - 48 := by
      rw [UInt8.toNat_sub_of_le _ _ hrange.1]
      rfl
    have hstep : (((value : Int) * 10).bmod (2 ^ 32) + (character - digitZero).toNat).bmod (2 ^ 32) =
        ((value * 10 + (character.toNat - 48) : Nat) : Int) := by
      rw [hcharacter, Int.bmod_eq_of_le_mul_two (x := (value : Int) * 10) (by omega) (by omega),
        Int.bmod_eq_of_le_mul_two (by omega) (by omega)]
      omega
    rw [List.cons_append, parseNumberLoop, if_neg hslash, if_pos hrange, hstep]
    exact ih (fun c hc => hdigits c (by simp [hc])) hvalue

theorem parseId_decimalText {id : UInt16} (hid : id ≠ lwm2mMaxId) {rest : List UInt8}
    (hrest : rest = [] ∨ rest.head? = some 47) :
    parseId (decimalText id.toNat ++ rest) = some (id, rest) := by
  have hlt := id.toNat_lt
  have hmax : id.toNat < lwm2mMaxId.toNat := by
    have hne : id.toNat ≠ lwm2mMaxId.toNat := fun h => hid (UInt16.toNat_inj.1 h)
    have hvalue : lwm2mMaxId.toNat = 65535 := rfl
    omega
  have hfirst : (decimalText id.toNat ++ rest).head? ≠ some 47 := by
    cases htext : decimalText id.toNat with
    | nil => exact absurd htext (decimalText_ne_nil _)
    | cons character text =>
      rw [List.cons_append, List.head?_cons]
      rintro ⟨⟩
      have hdigit := decimalText_isDigit id.toNat 47 (by simp [htext])
      nomatch hdigit
  have hvalue := decimalFrom_decimalText id.toNat
  have hfits : decimalFrom 0 (decimalText id.toNat) < 2 ^ 31 := by
    rw [hvalue]
    omega
  have hloop := parseNumberLoop_digits hrest (decimalText_isDigit id.toNat) hfits
  rw [hvalue] at hloop
  unfold parseId
  rw [if_neg hfirst, show (0 : Int) = ((0 : Nat) : Int) from rfl, hloop]
  simp only [Int.toNat_natCast, Nat.toUInt16_eq, UInt16.ofNat_toNat]
  rw [if_neg (by omega)]

def idOption (id : UInt16) : MultiOption := coapUriPathSegment (decimalText id.toNat)

theorem idSegment_eq (id : UInt16) : idSegment id = some (idOption id) := by
  have hlength := decimalText_id_length id
  unfold idSegment lwm2mStringIdMaxLen
  rw [utilsIntToText_id, if_pos (by omega)]
  split
  · rename_i hnil
    exact absurd hnil (decimalText_ne_nil _)
  · rfl

theorem idOption_len (id : UInt16) : (idOption id).len.toNat = (decimalText id.toNat).length := by
  have hlength := decimalText_id_length id
  show (decimalText id.toNat).length.toUInt8.toNat = _
  rw [Nat.toUInt8_eq, UInt8.toNat_ofNat']
  omega

theorem idOption_len_ne_zero (id : UInt16) : (idOption id).len ≠ 0 := by
  intro hzero
  have hlen := idOption_len id
  have hpos := decimalText_length_pos id.toNat
  rw [hzero] at hlen
  exact absurd hlen.symm (Nat.ne_of_gt hpos)

theorem idOption_text (id : UInt16) : (idOption id).text = decimalText id.toNat := by
  unfold MultiOption.text
  rw [idOption_len]
  exact List.take_length

theorem uriGetNumber_idOption {id : UInt16} (hid : id ≠ lwm2mMaxId) :
    uriGetNumber (idOption id) = some id := by
  have hparse := parseId_decimalText hid (.inl rfl)
  rw [List.append_nil] at hparse
  rw [uriGetNumber, idOption_text, hparse]
  rfl

theorem idOption_isSegment (id : UInt16) {character : UInt8} (rest : List UInt8)
    (hletter : isDigit character = false) : (idOption id).isSegment (character :: rest) = false := by
  unfold MultiOption.isSegment
  rw [idOption_text, Bool.and_eq_false_iff]
  right
  rw [beq_eq_false_iff_ne]
  intro htext
  have hdigit := decimalText_isDigit id.toNat character (by simp [htext])
  rw [hletter] at hdigit
  nomatch hdigit

def uriOptions (uri : Lwm2mUri) : List MultiOption :=
  if uri.isSetObject then
    idOption uri.objectId ::
      if uri.isSetInstance then
        idOption uri.instanceId ::
          if uri.isSetResource then
            idOption uri.resourceId ::
              if uri.isSetResourceInstance then [idOption uri.resourceInstanceId] else []
          else []
      else []
  else []

theorem transactionUriPath_eq (altPath : Option (List UInt8)) (uri : Lwm2mUri) :
    transactionUriPath altPath (some uri) =
      some ((altPath.toList.map fun altPath => coapUriPathSegment (altPath.drop 1)) ++
        uriOptions uri) := by
  unfold transactionUriPath uriOptions
  simp only [idSegment_eq, Option.bind_eq_bind, Option.bind_some, Option.pure_def]
  cases uri.isSetObject <;> cases uri.isSetInstance <;> cases uri.isSetResource <;>
    cases uri.isSetResourceInstance <;> simp

theorem Lwm2mUri.ext_reset {uri : Lwm2mUri} (hclosed : uri.PrefixClosed)
    (hobject : uri.isSetObject = false) : uri = .reset := by
  obtain ⟨hinstance, hresource, hlast⟩ := hclosed
  obtain ⟨objectId, instanceId, resourceId, resourceInstanceId⟩ := uri
  simp only [isSetObject, isSetInstance, isSetResource, isSetResourceInstance, bne_iff_ne, ne_eq,
    bne_eq_false_iff_eq] at *
  subst hobject
  simp_all [reset]

theorem uriDecodeIds_uriOptions {uri : Lwm2mUri} (hclosed : uri.PrefixClosed) :
    uriDecodeIds (uriOptions uri) = some uri := by
  obtain ⟨hinstance, hresource, hlast⟩ := hclosed
  obtain ⟨objectId, instanceId, resourceId, resourceInstanceId⟩ := uri
  simp only [Lwm2mUri.isSetObject, Lwm2mUri.isSetInstance, Lwm2mUri.isSetResource,
    Lwm2mUri.isSetResourceInstance, bne_iff_ne, ne_eq] at hinstance hresource hlast
  unfold uriOptions
  simp only [Lwm2mUri.isSetObject, Lwm2mUri.isSetInstance, Lwm2mUri.isSetResource,
    Lwm2mUri.isSetResourceInstance, bne_iff_ne, ne_eq]
  by_cases hobj : objectId = lwm2mMaxId
  · have hinst : instanceId = lwm2mMaxId := not_not.1 fun h => hinstance h hobj
    have hres : resourceId = lwm2mMaxId := not_not.1 fun h => hresource h hinst
    have hri : resourceInstanceId = lwm2mMaxId := not_not.1 fun h => hlast h hres
    simp [hobj, hinst, hres, hri, uriDecodeIds, Lwm2mUri.reset]
  · by_cases hinst : instanceId = lwm2mMaxId
    · have hres : resourceId = lwm2mMaxId := not_not.1 fun h => hresource h hinst
      have hri : resourceInstanceId = lwm2mMaxId := not_not.1 fun h => hlast h hres
      simp [hobj, hinst, hres, hri, uriDecodeIds, uriGetNumber_idOption, Lwm2mUri.reset]
    · by_cases hres : resourceId = lwm2mMaxId
      · have hri : resourceInstanceId = lwm2mMaxId := not_not.1 fun h => hlast h hres
        simp [hobj, hinst, hres, hri, uriDecodeIds, uriGetNumber_idOption, idOption_len_ne_zero,
          Lwm2mUri.reset]
      · by_cases hri : resourceInstanceId = lwm2mMaxId
        · simp [hobj, hinst, hres, hri, uriDecodeIds, uriGetNumber_idOption, idOption_len_ne_zero,
            Lwm2mUri.reset, Lwm2mUri.isSetInstance]
        · simp [hobj, hinst, hres, hri, uriDecodeIds, uriGetNumber_idOption, idOption_len_ne_zero,
            Lwm2mUri.reset, Lwm2mUri.isSetInstance, Lwm2mUri.isSetResource]

/-- The type of a request that is no other than a device management one. -/
def dmRequestType (uri : Lwm2mUri) (code : UInt8) : RequestType :=
  if uri = .reset ∧ code = coapDelete then .deleteAll else .dm

theorem uriOptions_eq_nil {uri : Lwm2mUri} : uriOptions uri = [] ↔ uri.isSetObject = false := by
  unfold uriOptions
  cases uri.isSetObject <;> simp

theorem uriDecodeDm_uriOptions {uri : Lwm2mUri} (hclosed : uri.PrefixClosed) (code : UInt8) :
    uriDecodeDm (uriOptions uri) code = (dmRequestType uri code, uri) := by
  cases hobject : uri.isSetObject with
  | false =>
    obtain rfl := Lwm2mUri.ext_reset hclosed hobject
    unfold uriDecodeDm dmRequestType
    rw [uriOptions_eq_nil.2 hobject]
    simp
  | true =>
    have hne : uri ≠ .reset := by
      rintro rfl
      nomatch hobject
    have hhead : (uriOptions uri).head? = some (idOption uri.objectId) := by
      simp [uriOptions, hobject]
    unfold uriDecodeDm dmRequestType
    rw [hhead, uriDecodeIds_uriOptions hclosed]
    simp [idOption_len_ne_zero, hne]

theorem uriDecode_uriOptions {uri : Lwm2mUri} (hclosed : uri.PrefixClosed) (code : UInt8) :
    uriDecode none (uriOptions uri) code = (dmRequestType uri code, uri) := by
  rw [← uriDecodeDm_uriOptions hclosed]
  cases hobject : uri.isSetObject with
  | false =>
    rw [uriOptions_eq_nil.2 hobject]
    rfl
  | true =>
    have hcons : ∃ rest, uriOptions uri = idOption uri.objectId :: rest := by
      simp [uriOptions, hobject]
    obtain ⟨rest, hrest⟩ := hcons
    rw [hrest]
    unfold uriDecode
    simp [uriRegistrationSegment, uriBootstrapSegment, uriSendSegment, idOption_isSegment, isDigit,
      uriDecodeAltPath]

theorem altPathOption_isPrefixOf (altPath : List UInt8) :
    (coapUriPathSegment (altPath.drop 1)).text.isPrefixOf (altPath.drop 1) = true :=
  List.isPrefixOf_iff_prefix.2 (List.take_prefix _ _)

def RequestType.isDm : RequestType → Bool
  | .dm | .deleteAll => true
  | _ => false

/-- Where the alternate path is taken for a reserved segment the request is another one. -/
theorem uriDecode_reserved {altPath : List UInt8} (h : isReservedAltPath altPath = true)
    (path : List MultiOption) (code : UInt8) :
    (uriDecode (some altPath) (coapUriPathSegment (altPath.drop 1) :: path) code).1.isDm =
      false := by
  simp only [isReservedAltPath, List.any_cons, List.any_nil, Bool.or_false] at h
  generalize coapUriPathSegment (altPath.drop 1) = first at h ⊢
  unfold uriDecode
  by_cases hregistration : first.isSegment uriRegistrationSegment = true
  · simp only [if_pos hregistration]
    cases path with
    | nil => rfl
    | cons object rest =>
      dsimp only
      cases uriGetNumber object with
      | none => rfl
      | some objectId => by_cases hrest : rest = [] <;> simp [hrest, RequestType.isDm]
  · simp only [if_neg hregistration]
    by_cases hbootstrap : first.isSegment uriBootstrapSegment = true
    · by_cases hpath : path = [] <;> simp [hbootstrap, hpath, RequestType.isDm]
    · have hsend : first.isSegment uriSendSegment = true := by
        simpa [hregistration, hbootstrap] using h
      by_cases hpath : path = [] <;> simp [hbootstrap, hsend, hpath, RequestType.isDm]

theorem uriDecode_altPath {altPath : List UInt8} (h : isReservedAltPath altPath = false)
    (path : List MultiOption) (code : UInt8) :
    uriDecode (some altPath) (coapUriPathSegment (altPath.drop 1) :: path) code =
      uriDecodeDm path code := by
  have hmatches := altPathOption_isPrefixOf altPath
  simp only [isReservedAltPath, List.any_cons, List.any_nil, Bool.or_false,
    Bool.or_eq_false_iff] at h
  obtain ⟨hregistration, hbootstrap, hsend⟩ := h
  unfold uriDecode
  simp only [hregistration, hbootstrap, hsend, uriDecodeAltPath, hmatches, if_true,
    Bool.false_eq_true, if_false]

/-- For every alternate path that is configured and every URI the path of a request is read back as
that URI exactly if the alternate path is not taken for a reserved segment. -/
theorem uriDecode_transactionUriPath_iff {given altPath : Option (List UInt8)}
    (hconfigured : lwm2mConfigureAltPath given = some altPath) {uri : Lwm2mUri}
    (hclosed : uri.PrefixClosed) (code : UInt8) :
    (∃ path, transactionUriPath altPath (some uri) = some path ∧
        uriDecode altPath path code = (dmRequestType uri code, uri)) ↔
      ∀ path, altPath = some path → isReservedAltPath path = false := by
  rw [transactionUriPath_eq]
  cases altPath with
  | none =>
    refine iff_of_true ⟨_, rfl, uriDecode_uriOptions hclosed code⟩ ?_
    intro path hpath
    nomatch hpath
  | some altPath =>
    cases hreserved : isReservedAltPath altPath with
    | false =>
      refine iff_of_true ⟨_, rfl, ?_⟩ ?_
      · rw [← uriDecodeDm_uriOptions hclosed]
        exact uriDecode_altPath hreserved (uriOptions uri) code
      · intro path hpath
        rwa [← Option.some.inj hpath]
    | true =>
      refine iff_of_false ?_ fun h => ?_
      · rintro ⟨path, hpath, hdecoded⟩
        obtain rfl := Option.some.inj hpath
        have hother := uriDecode_reserved hreserved (uriOptions uri) code
        simp only [Option.toList_some, List.map_cons, List.map_nil, List.singleton_append] at hdecoded
        rw [hdecoded, dmRequestType] at hother
        split at hother <;> nomatch hother
      · rw [h altPath rfl] at hreserved
        nomatch hreserved

/-- `/lwm2m/3/0`. -/
theorem deviceInstance_decoded : ∃ path,
    transactionUriPath (some [47, 108, 119, 109, 50, 109]) (some ⟨3, 0, 65535, 65535⟩) = some path ∧
      uriDecode (some [47, 108, 119, 109, 50, 109]) path coapGet = (.dm, ⟨3, 0, 65535, 65535⟩) := by
  have hclosed : Lwm2mUri.PrefixClosed ⟨3, 0, 65535, 65535⟩ := by decide
  have hconfigured : lwm2mConfigureAltPath (some [47, 108, 119, 109, 50, 109]) =
      some (some [47, 108, 119, 109, 50, 109]) := rfl
  refine (uriDecode_transactionUriPath_iff hconfigured hclosed coapGet).2 fun path hpath => ?_
  obtain rfl := Option.some.inj hpath
  decide

/-- With the alternate path `/rd` the request for `/3` is taken for an update of a registration. -/
theorem registrationAltPath_misread :
    lwm2mConfigureAltPath (some [47, 114, 100]) = some (some [47, 114, 100]) ∧
    Lwm2mUri.PrefixClosed ⟨3, 65535, 65535, 65535⟩ ∧
    ¬ ∃ path, transactionUriPath (some [47, 114, 100]) (some ⟨3, 65535, 65535, 65535⟩) = some path ∧
      uriDecode (some [47, 114, 100]) path coapGet =
        (dmRequestType ⟨3, 65535, 65535, 65535⟩ coapGet, ⟨3, 65535, 65535, 65535⟩) := by
  refine ⟨rfl, by decide, ?_⟩
  rintro ⟨path, hpath, hdecoded⟩
  rw [transactionUriPath_eq] at hpath
  obtain rfl := Option.some.inj hpath
  exact absurd hdecoded (by decide)

end Wakaama
