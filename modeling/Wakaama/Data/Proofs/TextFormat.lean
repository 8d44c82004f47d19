import Wakaama.Core.Proofs.Base64
import Wakaama.Core.Proofs.NumberBuffer
import Wakaama.Data.Proofs.CborReaders
import Wakaama.Data.TextFormat

/-!
# Values in text format are read back

Each type has a writer of its own. The numbers come back from their digits and the opaque bytes
from their base64 text; the `:` of an object link is stored at a fixed place, which is that behind
the object id only if the id has five digits.
-/

namespace Wakaama

variable {floatToText : UInt64 → List UInt8 → Except Fault (List UInt8 × Nat)}

variable {n : Nat} {allocated : Bool} {data : List UInt8} {uri : Lwm2mUri}

theorem intOfSize_low (hlow : n % 2 ^ 32 < 2 ^ 31) : intOfSize n = ((n % 2 ^ 32 : Nat) : Int) := by
  have hhalf : (n : Int) % (2 ^ 32 : Nat) < (((2 ^ 32 : Nat) : Int) + 1) / 2 := by omega
  exact (Int.bmod_eq_emod_of_lt hhalf).trans (Int.natCast_mod n (2 ^ 32)).symm

theorem intOfSize_nonneg (hnonneg : 0 ≤ intOfSize n) : n % 2 ^ 32 < 2 ^ 31 := by
  unfold intOfSize at hnonneg
  rw [Int.bmod_def] at hnonneg
  split at hnonneg
  · omega
  · omega

/-! ## Numbers -/

theorem loadBytes_start {memory : List UInt8} {count : Nat} (hinside : count ≤ memory.length) :
    loadBytes memory 0 count = .ok (memory.take count) := by
  rw [loadBytes, if_pos ⟨Int.le_refl 0, by omega⟩]
  rfl

theorem numberSerialize_exact {write : List UInt8 → Except Fault (List UInt8 × Nat)}
    {text string : List UInt8} (hexact : WritesExactly write text prvStrLength)
    (hfits : text.length ≤ prvStrLength) (hstring : string.length = prvStrLength) :
    numberSerialize allocated write string =
      .ok (if allocated then { buffer := text, result := text.length } else .refused) := by
  obtain ⟨string', n, hrun, hlength, hzero, htext⟩ := hexact string hstring
  have hne : n ≠ 0 := by
    intro hn
    exact absurd (hzero.1 hn) (Nat.not_lt.2 hfits)
  obtain ⟨rfl, htake⟩ := htext hne
  have hsmall : intOfSize text.length = text.length :=
    intOfSize_small (Nat.lt_of_le_of_lt hfits (by decide))
  rw [numberSerialize, hrun]
  cases allocated with
  | false => simp [pure, Except.pure]
  | true =>
    simp [hne, loadBytes_start (hlength ▸ hfits), htake, hsmall, pure, Except.pure]

theorem intText_length (data : Int64) : (intText data).length ≤ 21 := by
  have hlow := data.le_toInt
  have hhigh := data.toInt_lt
  have hdigits : (decimalText data.toInt.natAbs).length ≤ 19 + 1 :=
    decimalText_length_le (by omega)
  unfold intText signedText
  split <;> simp <;> omega

theorem integerSerialize_eq (allocated : Bool) (fresh : FreshMemory) (value : Int64) :
    numberSerialize allocated (utilsIntToTextAt value 0 prvStrLength) (fresh.bytes prvStrLength) =
      .ok (if allocated then { buffer := intText value, result := (intText value).length }
        else .refused) := by
  have hlength := intText_length value
  have hexact : WritesExactly (utilsIntToTextAt value 0 prvStrLength) (intText value)
      prvStrLength := by
    refine (utilsIntToTextAt_exact_iff value (by decide)).2 ?_
    unfold IntTextLength
    split_ifs <;> decide
  exact numberSerialize_exact hexact (Nat.le_trans hlength (by decide)) (fresh.length_eq _)

theorem unsignedSerialize_eq (allocated : Bool) (fresh : FreshMemory) (value : UInt64) :
    numberSerialize allocated (utilsUintToTextAt value 0 prvStrLength)
        (fresh.bytes prvStrLength) =
      .ok (if allocated then
          { buffer := decimalText value.toNat, result := (decimalText value.toNat).length }
        else .refused) := by
  have hlength := decimalText_uint64_length value
  have hexact := (utilsUintToTextAt_exact_iff value (by decide : prvStrLength < 2 ^ 64)).2
    (by decide)
  exact numberSerialize_exact hexact (Nat.le_trans hlength (by decide)) (fresh.length_eq _)

/-! ## Object links -/

theorem utilsUintToTextAt_terminated {data : UInt64} {string length : Nat}
    {memory memory' : List UInt8}
    (hrun : utilsUintToTextAt data string length memory = .ok (memory', n)) (hpos : 0 < n)
    (hshort : n < length) : memory'[string + n]? = some 0 := by
  unfold utilsUintToTextAt at hrun
  split at hrun
  · cases hrun
    exact absurd hpos (Nat.lt_irrefl 0)
  · obtain ⟨⟨written, left, index⟩, -, hrun⟩ := bind_eq_ok.1 hrun
    dsimp only at hrun
    split at hrun
    · cases hrun
      exact absurd hpos (Nat.lt_irrefl 0)
    · split at hrun
      · obtain ⟨moved, -, hrun⟩ := bind_eq_ok.1 hrun
        obtain ⟨terminated, hstore, hrun⟩ := bind_eq_ok.1 hrun
        cases hrun
        obtain ⟨hinside, rfl⟩ := storeByte_ok hstore
        rw [Int.toNat_natCast, List.getElem?_set_self (by omega)]
      · cases hrun
        exact absurd hshort ‹_›

theorem utilsIntToTextAt_five (id : UInt16) {front area back : List UInt8}
    (harea : area.length = 5) :
    ∃ rest, utilsIntToTextAt id.toUInt64.toInt64 front.length 5 (front ++ area ++ back) =
        .ok (front ++ (decimalText id.toNat ++ rest) ++ back, (decimalText id.toNat).length) ∧
      (decimalText id.toNat).length + rest.length = 5 ∧
      (rest ≠ [] → ∃ rest', rest = 0 :: rest') := by
  have hdigits := decimalText_id_length id
  have hpos := decimalText_length_pos id.toNat
  obtain ⟨area', hrun, hlength, htake⟩ :=
    @utilsUintToTextAt_narrow id.toUInt64 front area back (by omega)
  rw [utilsUintToText_eq, decimalText_uint16, harea, if_pos hdigits] at hrun htake
  obtain ⟨rest, rfl⟩ : ∃ rest, area' = decimalText id.toNat ++ rest :=
    ⟨area'.drop (decimalText id.toNat).length, by
      conv_lhs => rw [← List.take_append_drop (decimalText id.toNat).length area', ← htake]⟩
  rw [List.length_append] at hlength
  refine ⟨rest, by rw [utilsIntToTextAt_id, hrun], by omega, ?_⟩
  intro hmore
  cases rest with
  | nil => exact absurd rfl hmore
  | cons first rest =>
    rw [List.length_cons] at hlength
    have hnul := utilsUintToTextAt_terminated hrun hpos (by omega)
    rw [List.append_assoc, List.getElem?_append_right (Nat.le_add_right _ _),
      Nat.add_sub_cancel_left, List.append_assoc, List.getElem?_append_right (Nat.le_refl _),
      Nat.sub_self] at hnul
    obtain rfl : first = 0 := by simpa using hnul
    exact ⟨rest, rfl⟩

/-- What stands between the ids: the `:` behind five digits, and NUL behind fewer. -/
def linkSeparator (objectId : UInt16) : UInt8 := if 10000 ≤ objectId then 58 else 0

def linkText (objectId objectInstanceId : UInt16) : List UInt8 :=
  decimalText objectId.toNat ++ linkSeparator objectId :: decimalText objectInstanceId.toNat

theorem decimalText_length_le_iff {n k : Nat} (hk : 0 < k) :
    (decimalText n).length ≤ k ↔ n < 10 ^ k := by
  obtain ⟨k, rfl⟩ := Nat.exists_eq_succ_of_ne_zero (Nat.ne_of_gt hk)
  refine ⟨fun hlength => ?_, decimalText_length_le⟩
  unfold decimalText at hlength
  split at hlength
  · rename_i hzero
    rw [hzero]
    exact Nat.pos_of_ne_zero (by simp)
  · rw [List.length_map, List.length_reverse] at hlength
    exact (Nat.digits_length_le_iff (by decide) n).1 hlength

theorem fiveDigits_iff (id : UInt16) : (decimalText id.toNat).length = 5 ↔ 10000 ≤ id := by
  have hshort := @decimalText_length_le_iff id.toNat 4 (by decide)
  have hdigits := decimalText_id_length id
  rw [UInt16.le_iff_toNat_le, show (10000 : UInt16).toNat = 10000 from rfl]
  omega

theorem objLinkSerialize_eq (allocated : Bool) (objectId objectInstanceId : UInt16)
    {stringBuffer : List UInt8} (hbuffer : stringBuffer.length = 11) :
    objLinkSerialize allocated objectId objectInstanceId stringBuffer =
      .ok (if allocated then
          { buffer := linkText objectId objectInstanceId
            result := (linkText objectId objectInstanceId).length }
        else .refused) := by
  have hpos := decimalText_length_pos objectId.toNat
  have hpos' := decimalText_length_pos objectInstanceId.toNat
  have hdigits := decimalText_id_length objectInstanceId
  obtain ⟨area, back, rfl, harea, hback⟩ : ∃ area back, stringBuffer = area ++ back ∧
      area.length = 5 ∧ back.length = 6 :=
    ⟨stringBuffer.take 5, stringBuffer.drop 5, (List.take_append_drop _ _).symm,
      by rw [List.length_take]; omega, by rw [List.length_drop]; omega⟩
  obtain ⟨rest, hfirst, hrest, hnul⟩ := @utilsIntToTextAt_five objectId [] area back harea
  -- behind the first id and what separates it there is room for five digits
  obtain ⟨area', back', hstore, harea'⟩ : ∃ area' back',
      storeByte (decimalText objectId.toNat ++ rest ++ back) (5 : Nat) 58 =
        .ok ((decimalText objectId.toNat ++ [linkSeparator objectId]) ++ area' ++ back') ∧
      area'.length = 5 := by
    obtain ⟨old, back, rfl⟩ := List.exists_cons_of_length_pos (by omega : 0 < back.length)
    rw [List.length_cons] at hback
    rw [storeByte_place old 58 (by rw [List.length_append]; omega)]
    by_cases hfive : 10000 ≤ objectId
    · have hlength := (fiveDigits_iff objectId).2 hfive
      obtain rfl : rest = [] := List.eq_nil_of_length_eq_zero (by omega)
      exact ⟨back, [], by simp [linkSeparator, hfive], by omega⟩
    · have hlength := mt (fiveDigits_iff objectId).1 hfive
      obtain ⟨rest, rfl⟩ := hnul (by
        rintro rfl
        rw [List.length_nil] at hrest
        omega)
      refine ⟨(rest ++ 58 :: back).take 5, (rest ++ 58 :: back).drop 5, ?_, ?_⟩
      · simp [linkSeparator, hfive]
      · rw [List.length_take, List.length_append, List.length_cons]
        omega
  obtain ⟨rest', hsecond, hrest', -⟩ := @utilsIntToTextAt_five objectInstanceId
    (decimalText objectId.toNat ++ [linkSeparator objectId]) area' back' harea'
  have hlink : (linkText objectId objectInstanceId).length =
      (decimalText objectId.toNat).length + 1 + (decimalText objectInstanceId.toNat).length := by
    rw [linkText, List.length_append, List.length_cons]
    omega
  have hwritten : (decimalText objectId.toNat ++ [linkSeparator objectId]) ++
      (decimalText objectInstanceId.toNat ++ rest') ++ back' =
        linkText objectId objectInstanceId ++ (rest' ++ back') := by
    simp [linkText]
  rw [List.length_append, List.length_singleton] at hsecond
  rw [List.nil_append, List.nil_append, List.length_nil] at hfirst
  rw [Nat.cast_ofNat] at hstore
  have hsmall : intOfSize (linkText objectId objectInstanceId).length =
      (linkText objectId objectInstanceId).length :=
    intOfSize_small (by have := decimalText_id_length objectId; omega)
  have hload : loadBytes (linkText objectId objectInstanceId ++ (rest' ++ back')) 0
      (linkText objectId objectInstanceId).length = .ok (linkText objectId objectInstanceId) := by
    rw [loadBytes_start (by rw [List.length_append]; exact Nat.le_add_right _ _),
      List.take_left' rfl]
  simp only [objLinkSerialize, hfirst, ok_bind, Nat.ne_of_gt hpos, if_false, hstore, hsecond,
    Nat.ne_of_gt hpos', hwritten, ← hlink]
  cases allocated with
  | false => rfl
  | true => simp only [Bool.true_eq_false, if_false, hload, ok_bind, hsmall]; rfl

/-! ## Object links that are read back -/

theorem linkText_of_le {objectId : UInt16} (hfive : 10000 ≤ objectId)
    (objectInstanceId : UInt16) :
    linkText objectId objectInstanceId = objLinkDecimal objectId objectInstanceId := by
  rw [linkText, linkSeparator, if_pos hfive, objLinkDecimal]

theorem decimalText_no_colon (n : Nat) : (58 : UInt8) ∉ decimalText n := by
  intro hmem
  exact absurd (decimalText_isDigit n _ hmem) (by decide)

theorem utilsTextToObjLink_no_colon {text : List UInt8} (hnone : (58 : UInt8) ∉ text) :
    utilsTextToObjLink text = none := by
  have hwhole : text.takeWhile (fun character => character != 58) = text := by
    have hother : ∀ character ∈ text, (character != 58) = true := by
      intro character hmem
      rw [bne_iff_ne]
      rintro rfl
      exact hnone hmem
    have happend := @List.takeWhile_append_of_pos _ _ text [] hother
    rwa [List.append_nil, List.takeWhile_nil, List.append_nil] at happend
  unfold utilsTextToObjLink
  simp only [hwhole, or_true, if_true]

theorem utilsTextToObjLink_linkText (objectId objectInstanceId : UInt16) :
    utilsTextToObjLink (linkText objectId objectInstanceId) = some (objectId, objectInstanceId) ↔
      10000 ≤ objectId := by
  constructor
  · intro hread
    by_contra hfew
    have hnone : (58 : UInt8) ∉ linkText objectId objectInstanceId := by
      rw [linkText, linkSeparator, if_neg hfew, List.mem_append, List.mem_cons, not_or, not_or]
      exact ⟨decimalText_no_colon _, by decide, decimalText_no_colon _⟩
    rw [utilsTextToObjLink_no_colon hnone] at hread
    cases hread
  · intro hfive
    rw [linkText_of_le hfive]
    exact utilsTextToObjLink_objLinkDecimal objectId objectInstanceId

/-! ## Opaque bytes -/

theorem base64EncodeRounds_endless (hlong : 2 ^ 32 ≤ data.length) :
    ∀ (fuel : Nat) {dataIndex resultIndex : Nat} {buffer buffer' : List UInt8},
      dataIndex < 2 ^ 32 →
      base64EncodeRounds data fuel dataIndex resultIndex buffer ≠ .ok (some buffer') := by
  intro fuel
  induction fuel with
  | zero =>
    intro dataIndex resultIndex buffer buffer' hlt
    rw [base64EncodeRounds, if_pos (by omega)]
    intro hrun
    cases hrun
  | succ fuel ih =>
    intro dataIndex resultIndex buffer buffer' hlt
    rw [base64EncodeRounds, if_pos (by omega)]
    intro hrun
    obtain ⟨stored, -, hrest⟩ := bind_eq_ok.1 hrun
    exact ih (Nat.mod_lt _ (by decide)) hrest

theorem utilsBase64GetDecodedSize_le (text : List UInt8) :
    utilsBase64GetDecodedSize text ≤ text.length := by
  unfold utilsBase64GetDecodedSize
  dsimp only
  split
  · split_ifs <;> omega
  · omega
  · omega
  · omega

theorem decoded_length_le {text bytes : List UInt8}
    (hdecoded : ∀ buffer : List UInt8, buffer.length = utilsBase64GetDecodedSize text →
      ∃ buffer', utilsBase64DecodeAt text buffer = .ok (buffer', bytes.length) ∧
        buffer'.take bytes.length = bytes) : bytes.length ≤ text.length := by
  obtain ⟨buffer', hrun, -⟩ := hdecoded (List.replicate _ 0) List.length_replicate
  obtain ⟨buffer'', n, hrun', -, hn⟩ := utilsBase64DecodeAt_inside text
    (List.replicate (utilsBase64GetDecodedSize text) 0)
  rw [hrun] at hrun'
  cases hrun'
  have hle := utilsBase64GetDecodedSize_le text
  omega

theorem opaqueSerialize_wraps {fuel : Nat} {fresh : FreshMemory} {text : SerializedText}
    (hlong : 2 ^ 32 ≤ utilsBase64GetSize data.length)
    (hrun : opaqueSerialize fuel true fresh data = .ok (some text)) :
    0 ≤ text.result ∧ text.result < data.length := by
  rw [opaqueSerialize, if_neg Bool.noConfusion] at hrun
  obtain ⟨encoded, hencoded, hrun⟩ := bind_eq_ok.1 hrun
  cases encoded with
  | none => cases hrun
  | some encoded =>
    obtain ⟨buffer, length⟩ := encoded
    unfold utilsBase64EncodeAt at hencoded
    rw [fresh.length_eq, if_neg (Nat.lt_irrefl _)] at hencoded
    obtain ⟨written, hrounds, hresult⟩ := bind_eq_ok.1 hencoded
    cases written with
    | none => cases hresult
    | some written =>
      cases hresult
      have hshort : data.length < 2 ^ 32 := by
        refine Nat.lt_of_not_le fun hmany => ?_
        exact base64EncodeRounds_endless hmany fuel (Nat.two_pow_pos 32) hrounds
      have hsize : utilsBase64GetSize data.length < 2 ^ 32 + 2 ^ 31 ∧ 2 ^ 31 < data.length := by
        unfold utilsBase64GetSize at hlong ⊢
        split_ifs at hlong ⊢ <;> omega
      dsimp only at hrun
      rw [if_neg (by omega)] at hrun
      cases hrun
      dsimp only
      rw [intOfSize_low (by omega)]
      omega

theorem opaqueSerialize_eq (fresh : FreshMemory)
    (hshort : utilsBase64GetSize data.length < 2 ^ 32) :
    opaqueSerialize data.length true fresh data =
      .ok (some { buffer := base64EncodeLoop data
                  result := intOfSize (utilsBase64GetSize data.length) }) := by
  have hdata : data.length ≤ 3 * 2 ^ 30 := by
    unfold utilsBase64GetSize at hshort
    split at hshort <;> omega
  have hencoded := @utilsBase64EncodeAt_encodes data hdata
    (fresh.bytes (utilsBase64GetSize data.length)) (Nat.le_of_eq (fresh.length_eq _).symm)
  rw [List.drop_of_length_le (Nat.le_of_eq (fresh.length_eq _)), List.append_nil] at hencoded
  rw [opaqueSerialize, if_neg Bool.noConfusion, hencoded, ok_bind]
  dsimp only
  split
  · rename_i hzero
    have hnil : data = [] := by
      refine List.eq_nil_of_length_eq_zero ?_
      unfold utilsBase64GetSize at hzero
      split at hzero <;> omega
    rw [hnil]
    rfl
  · rfl

theorem decoded_base64EncodeLoop (data : List UInt8) (buffer : List UInt8)
    (hbuffer : buffer.length = utilsBase64GetDecodedSize (base64EncodeLoop data)) :
    ∃ buffer', utilsBase64DecodeAt (base64EncodeLoop data) buffer = .ok (buffer', data.length) ∧
      buffer'.take data.length = data := by
  have hsize := utilsBase64GetDecodedSize_encoded data
  have hdecoded := base64DecodeLoop_encoded data []
  rw [List.length_nil, Nat.zero_add, ← hsize] at hdecoded
  obtain ⟨rest, hrest⟩ := utilsBase64DecodeAt_decoded hdecoded (Nat.le_of_eq hbuffer.symm)
  rw [hsize] at hrest
  exact ⟨_, hrest, List.take_left' rfl⟩

/-! ## All types -/

theorem lwm2mDataParseText_some (hresource : uri.isSetResource = true) (buffer : List UInt8) :
    ∃ parsed, lwm2mDataParseText uri buffer = some parsed ∧ parsed.type = .string ∧
      parsed.asBuffer = buffer := by
  refine ⟨_, by rw [lwm2mDataParseText, if_neg (by simp [hresource])], rfl, rfl⟩

theorem lwm2mDataParseText_asBuffer {buffer : List UInt8} {parsed : Lwm2mData}
    (hparsed : lwm2mDataParseText uri buffer = some parsed) : parsed.asBuffer = buffer := by
  rw [lwm2mDataParseText] at hparsed
  split at hparsed
  · cases hparsed
  · cases hparsed
    rfl

theorem keepsTextFormat_value (hresource : uri.isSetResource = true) (value : TextValue)
    (id : UInt16) : keepsTextFormat uri 1 (value.data id).type = true := by
  cases value <;> simp [keepsTextFormat, hresource, TextValue.data, Lwm2mData.type,
    DataType.hasChildren]

theorem textRoundTrips_of_text {value : TextValue} (fuel : Nat)
    (text : FreshMemory → SerializedText)
    (hrun : ∀ fresh id, prvTextSerialize floatToText fuel allocated fresh (value.data id) = .ok (some (text fresh)))
    (hread : ∀ fresh, 0 ≤ (text fresh).result → ∀ parsed : Lwm2mData, parsed.type = .string → parsed.asBuffer = (text fresh).buffer.take (text fresh).result.toNat → value.DecodedFrom parsed) :
    TextRoundTrips floatToText allocated value := by
  intro fresh uri id hresource
  refine ⟨keepsTextFormat_value hresource value id, fuel, text fresh, hrun fresh id, ?_⟩
  intro hresult
  obtain ⟨parsed, hparsed, htype, hbuffer⟩ := lwm2mDataParseText_some hresource
    ((text fresh).buffer.take (text fresh).result.toNat)
  exact ⟨parsed, hparsed, hread fresh hresult parsed htype hbuffer⟩

/-- Memory that holds nothing yet. -/
def zeroMemory : FreshMemory where
  bytes n := List.replicate n 0
  length_eq _ := List.length_replicate

/-- `/3/0/0`. -/
def firstResource : Lwm2mUri := { objectId := 3, instanceId := 0, resourceId := 0, resourceInstanceId := 65535 }

theorem TextRoundTrips.text {value : TextValue}
    (hround : TextRoundTrips floatToText allocated value) :
    ∃ fuel text, prvTextSerialize floatToText fuel allocated zeroMemory (value.data 0) =
        .ok (some text) ∧
      (0 ≤ text.result → ∃ parsed : Lwm2mData,
        parsed.asBuffer = text.buffer.take text.result.toNat ∧ value.DecodedFrom parsed) := by
  obtain ⟨-, fuel, text, hrun, hread⟩ := hround zeroMemory firstResource 0 rfl
  refine ⟨fuel, text, hrun, fun hresult => ?_⟩
  obtain ⟨parsed, hparsed, hvalue⟩ := hread hresult
  exact ⟨parsed, lwm2mDataParseText_asBuffer hparsed, hvalue⟩

theorem textRoundTrips_string_iff (allocated : Bool) (bytes : List UInt8) :
    TextRoundTrips floatToText allocated (.string bytes) ↔
      TextReadBack allocated (.string bytes) := by
  cases allocated with
  | false =>
    simp only [TextReadBack, Bool.false_eq_true, if_false]
    constructor
    · intro hround
      obtain ⟨fuel, text, hrun, hread⟩ := hround.text
      cases hrun
      obtain ⟨parsed, hbuffer, hvalue⟩ := hread (Int.le_refl 0)
      exact hvalue.symm.trans hbuffer
    · rintro rfl
      refine textRoundTrips_of_text 0 (fun _ => .nothing) (fun _ _ => rfl) ?_
      intro _ _ parsed _ hbuffer
      exact hbuffer
  | true =>
    simp only [TextReadBack, if_true]
    constructor
    · intro hround
      obtain ⟨fuel, text, hrun, hread⟩ := hround.text
      cases hrun
      refine or_iff_not_imp_left.2 fun hlong => Nat.le_of_not_lt fun hlow => ?_
      have hresult : intOfSize (TextValue.data 0 (.string bytes)).asBuffer.length =
          ((bytes.length % 2 ^ 32 : Nat) : Int) := intOfSize_low hlow
      dsimp only at hread
      rw [hresult] at hread
      obtain ⟨parsed, hbuffer, hvalue⟩ := hread (Int.natCast_nonneg _)
      have hlength := congrArg List.length (hvalue.symm.trans hbuffer)
      rw [Int.toNat_natCast, List.length_take] at hlength
      omega
    · intro hlength
      refine textRoundTrips_of_text 0
        (fun _ => { buffer := bytes, result := intOfSize bytes.length }) (fun _ _ => rfl) ?_
      intro _ hresult parsed _ hbuffer
      dsimp only at hresult hbuffer
      have hlow := intOfSize_nonneg hresult
      rw [intOfSize_small (by omega), Int.toNat_natCast, List.take_length] at hbuffer
      exact hbuffer

theorem textRoundTrips_opaque_iff (allocated : Bool) (bytes : List UInt8) :
    TextRoundTrips floatToText allocated (.opaqueBytes bytes) ↔
      TextReadBack allocated (.opaqueBytes bytes) := by
  cases allocated with
  | false =>
    simp only [TextReadBack, Bool.false_eq_true, if_false]
    constructor
    · intro hround
      obtain ⟨fuel, text, hrun, hread⟩ := hround.text
      cases hrun
      obtain ⟨parsed, hbuffer, hvalue⟩ := hread (Int.le_refl 0)
      have hlength := decoded_length_le hvalue
      rw [hbuffer] at hlength
      exact List.eq_nil_of_length_eq_zero (Nat.le_zero.1 hlength)
    · rintro rfl
      refine textRoundTrips_of_text 0 (fun _ => .nothing) (fun _ _ => rfl) ?_
      intro _ _ parsed _ hbuffer
      rw [TextValue.DecodedFrom, hbuffer]
      exact decoded_base64EncodeLoop []
  | true =>
    simp only [TextReadBack, if_true]
    constructor
    · intro hround
      refine Nat.lt_of_not_le fun hlong => ?_
      obtain ⟨fuel, text, hrun, hread⟩ := hround.text
      obtain ⟨hnonneg, hlow⟩ := opaqueSerialize_wraps hlong hrun
      obtain ⟨parsed, hbuffer, hvalue⟩ := hread hnonneg
      have hlength := decoded_length_le hvalue
      rw [hbuffer, List.length_take] at hlength
      omega
    · intro hshort
      refine textRoundTrips_of_text bytes.length
        (fun _ => { buffer := base64EncodeLoop bytes
                    result := intOfSize (utilsBase64GetSize bytes.length) })
        (fun fresh _ => opaqueSerialize_eq fresh hshort) ?_
      intro _ hresult parsed _ hbuffer
      dsimp only at hresult hbuffer
      have hlow := intOfSize_nonneg hresult
      rw [intOfSize_small (by omega), Int.toNat_natCast, ← base64EncodeLoop_length,
        List.take_length] at hbuffer
      rw [TextValue.DecodedFrom, hbuffer]
      exact decoded_base64EncodeLoop bytes

theorem textRoundTrips_objectLink_iff (allocated : Bool) (objectId objectInstanceId : UInt16) :
    TextRoundTrips floatToText allocated (.objectLink objectId objectInstanceId) ↔
      TextReadBack allocated (.objectLink objectId objectInstanceId) := by
  have hserialize : ∀ fresh id, prvTextSerialize floatToText 0 allocated fresh
      ((TextValue.objectLink objectId objectInstanceId).data id) =
        .ok (some (if allocated then
          { buffer := linkText objectId objectInstanceId
            result := (linkText objectId objectInstanceId).length } else .refused)) := by
    intro fresh id
    show (objLinkSerialize allocated objectId objectInstanceId (fresh.bytes 11)).map some = _
    rw [objLinkSerialize_eq allocated objectId objectInstanceId (fresh.length_eq 11)]
    rfl
  rw [TextReadBack]
  constructor
  · rintro hround rfl
    obtain ⟨fuel, text, hrun, hread⟩ := hround.text
    have hsame := (hserialize zeroMemory 0).symm.trans hrun
    cases hsame
    obtain ⟨parsed, hbuffer, hvalue⟩ := hread (Int.natCast_nonneg _)
    rw [TextValue.DecodedFrom, hbuffer] at hvalue
    simp only [if_true, Int.toNat_natCast, List.take_length] at hvalue
    exact (utilsTextToObjLink_linkText objectId objectInstanceId).1 hvalue
  · intro hfive
    refine textRoundTrips_of_text 0 _ (fun fresh id => hserialize fresh id) ?_
    intro _ hresult parsed _ hbuffer
    cases allocated with
    | false => exact absurd hresult (show ¬ (0 : Int) ≤ -1 by decide)
    | true =>
      rw [TextValue.DecodedFrom, hbuffer]
      simp only [if_true, Int.toNat_natCast, List.take_length]
      exact (utilsTextToObjLink_linkText objectId objectInstanceId).2 (hfive rfl)

theorem textRoundTrips_number {allocated : Bool} {value : TextValue} {number : List UInt8}
    (hrun : ∀ fresh id, prvTextSerialize floatToText 0 allocated fresh (value.data id) =
      .ok (some (if allocated then { buffer := number, result := number.length } else .refused)))
    (hread : ∀ parsed : Lwm2mData, parsed.type = .string → parsed.asBuffer = number →
      value.DecodedFrom parsed) : TextRoundTrips floatToText allocated value := by
  refine textRoundTrips_of_text 0 _ hrun ?_
  intro _ hresult parsed htype hbuffer
  cases allocated with
  | false => exact absurd hresult (show ¬ (0 : Int) ≤ -1 by decide)
  | true =>
    refine hread parsed htype (hbuffer.trans ?_)
    simp only [if_true, Int.toNat_natCast, List.take_length]

/-- The values of a resource that come back from their text. -/
theorem textFormat_iff
    (floatToText : UInt64 → List UInt8 → Except Fault (List UInt8 × Nat))
    (allocated : Bool) (value : TextValue) :
    TextRoundTrips floatToText allocated value ↔ TextReadBack allocated value := by
  cases value with
  | string bytes => exact textRoundTrips_string_iff allocated bytes
  | opaqueBytes bytes => exact textRoundTrips_opaque_iff allocated bytes
  | objectLink objectId objectInstanceId =>
    exact textRoundTrips_objectLink_iff allocated objectId objectInstanceId
  | integer value =>
    refine iff_of_true (@textRoundTrips_number _ allocated _ (intText value) ?_ ?_) trivial
    · intro fresh id
      show (numberSerialize _ _ _).map some = _
      rw [show (TextValue.data id (.integer value)).asInteger = value from rfl,
        integerSerialize_eq]
      rfl
    · intro parsed htype hbuffer
      simp only [TextValue.DecodedFrom, lwm2mDataDecodeInt, htype, hbuffer]
      exact utilsTextToInt_intText value
  | unsigned value =>
    refine iff_of_true (@textRoundTrips_number _ allocated _ (decimalText value.toNat) ?_ ?_)
      trivial
    · intro fresh id
      show (numberSerialize _ _ _).map some = _
      rw [show (TextValue.data id (.unsigned value)).asUnsigned = value from rfl,
        unsignedSerialize_eq]
      rfl
    · intro parsed htype hbuffer
      simp only [TextValue.DecodedFrom, lwm2mDataDecodeUint, htype, hbuffer]
      exact utilsTextToUInt_decimalText value
  | boolean value =>
    refine iff_of_true (@textRoundTrips_number _ allocated _ [if value then 49 else 48] ?_ ?_)
      trivial
    · intro fresh id
      cases allocated <;> rfl
    · intro parsed htype hbuffer
      simp only [TextValue.DecodedFrom, lwm2mDataDecodeBool, htype, hbuffer]
      cases value <;> rfl

/-- A writer of floats that gives up. -/
def noFloats (_ : UInt64) (string : List UInt8) : Except Fault (List UInt8 × Nat) := .ok (string, 0)

/-- The link 3:0 is written with a NUL for its `:`, and is not read back; nor is a string for which
there is no memory, though the result is 0. -/
theorem shortLink_lost :
    prvTextSerialize noFloats 0 true zeroMemory ((TextValue.objectLink 3 0).data 0) =
        .ok (some { buffer := [51, 0, 48], result := 3 }) ∧
      ¬ TextRoundTrips noFloats true (.objectLink 3 0) ∧
      ¬ TextRoundTrips noFloats false (.string [97]) := by
  refine ⟨rfl, fun hround => ?_, fun hround => ?_⟩
  · exact absurd ((textRoundTrips_objectLink_iff true 3 0).1 hround rfl) (by decide)
  · exact absurd ((textRoundTrips_string_iff false [97]).1 hround) nofun

end Wakaama
