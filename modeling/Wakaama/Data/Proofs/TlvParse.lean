import Wakaama.Data.Proofs.TlvHeader

/-!
# The TLV round trip: shapes and parsing

When parsed data matches the data that was serialized, and what `tlv_parse` makes of a header
and its content.
-/

namespace Wakaama

/-- `lwm2m_data_decode_*` as the type of the original asks for, the object link being two ids in
network order. -/
def leafDecodes (original parsed : Lwm2mData) : Prop :=
  match original.type with
  | .string | .opaqueBytes | .coreLink => parsed.asBuffer = original.asBuffer
  | .integer => lwm2mDataDecodeInt parsed = some original.asInteger
  | .unsignedInteger => lwm2mDataDecodeUint parsed = some original.asUnsigned
  | .boolean => lwm2mDataDecodeBool parsed = some original.asBoolean
  | .objectLink =>
    parsed.asBuffer.length = 4 ∧
      bigEndianValue (parsed.asBuffer.take 2) = original.asObjLink.1.toNat ∧
      bigEndianValue (parsed.asBuffer.drop 2) = original.asObjLink.2.toNat
  | _ => False

mutual

/-- The parsed data has the id of the original; a container is one of the same type with the
same content, a leaf is OPAQUE and decodes to the original value. -/
def TlvMatches : Lwm2mData → Lwm2mData → Prop
  | .node type id value, parsed =>
    parsed.id = id ∧
      if type.tlvContainer then parsed.type = type ∧ TlvChildrenMatch value parsed.children
      else parsed.type = .opaqueBytes ∧ leafDecodes (.node type id value) parsed

def TlvChildrenMatch : DataValue Lwm2mData → List Lwm2mData → Prop
  | .asChildren array, parsed => TlvListMatches array parsed
  | _, parsed => parsed = []

/-- Two lists of the same shape. -/
def TlvListMatches : List Lwm2mData → List Lwm2mData → Prop
  | [], parsed => parsed = []
  | _ :: _, [] => False
  | data :: rest, parsed :: more => TlvMatches data parsed ∧ TlvListMatches rest more

end

mutual

/-- The data has no OBJECT, UNDEFINED or FLOAT node. -/
def TlvNodes : Lwm2mData → Prop
  | .node type _ value =>
    type ≠ .object ∧ type ≠ .undefined ∧ type ≠ .float ∧
      (type.tlvContainer = true → TlvChildNodes value)

def TlvChildNodes : DataValue Lwm2mData → Prop
  | .asChildren array => TlvListNodes array
  | _ => True

def TlvListNodes : List Lwm2mData → Prop
  | [] => True
  | data :: rest => TlvNodes data ∧ TlvListNodes rest

end

variable {id : UInt16} {dataLen : Nat} {type : DataType} {buffer bytes : List UInt8}

theorem tlvHeaderId_pos {first : UInt8} {rest : List UInt8} {idLen : Nat}
    (h : tlvHeaderId first rest = some (id, idLen)) : 1 ≤ idLen := by
  unfold tlvHeaderId at h
  split at h
  · split at h
    · simp only [Option.some.injEq, Prod.mk.injEq] at h
      omega
    · cases h
  · split at h
    · simp only [Option.some.injEq, Prod.mk.injEq] at h
      omega
    · cases h

theorem lwm2mDecodeTlv_bounds {dataIndex : Nat}
    (h : lwm2mDecodeTlv buffer = some (type, id, dataIndex, dataLen)) :
    2 ≤ dataIndex ∧ dataIndex + dataLen ≤ buffer.length := by
  unfold lwm2mDecodeTlv at h
  split at h
  · cases h
  · cases h
  · split at h
    · cases h
    · rename_i hid
      split at h
      · cases h
      · simp only at h
        split at h
        · cases h
        · rename_i hroom
          simp only [Option.some.injEq, Prod.mk.injEq] at h
          obtain ⟨-, -, rfl, rfl⟩ := h
          have := tlvHeaderId_pos hid
          constructor <;> omega

theorem tlvParseLoop_fuel {fuel fuel' : Nat} (h : buffer.length ≤ fuel)
    (h' : buffer.length ≤ fuel') : tlvParseLoop fuel buffer = tlvParseLoop fuel' buffer := by
  induction fuel generalizing fuel' buffer with
  | zero =>
    obtain rfl : buffer = [] := List.length_eq_zero_iff.mp (by omega)
    cases fuel' <;> rfl
  | succ fuel ih =>
    cases fuel' with
    | zero =>
      obtain rfl : buffer = [] := List.length_eq_zero_iff.mp (by omega)
      rfl
    | succ fuel' =>
      unfold tlvParseLoop
      cases hdecode : lwm2mDecodeTlv buffer with
      | none => rfl
      | some header =>
        obtain ⟨type, id, dataIndex, dataLen⟩ := header
        obtain ⟨hindex, hroom⟩ := lwm2mDecodeTlv_bounds hdecode
        have hrest : tlvParseLoop fuel (buffer.drop (dataIndex + dataLen)) =
            tlvParseLoop fuel' (buffer.drop (dataIndex + dataLen)) :=
          ih (by simp; omega) (by simp; omega)
        have hdata : tlvParseLoop fuel ((buffer.drop dataIndex).take dataLen) =
            tlvParseLoop fuel' ((buffer.drop dataIndex).take dataLen) :=
          ih (by simp; omega) (by simp; omega)
        simp only [hrest, hdata]

/-- The loop of `tlv_parse` with fuel enough. -/
def tlvParseAll (buffer : List UInt8) : Option (List Lwm2mData) :=
  tlvParseLoop buffer.length buffer

theorem tlvParseAll_eq {dataIndex : Nat}
    (h : lwm2mDecodeTlv buffer = some (type, id, dataIndex, dataLen)) :
    tlvParseAll buffer =
      if type.tlvContainer then
        (tlvContent (tlvParseAll ((buffer.drop dataIndex).take dataLen))).bind fun array =>
          (tlvParseAll (buffer.drop (dataIndex + dataLen))).map
            (.node type id (.asChildren array) :: ·)
      else (tlvParseAll (buffer.drop (dataIndex + dataLen))).map
          (.node .opaqueBytes id (.asBuffer ((buffer.drop dataIndex).take dataLen)) :: ·) := by
  obtain ⟨hindex, hroom⟩ := lwm2mDecodeTlv_bounds h
  obtain ⟨fuel, hfuel⟩ : ∃ fuel, buffer.length = fuel + 1 := ⟨buffer.length - 1, by omega⟩
  have hrest : tlvParseLoop fuel (buffer.drop (dataIndex + dataLen)) =
      tlvParseAll (buffer.drop (dataIndex + dataLen)) :=
    tlvParseLoop_fuel (by simp; omega) (Nat.le_refl _)
  have hdata : tlvParseLoop fuel ((buffer.drop dataIndex).take dataLen) =
      tlvParseAll ((buffer.drop dataIndex).take dataLen) :=
    tlvParseLoop_fuel (by simp; omega) (Nat.le_refl _)
  rw [tlvParseAll, hfuel, tlvParseLoop]
  simp only [h, hrest, hdata]

theorem tlvParseAll_nil : tlvParseAll [] = some [] := rfl

theorem tlvParseAll_chunk (fresh : Nat → UInt8) (index : Nat) (isInstance : Bool)
    (type : DataType) (id : UInt16) {payload : List UInt8} (hlen : payload.length ≤ 0xFFFFFF)
    (rest : List UInt8) :
    tlvParseAll (prvCreateHeader fresh index isInstance type id payload.length ++
        payload ++ rest) =
      let found := prvGetDataType (headerBase isInstance type id &&& prvTlvTypeMask)
      if found.tlvContainer then
        (tlvContent (tlvParseAll payload)).bind fun array =>
          (tlvParseAll rest).map (.node found id (.asChildren array) :: ·)
      else (tlvParseAll rest).map (.node .opaqueBytes id (.asBuffer payload) :: ·) := by
  have hlength := prvCreateHeader_length fresh index isInstance type id payload.length
  have hdecode := lwm2mDecodeTlv_header fresh index isInstance type id hlen
    (show payload.length ≤ (payload ++ rest).length by simp)
  rw [← hlength, ← List.append_assoc] at hdecode
  have heq := tlvParseAll_eq hdecode
  have hdata : ((prvCreateHeader fresh index isInstance type id payload.length ++ payload ++
      rest).drop (prvCreateHeader fresh index isInstance type id payload.length).length).take
        payload.length = payload := by
    rw [List.append_assoc, List.drop_left, List.take_left]
  have hrest : (prvCreateHeader fresh index isInstance type id payload.length ++ payload ++
      rest).drop ((prvCreateHeader fresh index isInstance type id payload.length).length +
        payload.length) = rest := by
    rw [← List.length_append, List.drop_left]
  rw [hdata, hrest] at heq
  exact heq

theorem tlvParseAll_tooLong (fresh : Nat → UInt8) (index : Nat) (isInstance : Bool)
    (type : DataType) (id : UInt16) (hlen : 0xFFFFFF < dataLen) (more : List UInt8) :
    ∃ rest, tlvParseAll (prvCreateHeader fresh index isInstance type id dataLen ++ more) =
      let found := prvGetDataType (headerBase isInstance type id &&& prvTlvTypeMask)
      if found.tlvContainer then none
      else (tlvParseAll rest).map (.node .opaqueBytes id (.asBuffer []) :: ·) := by
  have hdecode := lwm2mDecodeTlv_tooLong fresh index isInstance type id hlen more
  have heq := tlvParseAll_eq hdecode
  rw [List.take_zero, tlvParseAll_nil] at heq
  exact ⟨_, heq⟩

theorem objectLink_value (objectId objectInstanceId : UInt16) :
    (objectId.toUInt64 <<< 16 ||| objectInstanceId.toUInt64).toNat =
      objectId.toNat * 2 ^ 16 + objectInstanceId.toNat := by
  have hobject := objectId.toNat_lt
  have hinstance := objectInstanceId.toNat_lt
  rw [UInt64.toNat_or, UInt64.toNat_shiftLeft, UInt16.toNat_toUInt64, UInt16.toNat_toUInt64,
    show (16 : UInt64).toNat % 64 = 16 from rfl]
  rw [Nat.mod_eq_of_lt (by rw [Nat.shiftLeft_eq]; omega), ← Nat.shiftLeft_add_eq_or_of_lt hinstance,
    Nat.shiftLeft_eq]

theorem bigEndian_four (val : UInt64) :
    bigEndian 4 val = bigEndian 2 (val >>> 16) ++ bigEndian 2 val := by
  have h24 : val >>> 16 >>> 8 = val >>> 24 := by
    apply UInt64.toBitVec_inj.mp
    simp
  simp [bigEndian, h24]

theorem leafDecodes_tlvLeaf (encodeFloat : UInt64 → List UInt8) (data : Lwm2mData)
    (hfloat : data.type ≠ .float) (hleaf : tlvLeaf encodeFloat data = some bytes) (id : UInt16) :
    leafDecodes data (.node .opaqueBytes id (.asBuffer bytes)) := by
  unfold tlvLeaf at hleaf
  unfold leafDecodes
  cases htype : data.type with
  | string | opaqueBytes | coreLink => simpa [htype, Lwm2mData.asBuffer, Lwm2mData.value] using hleaf.symm
  | integer =>
    simp only [htype, Option.some.injEq] at hleaf
    exact hleaf ▸ decodeInt_prvEncodeInt id _
  | unsignedInteger =>
    simp only [htype, Option.some.injEq] at hleaf
    exact hleaf ▸ decodeUint_prvEncodeUInt id _
  | boolean =>
    simp only [htype, Option.some.injEq] at hleaf
    subst hleaf
    cases data.asBoolean <;> rfl
  | objectLink =>
    simp only [htype, Option.some.injEq] at hleaf
    subst hleaf
    have hvalue := objectLink_value data.asObjLink.1 data.asObjLink.2
    have hobject := data.asObjLink.1.toNat_lt
    have hinstance := data.asObjLink.2.toNat_lt
    refine ⟨by simp [Lwm2mData.asBuffer, Lwm2mData.value], ?_, ?_⟩
    · simp only [Lwm2mData.asBuffer, Lwm2mData.value]
      rw [bigEndian_four, List.take_left' (bigEndian_length 2 _),
        bigEndianValue_bigEndian (by omega), UInt64.toNat_shiftRight, hvalue,
        show (16 : UInt64).toNat % 64 = 16 from rfl, Nat.shiftRight_eq_div_pow]
      omega
    · simp only [Lwm2mData.asBuffer, Lwm2mData.value]
      rw [bigEndian_four, List.drop_left' (bigEndian_length 2 _),
        bigEndianValue_bigEndian (by omega), hvalue]
      omega
  | float => exact absurd htype hfloat
  | undefined | object | objectInstance | multipleResource => simp [htype] at hleaf

theorem tlvLeaf_short (encodeFloat : UInt64 → List UInt8) {data : Lwm2mData}
    (hleaf : tlvLeaf encodeFloat data = some bytes)
    (hdecodes : leafDecodes data (.node .opaqueBytes id (.asBuffer []))) :
    bytes.length ≤ 0xFFFFFF := by
  unfold tlvLeaf at hleaf
  unfold leafDecodes at hdecodes
  cases htype : data.type with
  | string | opaqueBytes | coreLink =>
    simp only [htype, Option.some.injEq] at hleaf hdecodes
    have hempty : bytes = [] := hleaf.symm.trans hdecodes.symm
    simp [hempty]
  | integer =>
    simp only [htype, Option.some.injEq] at hleaf
    have := prvEncodeInt_length_le data.asInteger
    rw [hleaf] at this
    omega
  | unsignedInteger =>
    simp only [htype, Option.some.injEq] at hleaf
    have := prvEncodeUInt_length_le data.asUnsigned
    rw [hleaf] at this
    omega
  | boolean =>
    simp only [htype, Option.some.injEq] at hleaf
    simp [← hleaf]
  | objectLink =>
    simp only [htype, Option.some.injEq] at hleaf
    simp [← hleaf]
  | float => simp [htype] at hdecodes
  | undefined | object | objectInstance | multipleResource => simp [htype] at hleaf

theorem tlvLeaf_isSome (encodeFloat : UInt64 → List UInt8) (data : Lwm2mData)
    (hcontainer : data.type.tlvContainer = false) (hobject : data.type ≠ .object)
    (hundefined : data.type ≠ .undefined) : ∃ bytes, tlvLeaf encodeFloat data = some bytes := by
  unfold tlvLeaf
  cases htype : data.type <;> simp_all [DataType.tlvContainer]

theorem headerType_container (h : type.tlvContainer = true) (id : UInt16) :
    prvGetDataType (headerBase false type id &&& prvTlvTypeMask) = type := by
  rw [headerBase_type]
  cases type <;> first | rfl | cases h

theorem headerType_leaf {encodeFloat : UInt64 → List UInt8} {data : Lwm2mData}
    (hleaf : tlvLeaf encodeFloat data = some bytes) (isInstance : Bool) (id : UInt16) :
    prvGetDataType (headerBase isInstance data.type id &&& prvTlvTypeMask) = .opaqueBytes := by
  rw [headerBase_type]
  unfold tlvLeaf at hleaf
  cases htype : data.type <;> first | (cases isInstance <;> rfl) | simp [htype] at hleaf

end Wakaama
