import Mathlib.Tactic.IntervalCases
import Wakaama.Data.Proofs.BigEndian

/-!
# TLV headers

`lwm2m_decode_TLV` reads what `prv_createHeader` writes, as long as the length has 24 bits. A
longer one leaves the length field of the header at 0.
-/

namespace Wakaama

def tlvBases : List UInt8 := [0x00, 0x40, 0x80, 0xC0, 0x20, 0x60, 0xA0, 0xE0]

/-- The type and id bits that `prv_createHeader` starts from. -/
def headerBase (isInstance : Bool) (type : DataType) (id : UInt16) : UInt8 :=
  let hdrType := if isInstance then prvTlvTypeResourceInstance else prvGetHeaderType type
  let first := hdrType &&& prvTlvTypeMask
  if 0xFF < id then first ||| 0x20 else first

def headerId (id : UInt16) : List UInt8 :=
  if 0xFF < id then bigEndian 2 id.toUInt64 else [id.toUInt8]

theorem prvCreateHeader_eq (fresh : Nat → UInt8) (index : Nat) (isInstance : Bool)
    (type : DataType) (id : UInt16) (dataLen : Nat) :
    prvCreateHeader fresh index isInstance type id dataLen =
      let first := headerBase isInstance type id
      if dataLen ≤ 7 then (first + dataLen.toUInt8) :: headerId id
      else if dataLen ≤ 0xFF then
        (first ||| 0x08) :: headerId id ++ bigEndian 1 dataLen.toUInt64
      else if dataLen ≤ 0xFFFF then
        (first ||| 0x10) :: headerId id ++ bigEndian 2 dataLen.toUInt64
      else if dataLen ≤ 0xFFFFFF then
        (first ||| 0x18) :: headerId id ++ bigEndian 3 dataLen.toUInt64
      else first :: headerId id ++
        (List.range 3).map fun k => fresh (index + (1 + (headerId id).length) + k) := by
  unfold prvCreateHeader headerBase headerId
  by_cases hid : 0xFF < id
  · simp only [hid, if_true]
  · simp only [hid, if_false]

theorem headerBase_mem (isInstance : Bool) (type : DataType) (id : UInt16) :
    headerBase isInstance type id ∈ tlvBases := by
  unfold headerBase
  by_cases hid : 0xFF < id
  · simp only [hid, if_true]
    cases isInstance <;> cases type <;> decide
  · simp only [hid, if_false]
    cases isInstance <;> cases type <;> decide

theorem headerBase_id (isInstance : Bool) (type : DataType) (id : UInt16) :
    (headerBase isInstance type id &&& 0x20 = 0x20) ↔ 0xFF < id := by
  unfold headerBase
  by_cases hid : 0xFF < id
  · simp only [hid, if_true, iff_true]
    cases isInstance <;> cases type <;> decide
  · simp only [hid, if_false, iff_false]
    cases isInstance <;> cases type <;> decide

theorem headerBase_type (isInstance : Bool) (type : DataType) (id : UInt16) :
    headerBase isInstance type id &&& prvTlvTypeMask =
      (if isInstance then prvTlvTypeResourceInstance else prvGetHeaderType type) &&&
        prvTlvTypeMask := by
  unfold headerBase
  by_cases hid : 0xFF < id
  · simp only [hid, if_true]
    cases isInstance <;> cases type <;> decide
  · simp only [hid, if_false]
    cases isInstance <;> cases type <;> decide

theorem first_short {base : UInt8} (hbase : base ∈ tlvBases) {dataLen : Nat} (hlen : dataLen ≤ 7) :
    ((base + dataLen.toUInt8) &&& 0x20 = base &&& 0x20) ∧
      (((base + dataLen.toUInt8) &&& 0x18) >>> 3).toNat = 0 ∧
      ((base + dataLen.toUInt8) &&& 0x07).toNat = dataLen ∧
      (base + dataLen.toUInt8) &&& prvTlvTypeMask = base &&& prvTlvTypeMask := by
  simp only [tlvBases, List.mem_cons, List.not_mem_nil, or_false] at hbase
  interval_cases dataLen <;>
    rcases hbase with rfl | rfl | rfl | rfl | rfl | rfl | rfl | rfl <;> decide

theorem first_wide {base : UInt8} (hbase : base ∈ tlvBases) {width : Nat} (hpos : 0 < width)
    (hwidth : width ≤ 3) :
    ((base ||| (8 * width).toUInt8) &&& 0x20 = base &&& 0x20) ∧
      (((base ||| (8 * width).toUInt8) &&& 0x18) >>> 3).toNat = width ∧
      (base ||| (8 * width).toUInt8) &&& prvTlvTypeMask = base &&& prvTlvTypeMask := by
  simp only [tlvBases, List.mem_cons, List.not_mem_nil, or_false] at hbase
  interval_cases width <;>
    rcases hbase with rfl | rfl | rfl | rfl | rfl | rfl | rfl | rfl <;> decide

theorem tlvHeaderId_headerId {first : UInt8} {id : UInt16}
    (hfirst : (first &&& 0x20 = 0x20) ↔ 0xFF < id) (more : List UInt8) :
    tlvHeaderId first (headerId id ++ more) = some (id, (headerId id).length) := by
  unfold tlvHeaderId headerId
  by_cases hid : 0xFF < id
  · rw [if_pos (hfirst.mpr hid), if_pos hid]
    have hvalue : ((id.toUInt64 >>> 8).toUInt8.toUInt16 <<< 8) + id.toUInt64.toUInt8.toUInt16 =
        id := by
      rw [← UInt16.toNat_inj]
      have hlt := id.toNat_lt
      simp [Nat.shiftLeft_eq, Nat.shiftRight_eq_div_pow]
      omega
    simpa [bigEndian] using hvalue
  · rw [if_neg (fun h => hid (hfirst.mp h)), if_neg hid]
    have hvalue : id.toUInt8.toUInt16 = id := by
      rw [← UInt16.toNat_inj]
      rw [UInt16.lt_iff_toNat_lt] at hid
      have hle : id.toNat ≤ 255 := Nat.le_of_not_lt hid
      simp
      omega
    simp [hvalue]

theorem tlvHeaderDataLen_wide {first : UInt8} {width : Nat} (hpos : 0 < width) (hwidth : width ≤ 3)
    (hfirst : ((first &&& 0x18) >>> 3).toNat = width) {dataLen : Nat}
    (hlen : dataLen < 256 ^ width) (more : List UInt8) :
    tlvHeaderDataLen first (bigEndian width dataLen.toUInt64 ++ more) = some (dataLen, width) := by
  have htake : (bigEndian width dataLen.toUInt64 ++ more).take width =
      bigEndian width dataLen.toUInt64 := by simp
  have hlt : dataLen < 2 ^ 64 :=
    lt_of_lt_of_le hlen (le_trans (Nat.pow_le_pow_right (by norm_num) hwidth) (by norm_num))
  have hvalue : bigEndianValue (bigEndian width dataLen.toUInt64) = dataLen := by
    rw [bigEndianValue_bigEndian (by omega), Nat.toUInt64_eq, UInt64.toNat_ofNat',
      Nat.mod_eq_of_lt hlt, Nat.mod_eq_of_lt hlen]
  unfold tlvHeaderDataLen
  simp only [hfirst]
  rw [if_neg (by omega), if_neg (by simp), htake]
  exact congrArg (fun n => some (n, width)) hvalue

theorem headerId_length (id : UInt16) :
    (headerId id).length = 1 + if 0xFF < id then 1 else 0 := by
  unfold headerId
  split <;> simp

theorem prvCreateHeader_length (fresh : Nat → UInt8) (index : Nat) (isInstance : Bool)
    (type : DataType) (id : UInt16) (dataLen : Nat) :
    (prvCreateHeader fresh index isInstance type id dataLen).length =
      prvGetHeaderLength id dataLen := by
  rw [prvCreateHeader_eq]
  simp only
  have hid := headerId_length id
  unfold prvGetHeaderLength
  split_ifs <;> simp [*] <;> omega

theorem lwm2mDecodeTlv_eq {first : UInt8} {id : UInt16} {lengthBytes : List UInt8}
    {dataLen width : Nat} {more : List UInt8} (hid : (first &&& 0x20 = 0x20) ↔ 0xFF < id)
    (hwidth : lengthBytes.length = width)
    (hdataLen : tlvHeaderDataLen first (lengthBytes ++ more) = some (dataLen, width))
    (hroom : dataLen ≤ more.length) :
    lwm2mDecodeTlv (first :: headerId id ++ lengthBytes ++ more) =
      some (prvGetDataType (first &&& prvTlvTypeMask), id,
        1 + (headerId id).length + width, dataLen) := by
  have hheader := tlvHeaderId_headerId hid (lengthBytes ++ more)
  have hdrop : (headerId id ++ (lengthBytes ++ more)).drop (headerId id).length =
      lengthBytes ++ more := List.drop_left
  obtain ⟨byte, rest, hrest⟩ : ∃ byte rest, headerId id = byte :: rest := by
    have := headerId_length id
    cases h : headerId id with
    | nil => simp [h] at this; omega
    | cons byte rest => exact ⟨byte, rest, rfl⟩
  have hlist : first :: headerId id ++ lengthBytes ++ more =
      first :: (headerId id ++ (lengthBytes ++ more)) := by simp
  rw [hlist]
  unfold lwm2mDecodeTlv
  have hcons : headerId id ++ (lengthBytes ++ more) = byte :: (rest ++ (lengthBytes ++ more)) := by
    simp [hrest]
  rw [hcons]
  simp only
  rw [← hcons, hheader]
  simp only [hdrop, hdataLen]
  rw [if_neg (by simp; omega)]

theorem lwm2mDecodeTlv_header (fresh : Nat → UInt8) (index : Nat) (isInstance : Bool)
    (type : DataType) (id : UInt16) {dataLen : Nat} (hlen : dataLen ≤ 0xFFFFFF)
    {more : List UInt8} (hroom : dataLen ≤ more.length) :
    lwm2mDecodeTlv (prvCreateHeader fresh index isInstance type id dataLen ++ more) =
      some (prvGetDataType (headerBase isInstance type id &&& prvTlvTypeMask), id,
        prvGetHeaderLength id dataLen, dataLen) := by
  have hbase := headerBase_mem isInstance type id
  have hbaseId := headerBase_id isInstance type id
  have hlength := prvCreateHeader_length fresh index isInstance type id dataLen
  -- a length field of `width` bytes
  have hwide : ∀ width, 0 < width → width ≤ 3 → dataLen < 256 ^ width →
      lwm2mDecodeTlv ((headerBase isInstance type id ||| (8 * width).toUInt8) :: headerId id ++
          bigEndian width dataLen.toUInt64 ++ more) =
        some (prvGetDataType (headerBase isInstance type id &&& prvTlvTypeMask), id,
          1 + (headerId id).length + width, dataLen) := by
    intro width hpos hle hlt
    obtain ⟨hidBit, hwidth, htype⟩ := first_wide hbase hpos hle
    have hdecode := lwm2mDecodeTlv_eq (hidBit ▸ hbaseId) (bigEndian_length width _)
      (tlvHeaderDataLen_wide hpos hle hwidth hlt more) hroom
    rw [hdecode, htype]
  rw [prvCreateHeader_eq] at hlength ⊢
  simp only at hlength ⊢
  split_ifs at hlength ⊢ with h7 h255 h65535
  · obtain ⟨hidBit, hwidth, hlow, htype⟩ := first_short hbase h7
    have hdataLen : tlvHeaderDataLen (headerBase isInstance type id + dataLen.toUInt8)
        ([] ++ more) = some (dataLen, 0) := by
      simp [tlvHeaderDataLen, hwidth, hlow]
    have hdecode := lwm2mDecodeTlv_eq (hidBit ▸ hbaseId) rfl hdataLen hroom
    simp only [List.append_nil] at hdecode
    rw [hdecode, htype, ← hlength]
    simp [Nat.add_comm]
  · have hdecode := hwide 1 (by omega) (by omega) (by omega)
    rw [← hlength]
    simpa [Nat.add_comm, Nat.add_left_comm] using hdecode
  · have hdecode := hwide 2 (by omega) (by omega) (by omega)
    rw [← hlength]
    simpa [Nat.add_comm, Nat.add_left_comm] using hdecode
  · have hdecode := hwide 3 (by omega) (by omega) (by omega)
    rw [← hlength]
    simpa [Nat.add_comm, Nat.add_left_comm] using hdecode

theorem lwm2mDecodeTlv_tooLong (fresh : Nat → UInt8) (index : Nat) (isInstance : Bool)
    (type : DataType) (id : UInt16) {dataLen : Nat} (hlen : 0xFFFFFF < dataLen)
    (more : List UInt8) :
    lwm2mDecodeTlv (prvCreateHeader fresh index isInstance type id dataLen ++ more) =
      some (prvGetDataType (headerBase isInstance type id &&& prvTlvTypeMask), id,
        1 + (headerId id).length, 0) := by
  have hbase := headerBase_mem isInstance type id
  obtain ⟨-, hwidth, hlow, -⟩ := first_short hbase (show 0 ≤ 7 by omega)
  have hzero : headerBase isInstance type id + (0 : Nat).toUInt8 = headerBase isInstance type id :=
    UInt8.add_zero _
  rw [hzero] at hwidth hlow
  rw [prvCreateHeader_eq]
  simp only
  rw [if_neg (by omega), if_neg (by omega), if_neg (by omega), if_neg (by omega)]
  have hdataLen : ∀ rest, tlvHeaderDataLen (headerBase isInstance type id) ([] ++ rest) =
      some (0, 0) := by
    intro rest
    simp [tlvHeaderDataLen, hwidth, hlow]
  have hdecode := lwm2mDecodeTlv_eq (headerBase_id isInstance type id) rfl
    (hdataLen ((List.range 3).map (fun k => fresh (index + (1 + (headerId id).length) + k)) ++ more))
    (Nat.zero_le _)
  simpa [Nat.add_comm] using hdecode

end Wakaama
