import Wakaama.Data.Proofs.TlvParse

/-!
# The TLV round trip

What `tlv_parse` makes of the bytes of `tlv_serialize`. The content of every container and of
every leaf comes back as long as no container is empty and no content is longer than the 24
bits of a length field; with either of them the result is never the same list.
-/

namespace Wakaama

section Sizes

variable (encodeFloat : UInt64 → List UInt8)

mutual

/-- The number of bytes behind the header of a node. -/
def tlvDataSize : Lwm2mData → Nat
  | .node type id value =>
    if type.tlvContainer then tlvChildrenSize value
    else ((tlvLeaf encodeFloat (.node type id value)).getD []).length

def tlvChildrenSize : DataValue Lwm2mData → Nat
  | .asChildren array => tlvSize array
  | _ => 0

/-- The number of bytes of a list. -/
def tlvSize : List Lwm2mData → Nat
  | [] => 0
  | data :: rest =>
    prvGetHeaderLength data.id (tlvDataSize data) + tlvDataSize data + tlvSize rest

end

mutual

/-- The content has a length of 24 bits, and at every depth no container is empty. -/
def TlvEncodable : Lwm2mData → Prop
  | .node type id value =>
    tlvDataSize encodeFloat (.node type id value) ≤ 0xFFFFFF ∧
      (type.tlvContainer = true → TlvChildrenEncodable value)

def TlvChildrenEncodable : DataValue Lwm2mData → Prop
  | .asChildren array => array ≠ [] ∧ TlvListEncodable array
  | _ => False

def TlvListEncodable : List Lwm2mData → Prop
  | [] => True
  | data :: rest => TlvEncodable data ∧ TlvListEncodable rest

end

end Sizes

/-! ### Lengths -/

theorem toInt_lt (n : Int) : toInt n < 2 ^ 31 := by
  have := Int.bmod_lt (x := n) (m := 2 ^ 32) (by norm_num)
  simpa [toInt] using this

theorem toInt_eq {n : Int} (hlow : 0 ≤ n) (hhigh : n < 2 ^ 31) : toInt n = n :=
  Int.bmod_eq_of_le (by norm_num; omega) (by norm_num; omega)

theorem toSize_natCast {n : Nat} (h : n < 2 ^ 64) : toSize n = n := by
  unfold toSize
  omega

theorem addLength_eq {length : Nat} {id : UInt16} {dataLen : Nat}
    (h : length + (prvGetHeaderLength id dataLen + dataLen) < 2 ^ 31) :
    addLength length id dataLen =
      ((length + (prvGetHeaderLength id dataLen + dataLen) : Nat) : Int) := by
  unfold addLength
  rw [toSize_natCast (by omega), toInt_eq (by omega) (by omega)]
  omega

theorem prvGetHeaderLength_mono (id : UInt16) {a b : Nat} (h : a ≤ b) :
    prvGetHeaderLength id a ≤ prvGetHeaderLength id b := by
  unfold prvGetHeaderLength
  split_ifs <;> omega

theorem prvGetHeaderLength_pos (id : UInt16) (dataLen : Nat) :
    0 < prvGetHeaderLength id dataLen := by
  unfold prvGetHeaderLength
  omega

theorem prvLengthWith_lt (encodeFloat : UInt64 → List UInt8) (length : Int) (data : Lwm2mData) :
    prvLengthWith encodeFloat length data < 2 ^ 31 := by
  obtain ⟨type, id, value⟩ := data
  unfold prvLengthWith
  split
  · simp only
    split
    · norm_num
    · exact toInt_lt _
  · split
    · norm_num
    · exact toInt_lt _

theorem prvGetLength_lt (encodeFloat : UInt64 → List UInt8) {length : Int}
    (hlength : length < 2 ^ 31) (data : List Lwm2mData) :
    prvGetLength encodeFloat length data < 2 ^ 31 := by
  induction data generalizing length with
  | nil => simpa [prvGetLength] using hlength
  | cons cur rest ih =>
    unfold prvGetLength
    split
    · norm_num
    · exact ih (prvLengthWith_lt encodeFloat length cur)

variable {data : List Lwm2mData}

theorem tlvListEncodable_iff {encodeFloat : UInt64 → List UInt8} :
    TlvListEncodable encodeFloat data ↔ ∀ d ∈ data, TlvEncodable encodeFloat d := by
  induction data with
  | nil => simp [TlvListEncodable]
  | cons d rest ih => simp [TlvListEncodable, ih]

theorem tlvListNodes_iff : TlvListNodes data ↔ ∀ d ∈ data, TlvNodes d := by
  induction data with
  | nil => simp [TlvListNodes]
  | cons d rest ih => simp [TlvListNodes, ih]

/-- The length of a node is added as long as the sum is an `int`. -/
def LengthAdds (encodeFloat : UInt64 → List UInt8) (d : Lwm2mData) : Prop :=
  ∀ length : Nat,
    length + (prvGetHeaderLength d.id (tlvDataSize encodeFloat d) + tlvDataSize encodeFloat d) <
      2 ^ 31 →
    prvLengthWith encodeFloat length d = ((length +
      (prvGetHeaderLength d.id (tlvDataSize encodeFloat d) + tlvDataSize encodeFloat d) : Nat) :
        Int)

theorem prvGetLength_eq_of {encodeFloat : UInt64 → List UInt8}
    (hnode : ∀ d ∈ data, LengthAdds encodeFloat d)
    (length : Nat) (h : length + tlvSize encodeFloat data < 2 ^ 31) :
    prvGetLength encodeFloat length data = ((length + tlvSize encodeFloat data : Nat) : Int) := by
  induction data generalizing length with
  | nil => simp [prvGetLength, tlvSize]
  | cons cur rest ih =>
    unfold tlvSize at h ⊢
    unfold prvGetLength
    rw [if_neg (by omega), hnode cur (by simp) length (by omega),
      ih (fun d hd => hnode d (List.mem_cons_of_mem _ hd)) _ (by omega)]
    congr 1
    omega

theorem lengthAdds_node (encodeFloat : UInt64 → List UInt8) {type : DataType} (id : UInt16)
    {value : DataValue Lwm2mData} (hobject : type ≠ .object) (hundefined : type ≠ .undefined)
    (hchildren : type.tlvContainer = true → ∀ array, value = .asChildren array →
      ∀ d ∈ array, LengthAdds encodeFloat d) : LengthAdds encodeFloat (.node type id value) := by
  intro length hlength
  unfold prvLengthWith
  cases hcontainer : type.tlvContainer with
  | true =>
    have hsize : tlvDataSize encodeFloat (.node type id value) =
        tlvChildrenSize encodeFloat value := by simp [tlvDataSize, hcontainer]
    rw [hsize] at hlength ⊢
    have hsub : prvChildrenLength encodeFloat value =
        ((tlvChildrenSize encodeFloat value : Nat) : Int) := by
      cases value with
      | asChildren array =>
        rw [tlvChildrenSize] at hlength
        have hsum := prvGetLength_eq_of (hchildren hcontainer array rfl) 0 (by omega)
        simpa [prvChildrenLength, tlvChildrenSize] using hsum
      | _ => rfl
    simp only [if_true, hsub]
    rw [if_neg (by omega)]
    exact addLength_eq hlength
  | false =>
    obtain ⟨bytes, hleaf⟩ := tlvLeaf_isSome encodeFloat (.node type id value) hcontainer
      hobject hundefined
    have hsize : tlvDataSize encodeFloat (.node type id value) = bytes.length := by
      simp [tlvDataSize, hcontainer, hleaf]
    rw [hsize] at hlength ⊢
    simp only [hleaf, Bool.false_eq_true, if_false]
    exact addLength_eq hlength

theorem prvLengthWith_eq (encodeFloat : UInt64 → List UInt8) :
    ∀ d : Lwm2mData, TlvNodes d → TlvEncodable encodeFloat d → LengthAdds encodeFloat d := by
  refine Lwm2mData.induct fun type id value ih hnodes hencodable => ?_
  unfold TlvNodes at hnodes
  unfold TlvEncodable at hencodable
  obtain ⟨hobject, hundefined, -, hchildNodes⟩ := hnodes
  refine lengthAdds_node encodeFloat id hobject hundefined fun hcontainer array hvalue d hd => ?_
  subst hvalue
  exact ih array rfl d hd (tlvListNodes_iff.mp (hchildNodes hcontainer) d hd)
    (tlvListEncodable_iff.mp (hencodable.2 hcontainer).2 d hd)

/-! ### Writing -/

section Write

variable {fresh : Nat → UInt8} {encodeFloat : UInt64 → List UInt8}

variable {head head' : List UInt8} {bufferLen : Nat} {isResourceInstance : Bool}
  {data : List Lwm2mData}

theorem tlvAppend_ok {bytes out : List UInt8} :
    tlvAppend bufferLen head bytes = .ok out ↔
      out = head ++ bytes ∧ head.length + bytes.length ≤ bufferLen := by
  unfold tlvAppend
  split
  · rename_i h
    simp [h, eq_comm]
  · rename_i h
    simp [h]

theorem tlvAppend_le {bytes : List UInt8} {good : Bool}
    (h : (match tlvAppend bufferLen head bytes with
      | .error fault => .error fault
      | .ok head => .ok (head, true)) = (.ok (head', good) : Except Fault _)) :
    head'.length ≤ bufferLen := by
  cases hres : tlvAppend bufferLen head bytes with
  | error fault => simp [hres] at h
  | ok out =>
    obtain ⟨rfl, hroom⟩ := tlvAppend_ok.mp hres
    simp only [hres, Except.ok.injEq, Prod.mk.injEq] at h
    simpa [← h.1] using hroom

theorem tlvWrite_le {data : Lwm2mData} {good : Bool} (hhead : head.length ≤ bufferLen)
    (h : tlvWrite fresh encodeFloat isResourceInstance bufferLen head data = .ok (head', good)) :
    head'.length ≤ bufferLen := by
  obtain ⟨type, id, value⟩ := data
  unfold tlvWrite at h
  split at h
  · split at h
    · cases h
    · split at h
      · simp only [Except.ok.injEq, Prod.mk.injEq] at h
        exact h.1 ▸ hhead
      · exact tlvAppend_le h
  · split at h
    · simp only [Except.ok.injEq, Prod.mk.injEq] at h
      exact h.1 ▸ hhead
    · exact tlvAppend_le h

theorem tlvWriteList_le {good : Bool} (hhead : head.length ≤ bufferLen)
    (h : tlvWriteList fresh encodeFloat isResourceInstance bufferLen head data = .ok (head', good)) :
    head'.length ≤ bufferLen := by
  induction data generalizing head good with
  | nil =>
    simp only [tlvWriteList, Except.ok.injEq, Prod.mk.injEq] at h
    exact h.1 ▸ hhead
  | cons cur rest ih =>
    unfold tlvWriteList at h
    cases hcur : tlvWrite fresh encodeFloat isResourceInstance bufferLen head cur with
    | error fault => simp [hcur] at h
    | ok out =>
      obtain ⟨middle, goodCur⟩ := out
      simp only [hcur] at h
      cases hrest : tlvWriteList fresh encodeFloat isResourceInstance bufferLen middle rest with
      | error fault => simp [hrest] at h
      | ok out' =>
        obtain ⟨final, goodRest⟩ := out'
        simp only [hrest, Except.ok.injEq, Prod.mk.injEq] at h
        obtain ⟨rfl, -⟩ := h
        exact ih (tlvWrite_le hhead hcur) hrest

theorem tlvWriteList_cons {cur : Lwm2mData} {rest : List Lwm2mData}
    (h : tlvWriteList fresh encodeFloat isResourceInstance bufferLen head (cur :: rest) = .ok (head', true)) :
    ∃ middle, tlvWrite fresh encodeFloat isResourceInstance bufferLen head cur =
        .ok (middle, true) ∧
      tlvWriteList fresh encodeFloat isResourceInstance bufferLen middle rest =
        .ok (head', true) := by
  unfold tlvWriteList at h
  cases hcur : tlvWrite fresh encodeFloat isResourceInstance bufferLen head cur with
  | error fault => simp [hcur] at h
  | ok out =>
    obtain ⟨middle, goodCur⟩ := out
    simp only [hcur] at h
    cases hrest : tlvWriteList fresh encodeFloat isResourceInstance bufferLen middle rest with
    | error fault => simp [hrest] at h
    | ok out' =>
      obtain ⟨final, goodRest⟩ := out'
      simp only [hrest, Except.ok.injEq, Prod.mk.injEq, Bool.and_eq_true] at h
      obtain ⟨rfl, rfl, rfl⟩ := h
      exact ⟨middle, rfl, hrest⟩

theorem tlvResult_ok {length res : Int} {written : Except Fault (List UInt8 × Bool)}
    {buffer : List UInt8}
    (hroom : ∀ head good, written = .ok (head, good) → head.length ≤ length.toNat)
    (h : tlvResult fresh length written = .ok (res, buffer)) (hres : 0 ≤ res) :
    buffer.length = res.toNat ∧
      (0 < res → ∃ head rest, written = .ok (head, true) ∧ buffer = head ++ rest ∧
        res = length) := by
  unfold tlvResult at h
  split at h
  · simp only [Except.ok.injEq, Prod.mk.injEq] at h
    obtain ⟨rfl, rfl⟩ := h
    exact ⟨by simp; omega, by omega⟩
  · cases hwritten : written with
    | error fault => simp [hwritten] at h
    | ok out =>
      obtain ⟨head, good⟩ := out
      have hle := hroom head good hwritten
      cases good with
      | false =>
        simp only [hwritten, Except.ok.injEq, Prod.mk.injEq] at h
        omega
      | true =>
        simp only [hwritten, Except.ok.injEq, Prod.mk.injEq] at h
        obtain ⟨rfl, rfl⟩ := h
        exact ⟨by simp; omega, fun _ => ⟨head, _, rfl, rfl, rfl⟩⟩

theorem tlvSerializeChildren_ok {value : DataValue Lwm2mData} {res : Int} {buffer : List UInt8}
    (h : tlvSerializeChildren fresh encodeFloat isResourceInstance value = .ok (res, buffer))
    (hres : 0 ≤ res) :
    buffer.length = res.toNat ∧
      (0 < res → ∃ array head rest, value = .asChildren array ∧
        tlvWriteList fresh encodeFloat isResourceInstance buffer.length [] array =
          .ok (head, true) ∧ buffer = head ++ rest) := by
  unfold tlvSerializeChildren at h
  split at h
  · rename_i array
    obtain ⟨hlength, hwritten⟩ := tlvResult_ok (fun head good hw => tlvWriteList_le (by simp) hw)
      h hres
    refine ⟨hlength, fun hpos => ?_⟩
    obtain ⟨head, rest, hw, rfl, rfl⟩ := hwritten hpos
    rw [hlength]
    exact ⟨array, head, rest, rfl, hw, rfl⟩
  · simp only [Except.ok.injEq, Prod.mk.injEq] at h
    obtain ⟨rfl, rfl⟩ := h
    exact ⟨rfl, by omega⟩

theorem tlvWrite_ok {type : DataType} {id : UInt16} {value : DataValue Lwm2mData}
    (h : tlvWrite fresh encodeFloat isResourceInstance bufferLen head (.node type id value) = .ok (head', true)) :
    ∃ isInstance payload, head' = head ++
        (prvCreateHeader fresh head.length isInstance type id payload.length ++ payload) ∧
      (type.tlvContainer = true ∧ isInstance = false ∧
          (∃ inner, tlvSerializeChildren fresh encodeFloat inner value =
            .ok ((payload.length : Int), payload)) ∨
        type.tlvContainer = false ∧
          tlvLeaf encodeFloat (.node type id value) = some payload) := by
  unfold tlvWrite at h
  split at h
  · rename_i hcontainer
    cases hchildren : tlvSerializeChildren fresh encodeFloat
        (isResourceInstance || type == .multipleResource) value with
    | error fault => simp [hchildren] at h
    | ok out =>
      obtain ⟨res, payload⟩ := out
      simp only [hchildren] at h
      split at h
      · simp at h
      · rename_i hres
        obtain ⟨hlength, -⟩ := tlvSerializeChildren_ok hchildren (by omega)
        split at h
        · cases h
        · rename_i out happend
          obtain ⟨rfl, -⟩ := tlvAppend_ok.mp happend
          simp only [Except.ok.injEq, Prod.mk.injEq, and_true] at h
          refine ⟨false, payload, by rw [hlength]; exact h.symm,
            Or.inl ⟨hcontainer, rfl, isResourceInstance || type == .multipleResource, ?_⟩⟩
          rw [hchildren, hlength, Int.toNat_of_nonneg (by omega)]
  · rename_i hcontainer
    cases hleaf : tlvLeaf encodeFloat (.node type id value) with
    | none => simp [hleaf] at h
    | some payload =>
      simp only [hleaf] at h
      split at h
      · cases h
      · rename_i out happend
        obtain ⟨rfl, -⟩ := tlvAppend_ok.mp happend
        simp only [Except.ok.injEq, Prod.mk.injEq, and_true] at h
        exact ⟨isResourceInstance, payload, h.symm, Or.inr ⟨by simpa using hcontainer, rfl⟩⟩

/-! ### What comes back was encodable -/

/-- A node whose bytes are parsed to a match is encodable, and its bytes are as many. -/
def ComesBack (fresh : Nat → UInt8) (encodeFloat : UInt64 → List UInt8) (d : Lwm2mData) : Prop :=
  ∀ isResourceInstance bufferLen head head',
    tlvWrite fresh encodeFloat isResourceInstance bufferLen head d = .ok (head', true) →
    ∃ bytes, head' = head ++ bytes ∧ ∀ rest parsed more,
      tlvParseAll (bytes ++ rest) = some (parsed :: more) → TlvMatches d parsed →
      TlvEncodable encodeFloat d ∧ tlvParseAll rest = some more ∧
        prvGetHeaderLength d.id (tlvDataSize encodeFloat d) + tlvDataSize encodeFloat d ≤
          bytes.length

theorem comesBack_list (hdata : ∀ d ∈ data, ComesBack fresh encodeFloat d)
    (h : tlvWriteList fresh encodeFloat isResourceInstance bufferLen head data = .ok (head', true)) :
    ∃ bytes, head' = head ++ bytes ∧ ∀ rest parsed,
      tlvParseAll (bytes ++ rest) = some parsed → TlvListMatches data parsed →
      TlvListEncodable encodeFloat data ∧ tlvSize encodeFloat data ≤ bytes.length := by
  induction data generalizing head with
  | nil =>
    simp only [tlvWriteList, Except.ok.injEq, Prod.mk.injEq, and_true] at h
    exact ⟨[], by simp [h], fun _ _ _ _ => by simp [TlvListEncodable, tlvSize]⟩
  | cons cur rest ih =>
    obtain ⟨middle, hcur, hrest⟩ := tlvWriteList_cons h
    obtain ⟨first, rfl, hfirst⟩ := hdata cur (by simp) _ _ _ _ hcur
    obtain ⟨others, rfl, hothers⟩ := ih (fun d hd => hdata d (List.mem_cons_of_mem _ hd)) hrest
    refine ⟨first ++ others, by simp, fun tail parsed hparse hmatch => ?_⟩
    cases parsed with
    | nil => simp [TlvListMatches] at hmatch
    | cons parsedCur parsedRest =>
      rw [List.append_assoc] at hparse
      obtain ⟨hencodable, hmore, hsize⟩ := hfirst _ _ _ hparse hmatch.1
      obtain ⟨hencodables, hsizes⟩ := hothers _ _ hmore hmatch.2
      refine ⟨⟨hencodable, hencodables⟩, ?_⟩
      rw [tlvSize, List.length_append]
      omega

theorem comesBack (fresh : Nat → UInt8) (encodeFloat : UInt64 → List UInt8) :
    ∀ d, ComesBack fresh encodeFloat d := by
  refine Lwm2mData.induct fun type id value ih isResourceInstance bufferLen head head' h => ?_
  obtain ⟨isInstance, payload, rfl, hpayload⟩ := tlvWrite_ok h
  refine ⟨_, rfl, fun rest parsed more hparse hmatch => ?_⟩
  by_cases hlong : payload.length ≤ 0xFFFFFF
  · rw [tlvParseAll_chunk fresh head.length isInstance type id hlong rest] at hparse
    have hheader := prvCreateHeader_length fresh head.length isInstance type id payload.length
    rcases hpayload with ⟨hcontainer, rfl, inner, hchildren⟩ | ⟨hcontainer, hleaf⟩
    · simp only [headerType_container hcontainer, hcontainer, if_true] at hparse
      cases hinner : tlvParseAll payload with
      | none => simp [hinner, tlvContent] at hparse
      | some array =>
        cases array with
        | nil => simp [hinner, tlvContent] at hparse
        | cons child others =>
          simp only [hinner, tlvContent, Option.bind_some, Option.map_eq_some_iff,
            List.cons.injEq] at hparse
          obtain ⟨tail, htail, rfl, rfl⟩ := hparse
          -- something was parsed, so something was written
          have hpos : 0 < payload.length := by
            rw [List.length_pos_iff]
            rintro rfl
            simp [tlvParseAll_nil] at hinner
          obtain ⟨array, content, junk, rfl, hwritten, hcontent⟩ :=
            (tlvSerializeChildren_ok hchildren (by omega)).2 (by omega)
          obtain ⟨bytes, hbytes, hback⟩ := comesBack_list (ih array rfl) hwritten
          rw [List.nil_append] at hbytes
          subst hbytes
          have hchildrenMatch : TlvListMatches array (child :: others) := by
            have := hmatch.2
            rw [if_pos hcontainer] at this
            exact this.2
          rw [hcontent] at hinner
          obtain ⟨hencodable, hsize⟩ := hback _ _ hinner hchildrenMatch
          have hne : array ≠ [] := by
            rintro rfl
            simp [TlvListMatches] at hchildrenMatch
          have hdataSize : tlvDataSize encodeFloat (.node type id (.asChildren array)) =
              tlvSize encodeFloat array := by simp [tlvDataSize, hcontainer, tlvChildrenSize]
          have hle : tlvSize encodeFloat array ≤ payload.length := by
            rw [hcontent, List.length_append]
            omega
          have hmono := prvGetHeaderLength_mono id hle
          refine ⟨⟨by rw [hdataSize]; omega, fun _ => ⟨hne, hencodable⟩⟩, htail, ?_⟩
          rw [hdataSize, List.length_append, hheader]
          simp only [Lwm2mData.id]
          omega
    · have hfound := headerType_leaf hleaf isInstance id
      simp only [Lwm2mData.type] at hfound
      simp only [hfound, DataType.tlvContainer, Bool.false_eq_true, if_false,
        Option.map_eq_some_iff, List.cons.injEq] at hparse
      obtain ⟨tail, htail, rfl, rfl⟩ := hparse
      have hdataSize : tlvDataSize encodeFloat (.node type id value) = payload.length := by
        simp [tlvDataSize, hcontainer, hleaf]
      refine ⟨⟨by rw [hdataSize]; exact hlong, by simp [hcontainer]⟩, htail, ?_⟩
      rw [hdataSize, List.length_append, hheader]
      rfl
  · obtain ⟨tail, htail⟩ := tlvParseAll_tooLong fresh head.length isInstance type id
      (show 0xFFFFFF < payload.length by omega) (payload ++ rest)
    rw [List.append_assoc, htail] at hparse
    rcases hpayload with ⟨hcontainer, rfl, -⟩ | ⟨hcontainer, hleaf⟩
    · simp [headerType_container hcontainer, hcontainer] at hparse
    · have hfound := headerType_leaf hleaf isInstance id
      simp only [Lwm2mData.type] at hfound
      simp only [hfound, DataType.tlvContainer, Bool.false_eq_true, if_false,
        Option.map_eq_some_iff, List.cons.injEq] at hparse
      obtain ⟨_, -, rfl, rfl⟩ := hparse
      have hdecodes := hmatch.2
      rw [if_neg (by simp [hcontainer])] at hdecodes
      exact absurd (tlvLeaf_short encodeFloat hleaf hdecodes.2) hlong

/-! ### What is encodable comes back -/

/-- A node for which there is room is written, in as many bytes as its size, and they are parsed
to a match. -/
def RoundTrips (fresh : Nat → UInt8) (encodeFloat : UInt64 → List UInt8) (d : Lwm2mData) : Prop :=
  TlvNodes d → TlvEncodable encodeFloat d → ∀ isResourceInstance bufferLen head,
    head.length + (prvGetHeaderLength d.id (tlvDataSize encodeFloat d) +
      tlvDataSize encodeFloat d) ≤ bufferLen →
    ∃ bytes, tlvWrite fresh encodeFloat isResourceInstance bufferLen head d =
        .ok (head ++ bytes, true) ∧
      bytes.length = prvGetHeaderLength d.id (tlvDataSize encodeFloat d) +
        tlvDataSize encodeFloat d ∧
      ∃ parsed, TlvMatches d parsed ∧ ∀ rest,
        tlvParseAll (bytes ++ rest) = (tlvParseAll rest).map (parsed :: ·)

theorem roundTrips_list (hdata : ∀ d ∈ data, RoundTrips fresh encodeFloat d)
    (hnodes : TlvListNodes data) (hencodable : TlvListEncodable encodeFloat data)
    (isResourceInstance : Bool) (hroom : head.length + tlvSize encodeFloat data ≤ bufferLen) :
    ∃ bytes, tlvWriteList fresh encodeFloat isResourceInstance bufferLen head data =
        .ok (head ++ bytes, true) ∧ bytes.length = tlvSize encodeFloat data ∧
      ∃ parsed, TlvListMatches data parsed ∧ ∀ rest,
        tlvParseAll (bytes ++ rest) = (tlvParseAll rest).map (parsed ++ ·) := by
  induction data generalizing head with
  | nil => exact ⟨[], by simp [tlvWriteList], rfl, [], by simp [TlvListMatches], by simp⟩
  | cons cur others ih =>
    rw [tlvSize] at hroom
    obtain ⟨first, hfirst, hlength, parsed, hmatch, hparse⟩ :=
      hdata cur (by simp) hnodes.1 hencodable.1 isResourceInstance bufferLen head (by omega)
    have hroom' : (head ++ first).length + tlvSize encodeFloat others ≤ bufferLen := by
      rw [List.length_append]
      omega
    obtain ⟨bytes, hbytes, hlengths, parsedRest, hmatches, hparses⟩ :=
      ih (fun d hd => hdata d (List.mem_cons_of_mem _ hd)) hnodes.2 hencodable.2 hroom'
    refine ⟨first ++ bytes, ?_, ?_, parsed :: parsedRest, ⟨hmatch, hmatches⟩, fun rest => ?_⟩
    · unfold tlvWriteList
      simp [hfirst, hbytes]
    · rw [List.length_append, tlvSize]
      omega
    · rw [List.append_assoc, hparse, hparses]
      cases tlvParseAll rest <;> rfl

theorem tlvSize_pos (hne : data ≠ []) : 0 < tlvSize encodeFloat data := by
  cases data with
  | nil => exact absurd rfl hne
  | cons cur rest =>
    have := prvGetHeaderLength_pos cur.id (tlvDataSize encodeFloat cur)
    rw [tlvSize]
    omega

theorem prvGetLength_eq (hnodes : TlvListNodes data)
    (hencodable : TlvListEncodable encodeFloat data) (hsize : tlvSize encodeFloat data < 2 ^ 31) :
    prvGetLength encodeFloat 0 data = ((tlvSize encodeFloat data : Nat) : Int) := by
  have h := prvGetLength_eq_of (fun d hd => prvLengthWith_eq encodeFloat d
    (tlvListNodes_iff.mp hnodes d hd) (tlvListEncodable_iff.mp hencodable d hd)) 0 (by omega)
  simpa using h

theorem tlvResult_full {size : Nat} (hpos : 0 < size) {bytes : List UInt8}
    (hlength : bytes.length = size) :
    tlvResult fresh (size : Int) (.ok (bytes, true)) = .ok ((size : Int), bytes) := by
  unfold tlvResult
  rw [if_neg (by omega)]
  simp [hlength]

theorem roundTrips (fresh : Nat → UInt8) (encodeFloat : UInt64 → List UInt8) :
    ∀ d, RoundTrips fresh encodeFloat d := by
  refine Lwm2mData.induct fun type id value ih hnodes hencodable isResourceInstance bufferLen head
    hroom => ?_
  obtain ⟨hobject, hundefined, hfloat, hchildNodes⟩ := hnodes
  obtain ⟨hlong, hchildren⟩ := hencodable
  cases hcontainer : type.tlvContainer with
  | true =>
    have hchildren := hchildren hcontainer
    cases value with
    | asChildren array =>
      obtain ⟨hne, hall⟩ := hchildren
      have hdataSize : tlvDataSize encodeFloat (.node type id (.asChildren array)) =
          tlvSize encodeFloat array := by simp [tlvDataSize, hcontainer, tlvChildrenSize]
      rw [hdataSize] at hlong hroom ⊢
      have hnodes : TlvListNodes array := hchildNodes hcontainer
      obtain ⟨payload, hwritten, hlength, parsed, hmatches, hparse⟩ :=
        roundTrips_list (ih array rfl) hnodes hall
          (isResourceInstance || type == .multipleResource)
          (show ([] : List UInt8).length + tlvSize encodeFloat array ≤
            tlvSize encodeFloat array by simp)
      have hserialized : tlvSerializeChildren fresh encodeFloat
          (isResourceInstance || type == .multipleResource) (.asChildren array) =
            .ok ((payload.length : Int), payload) := by
        have hget := prvGetLength_eq hnodes hall (by omega)
        simp only [tlvSerializeChildren, hget, Int.toNat_natCast, hwritten, List.nil_append, hlength]
        exact tlvResult_full (tlvSize_pos hne) hlength
      have hparsed : tlvParseAll payload = some parsed := by
        have := hparse []
        simpa [tlvParseAll_nil] using this
      obtain ⟨first, others, rfl⟩ : ∃ first others, parsed = first :: others := by
        cases parsed with
        | cons first others => exact ⟨first, others, rfl⟩
        | nil =>
          obtain ⟨cur, rest, rfl⟩ := List.exists_cons_of_ne_nil hne
          simp [TlvListMatches] at hmatches
      have hheader := prvCreateHeader_length fresh head.length false type id payload.length
      refine ⟨prvCreateHeader fresh head.length false type id payload.length ++ payload, ?_, ?_,
        .node type id (.asChildren (first :: others)), ?_, fun rest => ?_⟩
      · have happend : tlvAppend bufferLen head
            (prvCreateHeader fresh head.length false type id payload.length ++ payload) =
              .ok (head ++ (prvCreateHeader fresh head.length false type id payload.length ++
                payload)) := by
          refine tlvAppend_ok.mpr ⟨rfl, ?_⟩
          rw [List.length_append, hheader, hlength]
          exact hroom
        unfold tlvWrite
        simp only [hcontainer, if_true, hserialized, Int.toNat_natCast, happend]
        rw [if_neg (by omega)]
      · rw [List.length_append, hheader, hlength]
        rfl
      · refine ⟨rfl, ?_⟩
        rw [if_pos hcontainer]
        exact ⟨rfl, hmatches⟩
      · rw [tlvParseAll_chunk fresh head.length false type id (by omega) rest]
        simp [headerType_container hcontainer, hcontainer, hparsed, tlvContent]
    | _ => simp [TlvChildrenEncodable] at hchildren
  | false =>
    obtain ⟨payload, hleaf⟩ := tlvLeaf_isSome encodeFloat (.node type id value) hcontainer hobject
      hundefined
    have hdataSize : tlvDataSize encodeFloat (.node type id value) = payload.length := by
      simp [tlvDataSize, hcontainer, hleaf]
    rw [hdataSize] at hlong hroom ⊢
    have hheader := prvCreateHeader_length fresh head.length isResourceInstance type id
      payload.length
    refine ⟨prvCreateHeader fresh head.length isResourceInstance type id payload.length ++ payload,
      ?_, ?_, .node .opaqueBytes id (.asBuffer payload), ?_, fun rest => ?_⟩
    · have happend : tlvAppend bufferLen head
          (prvCreateHeader fresh head.length isResourceInstance type id payload.length ++
            payload) = .ok (head ++ (prvCreateHeader fresh head.length isResourceInstance type id
              payload.length ++ payload)) := by
        refine tlvAppend_ok.mpr ⟨rfl, ?_⟩
        rw [List.length_append, hheader]
        exact hroom
      unfold tlvWrite
      simp [hcontainer, hleaf, happend]
    · rw [List.length_append, hheader]
      rfl
    · refine ⟨rfl, ?_⟩
      rw [if_neg (by simp [hcontainer])]
      exact ⟨rfl, leafDecodes_tlvLeaf encodeFloat (.node type id value) hfloat hleaf id⟩
    · rw [tlvParseAll_chunk fresh head.length isResourceInstance type id hlong rest]
      have hfound := headerType_leaf hleaf isResourceInstance id
      simp only [Lwm2mData.type] at hfound
      simp [hfound, DataType.tlvContainer]

end Write

/-- A list whose contents all have a length, and which is shorter than 2 GiB itself. -/
def TlvFits (encodeFloat : UInt64 → List UInt8) (data : List Lwm2mData) : Prop :=
  TlvListEncodable encodeFloat data ∧ tlvSize encodeFloat data < 2 ^ 31

/-- A list that fits is serialized. And whatever is serialized to a positive number of bytes is
parsed to the same list, every leaf decoding to its value, exactly if it fits. -/
theorem tlvSerialize_roundTrip_iff (fresh : Nat → UInt8) (encodeFloat : UInt64 → List UInt8)
    (isResourceInstance : Bool) (data : List Lwm2mData) (hne : data ≠ [])
    (hnodes : TlvListNodes data) :
    (TlvFits encodeFloat data → ∃ n buffer,
      tlvSerialize fresh encodeFloat isResourceInstance data = .ok (n, buffer) ∧ 0 < n) ∧
    ∀ n buffer, tlvSerialize fresh encodeFloat isResourceInstance data = .ok (n, buffer) → 0 < n →
      (TlvListMatches data (tlvParse buffer) ↔ TlvFits encodeFloat data) := by
  have hfits : TlvFits encodeFloat data → ∃ buffer,
      tlvSerialize fresh encodeFloat isResourceInstance data =
        .ok ((tlvSize encodeFloat data : Int), buffer) ∧
      TlvListMatches data (tlvParse buffer) := by
    rintro ⟨hencodable, hsize⟩
    obtain ⟨bytes, hwritten, hlength, parsed, hmatches, hparse⟩ :=
      roundTrips_list (fun d _ => roundTrips fresh encodeFloat d) hnodes hencodable
        isResourceInstance (show ([] : List UInt8).length + tlvSize encodeFloat data ≤
          tlvSize encodeFloat data by simp)
    refine ⟨bytes, ?_, ?_⟩
    · have hget := prvGetLength_eq hnodes hencodable hsize
      simp only [tlvSerialize, hget, Int.toNat_natCast, hwritten, List.nil_append]
      exact tlvResult_full (tlvSize_pos hne) hlength
    · have hparsed : tlvParseAll bytes = some parsed := by
        have := hparse []
        simpa [tlvParseAll_nil] using this
      rw [tlvParse, ← tlvParseAll, hparsed]
      exact hmatches
  constructor
  · intro h
    obtain ⟨buffer, hok, -⟩ := hfits h
    have hpos : 0 < tlvSize encodeFloat data := tlvSize_pos hne
    exact ⟨_, buffer, hok, by omega⟩
  · intro n buffer hok hpos
    constructor
    · intro hmatches
      unfold tlvSerialize at hok
      obtain ⟨hlength, hwritten⟩ := tlvResult_ok
        (fun head good hw => tlvWriteList_le (by simp) hw) hok (by omega)
      obtain ⟨head, junk, hw, rfl, rfl⟩ := hwritten hpos
      obtain ⟨bytes, hbytes, hback⟩ :=
        comesBack_list (fun d _ => comesBack fresh encodeFloat d) hw
      rw [List.nil_append] at hbytes
      subst hbytes
      cases hparse : tlvParseAll (head ++ junk) with
      | none =>
        rw [tlvParse, ← tlvParseAll, hparse] at hmatches
        obtain ⟨cur, rest, rfl⟩ := List.exists_cons_of_ne_nil hne
        simp [TlvListMatches] at hmatches
      | some parsed =>
        rw [tlvParse, ← tlvParseAll, hparse] at hmatches
        obtain ⟨hencodable, hsize⟩ := hback _ _ hparse hmatches
        have hlt := prvGetLength_lt encodeFloat (show (0 : Int) < 2 ^ 31 by norm_num) data
        rw [List.length_append] at hlength
        exact ⟨hencodable, by omega⟩
    · intro h
      obtain ⟨buffer', hok', hmatches⟩ := hfits h
      rw [hok] at hok'
      simp only [Except.ok.injEq, Prod.mk.injEq] at hok'
      rw [hok'.2]
      exact hmatches

/-- A multiple resource with the instances 3 and 700, as a client reads it from /3/0/7. -/
def powerVoltages : Lwm2mData :=
  .node .multipleResource 7 (.asChildren
    [.node .integer 3 (.asInteger (-300)), .node .string 700 (.asBuffer [86])])

theorem powerVoltages_fits : TlvFits (fun _ => []) [powerVoltages] :=
  ⟨⟨⟨by decide, fun _ => ⟨by simp, ⟨by decide, by simp [DataType.tlvContainer]⟩,
    ⟨by decide, by simp [DataType.tlvContainer]⟩, trivial⟩⟩, trivial⟩, by decide⟩

theorem powerVoltages_roundTrips :
    ∃ n buffer, tlvSerialize (fun _ => 0) (fun _ => []) false [powerVoltages] = .ok (n, buffer) ∧
      0 < n ∧ TlvListMatches [powerVoltages] (tlvParse buffer) := by
  obtain ⟨hserialized, hiff⟩ := tlvSerialize_roundTrip_iff (fun _ => 0) (fun _ => []) false
    [powerVoltages] (by simp)
    (by simp [powerVoltages, TlvListNodes, TlvNodes, TlvChildNodes, DataType.tlvContainer])
  obtain ⟨n, buffer, hok, hpos⟩ := hserialized powerVoltages_fits
  exact ⟨n, buffer, hok, hpos, (hiff n buffer hok hpos).mpr powerVoltages_fits⟩

/-- A multiple resource without instances is serialized to its header, and the whole message is
parsed to nothing. -/
theorem emptyResource_lost :
    tlvSerialize (fun _ => 0) (fun _ => []) false [.node .multipleResource 7 (.asChildren [])] =
        .ok (2, [0x80, 7]) ∧
      ¬TlvListMatches [.node .multipleResource 7 (.asChildren [])] (tlvParse [0x80, 7]) := by
  have hlength : prvGetLength (fun _ => []) 0 [.node .multipleResource 7 (.asChildren [])] = 2 := by
    decide
  constructor
  · unfold tlvSerialize
    rw [hlength]
    rfl
  · exact fun h => h

end Wakaama
