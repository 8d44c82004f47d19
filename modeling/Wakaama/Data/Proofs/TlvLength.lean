import Wakaama.Data.TlvLength
import Wakaama.Data.Proofs.TlvRoundTrip
import Wakaama.Misc.Run

/-!
# Whether the length of TLV data is right

The two passes choose the same widths. They part where a content is longer than the 24 bits of a
length field, whose bytes are counted and left out, and where the sum is no `int`.
-/

namespace Wakaama

variable {toFloat : UInt64 → UInt32} {data array level : List Lwm2mData} {d : Lwm2mData}

theorem prvEncodeFloat_length (bits : UInt64) :
    (prvEncodeFloat toFloat bits).length = if beyondFloat bits then 8 else 4 := by
  unfold prvEncodeFloat
  split
  · exact bigEndian_length 8 _
  · exact bigEndian_length 4 _

theorem tlvDataLen_eq (toFloat : UInt64 → UInt32) (d : Lwm2mData) :
    tlvDataLen d = (tlvLeaf (prvEncodeFloat toFloat) d).map List.length := by
  unfold tlvDataLen tlvLeaf
  cases d.type <;> simp [prvEncodeFloat_length, bigEndian_length]

theorem prvGetLengthWidths_of
    (hnode : ∀ d ∈ data, ∀ length,
      prvTurnWidths length d = prvLengthWith (prvEncodeFloat toFloat) length d) (length : Int) :
    prvGetLengthWidths length data = prvGetLength (prvEncodeFloat toFloat) length data := by
  induction data generalizing length with
  | nil => rfl
  | cons cur rest ih =>
    rw [prvGetLengthWidths, prvGetLength, hnode cur List.mem_cons_self,
      ih fun d hd => hnode d (List.mem_cons_of_mem _ hd)]

theorem prvTurnWidths_eq (toFloat : UInt64 → UInt32) : ∀ d length,
    prvTurnWidths length d = prvLengthWith (prvEncodeFloat toFloat) length d := by
  refine Lwm2mData.induct fun type id value ih length => ?_
  unfold prvTurnWidths prvLengthWith
  have hchildren : prvChildrenWidths value = prvChildrenLength (prvEncodeFloat toFloat) value := by
    cases value with
    | asChildren array => exact prvGetLengthWidths_of (ih array rfl) 0
    | _ => rfl
  rw [hchildren, tlvDataLen_eq toFloat]
  cases tlvLeaf (prvEncodeFloat toFloat) (.node type id value) <;> rfl

theorem prvGetLengthWidths_eq (toFloat : UInt64 → UInt32) (data : List Lwm2mData) :
    prvGetLengthWidths 0 data = prvGetLength (prvEncodeFloat toFloat) 0 data :=
  prvGetLengthWidths_of (fun d _ => prvTurnWidths_eq toFloat d) 0

theorem EveryNode.of_mem {P : Lwm2mData → Prop} {type : DataType} {id : UInt16}
    (h : EveryNode P data) (hmem : .node type id (.asChildren array) ∈ data)
    (hcontainer : type.tlvContainer = true) : EveryNode P array :=
  fun level hlevel => h level (.inside hmem hcontainer hlevel)

theorem everyNode_iff {P : Lwm2mData → Prop} :
    EveryNode P data ↔ ∀ d ∈ data, P d ∧ ∀ array, d.type.tlvContainer = true →
      d.value = .asChildren array → EveryNode P array := by
  constructor
  · intro h d hd
    refine ⟨h data (.self data) d hd, fun array hcontainer hvalue => ?_⟩
    obtain ⟨type, id, value⟩ := d
    obtain rfl : value = .asChildren array := hvalue
    exact h.of_mem hd hcontainer
  · intro h level hlevel
    cases hlevel with
    | self => exact fun d hd => (h d hd).1
    | inside hmem hcontainer hlevel => exact (h _ hmem).2 _ hcontainer rfl level hlevel

theorem tlvDataSize_container {encodeFloat : UInt64 → List UInt8} {type : DataType} {id : UInt16}
    (h : type.tlvContainer = true) :
    tlvDataSize encodeFloat (.node type id (.asChildren data)) = tlvSize encodeFloat data := by
  rw [tlvDataSize, if_pos h, tlvChildrenSize]

theorem prvGetLength_failed (encodeFloat : UInt64 → List UInt8) (data : List Lwm2mData) :
    prvGetLength encodeFloat (-1) data = -1 := by
  cases data with
  | nil => rfl
  | cons cur rest => rw [prvGetLength, if_pos rfl]

theorem prvGetLength_typed {encodeFloat : UInt64 → List UInt8}
    (hnode : ∀ d ∈ data, ∀ length, prvLengthWith encodeFloat length d ≠ -1 →
      TlvTyped d ∧ ∀ array, d.type.tlvContainer = true → d.value = .asChildren array →
        EveryNode TlvTyped array) {length : Int} (h : prvGetLength encodeFloat length data ≠ -1) :
    EveryNode TlvTyped data := by
  rw [everyNode_iff]
  induction data generalizing length with
  | nil => exact fun d hd => absurd hd List.not_mem_nil
  | cons cur rest ih =>
    rw [prvGetLength] at h
    have hturn : prvLengthWith encodeFloat length cur ≠ -1 := by
      intro hfailed
      rw [hfailed, prvGetLength_failed, ite_self] at h
      exact h rfl
    split at h
    · exact absurd rfl h
    · intro d hd
      cases List.mem_cons.1 hd with
      | inl heq => exact heq ▸ hnode cur List.mem_cons_self length hturn
      | inr hd => exact ih (fun d hd => hnode d (List.mem_cons_of_mem _ hd)) h d hd

theorem prvLengthWith_typed (encodeFloat : UInt64 → List UInt8) : ∀ d length,
    prvLengthWith encodeFloat length d ≠ -1 → TlvTyped d ∧ ∀ array,
      d.type.tlvContainer = true → d.value = .asChildren array → EveryNode TlvTyped array := by
  refine Lwm2mData.induct fun type id value ih length h => ?_
  unfold prvLengthWith at h
  cases hcontainer : type.tlvContainer with
  | true =>
    rw [if_pos hcontainer] at h
    refine ⟨?_, fun array _ hvalue => ?_⟩
    · constructor <;> intro htype <;> cases htype.symm.trans rfl <;> cases hcontainer
    · obtain rfl : value = .asChildren array := hvalue
      refine @prvGetLength_typed array encodeFloat (ih array rfl) 0 fun hfailed => h ?_
      exact if_pos hfailed
  | false =>
    rw [if_neg (by simp [hcontainer])] at h
    refine ⟨?_, fun _ htrue => by cases htrue.symm.trans hcontainer⟩
    constructor <;> intro htype <;> exact h (by rw [show type = _ from htype]; rfl)

theorem untyped_refused (toFloat : UInt64 → UInt32) (h : ¬ EveryNode TlvTyped data) :
    prvGetLengthWidths 0 data = -1 ∧ ∀ fresh isResourceInstance,
      tlvSerialize fresh (prvEncodeFloat toFloat) isResourceInstance data = .ok (-1, []) := by
  have hlength : prvGetLength (prvEncodeFloat toFloat) 0 data = -1 :=
    Decidable.byContradiction fun hne =>
      h (prvGetLength_typed (fun d _ => prvLengthWith_typed _ d) hne)
  refine ⟨(prvGetLengthWidths_eq toFloat data).trans hlength, fun fresh isResourceInstance => ?_⟩
  rw [tlvSerialize, hlength]
  rfl

variable {isResourceInstance : Bool} {encodeFloat : UInt64 → List UInt8}

theorem prvCreateHeader_fixed {dataLen : Nat} (h : dataLen ≤ 0xFFFFFF) (fresh fresh' : Nat → UInt8)
    (index index' : Nat) (isInstance : Bool) (type : DataType) (id : UInt16) :
    prvCreateHeader fresh index isInstance type id dataLen =
      prvCreateHeader fresh' index' isInstance type id dataLen := by
  simp only [prvCreateHeader_eq, if_pos h]

theorem prvCreateHeader_bounded {dataLen index : Nat} {isInstance : Bool} {type : DataType}
    {id : UInt16} (h : prvCreateHeader (fun _ => 0) index isInstance type id dataLen =
      prvCreateHeader (fun _ => 1) index isInstance type id dataLen) : dataLen ≤ 0xFFFFFF := by
  by_contra hlong
  simp only [prvCreateHeader_eq] at h
  rw [if_neg (by omega), if_neg (by omega), if_neg (by omega), if_neg hlong,
    if_neg (by omega), if_neg (by omega), if_neg (by omega), if_neg hlong] at h
  have hbytes := List.append_cancel_left h
  exact absurd hbytes (by decide)

/-- A node is written as a header and a content, which is the same in every memory. -/
def Writes (encodeFloat : UInt64 → List UInt8) (isResourceInstance : Bool) (d : Lwm2mData)
    (content : List UInt8) : Prop :=
  ∀ fresh bufferLen head,
    tlvWrite fresh encodeFloat isResourceInstance bufferLen head d =
      (tlvAppend bufferLen head (prvCreateHeader fresh head.length
        (!d.type.tlvContainer && isResourceInstance) d.type d.id content.length ++ content)).map
          fun head => (head, true)

def WritesSize (encodeFloat : UInt64 → List UInt8) (d : Lwm2mData) : Prop :=
  ∀ isResourceInstance, ∃ content, Writes encodeFloat isResourceInstance d content ∧
    content.length = tlvDataSize encodeFloat d

theorem appended_eq (written : Except Fault (List UInt8)) :
    (match written with
      | .error fault => .error fault
      | .ok head => .ok (head, true)) = written.map fun head => (head, true) := by
  cases written <;> rfl

theorem Writes.ok {content head out : List UInt8} {fresh : Nat → UInt8} {bufferLen : Nat}
    (h : Writes encodeFloat isResourceInstance d content)
    (hrun : tlvWrite fresh encodeFloat isResourceInstance bufferLen head d = .ok (out, true)) :
    out = head ++ (prvCreateHeader fresh head.length (!d.type.tlvContainer && isResourceInstance)
      d.type d.id content.length ++ content) := by
  rw [h] at hrun
  obtain ⟨out', happend, heq⟩ := exceptMap_inv hrun
  obtain ⟨rfl, -⟩ := Prod.mk.inj heq
  exact (tlvAppend_ok.mp happend).1

theorem tlvWriteList_size (hdata : ∀ d ∈ data, WritesSize encodeFloat d) {fresh : Nat → UInt8}
    {bufferLen : Nat} {head out : List UInt8}
    (hrun : tlvWriteList fresh encodeFloat isResourceInstance bufferLen head data =
      .ok (out, true)) : ∃ bytes, out = head ++ bytes ∧ bytes.length = tlvSize encodeFloat data := by
  induction data generalizing head with
  | nil =>
    obtain ⟨rfl, -⟩ := Prod.mk.inj (Except.ok.inj hrun)
    exact ⟨[], (List.append_nil _).symm, rfl⟩
  | cons cur rest ih =>
    obtain ⟨middle, hcur, hrest⟩ := tlvWriteList_cons hrun
    obtain ⟨content, hwrites, hsize⟩ := hdata cur List.mem_cons_self isResourceInstance
    obtain rfl := hwrites.ok hcur
    obtain ⟨bytes, rfl, hlength⟩ := ih (fun d hd => hdata d (List.mem_cons_of_mem _ hd)) hrest
    refine ⟨_, List.append_assoc .., ?_⟩
    rw [List.length_append, List.length_append, prvCreateHeader_length, hsize, hlength, tlvSize]

theorem contents_bounded (hdata : ∀ d ∈ data, WritesSize encodeFloat d) {bufferLen : Nat}
    {head out : List UInt8}
    (hzero : tlvWriteList (fun _ => 0) encodeFloat isResourceInstance bufferLen head data =
      .ok (out, true))
    (hone : tlvWriteList (fun _ => 1) encodeFloat isResourceInstance bufferLen head data =
      .ok (out, true)) : ∀ d ∈ data, tlvDataSize encodeFloat d ≤ 0xFFFFFF := by
  induction data generalizing head with
  | nil => exact fun d hd => absurd hd List.not_mem_nil
  | cons cur rest ih =>
    have hrest := fun d hd => hdata d (List.mem_cons_of_mem cur hd)
    obtain ⟨content, hwrites, hsize⟩ := hdata cur List.mem_cons_self isResourceInstance
    obtain ⟨middle, hcur, hzero⟩ := tlvWriteList_cons hzero
    obtain ⟨middle', hcur', hone⟩ := tlvWriteList_cons hone
    obtain rfl := hwrites.ok hcur
    obtain rfl := hwrites.ok hcur'
    obtain ⟨bytes, hout, -⟩ := tlvWriteList_size hrest hzero
    obtain ⟨bytes', hout', -⟩ := tlvWriteList_size hrest hone
    have hsame := hout.symm.trans hout'
    simp only [List.append_assoc] at hsame
    obtain ⟨hheader, -⟩ := List.append_inj (List.append_cancel_left hsame)
      (by rw [prvCreateHeader_length, prvCreateHeader_length])
    rw [hheader] at hzero
    intro d hd
    cases List.mem_cons.1 hd with
    | inl heq => exact heq ▸ hsize ▸ prvCreateHeader_bounded hheader
    | inr hd => exact ih hrest hzero hone d hd

theorem tlvWriteList_fixed (hdata : ∀ d ∈ data, WritesSize encodeFloat d)
    (hbounded : ∀ d ∈ data, tlvDataSize encodeFloat d ≤ 0xFFFFFF) (isResourceInstance : Bool) :
    ∃ bytes, bytes.length = tlvSize encodeFloat data ∧ ∀ fresh bufferLen head,
      head.length + tlvSize encodeFloat data ≤ bufferLen →
      tlvWriteList fresh encodeFloat isResourceInstance bufferLen head data =
        .ok (head ++ bytes, true) := by
  induction data with
  | nil => exact ⟨[], rfl, fun fresh bufferLen head _ => by rw [List.append_nil]; rfl⟩
  | cons cur rest ih =>
    obtain ⟨content, hwrites, hsize⟩ := hdata cur List.mem_cons_self isResourceInstance
    obtain ⟨bytes, hlength, hrun⟩ := ih (fun d hd => hdata d (List.mem_cons_of_mem _ hd))
      fun d hd => hbounded d (List.mem_cons_of_mem _ hd)
    have hcontent : content.length ≤ 0xFFFFFF := hsize ▸ hbounded cur List.mem_cons_self
    refine ⟨prvCreateHeader (fun _ => 0) 0 (!cur.type.tlvContainer && isResourceInstance) cur.type
      cur.id content.length ++ content ++ bytes, ?_, fun fresh bufferLen head hroom => ?_⟩
    · rw [List.length_append, List.length_append, prvCreateHeader_length, hsize, hlength, tlvSize]
    · rw [tlvSize] at hroom
      have happend := tlvAppend_ok.mpr ⟨rfl, show head.length + (prvCreateHeader fresh head.length
        (!cur.type.tlvContainer && isResourceInstance) cur.type cur.id content.length ++
          content).length ≤ bufferLen by
        rw [List.length_append, prvCreateHeader_length, hsize]
        omega⟩
      rw [tlvWriteList, hwrites, happend]
      dsimp only [Except.map]
      rw [hrun fresh bufferLen, prvCreateHeader_fixed hcontent fresh (fun _ => 0) head.length 0]
      · simp only [List.append_assoc, Bool.and_self]
      · rw [List.length_append, List.length_append, prvCreateHeader_length, hsize]
        omega

/-- A node of a type with a record, where its children are serialized in full. -/
theorem writesSize_node {type : DataType} {id : UInt16} {value : DataValue Lwm2mData}
    (htyped : TlvTyped (.node type id value))
    (hchildren : type.tlvContainer = true → ∀ array, value = .asChildren array →
      (∀ child ∈ array, WritesSize (prvEncodeFloat toFloat) child) ∧ LengthMeets toFloat array) :
    WritesSize (prvEncodeFloat toFloat) (.node type id value) := by
  intro isResourceInstance
  cases hcontainer : type.tlvContainer with
  | true =>
    -- what `tlv_serialize` makes of the children
    have hserialized : ∃ content : List UInt8, (∀ fresh,
        tlvSerializeChildren fresh (prvEncodeFloat toFloat)
          (isResourceInstance || type == .multipleResource) value =
            .ok (content.length, content)) ∧
        content.length = tlvDataSize (prvEncodeFloat toFloat) (.node type id value) := by
      rw [tlvDataSize, if_pos hcontainer]
      cases value with
      | asChildren array =>
        obtain ⟨hnodes, hmeets⟩ := hchildren hcontainer array rfl
        obtain ⟨bytes, -, hrun⟩ := hmeets (isResourceInstance || type == .multipleResource)
        obtain ⟨out, hout, hsize⟩ := tlvWriteList_size hnodes (hrun fun _ => 0).1
        rw [List.nil_append] at hout
        exact ⟨bytes, fun fresh => (hrun fresh).2, hout ▸ hsize⟩
      | _ => exact ⟨[], fun fresh => rfl, rfl⟩
    obtain ⟨content, hserialized, hsize⟩ := hserialized
    refine ⟨content, fun fresh bufferLen head => ?_, hsize⟩
    rw [tlvWrite, if_pos hcontainer, hserialized]
    dsimp only
    rw [if_neg (by omega), Int.toNat_natCast, Lwm2mData.type, hcontainer]
    exact appended_eq _
  | false =>
    obtain ⟨content, hleaf⟩ := tlvLeaf_isSome (prvEncodeFloat toFloat) (.node type id value)
      hcontainer htyped.1 htyped.2
    refine ⟨content, fun fresh bufferLen head => ?_, by simp [tlvDataSize, hcontainer, hleaf]⟩
    rw [tlvWrite, if_neg (by simp [hcontainer]), hleaf, Lwm2mData.type, hcontainer]
    exact appended_eq _

/-- Every content has a length of 24 bits, and the whole list is shorter than 2 GiB. -/
def TlvBounded (encodeFloat : UInt64 → List UInt8) (data : List Lwm2mData) : Prop :=
  EveryNode (fun d => tlvDataSize encodeFloat d ≤ 0xFFFFFF) data ∧ tlvSize encodeFloat data < 2 ^ 31

theorem LengthMeets.bounded (hdata : ∀ d ∈ data, WritesSize (prvEncodeFloat toFloat) d)
    (h : LengthMeets toFloat data) :
    (∀ d ∈ data, tlvDataSize (prvEncodeFloat toFloat) d ≤ 0xFFFFFF) ∧
      tlvSize (prvEncodeFloat toFloat) data < 2 ^ 31 := by
  obtain ⟨bytes, hlength, hrun⟩ := h false
  refine ⟨contents_bounded hdata (hrun _).1 (hrun _).1, ?_⟩
  obtain ⟨out, hout, hsize⟩ := tlvWriteList_size hdata (hrun fun _ => 0).1
  rw [List.nil_append] at hout
  have hlt := prvGetLength_lt (prvEncodeFloat toFloat) (show (0 : Int) < 2 ^ 31 by norm_num) data
  rw [← prvGetLengthWidths_eq, hlength, hout] at hlt
  omega

theorem lengthMeets_of_bounded (hdata : ∀ d ∈ data, WritesSize (prvEncodeFloat toFloat) d)
    (hadds : ∀ d ∈ data, LengthAdds (prvEncodeFloat toFloat) d)
    (hbounded : ∀ d ∈ data, tlvDataSize (prvEncodeFloat toFloat) d ≤ 0xFFFFFF)
    (hsize : tlvSize (prvEncodeFloat toFloat) data < 2 ^ 31) : LengthMeets toFloat data := by
  intro isResourceInstance
  obtain ⟨bytes, hlength, hrun⟩ := tlvWriteList_fixed hdata hbounded isResourceInstance
  have hsum := prvGetLength_eq_of hadds 0 (by omega)
  rw [Nat.zero_add, ← hlength] at hsum
  refine ⟨bytes, (prvGetLengthWidths_eq toFloat data).trans hsum, fun fresh => ?_⟩
  have hwritten := hrun fresh bytes.length [] (by rw [hlength]; exact Nat.le_of_eq (Nat.zero_add _))
  refine ⟨hwritten, ?_⟩
  rw [tlvSerialize, show prvGetLength (prvEncodeFloat toFloat) 0 data = _ from hsum,
    Int.toNat_natCast, hwritten]
  cases bytes with
  | nil => rfl
  | cons first bytes => exact tlvResult_full (Nat.succ_pos _) rfl

theorem meets_bounded : ∀ d, TlvTyped d →
    (∀ array, d.type.tlvContainer = true → d.value = .asChildren array →
      EveryNode TlvTyped array ∧ ∀ level, TlvLevel array level → LengthMeets toFloat level) →
    WritesSize (prvEncodeFloat toFloat) d ∧
      ∀ array, d.type.tlvContainer = true → d.value = .asChildren array →
        EveryNode (fun d => tlvDataSize (prvEncodeFloat toFloat) d ≤ 0xFFFFFF) array := by
  refine Lwm2mData.induct fun type id value ih htyped hbelow => ?_
  have hchildren : type.tlvContainer = true → ∀ array, value = .asChildren array →
      ∀ child ∈ array, WritesSize (prvEncodeFloat toFloat) child ∧
        ∀ inner, child.type.tlvContainer = true → child.value = .asChildren inner →
          EveryNode (fun d => tlvDataSize (prvEncodeFloat toFloat) d ≤ 0xFFFFFF) inner := by
    intro hcontainer array hvalue child hchild
    obtain ⟨hnodes, hlevels⟩ := hbelow array hcontainer hvalue
    refine ih array hvalue child hchild (everyNode_iff.1 hnodes child hchild).1 ?_
    intro inner hinner hinside
    refine ⟨(everyNode_iff.1 hnodes child hchild).2 inner hinner hinside, fun level hlevel => ?_⟩
    obtain ⟨type', id', value'⟩ := child
    obtain rfl : value' = .asChildren inner := hinside
    exact hlevels level (.inside hchild hinner hlevel)
  constructor
  · refine writesSize_node htyped fun hcontainer array hvalue => ?_
    exact ⟨fun child hchild => (hchildren hcontainer array hvalue child hchild).1,
      (hbelow array hcontainer hvalue).2 array (.self array)⟩
  · intro array hcontainer hvalue
    have hone := hchildren hcontainer array hvalue
    obtain ⟨hsizes, -⟩ := LengthMeets.bounded (fun child hchild => (hone child hchild).1)
      ((hbelow array hcontainer hvalue).2 array (.self array))
    exact everyNode_iff.2 fun child hchild => ⟨hsizes child hchild, (hone child hchild).2⟩

theorem bounded_meets : ∀ d, TlvTyped d →
    (∀ array, d.type.tlvContainer = true → d.value = .asChildren array →
      EveryNode TlvTyped array ∧ TlvBounded (prvEncodeFloat toFloat) array) →
    WritesSize (prvEncodeFloat toFloat) d ∧ LengthAdds (prvEncodeFloat toFloat) d := by
  refine Lwm2mData.induct fun type id value ih htyped hbelow => ?_
  have hchildren : type.tlvContainer = true → ∀ array, value = .asChildren array →
      ∀ child ∈ array, WritesSize (prvEncodeFloat toFloat) child ∧
        LengthAdds (prvEncodeFloat toFloat) child := by
    intro hcontainer array hvalue child hchild
    obtain ⟨hnodes, hbounded, hsize⟩ := hbelow array hcontainer hvalue
    have hnode := everyNode_iff.1 hnodes child hchild
    have hcontent := everyNode_iff.1 hbounded child hchild
    refine ih array hvalue child hchild hnode.1 fun inner hinner hinside => ?_
    refine ⟨hnode.2 inner hinner hinside, hcontent.2 inner hinner hinside, ?_⟩
    obtain ⟨type', id', value'⟩ := child
    obtain rfl : value' = .asChildren inner := hinside
    exact Nat.lt_of_le_of_lt (Nat.le_trans (Nat.le_of_eq (tlvDataSize_container hinner).symm)
      hcontent.1) (by norm_num)
  constructor
  · refine writesSize_node htyped fun hcontainer array hvalue => ?_
    have hone := hchildren hcontainer array hvalue
    obtain ⟨-, hbounded, hsize⟩ := hbelow array hcontainer hvalue
    exact ⟨fun child hchild => (hone child hchild).1, lengthMeets_of_bounded
      (fun child hchild => (hone child hchild).1) (fun child hchild => (hone child hchild).2)
      (fun child hchild => (everyNode_iff.1 hbounded child hchild).1) hsize⟩
  · exact lengthAdds_node _ id htyped.1 htyped.2 fun hcontainer array hvalue child hchild =>
      (hchildren hcontainer array hvalue child hchild).2

/-- `prv_getLength` and `tlv_serialize` agree at every level exactly if every content has a length
of 24 bits and the whole list is shorter than 2 GiB, or if a type makes both refuse the data. -/
theorem lengthPredicts_iff (toFloat : UInt64 → UInt32) (data : List Lwm2mData) :
    LengthPredicts toFloat data ↔
      (EveryNode TlvTyped data → TlvBounded (prvEncodeFloat toFloat) data) := by
  constructor
  · intro h htyped
    have hmeets := h.1 htyped
    have hnode := fun d hd => @meets_bounded toFloat d (everyNode_iff.1 htyped d hd).1
      fun array hcontainer hvalue => by
        obtain ⟨type, id, value⟩ := d
        obtain rfl : value = .asChildren array := hvalue
        exact ⟨htyped.of_mem hd hcontainer, fun level hlevel =>
          hmeets level (.inside hd hcontainer hlevel)⟩
    obtain ⟨hsizes, hsize⟩ :=
      LengthMeets.bounded (fun d hd => (hnode d hd).1) (hmeets data (.self data))
    exact ⟨everyNode_iff.2 fun d hd => ⟨hsizes d hd, (hnode d hd).2⟩, hsize⟩
  · intro h
    refine ⟨fun htyped level hlevel => ?_, untyped_refused toFloat⟩
    have hbounded := h htyped
    -- a level is as the whole list is
    have hinside : EveryNode TlvTyped level ∧ TlvBounded (prvEncodeFloat toFloat) level := by
      clear h
      induction hlevel with
      | self => exact ⟨htyped, hbounded⟩
      | inside hmem hcontainer _ ih =>
        have hcontent := Nat.le_trans (Nat.le_of_eq (tlvDataSize_container hcontainer).symm)
          (hbounded.1 _ (.self _) _ hmem)
        exact ih (htyped.of_mem hmem hcontainer) ⟨hbounded.1.of_mem hmem hcontainer, by omega⟩
    obtain ⟨htyped, hbounded, hsize⟩ := hinside
    have hnode := fun d hd => @bounded_meets toFloat d (everyNode_iff.1 htyped d hd).1
      fun array hcontainer hvalue => by
        obtain ⟨type, id, value⟩ := d
        obtain rfl : value = .asChildren array := hvalue
        have hcontent := Nat.le_trans (Nat.le_of_eq (tlvDataSize_container hcontainer).symm)
          (hbounded level (.self level) _ hd)
        exact ⟨htyped.of_mem hd hcontainer, hbounded.of_mem hd hcontainer, by omega⟩
    exact lengthMeets_of_bounded (fun d hd => (hnode d hd).1) (fun d hd => (hnode d hd).2)
      (fun d hd => hbounded level (.self level) d hd) hsize

/-- A resource with some bytes. -/
def resourceOf (bytes : List UInt8) : List Lwm2mData := [.node .opaqueBytes 0 (.asBuffer bytes)]

theorem resourceOf_bounded {bytes : List UInt8} (h : LengthPredicts toFloat (resourceOf bytes)) :
    bytes.length ≤ 0xFFFFFF := by
  have htyped : EveryNode TlvTyped (resourceOf bytes) := everyNode_iff.2 fun d hd => by
    obtain rfl := List.mem_singleton.1 hd
    exact ⟨⟨nofun, nofun⟩, nofun⟩
  obtain ⟨hsizes, -⟩ := LengthMeets.bounded (fun d hd => by
    obtain rfl := List.mem_singleton.1 hd
    exact writesSize_node ⟨nofun, nofun⟩ nofun) (h.1 htyped _ (.self _))
  exact hsizes _ (List.mem_singleton.2 rfl)

/-- The three bytes of the length of 16 MiB are counted and not written. -/
theorem sixteenMiB_unwritten :
    ¬ LengthPredicts (fun _ => 0) (resourceOf (List.replicate 0x1000000 0)) := by
  intro h
  have hlength := resourceOf_bounded h
  rw [List.length_replicate] at hlength
  exact absurd hlength (by norm_num)

end Wakaama
