import Wakaama.Data.Proofs.CborWriters
import Wakaama.Data.SenmlCbor
import Wakaama.Misc.Layout

/-!
# The buffer of `senml_cbor_serialize`

The serializer writes its document as a list of chunks, one behind the other. The sizes of the
chunks do not depend on the room that is left, and the buffer is large enough for a document
exactly when the chunks fit.
-/

namespace Wakaama

/-- The chunk of a text. -/
def textChunk (text : List UInt8) : Chunk := .copied (headLength text.length.toUInt64) text.length

/-- The value whose head an integer is. -/
def integerValue (data : Lwm2mData) : UInt64 :=
  if data.asInteger < 0 then (~~~data.asInteger).toUInt64 else data.asUnsigned

/-- The chunk of `cbor_put_singular`. -/
def singularChunk (data : Lwm2mData) : Chunk :=
  match data.type with
  | .string | .coreLink | .opaqueBytes => textChunk data.asBuffer
  | .integer => .checked (headLength (integerValue data))
  | .unsignedInteger => .checked (headLength data.asUnsigned)
  | .float => .checked (floatLength data.asFloat)
  | .boolean => .checked 1
  | .objectLink => .printed ((objLinkText data.asObjLink).length + 1)
  | .undefined | .object | .objectInstance | .multipleResource => .stop

variable {val : UInt64} {n room : Nat} {data : Lwm2mData} {xs : List Chunk}

theorem putTypeAndValue_layout {type : CborType} (hn : 0 < n)
    (h : Checked room n (cborPutTypeAndValue room type val)) :
    List.length <$> putTypeAndValue room type val = layout room [.checked n] := by
  rcases h with ⟨bytes, hbytes, hlength⟩
  rw [layout_checked]
  unfold putTypeAndValue
  by_cases hroom : n ≤ room
  · rw [if_pos hroom] at hlength ⊢
    have hne : bytes ≠ [] := by
      intro hnil
      rw [hnil, List.length_nil] at hlength
      omega
    rw [hbytes]
    show List.length <$> (if bytes = [] then failure else pure bytes) = _
    rw [if_neg hne, map_pure, hlength]
  · rw [if_neg hroom] at hlength ⊢
    rw [hbytes, List.length_eq_zero_iff.1 hlength]
    rfl

theorem putSingular_of_ok {res : Int} {bytes : List UInt8}
    (h : cborPutSingular room data = .ok (res, bytes)) :
    putSingular room data = if res ≤ 0 then failure else pure (bytes.take res.toNat) := by
  unfold putSingular
  rw [h]
  rfl

theorem putSingular_of_error (h : cborPutSingular room data = .error .outOfBounds) :
    putSingular room data = overrun := by
  unfold putSingular
  rw [h]
  rfl

theorem putSingular_checked {written : Except Fault (List UInt8)} (hn : 0 < n)
    (hwritten : Checked room n written)
    (h : cborPutSingular room data = written.map fun bytes => ((bytes.length : Int), bytes)) :
    List.length <$> putSingular room data = layout room [.checked n] := by
  rcases hwritten with ⟨bytes, hbytes, hlength⟩
  rw [hbytes] at h
  rw [layout_checked, putSingular_of_ok h]
  by_cases hroom : n ≤ room
  · rw [if_pos hroom] at hlength ⊢
    rw [if_neg (by omega), Int.toNat_natCast, List.take_length, map_pure, hlength]
  · rw [if_neg hroom] at hlength ⊢
    rw [if_pos (by omega)]
    rfl

theorem putSingular_value (mt : UInt8) (val : UInt64)
    (h : cborPutSingular room data = (prvSerializeValue room mt val).map fun bytes => ((bytes.length : Int), bytes)) :
    List.length <$> putSingular room data = layout room [.checked (headLength val)] :=
  putSingular_checked (headLength_pos val) (prvSerializeValue_checked room mt val) h

theorem putSingular_string {mt : UInt8} {buffer : List UInt8} (hroom : room < 2 ^ 31)
    (h : cborPutSingular room data = putBuffer room mt buffer) :
    List.length <$> putSingular room data = layout room [textChunk buffer] := by
  rcases prvSerializeValue_checked room mt buffer.length.toUInt64 with ⟨head, hwritten, hlength⟩
  have hpos := headLength_pos buffer.length.toUInt64
  unfold putBuffer at h
  simp only [hwritten, bind, Except.bind, pure, Except.pure] at h
  unfold textChunk
  rw [layout_copied]
  by_cases hhead : headLength buffer.length.toUInt64 ≤ room
  · rw [if_pos hhead] at hlength
    rw [if_neg (Nat.not_lt.2 hhead)]
    by_cases hempty : buffer = []
    · rw [if_pos hempty] at h
      rw [putSingular_of_ok h, if_neg (by omega), Int.toNat_natCast, List.take_length, map_pure,
        if_pos (by simp [hempty] at hhead ⊢; exact hhead), hlength, hempty]
      rfl
    · have hne : head ≠ [] := by
        intro hnil
        rw [hnil, List.length_nil] at hlength
        omega
      rw [if_neg hempty, if_neg hne] at h
      by_cases hfits : headLength buffer.length.toUInt64 + buffer.length ≤ room
      · have hint : intOfSize buffer.length = buffer.length := by
          unfold intOfSize
          rw [Int.bmod_def]
          split <;> omega
        have hsum : ((head.length : Int) + buffer.length).bmod (2 ^ 32) =
            ((head ++ buffer).length : Nat) := by
          rw [List.length_append, Int.bmod_def]
          split <;> omega
        have hlen : 0 < buffer.length := List.length_pos_of_ne_nil hempty
        rw [storeAt_eq_ok (by omega)] at h
        simp only [hint] at h
        rw [if_neg (by omega), hsum] at h
        rw [putSingular_of_ok h, if_neg (by simp; omega), Int.toNat_natCast, List.take_length,
          map_pure, if_pos hfits, List.length_append, hlength]
      · rw [storeAt_eq_error hempty (by omega)] at h
        rw [putSingular_of_error h, if_neg hfits]
        rfl
  · rw [if_neg hhead] at hlength
    have hnil : head = [] := List.length_eq_zero_iff.1 hlength
    rw [if_pos (Nat.not_le.1 hhead)]
    by_cases hempty : buffer = []
    · rw [if_pos hempty] at h
      rw [putSingular_of_ok h, if_pos (by omega)]
      rfl
    · rw [if_neg hempty, if_pos hnil] at h
      rw [putSingular_of_ok h, if_pos (by omega)]
      rfl

theorem objLinkText_length_le (link : UInt16 × UInt16) : (objLinkText link).length ≤ 11 := by
  have hdigits : ∀ id : UInt16, (Nat.toDigits 10 id.toNat).length ≤ 5 := by
    intro id
    rw [Nat.length_toDigits_le_iff (by omega) (by omega)]
    have hlt := id.toNat_lt
    omega
  have hfirst := hdigits link.1
  have hsecond := hdigits link.2
  simp only [objLinkText, decimal, List.length_append, List.length_cons, List.length_map]
  omega

theorem headLength_small (h : n < 24) : headLength n.toUInt64 = 1 := by
  interval_cases n <;> rfl

theorem putSingular_objLink {text : List UInt8} (hroom : room < 2 ^ 31) (htext : text.length < 24)
    (h : cborPutSingular room data = putObjLink room text) :
    List.length <$> putSingular room data = layout room [.printed (text.length + 1)] := by
  rw [layout_printed]
  by_cases hzero : room = 0
  · subst hzero
    unfold putObjLink at h
    rw [snprintfBehindFirst_zero] at h
    rw [putSingular_of_error h, if_pos rfl]
    rfl
  · rcases snprintfBehindFirst_ok hzero text with ⟨printed, hprinted⟩
    rcases prvSerializeValue_checked room cborTextString text.length.toUInt64 with
      ⟨head, hwritten, hlength⟩
    rw [headLength_small htext, if_pos (by omega)] at hlength
    have hsize : intOfSize (sizeBehindFirst room) = (room - 1 : Nat) := by
      unfold sizeBehindFirst intOfSize sizeMax
      rw [if_neg hzero, Nat.mod_eq_of_lt (by omega), Int.bmod_def]
      split <;> omega
    unfold putObjLink at h
    simp only [hprinted, hwritten, hsize, bind, Except.bind, pure, Except.pure] at h
    rw [if_neg hzero]
    by_cases hfits : text.length + 1 + 1 ≤ room
    · rw [if_pos (by omega), if_pos hlength] at h
      have hlen : ((text.length : Int) + 1) = ((head ++ text).length : Nat) := by
        rw [List.length_append]
        omega
      rw [hlen] at h
      rw [putSingular_of_ok h, if_neg (by simp; omega), Int.toNat_natCast, List.take_length,
        map_pure, if_pos hfits, List.length_append, hlength, Nat.add_comm]
    · rw [if_neg (by omega)] at h
      rw [putSingular_of_ok h, if_pos (by omega), if_neg hfits]
      rfl

theorem putSingular_layout (hroom : room < 2 ^ 31) (data : Lwm2mData) :
    List.length <$> putSingular room data = layout room [singularChunk data] := by
  cases htype : data.type with
  | string =>
    have h : cborPutSingular room data = putBuffer room cborTextString data.asBuffer := by
      simp only [cborPutSingular, htype]
    simpa only [singularChunk, htype] using putSingular_string hroom h
  | coreLink =>
    have h : cborPutSingular room data = putBuffer room cborTextString data.asBuffer := by
      simp only [cborPutSingular, htype]
    simpa only [singularChunk, htype] using putSingular_string hroom h
  | opaqueBytes =>
    have h : cborPutSingular room data = putBuffer room cborByteString data.asBuffer := by
      simp only [cborPutSingular, htype]
    simpa only [singularChunk, htype] using putSingular_string hroom h
  | objectLink =>
    have h : cborPutSingular room data = putObjLink room (objLinkText data.asObjLink) := by
      simp only [cborPutSingular, htype]
    have htext := objLinkText_length_le data.asObjLink
    simpa only [singularChunk, htype] using putSingular_objLink hroom (by omega) h
  | integer =>
    simp only [singularChunk, htype, integerValue]
    split
    · next hneg =>
      apply putSingular_value cborNegativeInteger
      simp only [cborPutSingular, htype, if_pos hneg]
    · next hneg =>
      apply putSingular_value cborUnsignedInteger
      simp only [cborPutSingular, htype, if_neg hneg]
  | unsignedInteger =>
    simp only [singularChunk, htype]
    apply putSingular_value cborUnsignedInteger
    simp only [cborPutSingular, htype]
  | float =>
    have hge := floatLength_ge data.asFloat
    simp only [singularChunk, htype]
    apply putSingular_checked (by omega) (prvSerializeFloat_checked _ _)
    simp only [cborPutSingular, htype]
  | boolean =>
    have hone : headLength (if data.asBoolean then cborSimpleTrue else cborSimpleFalse) = 1 := by
      split <;> rfl
    simp only [singularChunk, htype]
    rw [← hone]
    apply putSingular_value cborFloatingOrSimple
    simp only [cborPutSingular, htype]
  | _ =>
    have h : cborPutSingular room data = .ok (0, []) := by simp only [cborPutSingular, htype]
    rw [putSingular_of_ok h]
    simp only [singularChunk, htype, layout_singleton]
    rfl

theorem append_layout {first : Put (List UInt8)} {second : List UInt8 → Put (List UInt8)}
    {ys : List Chunk} (hfirst : List.length <$> first = layout room xs)
    (hsecond : ∀ bytes, List.length <$> second bytes = layout (room - bytes.length) ys) :
    (List.length <$> do
      let bytes ← first
      let tail ← second bytes
      return bytes ++ tail) = layout room (xs ++ ys) := by
  have htail : ∀ bytes : List UInt8, (do
      let tail ← second bytes
      return bytes.length + tail.length) = (do
      let n ← layout (room - bytes.length) ys
      return bytes.length + n) := by
    intro bytes
    rw [← hsecond, map_eq_pure_bind, bind_assoc]
    simp only [pure_bind]
  rw [layout_append, ← hfirst]
  simp only [map_eq_pure_bind, bind_assoc, pure_bind, List.length_append, htail]

theorem pure_layout (room : Nat) : List.length <$> (pure [] : Put (List UInt8)) = layout room [] :=
  rfl

/-- The chunks of a base name: its label and its text. -/
def baseNameChunks (baseUri : List UInt8) : List Chunk := [.checked 1, textChunk baseUri]

/-- The chunks of a name. -/
def nameChunks (parentUri : List UInt8) (id : UInt16) : List Chunk :=
  match nameText parentUri id with
  | none => [.stop]
  | some uri => [.checked 1, textChunk uri]

/-- The chunks of a value with its label. -/
def valueChunks (tlv : Lwm2mData) : List Chunk :=
  match valueLabel tlv.type with
  | none => [.stop]
  | some (.inl _) => [.checked 1, singularChunk tlv]
  | some (.inr text) => [textChunk text, singularChunk tlv]

/-- The chunks of a record. -/
def recordChunks (base : SenmlBase) (parentUri : List UInt8) (baseNameOutput : Bool)
    (tlv : Lwm2mData) : List Chunk :=
  .checked 1 :: (if base.owesName baseNameOutput then baseNameChunks base.baseUri else []) ++
    (if base.named then nameChunks parentUri tlv.id else []) ++
    (if !tlv.type.noValue then valueChunks tlv else [])

theorem putTypeAndValue_label (hval : headLength val = 1) :
    List.length <$> putTypeAndValue room .unsignedInteger val = layout room [.checked 1] := by
  apply putTypeAndValue_layout Nat.one_pos
  unfold cborPutTypeAndValue
  split
  · next h => exact checked_nil h
  · next h => exact hval ▸ prvSerializeValue_checked room cborUnsignedInteger val

theorem putTypeAndValue_map (hval : headLength val = 1) :
    List.length <$> putTypeAndValue room .map val = layout room [.checked 1] := by
  apply putTypeAndValue_layout Nat.one_pos
  unfold cborPutTypeAndValue
  split
  · next h => exact checked_nil h
  · next h => exact hval ▸ prvSerializeValue_checked room cborMap val

theorem putTypeAndValue_baseName (room : Nat) :
    List.length <$> putTypeAndValue room .negativeInteger senmlCborBaseNameLabel =
      layout room [.checked 1] := by
  apply putTypeAndValue_layout Nat.one_pos
  unfold cborPutTypeAndValue
  split
  · next h => exact checked_nil h
  · next h =>
    exact prvSerializeValue_checked room cborNegativeInteger (~~~senmlCborBaseNameLabel)

theorem prvSerializeBaseName_layout (hroom : room < 2 ^ 31) (baseUri : List UInt8) :
    List.length <$> prvSerializeBaseName baseUri room = layout room (baseNameChunks baseUri) := by
  unfold prvSerializeBaseName
  apply append_layout (putTypeAndValue_baseName room)
  intro label
  exact putSingular_layout (by omega) (textData baseUri)

theorem prvSerializeName_layout (hroom : room < 2 ^ 31) (parentUri : List UInt8) (id : UInt16) :
    List.length <$> prvSerializeName parentUri id room = layout room (nameChunks parentUri id) := by
  unfold prvSerializeName nameChunks
  cases nameText parentUri id with
  | none =>
    rw [layout_singleton]
    rfl
  | some uri =>
    apply append_layout (putTypeAndValue_label rfl)
    intro label
    exact putSingular_layout (by omega) (textData uri)

theorem valueLabel_small {type : DataType} {label : UInt64}
    (h : valueLabel type = some (.inl label)) : headLength label = 1 := by
  cases type <;> cases h <;> rfl

theorem prvSerializeValueRecord_layout (hroom : room < 2 ^ 31) (tlv : Lwm2mData) :
    List.length <$> prvSerializeValueRecord tlv room = layout room (valueChunks tlv) := by
  unfold prvSerializeValueRecord valueChunks
  cases hlabel : valueLabel tlv.type with
  | none =>
    rw [layout_singleton]
    rfl
  | some label =>
    cases label with
    | inl label =>
      apply append_layout (putTypeAndValue_label (valueLabel_small hlabel))
      intro bytes
      exact putSingular_layout (by omega) tlv
    | inr text =>
      apply append_layout (putSingular_layout hroom (textData text))
      intro bytes
      exact putSingular_layout (by omega) tlv

theorem labelCount_small (base : SenmlBase) (baseNameOutput : Bool) (tlv : Lwm2mData) :
    headLength (labelCount base baseNameOutput tlv).toUInt64 = 1 := by
  apply headLength_small
  unfold labelCount
  have h := Bool.toNat_le (base.owesName baseNameOutput)
  have h' := Bool.toNat_le base.named
  have h'' := Bool.toNat_le (!tlv.type.noValue)
  omega

theorem putIf_layout (present : Bool) {part : Put (List UInt8)} {chunks : List Chunk}
    (h : List.length <$> part = layout room chunks) :
    List.length <$> putIf present part = layout room (if present then chunks else []) := by
  cases present with
  | true => exact h
  | false => exact pure_layout room

theorem prvSerializeTlv_layout (hroom : room < 2 ^ 31) (base : SenmlBase) (parentUri : List UInt8)
    (tlv : Lwm2mData) (baseNameOutput : Bool) :
    ∃ bytes : Put (List UInt8),
      prvSerializeTlv base parentUri tlv baseNameOutput room =
        (fun bytes => (bytes, baseNameOutput || base.owesName baseNameOutput)) <$> bytes ∧
      List.length <$> bytes = layout room (recordChunks base parentUri baseNameOutput tlv) := by
  have hhead := append_layout
    (putTypeAndValue_map (labelCount_small base baseNameOutput tlv))
    fun head : List UInt8 => putIf_layout (base.owesName baseNameOutput)
      (prvSerializeBaseName_layout (show room - head.length < 2 ^ 31 by omega) base.baseUri)
  have hname := append_layout hhead fun head => putIf_layout base.named
    (prvSerializeName_layout (show room - head.length < 2 ^ 31 by omega) parentUri tlv.id)
  have hbytes := append_layout hname fun head => putIf_layout (!tlv.type.noValue)
    (prvSerializeValueRecord_layout (show room - head.length < 2 ^ 31 by omega) tlv)
  refine ⟨_, ?_, hbytes⟩
  simp only [prvSerializeTlv, map_eq_pure_bind, bind_assoc, pure_bind]

/-- `*baseNameOutput` behind a record. -/
def SenmlBase.nameDone (base : SenmlBase) (baseNameOutput : Bool) : Bool :=
  baseNameOutput || base.owesName baseNameOutput

@[simp] theorem SenmlBase.nameDone_nameDone (base : SenmlBase) (baseNameOutput : Bool) :
    base.nameDone (base.nameDone baseNameOutput) = base.nameDone baseNameOutput := by
  unfold nameDone owesName
  cases baseNameOutput <;> cases base.baseUri.isEmpty <;> rfl

mutual

/-- The chunks of a data tree. -/
def dataChunks (base : SenmlBase) (parentUri : List UInt8) (baseNameOutput : Bool) :
    Lwm2mData → List Chunk
  | .node type id value =>
    if type.hasChildren then
      childrenChunks base parentUri (.node type id value) baseNameOutput value
    else recordChunks base parentUri baseNameOutput (.node type id value)

def childrenChunks (base : SenmlBase) (parentUri : List UInt8) (tlv : Lwm2mData)
    (baseNameOutput : Bool) : DataValue Lwm2mData → List Chunk
  | .asChildren array =>
    if array.isEmpty then recordChunks base parentUri baseNameOutput tlv
    else
      match childrenUri parentUri tlv.id with
      | none => [.stop]
      | some uri => listChunks base uri baseNameOutput array
  | _ => recordChunks base parentUri baseNameOutput tlv

/-- The chunks of an array of data trees; the first record has the base name. -/
def listChunks (base : SenmlBase) (uri : List UInt8) (baseNameOutput : Bool) :
    List Lwm2mData → List Chunk
  | [] => []
  | data :: rest =>
    dataChunks base uri baseNameOutput data ++
      listChunks base uri (base.nameDone baseNameOutput) rest

end

/-- `w` writes the chunks and leaves `*baseNameOutput` at `done`. -/
def WritesChunks (room : Nat) (w : Put (List UInt8 × Bool × Nat)) (done : Bool)
    (chunks : List Chunk) : Prop :=
  ∃ written : Put (List UInt8 × Nat), w = (fun r => (r.1, done, r.2)) <$> written ∧
    (fun r => r.1.length) <$> written = layout room chunks

theorem tlv_writesChunks (hroom : room < 2 ^ 31) (base : SenmlBase) (parentUri : List UInt8)
    (tlv : Lwm2mData) (baseNameOutput : Bool) (numRecords : Nat) :
    WritesChunks room (do
      let (bytes, baseNameOutput) ← prvSerializeTlv base parentUri tlv baseNameOutput room
      return (bytes, baseNameOutput, numRecords + 1))
      (base.nameDone baseNameOutput) (recordChunks base parentUri baseNameOutput tlv) := by
  rcases prvSerializeTlv_layout hroom base parentUri tlv baseNameOutput with
    ⟨bytes, hbytes, hlayout⟩
  refine ⟨(fun bytes => (bytes, numRecords + 1)) <$> bytes, ?_, ?_⟩
  · rw [hbytes]
    simp only [SenmlBase.nameDone, map_eq_pure_bind, bind_assoc, pure_bind]
  · rw [← hlayout]
    simp only [map_eq_pure_bind, bind_assoc, pure_bind]

theorem WritesChunks.bind {first : Put (List UInt8 × Bool × Nat)} {done done' : Bool}
    {ys : List Chunk} (second : List UInt8 → Bool → Nat → Put (List UInt8 × Bool × Nat))
    (hfirst : WritesChunks room first done xs)
    (hsecond : ∀ bytes numRecords, WritesChunks (room - bytes.length) (second bytes done numRecords) done' ys) :
    WritesChunks room (do
      let (bytes, baseNameOutput, numRecords) ← first
      let (tail, baseNameOutput, numRecords) ← second bytes baseNameOutput numRecords
      return (bytes ++ tail, baseNameOutput, numRecords)) done' (xs ++ ys) := by
  rcases hfirst with ⟨written, hfirst, hxs⟩
  choose tail htail hys using hsecond
  refine ⟨do
    let r ← written
    let r' ← tail r.1 r.2
    return (r.1 ++ r'.1, r'.2), ?_, ?_⟩
  · simp only [hfirst, htail, map_eq_pure_bind, bind_assoc, pure_bind]
  · have hcont : ∀ r : List UInt8 × Nat, (do
        let n ← layout (room - r.1.length) ys
        return r.1.length + n) = (do
        let r' ← tail r.1 r.2
        return r.1.length + r'.1.length) := by
      intro r
      rw [← hys r.1 r.2, map_eq_pure_bind, bind_assoc]
      simp only [pure_bind]
    rw [layout_append, ← hxs]
    simp only [map_eq_pure_bind, bind_assoc, pure_bind, List.length_append, hcont]

mutual

theorem prvSerializeData_chunks (base : SenmlBase) (parentUri : List UInt8)
    (baseNameOutput : Bool) (numRecords room : Nat) (hroom : room < 2 ^ 31) (data : Lwm2mData) :
    WritesChunks room (prvSerializeData base parentUri baseNameOutput numRecords room data)
      (base.nameDone baseNameOutput) (dataChunks base parentUri baseNameOutput data) := by
  cases data with
  | node type id value =>
    rw [prvSerializeData, dataChunks]
    split
    · exact prvSerializeChildren_chunks base parentUri _ baseNameOutput numRecords room hroom value
    · exact tlv_writesChunks hroom ..

theorem prvSerializeChildren_chunks (base : SenmlBase) (parentUri : List UInt8)
    (tlv : Lwm2mData) (baseNameOutput : Bool) (numRecords room : Nat) (hroom : room < 2 ^ 31)
    (value : DataValue Lwm2mData) :
    WritesChunks room
      (prvSerializeChildren base parentUri tlv baseNameOutput numRecords room value)
      (base.nameDone baseNameOutput)
      (childrenChunks base parentUri tlv baseNameOutput value) := by
  cases value with
  | asChildren array =>
    rw [prvSerializeChildren, childrenChunks]
    split
    · exact tlv_writesChunks hroom ..
    · next hempty =>
      cases childrenUri parentUri tlv.id with
      | none => exact ⟨failure, rfl, rfl⟩
      | some uri =>
        have h := prvSerializeList_chunks base uri baseNameOutput numRecords room hroom array
        rwa [if_neg hempty] at h
  | _ =>
    rw [prvSerializeChildren, childrenChunks]
    · exact tlv_writesChunks hroom ..
    · simp
    · simp

theorem prvSerializeList_chunks (base : SenmlBase) (uri : List UInt8)
    (baseNameOutput : Bool) (numRecords room : Nat) (hroom : room < 2 ^ 31)
    (array : List Lwm2mData) :
    WritesChunks room (prvSerializeList base uri baseNameOutput numRecords room array)
      (if array.isEmpty then baseNameOutput else base.nameDone baseNameOutput)
      (listChunks base uri baseNameOutput array) := by
  cases array with
  | nil =>
    rw [prvSerializeList, listChunks]
    exact ⟨pure ([], numRecords), rfl, rfl⟩
  | cons data rest =>
    rw [prvSerializeList, listChunks]
    have hdata := prvSerializeData_chunks base uri baseNameOutput numRecords room hroom data
    refine hdata.bind (fun bytes baseNameOutput numRecords =>
      prvSerializeList base uri baseNameOutput numRecords (room - bytes.length) rest) ?_
    intro bytes numRecords
    have h := prvSerializeList_chunks base uri (base.nameDone baseNameOutput) numRecords
      (room - bytes.length) (by omega) rest
    simpa using h

end

/-- Every record starts with the checked head of its map, or the writer has given up before. -/
def StartsChecked (chunks : List Chunk) : Prop :=
  ∃ rest, chunks = .checked 1 :: rest ∨ chunks = .stop :: rest

theorem recordChunks_startsChecked (base : SenmlBase) (parentUri : List UInt8)
    (baseNameOutput : Bool) (tlv : Lwm2mData) :
    StartsChecked (recordChunks base parentUri baseNameOutput tlv) := ⟨_, Or.inl rfl⟩

theorem StartsChecked.append (h : StartsChecked xs) (ys : List Chunk) :
    StartsChecked (xs ++ ys) := by
  rcases h with ⟨rest, rfl | rfl⟩
  · exact ⟨rest ++ ys, Or.inl rfl⟩
  · exact ⟨rest ++ ys, Or.inr rfl⟩

theorem StartsChecked.fits_zero {chunks : List Chunk} (h : StartsChecked chunks) :
    Fits 0 chunks := by
  rcases h with ⟨rest, rfl | rfl⟩
  · exact fun hle => absurd hle (by omega)
  · trivial

mutual

theorem dataChunks_startsChecked (base : SenmlBase) (parentUri : List UInt8)
    (baseNameOutput : Bool) (data : Lwm2mData) :
    StartsChecked (dataChunks base parentUri baseNameOutput data) := by
  cases data with
  | node type id value =>
    rw [dataChunks]
    split
    · exact childrenChunks_startsChecked base parentUri _ baseNameOutput value
    · apply recordChunks_startsChecked

theorem childrenChunks_startsChecked (base : SenmlBase) (parentUri : List UInt8)
    (tlv : Lwm2mData) (baseNameOutput : Bool) (value : DataValue Lwm2mData) :
    StartsChecked (childrenChunks base parentUri tlv baseNameOutput value) := by
  cases value with
  | asChildren array =>
    rw [childrenChunks]
    split
    · apply recordChunks_startsChecked
    · next hempty =>
      cases childrenUri parentUri tlv.id with
      | none => exact ⟨[], Or.inr rfl⟩
      | some uri =>
        apply listChunks_startsChecked base uri baseNameOutput array
        simpa using hempty
  | _ =>
    rw [childrenChunks]
    · apply recordChunks_startsChecked
    · simp

theorem listChunks_startsChecked (base : SenmlBase) (uri : List UInt8) (baseNameOutput : Bool)
    (array : List Lwm2mData) (hne : array ≠ []) :
    StartsChecked (listChunks base uri baseNameOutput array) := by
  cases array with
  | nil => exact absurd rfl hne
  | cons data rest =>
    rw [listChunks]
    exact (dataChunks_startsChecked base uri baseNameOutput data).append _

end

theorem serializeTargets_faultFree_iff (base : SenmlBase) (parentUri head : List UInt8)
    (baseNameOutput : Bool) (numRecords : Nat) (target : List Lwm2mData) :
    FaultFree (serializeTargets base parentUri head baseNameOutput numRecords target) ↔
      Fits (prvCborBufferSize - head.length) (listChunks base parentUri baseNameOutput target) := by
  induction target generalizing head baseNameOutput numRecords with
  | nil =>
    rw [serializeTargets, listChunks]
    exact iff_of_true (faultFree_pure _) trivial
  | cons data rest ih =>
    rw [serializeTargets]
    by_cases hroom : head.length < prvCborBufferSize
    · have hlt : prvCborBufferSize - head.length < 2 ^ 31 := by
        unfold prvCborBufferSize
        omega
      rcases prvSerializeData_chunks base parentUri baseNameOutput numRecords
        (prvCborBufferSize - head.length) hlt data with ⟨written, hwritten, hlayout⟩
      rw [if_pos hroom, listChunks, fits_append_iff, ← layout_faultFree_iff, ← hlayout,
        faultFree_map, hwritten, map_eq_pure_bind]
      simp only [bind_assoc, pure_bind]
      rw [faultFree_bind]
      refine and_congr_right fun _ => ⟨?_, ?_⟩
      · intro h n hn
        rcases (run_map_eq_some _ _ _).1 hn with ⟨r, hr, rfl⟩
        have hrest := (ih _ _ _).1 (h r hr)
        rwa [List.length_append, Nat.sub_add_eq] at hrest
      · intro h r hr
        apply (ih _ _ _).2
        rw [List.length_append, Nat.sub_add_eq]
        exact h _ ((run_map_eq_some _ _ _).2 ⟨r, hr, rfl⟩)
    · have hzero : prvCborBufferSize - head.length = 0 := by omega
      rw [if_neg hroom, hzero]
      refine iff_of_true (faultFree_pure _) ?_
      exact (listChunks_startsChecked base parentUri baseNameOutput _ (by simp)).fits_zero

theorem serializeTargets_done (base : SenmlBase) (parentUri head : List UInt8)
    (baseNameOutput : Bool) (numRecords : Nat) (target : List Lwm2mData)
    (r : List UInt8 × Bool × Nat)
    (h : (serializeTargets base parentUri head baseNameOutput numRecords target).run =
      .ok (some r)) :
    r.2.1 = if target = [] ∨ prvCborBufferSize ≤ head.length then baseNameOutput
      else base.nameDone baseNameOutput := by
  induction target generalizing head baseNameOutput numRecords with
  | nil =>
    rw [serializeTargets] at h
    cases h
    simp
  | cons data rest ih =>
    rw [serializeTargets] at h
    by_cases hroom : head.length < prvCborBufferSize
    · have hlt : prvCborBufferSize - head.length < 2 ^ 31 := by
        unfold prvCborBufferSize
        omega
      rcases prvSerializeData_chunks base parentUri baseNameOutput numRecords
        (prvCborBufferSize - head.length) hlt data with ⟨written, hwritten, _⟩
      rw [if_pos hroom, hwritten, map_eq_pure_bind] at h
      simp only [bind_assoc, pure_bind] at h
      rcases (run_bind_eq_some _ _ _).1 h with ⟨r', _, hrest⟩
      rw [ih _ _ _ hrest, base.nameDone_nameDone, ite_self,
        if_neg (by simpa using hroom)]
    · rw [if_neg hroom] at h
      cases h
      rw [if_pos (Or.inr (Nat.not_lt.1 hroom))]

theorem SenmlBase.owesName_nameDone (base : SenmlBase) (baseNameOutput : Bool) :
    base.owesName (base.nameDone baseNameOutput) = false := by
  unfold nameDone owesName
  cases baseNameOutput <;> cases base.baseUri.isEmpty <;> rfl

theorem serializeBaseRecord_faultFree_iff (base : SenmlBase) (numRecords : Nat) :
    FaultFree (serializeBaseRecord base [] false numRecords) ↔
      Fits prvCborBufferSize
        (if base.baseUri.isEmpty then [] else .checked 1 :: baseNameChunks base.trimmedUri) := by
  have howes : base.owesName false = !base.baseUri.isEmpty := rfl
  unfold serializeBaseRecord
  rw [howes]
  cases base.baseUri.isEmpty with
  | true => exact iff_of_true (faultFree_pure _) trivial
  | false =>
    have hlayout := prvSerializeBaseName_layout (show prvCborBufferSize - 1 < 2 ^ 31 by decide)
      base.trimmedUri
    have hfits : Fits prvCborBufferSize (.checked 1 :: baseNameChunks base.trimmedUri) ↔
        Fits (prvCborBufferSize - 1) (baseNameChunks base.trimmedUri) := by
      rw [Fits]
      exact ⟨fun h => h (by decide), fun h _ => h⟩
    show FaultFree (do
      let baseName ← prvSerializeBaseName base.trimmedUri (prvCborBufferSize - 1)
      return ([] ++ [0xa1] ++ baseName, numRecords + 1)) ↔ _
    rw [faultFree_bind_of_forall fun _ => faultFree_pure _, ← faultFree_map List.length, hlayout,
      layout_faultFree_iff]
    exact hfits.symm

theorem serializeArray_faultFree (head : List UInt8) (numRecords : Nat) :
    FaultFree (serializeArray head numRecords) := by
  rcases cborPutTypeAndValue_le 3 .array numRecords.toUInt64 with ⟨array, harray, hle⟩
  have hput : putTypeAndValue 3 .array numRecords.toUInt64 =
      if array = [] then failure else pure array := by
    unfold putTypeAndValue
    rw [harray]
    rfl
  unfold serializeArray
  rw [hput]
  split
  · exact faultFree_failure
  · rw [pure_bind, storeAt_eq_ok (by omega)]
    exact faultFree_pure _

/-- The chunks of a document: its records, or its base name alone. -/
def documentChunks (base : SenmlBase) (target : List Lwm2mData) : List Chunk :=
  if target = [] then
    if base.baseUri.isEmpty then [] else .checked 1 :: baseNameChunks base.trimmedUri
  else listChunks base base.parentUri false target

theorem serializeDocument_faultFree_iff (base : SenmlBase) (target : List Lwm2mData) :
    FaultFree (serializeDocument base target) ↔
      Fits prvCborBufferSize (documentChunks base target) := by
  unfold serializeDocument documentChunks
  by_cases hempty : target = []
  · subst hempty
    rw [if_pos rfl, ← serializeBaseRecord_faultFree_iff base 0, serializeTargets, pure_bind]
    exact faultFree_bind_of_forall fun r => serializeArray_faultFree _ _
  · rw [if_neg hempty, faultFree_bind]
    refine Iff.trans (and_iff_left ?_)
      (serializeTargets_faultFree_iff base base.parentUri [] false 0 target)
    intro r hr
    have hdone := serializeTargets_done base base.parentUri [] false 0 target r hr
    rw [if_neg (by simp [hempty, prvCborBufferSize])] at hdone
    obtain ⟨head, done, numRecords⟩ := r
    rw [show done = base.nameDone false from hdone]
    show FaultFree (serializeBaseRecord base head (base.nameDone false) numRecords >>= _)
    unfold serializeBaseRecord
    rw [base.owesName_nameDone]
    exact serializeArray_faultFree _ _

/-- The chunks that `senml_cbor_serialize` writes for a request. -/
def messageChunks (uri : Option Lwm2mUri) (tlv : List Lwm2mData) : List Chunk :=
  match senmlDocument uri tlv with
  | .error _ => []
  | .ok (base, target) => documentChunks base target

/-- `senml_cbor_serialize` stays in its buffer exactly if the chunks of the message fit. -/
theorem senmlCborSerialize_ok_iff (uri : Option Lwm2mUri) (tlv : List Lwm2mData) :
    (∃ res message, senmlCborSerialize uri tlv = .ok (res, message)) ↔
      Fits prvCborBufferSize (messageChunks uri tlv) := by
  unfold senmlCborSerialize messageChunks
  cases senmlDocument uri tlv with
  | error result => exact iff_of_true ⟨result, [], rfl⟩ trivial
  | ok document =>
    rw [← serializeDocument_faultFree_iff]
    unfold FaultFree
    dsimp only
    cases (serializeDocument document.1 document.2).run with
    | error fault =>
      refine iff_of_false ?_ ?_
      · intro h
        rcases h with ⟨res, message, h⟩
        cases h
      · intro h
        rcases h with ⟨result, h⟩
        cases h
    | ok message =>
      refine iff_of_true ?_ ⟨message, rfl⟩
      cases message with
      | none => exact ⟨_, _, rfl⟩
      | some message => exact ⟨_, _, rfl⟩

end Wakaama
