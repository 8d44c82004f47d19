import Wakaama.Core.Proofs.NumberBuffer
import Wakaama.Core.Proofs.StringToUri
import Wakaama.Core.UriBuffer

/-!
# URIs in buffers

A URI is written into a buffer of `URI_MAX_STRING_LEN` bytes and read back. A buffer without a
byte is written to all the same, and in buffers that are too long for the index of the number
writer the digits may go astray.
-/

namespace Wakaama

/-! ## The text of a URI -/

/-- Ids, each behind a slash. -/
def idsText : List UInt16 → List UInt8
  | [] => []
  | id :: ids => 47 :: (decimalText id.toNat ++ idsText ids)

theorem idsText_cons (id : UInt16) (ids : List UInt16) :
    idsText (id :: ids) = 47 :: (decimalText id.toNat ++ idsText ids) := rfl

theorem idsText_append (ids ids' : List UInt16) :
    idsText (ids ++ ids') = idsText ids ++ idsText ids' := by
  induction ids with
  | nil => rfl
  | cons id ids ih =>
    rw [List.cons_append, idsText_cons, ih, idsText_cons, List.cons_append, List.append_assoc]

theorem idsText_length_le (ids : List UInt16) : (idsText ids).length ≤ 6 * ids.length := by
  induction ids with
  | nil => exact Nat.le_refl 0
  | cons id ids ih =>
    have hlength := decimalText_id_length id
    rw [idsText_cons, List.length_cons, List.length_append, List.length_cons]
    omega

theorem idsText_ends (ids : List UInt16) : EndsNumeral (idsText ids) := by
  cases ids with
  | nil => exact .inl rfl
  | cons id ids => exact .inr rfl

theorem skipSlash_idsText (ids : List UInt16) : skipSlash (idsText ids) = (idsText ids).tail := by
  cases ids with
  | nil => rfl
  | cons id ids =>
    rw [idsText_cons, skipSlash, if_pos rfl]
    rfl

variable {ids : List UInt16} {uri : Lwm2mUri} {bufferLen : Nat}

theorem parseIds_idsText (hids : ∀ id ∈ ids, id ≠ lwm2mMaxId) :
    ∀ {room : Nat}, ids.length ≤ room → parseIds room (idsText ids).tail = some ids := by
  induction ids with
  | nil =>
    intro room _
    cases room <;> rfl
  | cons id ids ih =>
    intro room hroom
    obtain ⟨hid, hrest⟩ := List.forall_mem_cons.1 hids
    cases room with
    | zero => exact absurd hroom (Nat.not_succ_le_zero _)
    | succ room =>
      have hne : decimalText id.toNat ++ idsText ids ≠ [] :=
        List.append_ne_nil_of_left_ne_nil (decimalText_ne_nil _) _
      have hnext := ih hrest (Nat.le_of_succ_le_succ hroom)
      show parseIds (room + 1) (decimalText id.toNat ++ idsText ids) = _
      have htail : (if room = 0 then idsText ids else skipSlash (idsText ids)) =
          (idsText ids).tail := by
        split
        · rename_i hzero
          have hempty : ids.length = 0 := by
            rw [List.length_cons] at hroom
            omega
          rw [List.length_eq_zero_iff.1 hempty]
          rfl
        · exact skipSlash_idsText ids
      rw [parseIds, if_neg hne, parseId_decimalText hid (idsText_ends ids), Option.bind_eq_bind,
        Option.bind_some]
      dsimp only
      rw [htail, hnext]
      rfl

theorem stringToUriRest_idsText (hne : ids ≠ []) (hids : ∀ id ∈ ids, id ≠ lwm2mMaxId)
    (hlength : ids.length ≤ 4) : stringToUriRest (idsText ids) = some (uriFromIds ids, []) := by
  cases ids with
  | nil => exact absurd rfl hne
  | cons id rest =>
    have hdrop : (idsText (id :: rest)).dropWhile isSpace = 47 :: (idsText (id :: rest)).tail :=
      List.dropWhile_cons_of_neg (by decide)
    rw [stringToUriRest_eq hdrop, parseIds_idsText hids hlength]
    rfl

/-! ## The ids of a URI -/

theorem levels_ids (uri : Lwm2mUri) :
    (∀ id ∈ uri.levels.1, id ≠ lwm2mMaxId) ∧ uri.levels.1.length ≤ 4 := by
  obtain ⟨objectId, instanceId, resourceId, resourceInstanceId⟩ := uri
  simp only [Lwm2mUri.levels, Lwm2mUri.isSetObject, Lwm2mUri.isSetInstance,
    Lwm2mUri.isSetResource, Lwm2mUri.isSetResourceInstance, bne_iff_ne]
  by_cases hobject : objectId = lwm2mMaxId
  · simp [hobject]
  · by_cases hinstance : instanceId = lwm2mMaxId
    · simp [hobject, hinstance]
    · by_cases hresource : resourceId = lwm2mMaxId
      · simp [hobject, hinstance, hresource]
      · by_cases hlast : resourceInstanceId = lwm2mMaxId
        · simp [hobject, hinstance, hresource, hlast]
        · simp [hobject, hinstance, hresource, hlast]

theorem levels_closed (hclosed : uri.PrefixClosed) (hobject : uri.isSetObject = true) :
    uri.levels.1 ≠ [] ∧ uriFromIds uri.levels.1 = uri ∧ uri.levels.2 = uri.depth := by
  obtain ⟨objectId, instanceId, resourceId, resourceInstanceId⟩ := uri
  simp only [Lwm2mUri.PrefixClosed, Lwm2mUri.levels, Lwm2mUri.depth, Lwm2mUri.isSetObject,
    Lwm2mUri.isSetInstance, Lwm2mUri.isSetResource, Lwm2mUri.isSetResourceInstance, bne_iff_ne,
    ne_eq] at *
  by_cases hinstance : instanceId = lwm2mMaxId
  · have hresource : resourceId = lwm2mMaxId := not_not.1 fun h => hclosed.2.1 h hinstance
    have hlast : resourceInstanceId = lwm2mMaxId := not_not.1 fun h => hclosed.2.2 h hresource
    simp [hobject, hinstance, hresource, hlast, uriFromIds]
  · by_cases hresource : resourceId = lwm2mMaxId
    · have hlast : resourceInstanceId = lwm2mMaxId := not_not.1 fun h => hclosed.2.2 h hresource
      simp [hobject, hinstance, hresource, hlast, uriFromIds]
    · by_cases hlast : resourceInstanceId = lwm2mMaxId
      · simp [hobject, hinstance, hresource, hlast, uriFromIds]
      · simp [hobject, hinstance, hresource, hlast, uriFromIds]

/-! ## One segment -/

section segment

variable {bufferLen : Nat} {id : UInt16} {text rest : List UInt8}

theorem uriSegmentAt_full {head : Nat} {memory : List UInt8} (hpos : 0 < bufferLen)
    (hsize : bufferLen < 2 ^ 64) (hfull : bufferLen - 1 ≤ head) :
    uriSegmentAt bufferLen id head memory = .ok (memory, none) := by
  have hlast : sizeT ((bufferLen : Int) - 1) = bufferLen - 1 := by
    unfold sizeT
    omega
  unfold uriSegmentAt
  rw [hlast]
  exact if_pos hfull

theorem uriSegmentAt_writes {old : UInt8} (hsize : bufferLen < 2 ^ 64)
    (hlength : (text ++ old :: rest).length = bufferLen) (hrest : rest ≠ []) :
    uriSegmentAt bufferLen id text.length (text ++ old :: rest) = (do
      let (memory, result) ← utilsUintToTextAt id.toUInt64 (text ++ [47]).length rest.length
        (text ++ [47] ++ rest ++ [])
      let res := cInt result
      if res ≤ 0 then return (memory, none)
      else return (memory, some (sizeT ((text ++ [47]).length + res)))) := by
  have hpos := List.length_pos_iff.2 hrest
  rw [List.length_append, List.length_cons] at hlength
  have hlast : sizeT ((bufferLen : Int) - 1) = bufferLen - 1 := by
    unfold sizeT
    omega
  have hleft : sizeT ((bufferLen : Int) - (text.length + 1 : Nat)) = rest.length := by
    unfold sizeT
    omega
  unfold uriSegmentAt
  rw [hlast, if_neg (by omega), storeByte_place old 47 rfl, ok_bind]
  dsimp only
  rw [hleft, utilsIntToTextAt_id, List.length_append, List.length_singleton]
  simp only [List.append_assoc, List.cons_append, List.nil_append, List.append_nil]

theorem cInt_wraps (n : Int) : ∃ q, n = cInt n + (2 ^ 32 : Nat) * q :=
  ⟨n.bdiv (2 ^ 32), by
    rw [cInt, Int.bmod_eq_self_sub_mul_bdiv, Int.sub_add_cancel]⟩

theorem cInt_of_wraps {n m : Int} (hlow : -2 ^ 31 ≤ m) (hhigh : m < 2 ^ 31) (q : Int)
    (h : n = m + (2 ^ 32 : Nat) * q) : cInt n = m := by
  rw [cInt, h, Int.add_mul_bmod_self_left]
  exact Int.bmod_eq_of_le_mul_two (by omega) (by omega)

theorem uriSegmentAt_fits {old : UInt8} {index : Nat} (hsize : bufferLen < 2 ^ 64)
    (hlength : (text ++ old :: rest).length = bufferLen) (hrest : rest ≠ [])
    (hindex : cInt (rest.length - 1 : Nat) = index) (hinside : index < rest.length)
    (hfits : (decimalText id.toNat).length ≤ index + 1) :
    ∃ rest', uriSegmentAt bufferLen id text.length (text ++ old :: rest) =
        .ok (text ++ idsText [id] ++ rest', some (text ++ idsText [id]).length) ∧
      (text ++ idsText [id] ++ rest').length = bufferLen ∧
      (2 * (index + 1) ≤ rest.length → (∀ byte ∈ rest, byte = 0) → ∀ byte ∈ rest', byte = 0) := by
  have hshort := decimalText_id_length id
  have hpos := decimalText_length_pos id.toNat
  have hrestLength : rest.length < 2 ^ 64 := by
    rw [List.length_append, List.length_cons] at hlength
    omega
  rw [← decimalText_uint16] at hfits
  obtain ⟨rest', hrun, hrest', hkept⟩ := @utilsUintToTextAt_fits id.toUInt64 (text ++ [47]) rest [] index
    hindex hinside hrestLength hfits
  rw [decimalText_uint16] at hrun hrest' hfits
  have hres : cInt ((rest.length - (index + 1 - (decimalText id.toNat).length) : Nat) : Int) =
      (decimalText id.toNat).length := by
    obtain ⟨q, hq⟩ := cInt_wraps ((rest.length - 1 : Nat) : Int)
    rw [hindex] at hq
    exact cInt_of_wraps (by omega) (by omega) q (by omega)
  refine ⟨rest', ?_, ?_, ?_⟩
  · rw [uriSegmentAt_writes hsize hlength hrest, hrun, ok_bind]
    dsimp only
    have hhead : sizeT ((text ++ [47]).length + (decimalText id.toNat).length) =
        (text ++ idsText [id]).length := by
      simp only [idsText, List.length_append, List.length_cons, List.length_nil,
        List.append_nil] at hlength ⊢
      unfold sizeT
      omega
    rw [hres, if_neg (by omega), hhead]
    simp only [idsText, List.append_assoc, List.cons_append, List.nil_append, List.append_nil]
    rfl
  · rw [← hlength]
    simp only [idsText, List.length_append, List.length_cons, List.append_nil]
    omega
  · intro hhalf hzero byte hmem
    exact (hkept hhalf byte hmem).elim (fun h => h) (hzero byte)

theorem uriSegmentAt_short {old : UInt8} {index : Nat} (hsize : bufferLen < 2 ^ 64)
    (hlength : (text ++ old :: rest).length = bufferLen) (hrest : rest ≠ [])
    (hindex : cInt (rest.length - 1 : Nat) = index) (hinside : index < rest.length)
    (hshort : index + 1 < (decimalText id.toNat).length) :
    ∃ memory', uriSegmentAt bufferLen id text.length (text ++ old :: rest) = .ok (memory', none) ∧
      memory'.length = bufferLen := by
  rw [← decimalText_uint16] at hshort
  obtain ⟨area', hrun, harea⟩ := @utilsUintToTextAt_short id.toUInt64 (text ++ [47]) rest [] index
    hindex hinside hshort
  refine ⟨text ++ [47] ++ area' ++ [], ?_, ?_⟩
  · rw [uriSegmentAt_writes hsize hlength hrest, hrun, ok_bind]
    exact if_pos (Int.le_refl 0)
  · rw [← hlength]
    simp only [List.length_append, List.length_cons, List.length_nil, harea]
    omega

/-- The digit goes astray: it is written at a place of its own, and a number of one digit is taken
for written. -/
theorem uriSegmentAt_astray {old : UInt8} {below place : Nat} (hsize : bufferLen < 2 ^ 64)
    (hlength : (text ++ old :: rest).length = bufferLen) (hrest : rest ≠ [])
    (hindex : cInt (rest.length - 1 : Nat) = .negSucc below)
    (hplace : (place : Int) = (text.length + 1 : Nat) + .negSucc below) :
    ∃ digit, uriSegmentAt bufferLen id text.length (text ++ old :: rest) =
      .ok ((text ++ 47 :: rest).set place digit,
        if id < 10 then some (text.length + 2) else none) := by
  have hpos := List.length_pos_iff.2 hrest
  have htotal : text.length + (rest.length + 1) = bufferLen := by
    rw [← hlength, List.length_append, List.length_cons]
  have haddress : ((text ++ [47]).length : Int) + .negSucc below = (place : Nat) := by
    rw [List.length_append, List.length_singleton, hplace]
  have hmemory : text ++ [47] ++ rest ++ [] = text ++ 47 :: rest := by
    simp only [List.append_assoc, List.cons_append, List.nil_append, List.append_nil]
  have hinside : place < (text ++ 47 :: rest).length := by
    rw [List.length_append, List.length_cons]
    omega
  have hcall : utilsUintToTextAt id.toUInt64 (text ++ [47]).length rest.length
      (text ++ [47] ++ rest ++ []) = .ok ((text ++ 47 :: rest).set place (lastDigit id.toUInt64),
        if 10 ≤ id.toUInt64.toNat then 0 else rest.length + below + 1) := by
    rw [utilsUintToTextAt_astray hpos hindex (by omega), haddress, hmemory,
      storeByte_inside hinside, ok_bind]
    rfl
  have hid : id < 10 ↔ ¬ 10 ≤ id.toUInt64.toNat := by
    rw [UInt16.toNat_toUInt64, UInt16.lt_iff_toNat_lt]
    exact Nat.not_le.symm
  refine ⟨lastDigit id.toUInt64, ?_⟩
  rw [uriSegmentAt_writes hsize hlength hrest, hcall, ok_bind]
  dsimp only
  by_cases hsmall : id < 10
  · obtain ⟨q, hq⟩ := cInt_wraps ((rest.length - 1 : Nat) : Int)
    rw [hindex] at hq
    have hres : cInt ((rest.length + below + 1 : Nat) : Int) = 1 :=
      cInt_of_wraps (by omega) (by omega) q (by omega)
    have hhead : sizeT ((text ++ [47]).length + 1) = text.length + 2 := by
      rw [List.length_append, List.length_singleton]
      unfold sizeT
      omega
    rw [if_neg (hid.1 hsmall), if_pos hsmall, hres, if_neg (by omega), hhead]
    rfl
  · rw [if_pos (not_not.1 fun h => hsmall (hid.2 h)), if_neg hsmall]
    rfl

theorem uriSegmentAt_outside {old : UInt8} {below : Nat} (hsize : bufferLen < 2 ^ 64)
    (hlength : (text ++ old :: rest).length = bufferLen) (hrest : rest ≠ [])
    (hindex : cInt (rest.length - 1 : Nat) = .negSucc below)
    (hbefore : ¬ 0 ≤ ((text.length + 1 : Nat) : Int) + .negSucc below) :
    uriSegmentAt bufferLen id text.length (text ++ old :: rest) = .error .outOfBounds := by
  rw [uriSegmentAt_writes hsize hlength hrest,
    utilsUintToTextAt_outside (List.length_pos_iff.2 hrest) hindex]
  · rfl
  · rw [List.length_append]
    exact hbefore

theorem split_at_head {memory : List UInt8} (hlength : memory.length = bufferLen)
    (htext : text.length + 1 < bufferLen) (hstarts : text <+: memory) :
    ∃ old rest, memory = text ++ old :: rest ∧ rest ≠ [] ∧
      text.length + 1 + rest.length = bufferLen := by
  obtain ⟨behind, rfl⟩ := hstarts
  rw [List.length_append] at hlength
  match behind with
  | [] =>
    rw [List.length_nil] at hlength
    omega
  | old :: rest =>
    rw [List.length_cons] at hlength
    refine ⟨old, rest, rfl, ?_, by omega⟩
    rintro rfl
    rw [List.length_nil] at hlength
    omega

end segment

/-! ## Digits that go astray -/

section astray

variable {bufferLen head : Nat} {ids : List UInt16} {memory : List UInt8}

theorem cInt_wrapped_index (hwide : bufferLen % 2 ^ 32 ≤ 2 ^ 31 + 1) (hhead : head + 2 ≤ bufferLen)
    (hlow : head + 2 ≤ bufferLen % 2 ^ 32 + 2 ^ 31) :
    cInt ((bufferLen - (head + 1) - 1 : Nat) : Int) =
      (bufferLen % 2 ^ 32 : Nat) - (head : Int) - 2 :=
  cInt_of_wraps (by omega) (by omega) (bufferLen / 2 ^ 32 : Nat) (by omega)

/-- The head has passed the place in front of which the digits are written. -/
structure Astray (bufferLen head : Nat) : Prop where
  wide : 2 ^ 32 ≤ bufferLen
  size : bufferLen < 2 ^ 64
  pos : 0 < bufferLen % 2 ^ 32
  passed : bufferLen % 2 ^ 32 ≤ head + 1
  head : head < 2 ^ 16

theorem Astray.segment (h : Astray bufferLen head) (hlength : memory.length = bufferLen)
    (id : UInt16) :
    ∃ digit, uriSegmentAt bufferLen id head memory =
      .ok ((memory.set head 47).set (bufferLen % 2 ^ 32 - 1) digit,
        if id < 10 then some (head + 2) else none) := by
  obtain ⟨hwide, hsize, hpos, hpassed, hhead⟩ := h
  have htext : (memory.take head).length = head := List.length_take_of_le (by omega)
  obtain ⟨old, rest, hsplit, hrest, htotal⟩ := @split_at_head bufferLen (memory.take head) memory
    hlength (by omega) (List.take_prefix head memory)
  rw [htext] at htotal
  have hindex : cInt ((rest.length - 1 : Nat) : Int) =
      .negSucc (head + 1 - bufferLen % 2 ^ 32) := by
    have hwrapped := @cInt_wrapped_index bufferLen head (by omega) (by omega) (by omega)
    rw [show rest.length - 1 = bufferLen - (head + 1) - 1 by omega, hwrapped]
    omega
  obtain ⟨digit, hrun⟩ := @uriSegmentAt_astray bufferLen id (memory.take head) rest old
    (head + 1 - bufferLen % 2 ^ 32) (bufferLen % 2 ^ 32 - 1) hsize (by rw [← hsplit, hlength]) hrest
    hindex (by rw [htext]; omega)
  rw [← hsplit, htext] at hrun
  have hset : memory.take head ++ 47 :: rest = memory.set head 47 := by
    conv_rhs => rw [hsplit]
    rw [List.set_append_right _ _ (Nat.le_of_eq htext), htext, Nat.sub_self, List.set_cons_zero]
  rw [hset] at hrun
  exact ⟨digit, hrun⟩

theorem Astray.givesUp (h : Astray bufferLen head) (hids : ids.length < 2 ^ 8)
    (hend : head + 2 * ids.length < 2 ^ 16) (hlength : memory.length = bufferLen)
    (hbig : ∃ id ∈ ids, 10 ≤ id) :
    ∃ memory', uriSegmentsAt bufferLen ids head memory = .ok (memory', none) ∧
      memory'.length = bufferLen := by
  induction ids generalizing head memory with
  | nil => exact absurd hbig (by simp)
  | cons id ids ih =>
    obtain ⟨digit, hrun⟩ := h.segment hlength id
    have hset : ((memory.set head 47).set (bufferLen % 2 ^ 32 - 1) digit).length = bufferLen := by
      rw [List.length_set, List.length_set, hlength]
    rw [uriSegmentsAt, hrun, ok_bind]
    rw [List.length_cons] at hids hend
    by_cases hsmall : id < 10
    · obtain ⟨other, hmem, hother⟩ := hbig
      have hmem : other ∈ ids := by
        rcases List.mem_cons.1 hmem with rfl | hmem
        · exact absurd hsmall (UInt16.not_lt.2 hother)
        · exact hmem
      have hnext : Astray bufferLen (head + 2) :=
        ⟨h.wide, h.size, h.pos, Nat.le_trans h.passed (by omega), by omega⟩
      rw [if_pos hsmall]
      exact ih hnext (by omega) (by omega) hset ⟨other, hmem, hother⟩
    · rw [if_neg hsmall]
      exact ⟨_, rfl, hset⟩

theorem Astray.goesOn (h : Astray bufferLen head) (hend : head + 2 * ids.length < 2 ^ 16)
    (hlength : memory.length = bufferLen) (hsmall : ∀ id ∈ ids, id < 10) {place : Nat}
    (hplace : bufferLen % 2 ^ 32 ≤ place) (hbehind : place < head ∨ place = head + 1) :
    ∃ memory', uriSegmentsAt bufferLen ids head memory =
        .ok (memory', some (head + 2 * ids.length)) ∧
      memory'.length = bufferLen ∧ memory'[place]? = memory[place]? := by
  induction ids generalizing head memory with
  | nil => exact ⟨memory, rfl, hlength, rfl⟩
  | cons id ids ih =>
    obtain ⟨digit, hrun⟩ := h.segment hlength id
    obtain ⟨hid, hrest⟩ := List.forall_mem_cons.1 hsmall
    rw [List.length_cons] at hend
    have hnext : Astray bufferLen (head + 2) :=
      ⟨h.wide, h.size, h.pos, Nat.le_trans h.passed (by omega), by omega⟩
    have hset : ((memory.set head 47).set (bufferLen % 2 ^ 32 - 1) digit).length = bufferLen := by
      rw [List.length_set, List.length_set, hlength]
    obtain ⟨memory', hrest, hlength', hkept⟩ := ih hnext (by omega) hset hrest (by omega)
    have hpos := h.pos
    refine ⟨memory', ?_, hlength', ?_⟩
    · have hhead : head + 2 * (id :: ids).length = head + 2 + 2 * ids.length := by
        rw [List.length_cons]
        omega
      rw [uriSegmentsAt, hrun, ok_bind, if_pos hid, hhead]
      exact hrest
    · rw [hkept, List.getElem?_set_ne (by omega), List.getElem?_set_ne (by omega)]

end astray

/-! ## Digits that stay -/

section stays

variable {bufferLen : Nat} {ids : List UInt16} {text memory : List UInt8}

/-- The texts that fit in front of `bufferLen % 2^32` are written into a long buffer, in front of
zeros if there were zeros. -/
theorem uriSegmentsAt_wide_fits (hwide : 2 ^ 32 ≤ bufferLen) (hsize : bufferLen < 2 ^ 64)
    (hmod : bufferLen % 2 ^ 32 ≤ 2 ^ 31 + 1) {rest : List UInt8}
    (hlength : (text ++ rest).length = bufferLen) (hzero : ∀ byte ∈ rest, byte = 0)
    (hfits : (text ++ idsText ids).length ≤ bufferLen % 2 ^ 32) :
    ∃ rest', uriSegmentsAt bufferLen ids text.length (text ++ rest) =
        .ok (text ++ idsText ids ++ rest', some (text ++ idsText ids).length) ∧
      (text ++ idsText ids ++ rest').length = bufferLen ∧ ∀ byte ∈ rest', byte = 0 := by
  induction ids generalizing text rest with
  | nil =>
    rw [idsText, List.append_nil] at *
    exact ⟨rest, rfl, hlength, hzero⟩
  | cons id ids ih =>
    have hpos := decimalText_length_pos id.toNat
    have hids : idsText (id :: ids) = idsText [id] ++ idsText ids := idsText_append [id] ids
    have hone : (idsText [id]).length = (decimalText id.toNat).length + 1 := by
      rw [idsText, idsText, List.append_nil, List.length_cons]
    rw [hids, ← List.append_assoc] at hfits ⊢
    have htext : text.length + ((decimalText id.toNat).length + 1) ≤ bufferLen % 2 ^ 32 := by
      rw [List.length_append, List.length_append, hone] at hfits
      omega
    obtain ⟨old, tail, hsplit, htail, htotal⟩ := @split_at_head bufferLen text (text ++ rest) hlength
      (by omega) (List.prefix_append text rest)
    obtain rfl := List.append_cancel_left hsplit
    have hindex : cInt ((tail.length - 1 : Nat) : Int) =
        (bufferLen % 2 ^ 32 - (text.length + 2) : Nat) := by
      have hwrapped := @cInt_wrapped_index bufferLen text.length hmod (by omega) (by omega)
      rw [show tail.length - 1 = bufferLen - (text.length + 1) - 1 by omega, hwrapped]
      omega
    obtain ⟨rest', hrun, hlength', hzero'⟩ := uriSegmentAt_fits hsize hlength htail hindex (by omega)
      (by omega : (decimalText id.toNat).length ≤ bufferLen % 2 ^ 32 - (text.length + 2) + 1)
    obtain ⟨rest'', hnext, hend⟩ := ih hlength'
      (hzero' (by omega) fun byte hmem => hzero byte (List.mem_cons_of_mem _ hmem)) hfits
    refine ⟨rest'', ?_, hend⟩
    rw [uriSegmentsAt, hrun, ok_bind]
    exact hnext

/-- The lengths of buffers over 2^32 in which no digits go astray, or the attempt is given up. -/
def HarmlessLength (bufferLen head : Nat) (ids : List UInt16) : Prop :=
  2 ^ 32 ≤ bufferLen ∧ 0 < bufferLen % 2 ^ 32 ∧ bufferLen % 2 ^ 32 ≤ 2 ^ 31 + 1 ∧
    ∀ front back, ids = front ++ back → back ≠ [] →
      head + (idsText front).length = bufferLen % 2 ^ 32 ∨
        head + (idsText front).length + 1 = bufferLen % 2 ^ 32 → ∃ id ∈ back, 10 ≤ id

/-- Ids are written one behind the other, or the attempt is given up, and that not for want of room
that there is. -/
theorem uriSegmentsAt_right (hpos : 0 < bufferLen) (hsize : bufferLen < 2 ^ 64)
    (hids : ids.length < 2 ^ 8) (htext : text.length + 6 * ids.length < 2 ^ 15) {rest : List UInt8}
    (hlength : (text ++ rest).length = bufferLen)
    (h : bufferLen ≤ 2 ^ 31 + 1 ∨
      HarmlessLength bufferLen text.length ids ∧ text.length ≤ bufferLen % 2 ^ 32) :
    ∃ memory' behind, uriSegmentsAt bufferLen ids text.length (text ++ rest) =
        .ok (memory', behind) ∧ memory'.length = bufferLen ∧
      match behind with
      | none => bufferLen < text.length + 6 * ids.length ∨ 2 ^ 32 ≤ bufferLen
      | some head => head = (text ++ idsText ids).length ∧ text ++ idsText ids <+: memory' := by
  induction ids generalizing text rest with
  | nil =>
    refine ⟨text ++ rest, some text.length, rfl, hlength, ?_⟩
    rw [idsText, List.append_nil]
    exact ⟨rfl, List.prefix_append text rest⟩
  | cons id ids ih =>
    have hdigits := decimalText_length_pos id.toNat
    have hdigits' := decimalText_id_length id
    have hids' : idsText (id :: ids) = idsText [id] ++ idsText ids := idsText_append [id] ids
    have hone : (idsText [id]).length = (decimalText id.toNat).length + 1 := by
      rw [idsText, idsText, List.append_nil, List.length_cons]
    rw [List.length_cons] at hids htext ⊢
    by_cases hfull : bufferLen - 1 ≤ text.length
    · rw [uriSegmentsAt, uriSegmentAt_full hpos hsize hfull]
      exact ⟨_, none, rfl, hlength, .inl (by omega)⟩
    · obtain ⟨old, tail, hsplit, htail, htotal⟩ := @split_at_head bufferLen text (text ++ rest)
        hlength (by omega) (List.prefix_append text rest)
      obtain rfl := List.append_cancel_left hsplit
      by_cases hastray : 2 ^ 31 + 1 < bufferLen ∧ bufferLen % 2 ^ 32 ≤ text.length + 1
      · obtain ⟨hlong, hpassed⟩ := hastray
        obtain ⟨⟨hwide, hmod, -, hall⟩, hle⟩ := h.resolve_left (Nat.not_le.2 hlong)
        have hbig := hall [] (id :: ids) rfl (List.cons_ne_nil id ids)
          (by rw [idsText, List.length_nil]; omega)
        have hout : Astray bufferLen text.length := ⟨hwide, hsize, hmod, hpassed, by omega⟩
        obtain ⟨memory', hrun, hlength'⟩ := hout.givesUp (by rw [List.length_cons]; omega)
          (by rw [List.length_cons]; omega) hlength hbig
        exact ⟨memory', none, hrun, hlength', .inr hwide⟩
      · obtain ⟨index, hindex, hinside, hroom⟩ : ∃ index : Nat,
            cInt ((tail.length - 1 : Nat) : Int) = index ∧ index < tail.length ∧
              (bufferLen ≤ 2 ^ 31 + 1 ∧ index + 1 = tail.length ∨ 2 ^ 31 + 1 < bufferLen ∧
                2 ^ 32 ≤ bufferLen ∧ index + 1 + (text.length + 1) = bufferLen % 2 ^ 32) := by
          by_cases hnarrow : bufferLen ≤ 2 ^ 31 + 1
          · exact ⟨tail.length - 1, cInt_narrow (by omega), by omega, .inl ⟨hnarrow, by omega⟩⟩
          · obtain ⟨⟨hwide, -, hmod, -⟩, -⟩ := h.resolve_left hnarrow
            have hwrapped := @cInt_wrapped_index bufferLen text.length hmod (by omega) (by omega)
            refine ⟨bufferLen % 2 ^ 32 - (text.length + 2), ?_, by omega,
              .inr ⟨by omega, hwide, by omega⟩⟩
            rw [show tail.length - 1 = bufferLen - (text.length + 1) - 1 by omega, hwrapped]
            omega
        by_cases hfits : (decimalText id.toNat).length ≤ index + 1
        · obtain ⟨rest', hrun, hlength', -⟩ := uriSegmentAt_fits hsize hlength htail hindex hinside
            hfits
          have htextOne : (text ++ idsText [id]).length =
              text.length + ((decimalText id.toNat).length + 1) := by
            rw [List.length_append, hone]
          have hnext : bufferLen ≤ 2 ^ 31 + 1 ∨
              HarmlessLength bufferLen (text ++ idsText [id]).length ids ∧
                (text ++ idsText [id]).length ≤ bufferLen % 2 ^ 32 := by
            rcases hroom with ⟨hnarrow, -⟩ | ⟨hlong, hwide, hbehind⟩
            · exact .inl hnarrow
            · obtain ⟨⟨-, hmodPos, hmod, hall⟩, -⟩ := h.resolve_left (Nat.not_le.2 hlong)
              refine .inr ⟨⟨hwide, hmodPos, hmod, ?_⟩, by omega⟩
              rintro front back rfl hback hplace
              refine hall (id :: front) back rfl hback ?_
              rw [show idsText (id :: front) = idsText [id] ++ idsText front from
                idsText_append [id] front, List.length_append, hone]
              omega
          obtain ⟨memory', behind, hrest, hlength'', hbehind⟩ :=
            ih (by omega) (by omega) hlength' hnext
          refine ⟨memory', behind, ?_, hlength'', ?_⟩
          · rw [uriSegmentsAt, hrun, ok_bind]
            exact hrest
          · rw [hids', ← List.append_assoc]
            cases behind with
            | none =>
              dsimp only at hbehind ⊢
              omega
            | some head => exact hbehind
        · obtain ⟨memory', hrun, hlength'⟩ := uriSegmentAt_short hsize hlength htail hindex hinside
            (Nat.not_le.1 hfits)
          rw [uriSegmentsAt, hrun]
          exact ⟨memory', none, rfl, hlength', by dsimp only; omega⟩

end stays

theorem uriSegmentsAt_append (bufferLen : Nat) (front back : List UInt16) (head : Nat)
    (memory : List UInt8) :
    uriSegmentsAt bufferLen (front ++ back) head memory = (do
      let (memory, behind) ← uriSegmentsAt bufferLen front head memory
      match behind with
      | none => return (memory, none)
      | some head => uriSegmentsAt bufferLen back head memory) := by
  induction front generalizing head memory with
  | nil => rfl
  | cons id front ih =>
    rw [List.cons_append, uriSegmentsAt, uriSegmentsAt]
    cases uriSegmentAt bufferLen id head memory with
    | error fault => rfl
    | ok written =>
      obtain ⟨memory, behind⟩ := written
      cases behind with
      | none => rfl
      | some head => exact ih head memory

/-! ## The whole URI -/

/-- The lengths of buffers into which a URI is written right. -/
def WritableLength (uri : Lwm2mUri) (bufferLen : Nat) : Prop :=
  bufferLen ≠ 0 ∧ (uri.isSetObject = true →
    bufferLen ≤ 2 ^ 31 + 1 ∨ HarmlessLength bufferLen 0 uri.levels.1)

theorem lwm2mStringToUri_idsText (hclosed : uri.PrefixClosed) (hobject : uri.isSetObject = true) :
    lwm2mStringToUriHead (idsText uri.levels.1) = (idsText uri.levels.1).length ∧
      lwm2mStringToUri (idsText uri.levels.1) = some uri := by
  obtain ⟨hne, huri, -⟩ := levels_closed hclosed hobject
  obtain ⟨hids, hlength⟩ := levels_ids uri
  have hread := stringToUriRest_idsText hne hids hlength
  rw [huri] at hread
  refine ⟨?_, ?_⟩
  · rw [lwm2mStringToUriHead, hread]
    rfl
  · rw [← stringToUriRest_fst, hread]
    rfl

theorem writesUri_reset (hpos : 0 < bufferLen) (hsize : bufferLen < 2 ^ 64) :
    WritesUri .reset bufferLen := by
  intro memory hlength
  have hlast : sizeT ((bufferLen : Int) - 1) = bufferLen - 1 := by
    unfold sizeT
    omega
  unfold lwm2mUriToStringAt
  dsimp only
  rw [if_neg (by decide), hlast]
  by_cases hone : bufferLen - 1 ≤ 0
  · rw [if_pos hone]
    exact ⟨memory, none, rfl, hlength, by dsimp only [uriMaxStringLen]; omega⟩
  · cases memory with
    | nil =>
      rw [List.length_nil] at hlength
      omega
    | cons old rest =>
      have hstore : storeByte (old :: rest) 0 47 = .ok (47 :: rest) := storeByte_head old 47 rest
      rw [if_neg hone, hstore, ok_bind]
      refine ⟨47 :: rest, _, rfl, hlength, by decide, by omega, rfl, ?_, ?_⟩
      · rfl
      · rfl

theorem writesUri_of_writable (hclosed : uri.PrefixClosed) (hsize : bufferLen < 2 ^ 64)
    (h : WritableLength uri bufferLen) : WritesUri uri bufferLen := by
  obtain ⟨hne, hset⟩ := h
  cases hobject : uri.isSetObject with
  | false =>
    rw [Lwm2mUri.ext_reset hclosed hobject]
    exact writesUri_reset (Nat.pos_of_ne_zero hne) hsize
  | true =>
    intro memory hlength
    obtain ⟨hids, hcount⟩ := levels_ids uri
    obtain ⟨hlevels, -, hdepth⟩ := levels_closed hclosed hobject
    obtain ⟨hhead, hread⟩ := lwm2mStringToUri_idsText hclosed hobject
    have htextLength := idsText_length_le uri.levels.1
    obtain ⟨memory', behind, hrun, hlength', hbehind⟩ := @uriSegmentsAt_right bufferLen uri.levels.1
      [] (Nat.pos_of_ne_zero hne) hsize (by omega) (by rw [List.length_nil]; omega) memory hlength
      ((hset hobject).imp_right fun h => ⟨h, Nat.zero_le _⟩)
    rw [List.nil_append, List.length_nil] at hrun hbehind
    unfold lwm2mUriToStringAt
    dsimp only
    rw [if_pos hobject, hrun, ok_bind]
    refine ⟨memory', _, rfl, hlength', ?_⟩
    cases behind with
    | none =>
      dsimp only at hbehind
      show bufferLen ≠ 24
      omega
    | some head =>
      dsimp only [Option.map_some] at hbehind ⊢
      obtain ⟨rfl, tail, rfl⟩ := hbehind
      have hint : cInt ((idsText uri.levels.1).length : Int) = (idsText uri.levels.1).length :=
        cInt_narrow (by omega)
      have hsome : 0 < (idsText uri.levels.1).length := by
        cases hids : uri.levels.1 with
        | nil => exact absurd hids hlevels
        | cons id ids => exact Nat.succ_pos _
      have hinside : (idsText uri.levels.1).length ≤ bufferLen := by
        rw [← hlength', List.length_append]
        exact Nat.le_add_right _ _
      rw [hint, Int.toNat_natCast, List.take_left' rfl]
      exact ⟨Int.ofNat_lt.2 hsome, Int.ofNat_le.2 hinside, hdepth, congrArg Int.ofNat hhead, hread⟩

theorem uriSegmentsAt_astray {front back : List UInt16} (hwide : 2 ^ 32 ≤ bufferLen)
    (hsize : bufferLen < 2 ^ 64) (hpos : 0 < bufferLen % 2 ^ 32)
    (hmod : bufferLen % 2 ^ 32 ≤ 2 ^ 31 + 1) (hcount : (front ++ back).length ≤ 4)
    (hplace : (idsText front).length = bufferLen % 2 ^ 32 ∨ (idsText front).length + 1 = bufferLen % 2 ^ 32)
    (hback : back ≠ []) (hsmall : ∀ id ∈ back, id < 10) :
    ∃ memory n, uriSegmentsAt bufferLen (front ++ back) 0 (List.replicate bufferLen 0) =
        .ok (memory, some n) ∧ n < 2 ^ 31 ∧ 0 ∈ memory.take n := by
  have hfrontLength := idsText_length_le front
  have hbackPos := List.length_pos_iff.2 hback
  rw [List.length_append] at hcount
  obtain ⟨rest, hfront, hlength, hzero⟩ := @uriSegmentsAt_wide_fits bufferLen front [] hwide hsize
    hmod (List.replicate bufferLen 0) List.length_replicate
    (fun byte hmem => List.eq_of_mem_replicate hmem) (by rw [List.nil_append]; omega)
  rw [List.nil_append, List.nil_append, List.length_nil] at hfront
  rw [List.nil_append] at hlength
  have hout : Astray bufferLen (idsText front).length :=
    ⟨hwide, hsize, hpos, by omega, by omega⟩
  obtain ⟨memory, hrun, hlength', hkept⟩ := hout.goesOn (by omega) hlength hsmall
    (show bufferLen % 2 ^ 32 ≤ (idsText front).length + 1 by omega) (.inr rfl)
  refine ⟨memory, (idsText front).length + 2 * back.length, ?_, by omega, ?_⟩
  · rw [uriSegmentsAt_append, hfront, ok_bind]
    exact hrun
  · have hinside : (idsText front).length + 1 < (idsText front ++ rest).length := by
      rw [hlength]
      omega
    have hbyte : memory[(idsText front).length + 1]? = some 0 := by
      rw [hkept, List.getElem?_eq_getElem hinside, List.getElem_append_right (Nat.le_succ _),
        hzero _ (List.getElem_mem _)]
    rw [List.mem_iff_getElem?]
    refine ⟨(idsText front).length + 1, ?_⟩
    rw [List.getElem?_take_of_lt (by omega), hbyte]

/-- From a length that is too large for an `int` and does not wrap around far enough the first
digit is written outside. -/
theorem uriSegmentsAt_outside {id : UInt16} (hsize : bufferLen < 2 ^ 64)
    (hlong : 2 ^ 31 + 1 < bufferLen)
    (hwrapped : ¬ (2 ^ 32 ≤ bufferLen ∧ 0 < bufferLen % 2 ^ 32 ∧ bufferLen % 2 ^ 32 ≤ 2 ^ 31 + 1)) :
    uriSegmentsAt bufferLen (id :: ids) 0 (List.replicate bufferLen 0) = .error .outOfBounds := by
  obtain ⟨old, rest, hsplit, hrest, htotal⟩ := @split_at_head bufferLen []
    (List.replicate bufferLen 0) List.length_replicate (by rw [List.length_nil]; omega)
    List.nil_prefix
  rw [List.length_nil] at htotal
  have hlength : ([] ++ old :: rest).length = bufferLen := by
    rw [← hsplit, List.length_replicate]
  have hbelow : ∃ below, cInt ((rest.length - 1 : Nat) : Int) = .negSucc (below + 1) := by
    by_cases hzero : bufferLen % 2 ^ 32 = 0
    · refine ⟨0, cInt_of_wraps (by decide) (by decide) (bufferLen / 2 ^ 32 : Nat) (by omega)⟩
    · refine ⟨2 ^ 32 - bufferLen % 2 ^ 32, ?_⟩
      have hvalue : cInt ((rest.length - 1 : Nat) : Int) =
          (bufferLen % 2 ^ 32 : Nat) - 2 - (2 ^ 32 : Nat) :=
        cInt_of_wraps (by omega) (by omega) (bufferLen / 2 ^ 32 + 1 : Nat) (by omega)
      rw [hvalue]
      omega
  obtain ⟨below, hindex⟩ := hbelow
  have hrun := @uriSegmentAt_outside bufferLen id [] rest old (below + 1) hsize hlength hrest hindex
    (by rw [List.length_nil]; omega)
  rw [← hsplit, List.length_nil] at hrun
  rw [uriSegmentsAt, hrun]
  rfl

theorem not_writesUri (hclosed : uri.PrefixClosed) (hsize : bufferLen < 2 ^ 64)
    (h : ¬ WritableLength uri bufferLen) : ¬ WritesUri uri bufferLen := by
  intro hwrites
  obtain ⟨memory', result, hrun, hlength, hresult⟩ :=
    hwrites (List.replicate bufferLen 0) List.length_replicate
  unfold lwm2mUriToStringAt at hrun
  dsimp only at hrun
  by_cases hempty : bufferLen = 0
  · subst hempty
    cases hobject : uri.isSetObject with
    | false =>
      rw [hobject] at hrun
      cases hrun
    | true =>
      obtain ⟨hlevels, -, -⟩ := levels_closed hclosed hobject
      rw [hobject, if_pos rfl] at hrun
      cases hids : uri.levels.1 with
      | nil => exact hlevels hids
      | cons id ids =>
        rw [hids] at hrun
        cases hrun
  · obtain ⟨hobject, hlong, hharm⟩ : uri.isSetObject = true ∧ 2 ^ 31 + 1 < bufferLen ∧
        ¬ HarmlessLength bufferLen 0 uri.levels.1 := by
      refine ⟨?_, ?_, ?_⟩
      · exact Bool.not_eq_false _ ▸ fun hobject => h ⟨hempty, fun hset => by
          rw [hobject] at hset
          cases hset⟩
      · exact Nat.not_le.1 fun hnarrow => h ⟨hempty, fun _ => .inl hnarrow⟩
      · exact fun hharmless => h ⟨hempty, fun _ => .inr hharmless⟩
    rw [if_pos hobject] at hrun
    obtain ⟨⟨stored, head⟩, hsegments, hrun⟩ := bind_eq_ok.1 hrun
    cases hrun
    by_cases hwrapped : 2 ^ 32 ≤ bufferLen ∧ 0 < bufferLen % 2 ^ 32 ∧
        bufferLen % 2 ^ 32 ≤ 2 ^ 31 + 1
    · obtain ⟨hwide, hpos, hmod⟩ := hwrapped
      obtain ⟨front, back, hsplit, hback, hplace, hsmall⟩ : ∃ front back,
          uri.levels.1 = front ++ back ∧ back ≠ [] ∧
          (0 + (idsText front).length = bufferLen % 2 ^ 32 ∨
            0 + (idsText front).length + 1 = bufferLen % 2 ^ 32) ∧ ∀ id ∈ back, id < 10 := by
        by_contra hnone
        refine hharm ⟨hwide, hpos, hmod, fun front back hsplit hback hplace => ?_⟩
        by_contra hsmall
        refine hnone ⟨front, back, hsplit, hback, hplace, fun id hmem => ?_⟩
        exact UInt16.not_le.1 fun hbig => hsmall ⟨id, hmem, hbig⟩
      rw [Nat.zero_add] at hplace
      have hcount := (levels_ids uri).2
      rw [hsplit] at hcount hsegments
      obtain ⟨memory, n, hrun, hn, hnul⟩ :=
        uriSegmentsAt_astray hwide hsize hpos hmod hcount hplace hback hsmall
      rw [hrun] at hsegments
      cases hsegments
      have hint : cInt (n : Int) = n := cInt_narrow hn
      dsimp only [Option.map_some] at hresult
      rw [hint, Int.toNat_natCast] at hresult
      exact lwm2mStringToUri_noNul hresult.2.2.2.2 hnul
    · obtain ⟨hlevels, -, -⟩ := levels_closed hclosed hobject
      cases hids : uri.levels.1 with
      | nil => exact hlevels hids
      | cons id ids =>
        rw [hids, uriSegmentsAt_outside hsize hlong hwrapped] at hsegments
        cases hsegments

/-! ## The text without the buffer -/

section text

variable {bufferLen : Nat}

/-- What stands in the buffer where `lwm2m_uriToString` is told without it. -/
def Leaves (bufferLen : Nat) (text : Option (List UInt8))
    (written : Except Fault (List UInt8 × Option Nat)) : Prop :=
  ∃ memory, written = .ok (memory, text.map List.length) ∧ memory.length = bufferLen ∧
    ∀ text' ∈ text, text' <+: memory

variable {memory : List UInt8}

theorem uriSegmentAt_leaves (hpos : 0 < bufferLen) (hnarrow : bufferLen ≤ 2 ^ 31 + 1) (id : UInt16)
    {text : List UInt8} (hlength : memory.length = bufferLen) (htext : text <+: memory) :
    Leaves bufferLen (uriSegment bufferLen text id)
      (uriSegmentAt bufferLen id text.length memory) := by
  unfold uriSegment
  by_cases hfull : bufferLen - 1 ≤ text.length
  · rw [if_pos hfull, uriSegmentAt_full hpos (by omega) hfull]
    exact ⟨memory, rfl, hlength, nofun⟩
  · obtain ⟨old, rest, rfl, hrest, htotal⟩ := split_at_head hlength (by omega) htext
    have hindex : cInt ((rest.length - 1 : Nat) : Int) = (rest.length - 1 : Nat) :=
      cInt_narrow (by omega)
    have hroom : bufferLen - (text.length + 1) = rest.length := by omega
    rw [if_neg hfull, utilsIntToText_id, hroom]
    by_cases hfits : (decimalText id.toNat).length ≤ rest.length
    · obtain ⟨rest', hrun, hlength', -⟩ := @uriSegmentAt_fits bufferLen id text rest old
        (rest.length - 1) (by omega) hlength hrest hindex (by omega) (by omega)
      rw [if_pos hfits]
      split
      · rename_i hempty
        exact absurd hempty (decimalText_ne_nil _)
      · rw [idsText, idsText, List.append_nil] at hrun hlength'
        exact ⟨_, hrun, hlength', fun text' hmem => Option.mem_some.1 hmem ▸ List.prefix_append _ _⟩
    · obtain ⟨memory', hrun, hlength'⟩ := @uriSegmentAt_short bufferLen id text rest old
        (rest.length - 1) (by omega) hlength hrest hindex (by omega) (by omega)
      rw [if_neg hfits]
      exact ⟨memory', hrun, hlength', nofun⟩

theorem uriSegmentsAt_leaves (hpos : 0 < bufferLen) (hnarrow : bufferLen ≤ 2 ^ 31 + 1)
    (ids : List UInt16) {text : List UInt8} (hlength : memory.length = bufferLen)
    (htext : text <+: memory) :
    Leaves bufferLen (ids.foldlM (uriSegment bufferLen) text)
      (uriSegmentsAt bufferLen ids text.length memory) := by
  induction ids generalizing text memory with
  | nil => exact ⟨memory, rfl, hlength, fun text' hmem => Option.mem_some.1 hmem ▸ htext⟩
  | cons id ids ih =>
    obtain ⟨memory', hrun, hlength', hbehind⟩ := uriSegmentAt_leaves hpos hnarrow id hlength htext
    rw [uriSegmentsAt, hrun, ok_bind, List.foldlM_cons]
    cases hsegment : uriSegment bufferLen text id with
    | none => exact ⟨memory', rfl, hlength', nofun⟩
    | some text' => exact ih hlength' (hbehind text' hsegment)

theorem lwm2mUriToString_levels (uri : Lwm2mUri) (hobject : uri.isSetObject = true) :
    lwm2mUriToString (some uri) bufferLen =
      (uri.levels.1.foldlM (uriSegment bufferLen) []).map fun text => (text, uri.levels.2) := by
  unfold lwm2mUriToString Lwm2mUri.levels
  dsimp only
  rw [hobject, if_pos rfl, if_pos rfl]
  cases uri.isSetInstance <;> cases uri.isSetResource <;> cases uri.isSetResourceInstance <;>
    simp [Option.map_eq_bind, Option.bind_assoc]

/-- `lwm2m_uriToString` without the buffer says what stands in it. -/
theorem lwm2mUriToStringAt_leaves (hpos : 0 < bufferLen) (hnarrow : bufferLen ≤ 2 ^ 31 + 1)
    (uri : Lwm2mUri) (hlength : memory.length = bufferLen) :
    ∃ memory', lwm2mUriToStringAt (some uri) bufferLen memory = .ok (memory',
        (lwm2mUriToString (some uri) bufferLen).map fun out => (cInt out.1.length, out.2)) ∧
      memory'.length = bufferLen ∧
      ∀ out ∈ lwm2mUriToString (some uri) bufferLen, out.1 <+: memory' := by
  cases hobject : uri.isSetObject with
  | true =>
    obtain ⟨memory', hrun, hlength', htext⟩ :=
      uriSegmentsAt_leaves hpos hnarrow uri.levels.1 hlength (@List.nil_prefix _ memory)
    rw [List.length_nil] at hrun
    rw [lwm2mUriToString_levels uri hobject]
    unfold lwm2mUriToStringAt
    dsimp only
    rw [if_pos hobject, hrun, ok_bind]
    refine ⟨memory', ?_, hlength', ?_⟩
    · rw [Option.map_map, Option.map_map]
      rfl
    · intro out hmem
      obtain ⟨text, htextMem, rfl⟩ := Option.map_eq_some_iff.1 hmem
      exact htext text htextMem
  | false =>
    have hlast : sizeT ((bufferLen : Int) - 1) = bufferLen - 1 := by
      unfold sizeT
      omega
    unfold lwm2mUriToStringAt lwm2mUriToString
    dsimp only
    rw [hobject, if_neg Bool.false_ne_true, if_neg Bool.false_ne_true, hlast]
    by_cases hone : bufferLen - 1 ≤ 0
    · rw [if_pos hone, if_pos hone]
      exact ⟨memory, rfl, hlength, nofun⟩
    · cases memory with
      | nil =>
        rw [List.length_nil] at hlength
        omega
      | cons old rest =>
        have hstore : storeByte (old :: rest) 0 47 = .ok (47 :: rest) := storeByte_head old 47 rest
        rw [if_neg hone, if_neg hone, hstore, ok_bind]
        exact ⟨47 :: rest, rfl, hlength, fun out hmem => Option.mem_some.1 hmem ▸ ⟨rest, rfl⟩⟩

end text

/-! ## The result -/

/-- A URI is written right into a buffer of a length or not, as the length says. -/
theorem uriToString_iff {uri : Lwm2mUri} (hclosed : uri.PrefixClosed) (bufferLen : UInt64) :
    WritesUri uri bufferLen.toNat ↔ WritableLength uri bufferLen.toNat := by
  constructor
  · intro hwrites
    by_contra hnot
    exact not_writesUri hclosed bufferLen.toNat_lt hnot hwrites
  · exact writesUri_of_writable hclosed bufferLen.toNat_lt

theorem uriToString_iff_resource :
    WritesUri ⟨3, 0, 1, 65535⟩ 24 ↔ WritableLength ⟨3, 0, 1, 65535⟩ 24 :=
  @uriToString_iff ⟨3, 0, 1, 65535⟩ (by decide) 24

/-- A buffer without a byte is written to. -/
theorem emptyBuffer_written : ¬ WritesUri ⟨3, 65535, 65535, 65535⟩ 0 := by
  intro hwrites
  obtain ⟨memory', result, hrun, -⟩ := hwrites [] rfl
  cases hrun

end Wakaama
