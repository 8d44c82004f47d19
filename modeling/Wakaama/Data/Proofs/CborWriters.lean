import Mathlib
import Wakaama.Data.Cbor

/-!
# How much the CBOR writers write

Heads and numbers are written behind a check of the buffer. The copy of a string is not checked,
and neither is the first byte of an object link.
-/

namespace Wakaama

/-- The size of the head that `prv_serialize_value` writes for a value. -/
def headLength (val : UInt64) : Nat :=
  if val < 0xff then if val.toUInt8 < 24 then 1 else 2
  else if val < 0xffff then 3
  else if val < 0xffffffff then 5
  else 9

/-- A single that `prv_serialize_float` writes in half precision. -/
def HalfSized (uval : UInt32) : Prop :=
  let mant := (uval &&& 0x7fffff).toNat
  let exp : Int := ((uval >>> 23) &&& 0xff).toNat - 127
  exp = 0xff - 127 ∨ (mant = 0 ∧ exp = -127) ∨ (mant &&& 0x7ff = 0 ∧ -14 ≤ exp ∧ exp ≤ 15) ∨
    (-24 ≤ exp ∧ exp ≤ -14 ∧ mant &&& ((1 <<< (1 - exp).toNat) - 1) = 0)

instance (uval : UInt32) : Decidable (HalfSized uval) := by
  unfold HalfSized
  infer_instance

/-- The size of a double: half, single or double precision. -/
def floatLength (bits : UInt64) : Nat :=
  if doubleExponent bits = 0x7ff then 3
  else
    match exactSingle bits with
    | some uval => if HalfSized uval then 3 else 5
    | none => 9

/-- A writer that writes `n` bytes where they fit, and nothing else. -/
def Checked (bufferLen n : Nat) (written : Except Fault (List UInt8)) : Prop :=
  ∃ bytes, written = .ok bytes ∧ bytes.length = if n ≤ bufferLen then n else 0

variable {n bufferLen : Nat} {bytes : List UInt8}

theorem Checked.le_bufferLen {written : Except Fault (List UInt8)}
    (h : Checked bufferLen n written) :
    ∃ bytes, written = .ok bytes ∧ bytes.length ≤ bufferLen := by
  rcases h with ⟨bytes, hwritten, hlength⟩
  refine ⟨bytes, hwritten, ?_⟩
  rw [hlength]
  split <;> omega

theorem storeAt_eq_ok {offset : Nat} (h : offset + bytes.length ≤ bufferLen) :
    storeAt bufferLen offset bytes = .ok bytes := by
  unfold storeAt
  rw [if_pos (Or.inr h)]

theorem storeAt_eq_error {offset : Nat} (hbytes : bytes ≠ [])
    (h : ¬ offset + bytes.length ≤ bufferLen) :
    storeAt bufferLen offset bytes = .error .outOfBounds := by
  unfold storeAt
  rw [if_neg]
  exact fun hor => hor.elim hbytes h

@[simp] theorem bigEndian_length (n : Nat) (val : UInt64) : (bigEndian n val).length = n := by
  induction n with
  | zero => rfl
  | succ n ih => simp [bigEndian, ih]

theorem checked_nil (h : bufferLen < n) : Checked bufferLen n (.ok []) := by
  refine ⟨[], rfl, ?_⟩
  rw [if_neg (by omega)]
  rfl

theorem checked_storeAt (h : bytes.length ≤ bufferLen) :
    Checked bufferLen bytes.length (storeAt bufferLen 0 bytes) := by
  refine ⟨bytes, storeAt_eq_ok (by omega), ?_⟩
  rw [if_pos h]

theorem serializeHead_checked (bufferLen : Nat) (mt ai : UInt8) (val : UInt64) (n : Nat) :
    Checked bufferLen (n + 1) (serializeHead bufferLen mt ai val (n + 1)) := by
  unfold serializeHead
  by_cases h : bufferLen < n + 1
  · rw [if_pos h]
    exact checked_nil h
  · rw [if_neg h]
    have hlength : (initialByte mt ai :: bigEndian (n + 1 - 1) val).length = n + 1 := by simp
    have hstore := checked_storeAt (hlength.le.trans (Nat.not_lt.1 h))
    rwa [hlength] at hstore

theorem prvSerializeValue_checked (bufferLen : Nat) (mt : UInt8) (val : UInt64) :
    Checked bufferLen (headLength val) (prvSerializeValue bufferLen mt val) := by
  unfold headLength prvSerializeValue
  split
  · split
    · apply serializeHead_checked
    · apply serializeHead_checked
  · split
    · apply serializeHead_checked
    · split
      · apply serializeHead_checked
      · apply serializeHead_checked

theorem checked_half (h : 3 ≤ bufferLen) (a b c : UInt8) :
    Checked bufferLen 3 (storeAt bufferLen 0 [a, b, c]) :=
  checked_storeAt (show [a, b, c].length ≤ bufferLen from h)

theorem checked_number (n : Nat) (first : UInt8) (val : UInt64) :
    Checked bufferLen (n + 1)
      (if bufferLen < n + 1 then .ok [] else storeAt bufferLen 0 (first :: bigEndian n val)) := by
  split
  · next h => exact checked_nil h
  · next h =>
    have hlength : (first :: bigEndian n val).length = n + 1 := by simp
    have hstore := checked_storeAt (hlength.le.trans (Nat.not_lt.1 h))
    rwa [hlength] at hstore

theorem serializeSingle_checked (h : 3 ≤ bufferLen) (uval : UInt32) :
    Checked bufferLen (if HalfSized uval then 3 else 5) (serializeSingle bufferLen uval) := by
  by_cases hhalf : HalfSized uval
  · rw [if_pos hhalf]
    unfold HalfSized at hhalf
    unfold serializeSingle
    dsimp only at hhalf ⊢
    split
    · exact checked_half h ..
    · split
      · exact checked_half h ..
      · split
        · exact checked_half h ..
        · split
          · exact checked_half h ..
          · exact absurd hhalf (by tauto)
  · rw [if_neg hhalf]
    unfold HalfSized at hhalf
    unfold serializeSingle
    dsimp only at hhalf ⊢
    rw [if_neg (by tauto), if_neg (by tauto), if_neg (by tauto), if_neg (by tauto)]
    apply checked_number

theorem floatLength_ge (bits : UInt64) : 3 ≤ floatLength bits := by
  unfold floatLength
  split
  · omega
  · split
    · split <;> omega
    · omega

theorem prvSerializeFloat_checked (bufferLen : Nat) (bits : UInt64) :
    Checked bufferLen (floatLength bits) (prvSerializeFloat bufferLen bits) := by
  have hge := floatLength_ge bits
  unfold prvSerializeFloat
  by_cases h : bufferLen < 3
  · rw [if_pos h]
    exact checked_nil (by omega)
  · rw [if_neg h]
    unfold floatLength
    by_cases hexp : doubleExponent bits = 0x7ff
    · rw [if_pos hexp]
      split
      · exact checked_half (by omega) ..
      · exact checked_half (by omega) ..
    · rw [if_neg hexp, if_neg (fun hnan => hexp hnan.1), if_neg hexp]
      cases exactSingle bits with
      | some uval => exact serializeSingle_checked (by omega) uval
      | none => apply checked_number

theorem cborPutTypeAndValue_le (bufferLen : Nat) (type : CborType) (val : UInt64) :
    ∃ bytes, cborPutTypeAndValue bufferLen type val = .ok bytes ∧ bytes.length ≤ bufferLen := by
  unfold cborPutTypeAndValue
  split
  · exact ⟨[], rfl, by simp⟩
  · next h =>
    cases type with
    | float => exact (prvSerializeFloat_checked bufferLen val).le_bufferLen
    | simpleValue =>
      show ∃ bytes, (if val > 255 then _ else _) = _ ∧ _
      split
      · exact ⟨[], rfl, by simp⟩
      · exact (prvSerializeValue_checked ..).le_bufferLen
    | «break» => exact ⟨_, storeAt_eq_ok (by simp; omega), by simp; omega⟩
    | unknown => exact ⟨[], rfl, by simp⟩
    | _ => exact (prvSerializeValue_checked ..).le_bufferLen

/-- A writer keeps to its buffer and returns 0 or the number of the bytes that it has written. -/
def Respects (bufferLen : Nat) (written : Except Fault (Int × List UInt8)) : Prop :=
  ∃ res bytes, written = .ok (res, bytes) ∧ bytes.length ≤ bufferLen ∧
    (res = 0 ∨ res = bytes.length)

/-- A string is empty, or its head does not fit, or head and text fit, and the number of the
bytes is not lost in an `int`. -/
def StringFits (bufferLen n : Nat) : Prop :=
  n = 0 ∨ bufferLen < headLength n.toUInt64 ∨
    (headLength n.toUInt64 + n ≤ bufferLen ∧
      (intOfSize n ≤ 0 ∨ headLength n.toUInt64 + n < 2 ^ 31))

instance (bufferLen n : Nat) : Decidable (StringFits bufferLen n) :=
  inferInstanceAs (Decidable (_ ∨ _))

/-- A datum that `cbor_put_singular` keeps in its buffer. -/
def SingularFits (bufferLen : Nat) (data : Lwm2mData) : Prop :=
  match data.type with
  | .string | .coreLink | .opaqueBytes => StringFits bufferLen data.asBuffer.length
  | .objectLink => bufferLen ≠ 0
  | _ => True

theorem respects_of_checked {written : Except Fault (List UInt8)}
    (h : Checked bufferLen n written) :
    Respects bufferLen (written.map fun bytes => ((bytes.length : Int), bytes)) := by
  rcases h.le_bufferLen with ⟨bytes, hwritten, hlength⟩
  exact ⟨bytes.length, bytes, by rw [hwritten]; rfl, hlength, Or.inr rfl⟩

theorem not_respects_error (bufferLen : Nat) (fault : Fault) :
    ¬ Respects bufferLen (.error fault) := by
  intro h
  rcases h with ⟨res, bytes, h, _⟩
  cases h

theorem respects_ok_iff {res : Int} :
    Respects bufferLen (.ok (res, bytes)) ↔
      bytes.length ≤ bufferLen ∧ (res = 0 ∨ res = bytes.length) := by
  constructor
  · intro h
    rcases h with ⟨res', bytes', h, hlength, hres⟩
    cases h
    exact ⟨hlength, hres⟩
  · intro h
    exact ⟨res, bytes, rfl, h.1, h.2⟩

theorem headLength_pos (val : UInt64) : 0 < headLength val := by
  unfold headLength
  split
  · split <;> omega
  · split
    · omega
    · split <;> omega

theorem headLength_le (val : UInt64) : headLength val ≤ 9 := by
  unfold headLength
  split
  · split <;> omega
  · split
    · omega
    · split <;> omega

theorem intOfSize_le (n : Nat) : intOfSize n ≤ n := by
  unfold intOfSize
  rw [Int.bmod_def]
  split <;> omega

theorem stringResult_iff {head : Nat} (hhead : 0 < head) (hle : head ≤ 9) (hpos : 0 < intOfSize n) :
    ((head + intOfSize n).bmod (2 ^ 32) = 0 ∨
      (head + intOfSize n).bmod (2 ^ 32) = ((head + n : Nat) : Int)) ↔ head + n < 2 ^ 31 := by
  unfold intOfSize at hpos ⊢
  rw [Int.bmod_def] at hpos
  rw [Int.bmod_def, Int.bmod_def]
  norm_num at hpos ⊢
  split at hpos <;> split <;> split <;> omega

theorem putBuffer_respects_iff (bufferLen : Nat) (mt : UInt8) (buffer : List UInt8) :
    Respects bufferLen (putBuffer bufferLen mt buffer) ↔ StringFits bufferLen buffer.length := by
  rcases prvSerializeValue_checked bufferLen mt buffer.length.toUInt64 with
    ⟨head, hwritten, hlength⟩
  have hpos := headLength_pos buffer.length.toUInt64
  have hle := headLength_le buffer.length.toUInt64
  unfold putBuffer StringFits
  simp only [hwritten, bind, Except.bind, pure, Except.pure]
  by_cases hempty : buffer = []
  · rw [if_pos hempty]
    refine iff_of_true (respects_ok_iff.2 ⟨?_, Or.inr rfl⟩) (Or.inl (by simp [hempty]))
    rw [hlength]
    split <;> omega
  · have hne : buffer.length ≠ 0 := by simp [hempty]
    rw [if_neg hempty]
    by_cases hroom : headLength buffer.length.toUInt64 ≤ bufferLen
    · rw [if_pos hroom] at hlength
      have hhead : head ≠ [] := by
        intro h
        rw [h, List.length_nil] at hlength
        omega
      rw [if_neg hhead]
      by_cases hfits : head.length + buffer.length ≤ bufferLen
      · simp only [storeAt_eq_ok hfits]
        by_cases hint : intOfSize buffer.length ≤ 0
        · rw [if_pos hint]
          refine iff_of_true (respects_ok_iff.2 ⟨by simp; omega, Or.inl rfl⟩) ?_
          exact Or.inr (Or.inr ⟨by omega, Or.inl hint⟩)
        · rw [if_neg hint, respects_ok_iff, List.length_append,
            stringResult_iff (by omega) (by omega) (by omega)]
          omega
      · simp only [storeAt_eq_error hempty hfits]
        refine iff_of_false (not_respects_error _ _) ?_
        omega
    · rw [if_neg hroom] at hlength
      have hhead : head = [] := List.length_eq_zero_iff.1 hlength
      rw [if_pos hhead]
      refine iff_of_true (respects_ok_iff.2 ⟨by simp, Or.inl rfl⟩) ?_
      omega

theorem sizeBehindFirst_le (hroom : bufferLen ≠ 0) : sizeBehindFirst bufferLen ≤ bufferLen - 1 := by
  unfold sizeBehindFirst
  rw [if_neg hroom]
  exact Nat.mod_le _ _

theorem snprintfBehindFirst_ok (hroom : bufferLen ≠ 0) (text : List UInt8) :
    ∃ bytes, snprintfBehindFirst bufferLen text = .ok bytes := by
  have hle := sizeBehindFirst_le hroom
  unfold snprintfBehindFirst
  split
  · exact ⟨[], rfl⟩
  · next h =>
    refine ⟨_, storeAt_eq_ok ?_⟩
    rw [List.length_append, List.length_take, List.length_singleton]
    omega

theorem snprintfBehindFirst_zero (text : List UInt8) :
    snprintfBehindFirst 0 text = .error .outOfBounds := by
  have hsize : sizeBehindFirst 0 ≠ 0 := by decide
  unfold snprintfBehindFirst
  rw [if_neg hsize]
  apply storeAt_eq_error
  · simp
  · omega

theorem putObjLink_respects_iff (bufferLen : Nat) (text : List UInt8) :
    Respects bufferLen (putObjLink bufferLen text) ↔ bufferLen ≠ 0 := by
  by_cases hroom : bufferLen = 0
  · subst hroom
    unfold putObjLink
    rw [snprintfBehindFirst_zero]
    exact iff_of_false (not_respects_error _ _) (by simp)
  · refine iff_of_true ?_ hroom
    rcases snprintfBehindFirst_ok hroom text with ⟨printed, hprinted⟩
    rcases prvSerializeValue_checked bufferLen cborTextString text.length.toUInt64 with
      ⟨head, hwritten, hlength⟩
    have hsize := intOfSize_le (sizeBehindFirst bufferLen)
    have hle := sizeBehindFirst_le hroom
    unfold putObjLink
    simp only [hprinted, hwritten, bind, Except.bind, pure, Except.pure]
    by_cases hint : intOfSize (sizeBehindFirst bufferLen) > text.length
    · rw [if_pos hint]
      by_cases hone : head.length = 1
      · rw [if_pos hone, respects_ok_iff, List.length_append, hone]
        omega
      · rw [if_neg hone, respects_ok_iff, hlength]
        refine ⟨?_, Or.inl rfl⟩
        split <;> omega
    · rw [if_neg hint, respects_ok_iff]
      exact ⟨Nat.zero_le _, Or.inl rfl⟩

theorem cborPutSingular_respects_iff (bufferLen : Nat) (data : Lwm2mData) :
    Respects bufferLen (cborPutSingular bufferLen data) ↔ SingularFits bufferLen data := by
  have hvalue : ∀ mt val, Respects bufferLen
      ((prvSerializeValue bufferLen mt val).map fun bytes => ((bytes.length : Int), bytes)) :=
    fun mt val => respects_of_checked (prvSerializeValue_checked bufferLen mt val)
  unfold cborPutSingular SingularFits
  cases data.type with
  | string => exact putBuffer_respects_iff ..
  | coreLink => exact putBuffer_respects_iff ..
  | opaqueBytes => exact putBuffer_respects_iff ..
  | integer =>
    refine iff_of_true ?_ trivial
    show Respects bufferLen (if _ then _ else _)
    split
    · apply hvalue
    · apply hvalue
  | unsignedInteger => exact iff_of_true (hvalue _ _) trivial
  | float => exact iff_of_true (respects_of_checked (prvSerializeFloat_checked ..)) trivial
  | boolean => exact iff_of_true (hvalue _ _) trivial
  | objectLink => exact putObjLink_respects_iff ..
  | _ => exact iff_of_true (respects_ok_iff.2 ⟨by simp, Or.inl rfl⟩) trivial

end Wakaama
