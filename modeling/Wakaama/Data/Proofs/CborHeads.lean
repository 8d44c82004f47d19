import Wakaama.Data.CborHead
import Wakaama.Data.Proofs.BigEndian
import Wakaama.Data.Proofs.CborReaders

/-!
# Heads of CBOR items are read back

`prv_serialize_value` writes an argument of a width that holds the value, and the reader of heads
takes the same width. The simple value 255 is written in two bytes, which are those of a half, and
the break without its major type.
-/

namespace Wakaama

variable {ai mt : UInt8} {val : UInt64} {n bufferLen : Nat} {bytes : List UInt8} {type : CborType}

theorem initialByte_parts (hmt : mt.toNat < 8) (hai : ai.toNat < 32) :
    initialByte mt ai >>> 5 = mt ∧ initialByte mt ai &&& 0x1f = ai := by
  have hall : ∀ m < 8, ∀ a < 32, initialByte m.toUInt8 a.toUInt8 >>> 5 = m.toUInt8 ∧
      initialByte m.toUInt8 a.toUInt8 &&& 0x1f = a.toUInt8 := by decide
  have hsame := hall mt.toNat hmt ai.toNat hai
  rw [Nat.toUInt8_eq, Nat.toUInt8_eq, UInt8.ofNat_toNat, UInt8.ofNat_toNat] at hsame
  exact hsame

def HoldsValue (ai : UInt8) (val : UInt64) (n : Nat) : Prop :=
  ai.toNat < 32 ∧ argumentWidth ai = some n ∧ argumentValue ai (bigEndian n val) = val

theorem holdsValue_wide (hai : ai.toNat < 32) (hwidth : argumentWidth ai = some n) (hpos : 0 < n)
    (hle : n ≤ 8) (hval : val.toNat < 256 ^ n) : HoldsValue ai val n := by
  refine ⟨hai, hwidth, ?_⟩
  have hne : bigEndian n val ≠ [] := by
    apply List.length_pos_iff.1
    rw [bigEndian_length]
    exact hpos
  unfold argumentValue
  rw [if_neg hne, bigEndianValue_bigEndian hle, Nat.mod_eq_of_lt hval, Nat.toUInt64_eq,
    UInt64.ofNat_toNat]

theorem holdsValue_short {val : UInt64} (h : val.toNat < 24) : HoldsValue val.toUInt8 val 0 := by
  have hbyte : val.toUInt8.toNat = val.toNat := by
    rw [UInt64.toNat_toUInt8]
    omega
  have hne : ∀ ai : UInt8, 24 ≤ ai.toNat → val.toUInt8 ≠ ai := by
    intro ai hai heq
    rw [← heq, hbyte] at hai
    omega
  have hwidth : argumentWidth val.toUInt8 = some 0 := by
    unfold argumentWidth
    rw [if_neg (hne _ (by decide)), if_neg (hne _ (by decide)), if_neg (hne _ (by decide)),
      if_neg (hne _ (by decide)), if_neg]
    intro hor
    rcases hor with h | h | h
    · exact hne _ (by decide) h
    · exact hne _ (by decide) h
    · exact hne _ (by decide) h
  refine ⟨by omega, hwidth, ?_⟩
  show val.toUInt8.toUInt64 = val
  rw [← UInt64.toNat_inj, UInt8.toNat_toUInt64, hbyte]

theorem serializeHead_writes (h : serializeHead bufferLen mt ai val (n + 1) = .ok bytes)
    (hpos : 0 < bytes.length) : bytes = initialByte mt ai :: bigEndian n val := by
  unfold serializeHead at h
  split at h
  · cases h
    exact absurd hpos (Nat.lt_irrefl 0)
  · unfold storeAt at h
    split at h
    · cases h
      rfl
    · cases h

/-- What `prv_serialize_value` writes: the initial byte and an argument that holds the value. Up to
254 the additional information is the value or that of one byte. -/
theorem prvSerializeValue_writes (h : prvSerializeValue bufferLen mt val = .ok bytes)
    (hpos : 0 < bytes.length) :
    ∃ ai n, bytes = initialByte mt ai :: bigEndian n val ∧ HoldsValue ai val n ∧
      (val.toNat < 255 → ai.toNat ≤ 24) := by
  have hlt := val.toNat_lt
  unfold prvSerializeValue at h
  split at h
  · rename_i hbyte
    rw [UInt64.lt_iff_toNat_lt] at hbyte
    change val.toNat < 255 at hbyte
    split at h
    · rename_i hshort
      rw [UInt8.lt_iff_toNat_lt, UInt64.toNat_toUInt8] at hshort
      change val.toNat % 256 < 24 at hshort
      have hholds := @holdsValue_short val (by omega)
      refine ⟨_, 0, serializeHead_writes h hpos, hholds, fun _ => ?_⟩
      rw [UInt64.toNat_toUInt8]
      omega
    · exact ⟨_, 1, serializeHead_writes h hpos,
        holdsValue_wide (by decide) rfl (by omega) (by omega) (by omega), fun _ => Nat.le_refl 24⟩
  · rename_i hbyte
    rw [UInt64.lt_iff_toNat_lt] at hbyte
    change ¬ val.toNat < 255 at hbyte
    split at h
    · rename_i htwo
      rw [UInt64.lt_iff_toNat_lt] at htwo
      change val.toNat < 65535 at htwo
      exact ⟨_, 2, serializeHead_writes h hpos,
        holdsValue_wide (by decide) rfl (by omega) (by omega) (by omega),
        fun hsmall => absurd hsmall hbyte⟩
    · split at h
      · rename_i hfour
        rw [UInt64.lt_iff_toNat_lt] at hfour
        change val.toNat < 4294967295 at hfour
        exact ⟨_, 4, serializeHead_writes h hpos,
          holdsValue_wide (by decide) rfl (by omega) (by omega) (by omega),
          fun hsmall => absurd hsmall hbyte⟩
      · exact ⟨_, 8, serializeHead_writes h hpos,
          holdsValue_wide (by decide) rfl (by omega) (by omega) (by omega),
          fun hsmall => absurd hsmall hbyte⟩

theorem head_read {value : UInt64} (hmt : mt.toNat < 8) (hholds : HoldsValue ai val n)
    (htype : cborTypeAndValue mt ai val = some (type, value)) (rest : List UInt8) :
    cborGetTypeAndValue (initialByte mt ai :: bigEndian n val ++ rest) =
      pure (type, value, (initialByte mt ai :: bigEndian n val).length) := by
  obtain ⟨hai, hwidth, hvalue⟩ := hholds
  obtain ⟨hmajor, hinfo⟩ := initialByte_parts hmt hai
  apply CborHead.read
  refine CborHead.mk ?_ ?_
  · rw [hinfo, hwidth, bigEndian_length]
  · rw [hmajor, hinfo, hvalue]
    exact htype

theorem prvSerializeValue_read {value : UInt64} (hmt : mt.toNat < 8)
    (htype : ∀ ai : UInt8, cborTypeAndValue mt ai val = some (type, value)) :
    ∃ bytes, prvSerializeValue bufferLen mt val = .ok bytes ∧
      (0 < bytes.length →
        ∀ rest, cborGetTypeAndValue (bytes ++ rest) = pure (type, value, bytes.length)) := by
  obtain ⟨bytes, hwritten, -⟩ := prvSerializeValue_checked bufferLen mt val
  refine ⟨bytes, hwritten, fun hpos rest => ?_⟩
  obtain ⟨ai, n, rfl, hholds, -⟩ := prvSerializeValue_writes hwritten hpos
  exact head_read hmt hholds (htype ai) rest

theorem simpleValue_read (hval : val.toNat < 255) :
    ∃ bytes, prvSerializeValue bufferLen cborFloatingOrSimple val = .ok bytes ∧
      (0 < bytes.length →
        ∀ rest, cborGetTypeAndValue (bytes ++ rest) = pure (.simpleValue, val, bytes.length)) := by
  obtain ⟨bytes, hwritten, -⟩ := prvSerializeValue_checked bufferLen cborFloatingOrSimple val
  refine ⟨bytes, hwritten, fun hpos rest => ?_⟩
  obtain ⟨ai, n, rfl, hholds, hinfo⟩ := prvSerializeValue_writes hwritten hpos
  apply head_read (by decide) hholds
  have hne : ∀ other : UInt8, 24 < other.toNat → ai ≠ other := by
    intro other hother heq
    have hle := hinfo hval
    rw [heq] at hle
    omega
  unfold cborTypeAndValue
  rw [if_neg (by decide), if_neg (by decide), if_neg (by decide), if_neg (by decide),
    if_neg (by decide), if_neg (by decide), if_neg (by decide), if_neg (hne _ (by decide)),
    if_neg (hne _ (by decide)), if_neg (hne _ (by decide)), if_neg (hne _ (by decide))]

theorem complement_negative (h : val.toInt64 < 0) : ¬ ~~~val >>> 63 ≠ 0 := by
  have hsign : 2 ^ 63 ≤ val.toNat := by
    rw [Int64.lt_iff_toInt_lt, int64_toInt] at h
    change ((val.toNat : Int).bmod (2 ^ 64)) < 0 at h
    rw [Int.bmod_def] at h
    split at h <;> omega
  apply not_not_intro
  rw [← UInt64.toNat_inj, UInt64.toNat_shiftRight, UInt64.toNat_not, Nat.shiftRight_eq_div_pow]
  show (2 ^ 64 - 1 - val.toNat) / 2 ^ 63 = 0
  omega

theorem break_read (val : UInt64) :
    cborPutTypeAndValue 1 .break val = .ok [0x1f] ∧
      cborGetTypeAndValue [0x1f] = pure (.unsignedInteger, 31, 1) := by
  have hhead : CborHead [0x1f] .unsignedInteger 31 :=
    @CborHead.mk 0x1f [] _ _ (by decide) (by decide)
  exact ⟨rfl, hhead.read []⟩

theorem simpleValue255_read :
    cborPutTypeAndValue 3 .simpleValue 255 = .ok [0xf9, 0x00, 0xff] ∧
      cborGetTypeAndValue [0xf9, 0x00, 0xff] = pure (.float, halfToDouble 255, 3) := by
  have hhead : CborHead [0xf9, 0x00, 0xff] .float (halfToDouble 255) :=
    @CborHead.mk 0xf9 [0x00, 0xff] _ _ (by decide) (by rfl)
  exact ⟨by decide, hhead.read []⟩

theorem not_cborHeadRoundTrips {type' : CborType} {val' : UInt64}
    (hwritten : cborPutTypeAndValue bufferLen type val = .ok bytes) (hpos : 0 < bytes.length)
    (hread : cborGetTypeAndValue bytes = pure (type', val', n)) (hne : type' ≠ type) :
    ¬ CborHeadRoundTrips type val := by
  intro h
  obtain ⟨bytes', hwritten', hback⟩ := h bufferLen
  obtain rfl : bytes = bytes' := Except.ok.inj (hwritten.symm.trans hwritten')
  have hsame := hback hpos []
  rw [List.append_nil, hread] at hsame
  exact hne (congrArg Prod.fst (Option.some.inj (Except.ok.inj hsame)))

theorem break_lost (val : UInt64) : ¬ CborHeadRoundTrips .break val :=
  not_cborHeadRoundTrips (break_read val).1 Nat.one_pos (break_read val).2 (by decide)

theorem simpleValue255_lost : ¬ CborHeadRoundTrips .simpleValue 255 :=
  not_cborHeadRoundTrips simpleValue255_read.1 (Nat.succ_pos _) simpleValue255_read.2 (by decide)

theorem cborHeadRoundTrips_of_argument {type : CborType} {val val' : UInt64} {mt : UInt8}
    (hmt : mt.toNat < 8)
    (hput : ∀ bufferLen, cborPutTypeAndValue bufferLen type val =
      if bufferLen < 1 then .ok [] else prvSerializeValue bufferLen mt val')
    (htype : ∀ ai : UInt8, cborTypeAndValue mt ai val' = some (type, val)) :
    CborHeadRoundTrips type val := by
  intro bufferLen
  rw [hput]
  split
  · exact ⟨[], rfl, fun hpos => absurd hpos (Nat.lt_irrefl 0)⟩
  · exact prvSerializeValue_read hmt htype

/-- The heads that are written are read back, but for that of the simple value 255 and the break. -/
theorem cborHeadRoundTrips_iff {type : CborType} {val : UInt64} (h : CborAdmissible type val) :
    CborHeadRoundTrips type val ↔ type ≠ .break ∧ ¬ (type = .simpleValue ∧ val = 255) := by
  constructor
  · intro hback
    constructor
    · rintro rfl
      exact break_lost val hback
    · rintro ⟨rfl, rfl⟩
      exact simpleValue255_lost hback
  · rintro ⟨hbreak, hsimple⟩
    cases type with
    | unsignedInteger =>
      exact @cborHeadRoundTrips_of_argument _ _ _ cborUnsignedInteger (by decide) (fun _ => rfl)
        fun _ => rfl
    | negativeInteger =>
      apply @cborHeadRoundTrips_of_argument _ val (~~~val) cborNegativeInteger (by decide)
        (fun _ => rfl)
      intro ai
      unfold cborTypeAndValue
      rw [if_neg (by decide), if_pos rfl, if_neg (complement_negative h), UInt64.not_not]
    | byteString =>
      exact @cborHeadRoundTrips_of_argument _ _ _ cborByteString (by decide) (fun _ => rfl)
        fun _ => rfl
    | textString =>
      exact @cborHeadRoundTrips_of_argument _ _ _ cborTextString (by decide) (fun _ => rfl)
        fun _ => rfl
    | array =>
      exact @cborHeadRoundTrips_of_argument _ _ _ cborArray (by decide) (fun _ => rfl)
        fun _ => rfl
    | map =>
      exact @cborHeadRoundTrips_of_argument _ _ _ cborMap (by decide) (fun _ => rfl)
        fun _ => rfl
    | semanticTag =>
      exact @cborHeadRoundTrips_of_argument _ _ _ cborSemanticTag (by decide) (fun _ => rfl)
        fun _ => rfl
    | simpleValue =>
      intro bufferLen
      have hle : val.toNat ≤ 255 := UInt64.le_iff_toNat_le.1 h
      have hne : val.toNat ≠ 255 := fun heq => hsimple ⟨rfl, UInt64.toNat_inj.1 heq⟩
      unfold cborPutTypeAndValue
      dsimp only
      split
      · exact ⟨[], rfl, fun hpos => absurd hpos (Nat.lt_irrefl 0)⟩
      · rw [if_neg (show ¬ val > 255 from UInt64.not_lt.2 h)]
        exact simpleValue_read (by omega)
    | «break» => exact absurd rfl hbreak
    | float => exact h.elim
    | unknown => exact h.elim

theorem cborHeadRoundTrips_iff_array : CborHeadRoundTrips .array 65535 ↔
    CborType.array ≠ .break ∧ ¬ (CborType.array = .simpleValue ∧ (65535 : UInt64) = 255) :=
  cborHeadRoundTrips_iff trivial

/-- What is written for a break is read as the number 31. -/
theorem writtenBreak_readAsNumber : ¬ CborHeadRoundTrips .break 0 := break_lost 0

end Wakaama
