import Mathlib.Tactic.IntervalCases
import Mathlib.Tactic.Ring
import Wakaama.Core.BlockResponse

/-!
# Slices of a response

The block that a response tells is the one it carries, unless the request asks for a later block in
a size that is larger than the configured one: the offset is computed from the requested size, the
number is repeated with the smaller one.
-/

namespace Wakaama

/-- The size of a block by its size exponent. -/
def sizeOfSzx (szx : Nat) : Nat := 16 * 2 ^ szx

/-- The response tells which bytes of the payload it carries, and whether there are more. -/
def Sliced (payload : List UInt8) (sent : CoapPacket) : Prop :=
  sent.code = coapContent → ∀ block, sent.block2 = some block →
    let offset := block.num.toNat * block.size.toNat
    sent.payload = (payload.drop offset).take block.size.toNat ∧
      (block.more = true ↔ offset + block.size.toNat < payload.length)

theorem validBlockSizes_bounds {size : UInt16} (h : size ∈ validBlockSizes) :
    16 ≤ size.toNat ∧ size.toNat ≤ 1024 := by
  simp only [validBlockSizes, List.mem_cons, List.not_mem_nil, or_false] at h
  rcases h with rfl | rfl | rfl | rfl | rfl | rfl | rfl <;> decide

theorem coapParseBlock_num (value : UInt32) :
    (coapParseBlock value).num.toNat = value.toNat / 16 := by
  show (value >>> 4).toNat = _
  rw [UInt32.toNat_shiftRight, Nat.shiftRight_eq_div_pow]
  rfl

theorem exponent_toNat (value : UInt32) : (value &&& 0x07).toNat = value.toNat % 8 := by
  rw [UInt32.toNat_and]
  exact Nat.and_two_pow_sub_one_eq_mod value.toNat 3

theorem coapParseBlock_sizeOfSzx (value : UInt32) :
    (coapParseBlock value).size.toNat = sizeOfSzx (value.toNat % 8) := by
  have hlt : value.toNat % 8 < 8 := Nat.mod_lt _ (by decide)
  show ((16 : UInt16) <<< (value &&& 0x07).toUInt16).toNat = _
  rw [UInt16.toNat_shiftLeft, UInt32.toNat_toUInt16, exponent_toNat, sizeOfSzx]
  generalize value.toNat % 8 = szx at hlt ⊢
  interval_cases szx <;> rfl

theorem sizeOfSzx_bounds {szx : Nat} (h : szx < 8) : 16 ≤ sizeOfSzx szx ∧ sizeOfSzx szx ≤ 2048 := by
  unfold sizeOfSzx
  interval_cases szx <;> decide

theorem clearNibble_toNat (value : UInt32) :
    (value &&& ~~~(0x0F : UInt32)).toNat = value.toNat / 16 * 16 := by
  have hmask : (~~~(0x0F : UInt32)).toNat = (2 ^ 28 - 1) * 2 ^ 4 := by decide
  rw [UInt32.toNat_and, hmask]
  apply Nat.eq_of_testBit_eq
  intro i
  have hlt := value.toNat_lt
  rw [Nat.testBit_and, Nat.testBit_mul_two_pow, Nat.testBit_two_pow_sub_one,
    show value.toNat / 16 * 16 = value.toNat / 2 ^ 4 * 2 ^ 4 from rfl, Nat.testBit_mul_two_pow,
    Nat.testBit_div_two_pow]
  by_cases hi : 4 ≤ i
  · by_cases hhigh : i < 32
    · have h28 : i - 4 < 28 := by omega
      simp [hi, h28, Nat.sub_add_cancel hi]
    · have hbit : value.toNat.testBit i = false :=
        Nat.testBit_lt_two_pow (lt_of_lt_of_le hlt (Nat.pow_le_pow_right (by decide) (by omega)))
      simp [hi, hbit, Nat.sub_add_cancel hi]
  · simp [hi]

theorem coapParseBlockOffset_toNat {value : UInt32} (h : value.toNat / 16 < blockNumbers) :
    (coapParseBlockOffset value).toNat = value.toNat / 16 * sizeOfSzx (value.toNat % 8) := by
  have hlt : value.toNat % 8 < 8 := Nat.mod_lt _ (by decide)
  have hsize := sizeOfSzx_bounds hlt
  unfold blockNumbers at h
  have hbound : value.toNat / 16 * sizeOfSzx (value.toNat % 8) < 2 ^ 32 := by
    calc value.toNat / 16 * sizeOfSzx (value.toNat % 8)
        ≤ value.toNat / 16 * 2048 := Nat.mul_le_mul_left _ hsize.2
      _ < 2 ^ 32 := by omega
  have hshift : value.toNat / 16 * 16 * 2 ^ (value.toNat % 8) =
      value.toNat / 16 * sizeOfSzx (value.toNat % 8) := by
    unfold sizeOfSzx
    ring
  unfold coapParseBlockOffset
  rw [UInt32.toNat_shiftLeft, clearNibble_toNat, exponent_toNat,
    Nat.mod_eq_of_lt (by omega : value.toNat % 8 < 32), Nat.shiftLeft_eq, hshift]
  exact Nat.mod_eq_of_lt hbound

section Response

variable {coapBlockSize : CoapBlockSize} {value : UInt32} {response : CoapPacket}
  {payload : List UInt8}

/-- The size that is sent: the requested one, or the configured one if that is smaller. -/
def sentSize (coapBlockSize : CoapBlockSize) (value : UInt32) : Nat :=
  min (sizeOfSzx (value.toNat % 8)) coapBlockSize.size.toNat

theorem sentSize_bounds (coapBlockSize : CoapBlockSize) (value : UInt32) :
    16 ≤ sentSize coapBlockSize value ∧ sentSize coapBlockSize value ≤ 1024 := by
  have hconfigured := validBlockSizes_bounds coapBlockSize.valid
  have hrequested := sizeOfSzx_bounds (Nat.mod_lt value.toNat (by decide : 0 < 8))
  unfold sentSize
  omega

theorem min_size_toNat : (min (coapParseBlock value).size coapBlockSize.size).toNat =
    sentSize coapBlockSize value := by
  unfold sentSize
  rw [← coapParseBlock_sizeOfSzx, Nat.min_def]
  show (if _ ≤ _ then _ else _ : UInt16).toNat = _
  by_cases h : (coapParseBlock value).size ≤ coapBlockSize.size
  · rw [if_pos h, if_pos (UInt16.le_iff_toNat_le.1 h)]
  · rw [if_neg h, if_neg fun hle => h (UInt16.le_iff_toNat_le.2 hle)]

structure CarriesSlice (coapBlockSize : CoapBlockSize) (value : UInt32) (payload : List UInt8)
    (sent : CoapPacket) (block : BlockOption) : Prop where
  block2 : sent.block2 = some block
  code : sent.code = coapContent
  num : block.num.toNat = value.toNat / 16
  size : block.size.toNat = sentSize coapBlockSize value
  more : block.more = true ↔
    (coapParseBlockOffset value).toNat + sentSize coapBlockSize value < payload.length
  bytes : sent.payload = (payload.drop (coapParseBlockOffset value).toNat).take
    (sentSize coapBlockSize value)

theorem respondBlockwise_carries (coapBlockSize : CoapBlockSize) (response : CoapPacket)
    (hnum : value.toNat / 16 < blockNumbers)
    (hoffset : (coapParseBlockOffset value).toNat < payload.length) :
    ∃ block, CarriesSlice coapBlockSize value payload
      (respondBlockwise coapBlockSize (some value) (contentResponse response payload)) block := by
  have hbounds := sentSize_bounds coapBlockSize value
  have hfits : blockOptionFits (coapParseBlock value).num
      (min (coapParseBlock value).size coapBlockSize.size) = true := by
    unfold blockNumbers at hnum
    have hnumber := coapParseBlock_num value
    simp only [blockOptionFits, Bool.and_eq_true, decide_eq_true_eq, UInt16.le_iff_toNat_le,
      UInt32.le_iff_toNat_le, min_size_toNat]
    refine ⟨⟨hbounds.1, ?_⟩, ?_⟩
    · exact le_trans hbounds.2 (by decide)
    · show _ ≤ 0x0FFFFF
      omega
  unfold respondBlockwise
  simp only [contentResponse, if_neg (Nat.not_le.2 hoffset), coapSetHeaderBlock2, hfits, if_true]
  refine ⟨_, ⟨rfl, rfl, coapParseBlock_num value, min_size_toNat, ?_, ?_⟩⟩
  · show decide ((min (coapParseBlock value).size coapBlockSize.size).toNat <
      payload.length - (coapParseBlockOffset value).toNat) = true ↔ _
    rw [decide_eq_true_eq, min_size_toNat]
    omega
  · show (payload.drop _).take (min (payload.length - (coapParseBlockOffset value).toNat)
      (min (coapParseBlock value).size coapBlockSize.size).toNat) = _
    rw [min_size_toNat, ← List.length_drop, Nat.min_comm, ← List.take_eq_take_min]

theorem respondBlockwise_none (coapBlockSize : CoapBlockSize) (response : CoapPacket)
    (h : payload.length ≤ (coapParseBlockOffset value).toNat ∨
      blockNumbers ≤ value.toNat / 16) :
    (respondBlockwise coapBlockSize (some value)
      (contentResponse response payload)).block2 = none := by
  unfold respondBlockwise
  by_cases hoffset : payload.length ≤ (coapParseBlockOffset value).toNat
  · simp [contentResponse, hoffset]
  · have hnum := h.resolve_left hoffset
    unfold blockNumbers at hnum
    have hnumber := coapParseBlock_num value
    have hfits : ∀ size, blockOptionFits (coapParseBlock value).num size = false := by
      intro size
      have hlarge : ¬ (coapParseBlock value).num ≤ 0x0FFFFF := by
        rw [UInt32.le_iff_toNat_le]
        show ¬ _ ≤ 0x0FFFFF
        omega
      simp [blockOptionFits, hlarge]
    simp [contentResponse, hoffset, coapSetHeaderBlock2, hfits]

theorem CarriesSlice.sliced {sent : CoapPacket} {block : BlockOption}
    (h : CarriesSlice coapBlockSize value payload sent block)
    (hnum : value.toNat / 16 < blockNumbers)
    (hfirst : value.toNat / 16 = 0 ∨
      sizeOfSzx (value.toNat % 8) ≤ coapBlockSize.size.toNat) : Sliced payload sent := by
  have hoffset : (coapParseBlockOffset value).toNat = block.num.toNat * block.size.toNat := by
    rw [coapParseBlockOffset_toNat hnum, h.num, h.size, sentSize]
    rcases hfirst with hzero | hsmall
    · rw [hzero]
      omega
    · rw [Nat.min_eq_left hsmall]
  intro _ told htold
  obtain rfl : block = told := Option.some.inj (h.block2.symm.trans htold)
  refine ⟨?_, ?_⟩
  · rw [h.bytes, hoffset, h.size]
  · rw [h.more, hoffset, h.size]

theorem CarriesSlice.not_sliced {sent : CoapPacket} {block : BlockOption}
    (hnum : value.toNat / 16 < blockNumbers) (hlater : value.toNat / 16 ≠ 0)
    (hlarge : coapBlockSize.size.toNat < sizeOfSzx (value.toNat % 8)) {length : Nat}
    (hoffset : (coapParseBlockOffset value).toNat < length)
    (h : CarriesSlice coapBlockSize value
      (List.replicate (coapParseBlockOffset value).toNat 0 ++
        List.replicate (length - (coapParseBlockOffset value).toNat) 1) sent block) :
    ¬ Sliced (List.replicate (coapParseBlockOffset value).toNat 0 ++
      List.replicate (length - (coapParseBlockOffset value).toNat) 1) sent := by
  intro hsliced
  have hbounds := sentSize_bounds coapBlockSize value
  have hsize : block.size.toNat = coapBlockSize.size.toNat := by
    rw [h.size, sentSize, Nat.min_eq_right (by omega)]
  have hbefore : block.num.toNat * block.size.toNat < (coapParseBlockOffset value).toNat := by
    rw [coapParseBlockOffset_toNat hnum, h.num, hsize]
    exact Nat.mul_lt_mul_of_pos_left hlarge (by omega)
  have hbytes := (hsliced h.code block h.block2).1
  rw [h.bytes, h.size] at hbytes
  -- the first byte that is carried lies behind the one that the number and the size tell
  have hhead := congrArg (fun bytes => bytes[0]?) hbytes
  have hpos : 0 < sentSize coapBlockSize value := by omega
  have hrest : 0 < length - (coapParseBlockOffset value).toNat := by omega
  rw [h.size] at hbefore
  simp [hpos, List.getElem?_append, hbefore, hrest] at hhead

end Response

section Transfer

variable {coapBlockSize : CoapBlockSize} {szx : Fin 8} {response : CoapPacket}
  {payload : List UInt8}

theorem block2Request_num {num : Nat} (h : num < blockNumbers) (szx : Fin 8) :
    (block2Request num szx).toNat / 16 = num := by
  unfold blockNumbers at h
  unfold block2Request
  rw [UInt32.toNat_ofNat']
  omega

theorem block2Request_szx (num : Nat) (szx : Fin 8) :
    (block2Request num szx).toNat % 8 = szx.val := by
  unfold block2Request
  rw [UInt32.toNat_ofNat']
  omega

theorem receiveBlocks_succ (left : Nat) {num : Nat} (received : List UInt8)
    (hnum : num < blockNumbers) :
    receiveBlocks coapBlockSize szx (contentResponse response payload) (left + 1) num received =
      if num * sizeOfSzx szx < payload.length ∧
          num * min (sizeOfSzx szx) coapBlockSize.size.toNat = received.length then
        if num * sizeOfSzx szx + min (sizeOfSzx szx) coapBlockSize.size.toNat < payload.length then
          receiveBlocks coapBlockSize szx (contentResponse response payload) left (num + 1)
            (received ++ (payload.drop (num * sizeOfSzx szx)).take
              (min (sizeOfSzx szx) coapBlockSize.size.toNat))
        else some (received ++ (payload.drop (num * sizeOfSzx szx)).take
          (min (sizeOfSzx szx) coapBlockSize.size.toNat))
      else none := by
  have hvalue : (block2Request num szx).toNat / 16 < blockNumbers := by
    rwa [block2Request_num hnum]
  have hoffset : (coapParseBlockOffset (block2Request num szx)).toNat = num * sizeOfSzx szx := by
    rw [coapParseBlockOffset_toNat hvalue, block2Request_num hnum, block2Request_szx]
  have hsent : sentSize coapBlockSize (block2Request num szx) =
      min (sizeOfSzx szx) coapBlockSize.size.toNat := by
    rw [sentSize, block2Request_szx]
  rw [receiveBlocks]
  by_cases hinside : num * sizeOfSzx szx < payload.length
  · obtain ⟨block, hcarries⟩ := respondBlockwise_carries coapBlockSize response hvalue
      (show _ < payload.length by rwa [hoffset])
    have hmore := hcarries.more
    rw [hoffset, hsent] at hmore
    simp only [hcarries.block2, hcarries.num, hcarries.size, hcarries.bytes, hoffset, hsent, hmore,
      block2Request_num hnum, hinside, true_and, ne_eq, ite_not]
  · have houtside : payload.length ≤ (coapParseBlockOffset (block2Request num szx)).toNat := by
      rw [hoffset]
      omega
    have hnone := respondBlockwise_none coapBlockSize response (.inl houtside)
    simp only [hnone, hinside, false_and, if_false]

theorem receiveBlocks_whole (response : CoapPacket)
    (hsize : sizeOfSzx szx ≤ coapBlockSize.size.toNat)
    (hlength : payload.length ≤ blockNumbers * sizeOfSzx szx) {left num : Nat}
    (hleft : num + left = blockNumbers) (hnum : num * sizeOfSzx szx < payload.length) :
    receiveBlocks coapBlockSize szx (contentResponse response payload) left num
      (payload.take (num * sizeOfSzx szx)) = some payload := by
  induction left generalizing num with
  | zero =>
    rw [Nat.add_zero] at hleft
    rw [hleft] at hnum
    omega
  | succ left ih =>
    have htake : (payload.take (num * sizeOfSzx szx)).length = num * sizeOfSzx szx := by
      rw [List.length_take]
      omega
    have hnext : payload.take (num * sizeOfSzx szx) ++
        (payload.drop (num * sizeOfSzx szx)).take (sizeOfSzx szx) =
          payload.take ((num + 1) * sizeOfSzx szx) := by
      rw [Nat.succ_mul, List.take_add]
    rw [receiveBlocks_succ _ _ (by omega), Nat.min_eq_left hsize, if_pos ⟨hnum, htake.symm⟩, hnext]
    by_cases hmore : num * sizeOfSzx szx + sizeOfSzx szx < payload.length
    · rw [if_pos hmore]
      exact ih (by omega) (by rwa [Nat.succ_mul])
    · rw [if_neg hmore, List.take_of_length_le (by rw [Nat.succ_mul]; omega)]

theorem receiveBlocks_endless (hsize : sizeOfSzx szx ≤ coapBlockSize.size.toNat) {left num : Nat}
    (hleft : num + left ≤ blockNumbers) (hlength : (num + left) * sizeOfSzx szx < payload.length)
    (received : List UInt8) :
    receiveBlocks coapBlockSize szx (contentResponse response payload) left num received = none := by
  induction left generalizing num received with
  | zero => rfl
  | succ left ih =>
    have hbehind : (num + 1 + left) * sizeOfSzx szx < payload.length := by
      rwa [show num + 1 + left = num + (left + 1) by omega]
    have hmore : num * sizeOfSzx szx + sizeOfSzx szx < payload.length := by
      have hle : (num + 1) * sizeOfSzx szx ≤ (num + 1 + left) * sizeOfSzx szx :=
        Nat.mul_le_mul_right _ (by omega)
      rw [Nat.succ_mul] at hle
      omega
    rw [receiveBlocks_succ _ _ (by omega), Nat.min_eq_left hsize, if_pos hmore]
    split
    · exact ih (by omega) hbehind _
    · rfl

theorem receiveBlocks_length {left num : Nat} {received result : List UInt8}
    (hleft : num + left ≤ blockNumbers)
    (h : receiveBlocks coapBlockSize szx (contentResponse response payload) left num received =
      some result) :
    result.length ≤ received.length + (payload.length - num * sizeOfSzx szx) := by
  have hmin := Nat.min_le_left (sizeOfSzx szx) coapBlockSize.size.toNat
  induction left generalizing num received with
  | zero => nomatch h
  | succ left ih =>
    rw [receiveBlocks_succ _ _ (by omega)] at h
    split at h
    · split at h
      · have hnext := ih (by omega) h
        rw [List.length_append, List.length_take, List.length_drop, Nat.succ_mul] at hnext
        omega
      · obtain rfl := Option.some.inj h
        rw [List.length_append, List.length_take, List.length_drop]
        omega
    · nomatch h

/-- The client with one size receives the payload exactly if the first block is all of it, or the
size is not above the configured one and there are numbers for all blocks. -/
theorem receiveBlocks_iff (coapBlockSize : CoapBlockSize) (szx : Fin 8) (response : CoapPacket)
    (payload : List UInt8) :
    receiveBlocks coapBlockSize szx (contentResponse response payload) blockNumbers 0 [] =
        some payload ↔
      0 < payload.length ∧ (payload.length ≤ coapBlockSize.size.toNat ∨
        sizeOfSzx szx ≤ coapBlockSize.size.toNat ∧
          payload.length ≤ blockNumbers * sizeOfSzx szx) := by
  have hconfigured := validBlockSizes_bounds coapBlockSize.valid
  have hrequested := sizeOfSzx_bounds szx.isLt
  have hfirst : receiveBlocks coapBlockSize szx (contentResponse response payload)
      (blockNumbers - 1 + 1) 0 [] = _ := receiveBlocks_succ (blockNumbers - 1) [] (by decide)
  simp only [Nat.zero_mul, List.length_nil, and_true, List.drop_zero, List.nil_append,
    Nat.zero_add] at hfirst
  rw [show blockNumbers - 1 + 1 = blockNumbers from rfl] at hfirst
  constructor
  · intro h
    have hpos : 0 < payload.length := by
      by_contra hempty
      rw [hfirst, if_neg hempty] at h
      nomatch h
    refine ⟨hpos, ?_⟩
    by_cases hsize : sizeOfSzx szx ≤ coapBlockSize.size.toNat
    · refine .inr ⟨hsize, Nat.not_lt.1 fun hlong => ?_⟩
      rw [receiveBlocks_endless hsize (by simp) (by simpa using hlong)] at h
      nomatch h
    · refine .inl (Nat.not_lt.1 fun hlong => ?_)
      rw [hfirst, if_pos hpos, Nat.min_eq_right (by omega), if_pos hlong] at h
      have hlength := receiveBlocks_length (by decide) h
      rw [List.length_take, Nat.one_mul] at hlength
      omega
  · rintro ⟨hpos, hcase⟩
    by_cases hsize : sizeOfSzx szx ≤ coapBlockSize.size.toNat
    · have hlength : payload.length ≤ blockNumbers * sizeOfSzx szx := by
        rcases hcase with hshort | ⟨-, hlength⟩
        · unfold blockNumbers
          omega
        · exact hlength
      have hwhole := receiveBlocks_whole response hsize hlength
        (Nat.zero_add blockNumbers) (by simpa using hpos)
      simpa using hwhole
    · have hshort := hcase.resolve_right fun h => hsize h.1
      rw [hfirst, if_pos hpos, Nat.min_eq_right (by omega), if_neg (by omega),
        List.take_of_length_le hshort]

end Transfer

theorem respondBlockwise_unasked (coapBlockSize : CoapBlockSize) (response : CoapPacket)
    (payload : List UInt8) :
    Sliced payload (respondBlockwise coapBlockSize none (contentResponse response payload)) := by
  have hbounds := validBlockSizes_bounds coapBlockSize.valid
  have hfits : blockOptionFits 0 coapBlockSize.size = true := by
    simp only [blockOptionFits, Bool.and_eq_true, decide_eq_true_eq, UInt16.le_iff_toNat_le]
    exact ⟨⟨hbounds.1, le_trans hbounds.2 (by decide)⟩, by decide⟩
  unfold respondBlockwise
  simp only [contentResponse, coapSetHeaderBlock2, hfits, if_true]
  split
  · rename_i hlarge
    intro _ block hblock
    obtain rfl := Option.some.inj hblock
    simp [hlarge]
  · intro _ block hblock
    nomatch hblock

/-- For every configured size, response and length: a response tells the slice it carries, whatever
the payload, exactly for the first block, for a size up to the configured one, outside the payload
and for a number that does not fit; and a client that asks for the blocks in turn receives the
payload exactly as `receiveBlocks_iff` says. -/
theorem respondBlockwise_sliced_iff (coapBlockSize : CoapBlockSize) (response : CoapPacket)
    (length : Nat) :
    (∀ block2, (∀ payload, payload.length = length →
        Sliced payload (respondBlockwise coapBlockSize block2 (contentResponse response payload))) ↔
      ∀ value, block2 = some value →
        value.toNat / 16 = 0 ∨ sizeOfSzx (value.toNat % 8) ≤ coapBlockSize.size.toNat ∨
          length ≤ (coapParseBlockOffset value).toNat ∨ blockNumbers ≤ value.toNat / 16) ∧
    ∀ szx, (∀ payload, payload.length = length →
        receiveBlocks coapBlockSize szx (contentResponse response payload) blockNumbers 0 [] =
          some payload) ↔
      0 < length ∧ (length ≤ coapBlockSize.size.toNat ∨
        sizeOfSzx szx ≤ coapBlockSize.size.toNat ∧ length ≤ blockNumbers * sizeOfSzx szx) := by
  refine ⟨fun block2 => ⟨fun h value hvalue => ?_, fun h payload hlength => ?_⟩, fun szx =>
    ⟨fun h => ?_, fun h payload hlength => ?_⟩⟩
  · by_contra hbad
    obtain ⟨hlater, hlarge, hoffset, hnum⟩ : value.toNat / 16 ≠ 0 ∧
        coapBlockSize.size.toNat < sizeOfSzx (value.toNat % 8) ∧
        (coapParseBlockOffset value).toNat < length ∧ value.toNat / 16 < blockNumbers := by
      simpa [not_or] using hbad
    have hpayload : (List.replicate (coapParseBlockOffset value).toNat (0 : UInt8) ++
        List.replicate (length - (coapParseBlockOffset value).toNat) 1).length = length := by
      rw [List.length_append, List.length_replicate, List.length_replicate]
      omega
    have hsliced := h _ hpayload
    obtain ⟨block, hcarries⟩ := respondBlockwise_carries coapBlockSize response hnum (by rwa [hpayload])
    rw [hvalue] at hsliced
    exact hcarries.not_sliced hnum hlater hlarge hoffset hsliced
  · cases block2 with
    | none => exact respondBlockwise_unasked coapBlockSize response payload
    | some value =>
      have hcase := h value rfl
      by_cases hout : payload.length ≤ (coapParseBlockOffset value).toNat ∨
          blockNumbers ≤ value.toNat / 16
      · intro _ block hblock
        rw [respondBlockwise_none coapBlockSize response hout] at hblock
        nomatch hblock
      · obtain ⟨hoffset, hnum⟩ := not_or.1 hout
        obtain ⟨block, hcarries⟩ := respondBlockwise_carries coapBlockSize response
          (Nat.not_le.1 hnum) (Nat.not_le.1 hoffset)
        refine hcarries.sliced (Nat.not_le.1 hnum) ?_
        rw [hlength] at hoffset
        omega
  · have hpayload : (List.replicate length (0 : UInt8)).length = length := List.length_replicate
    have hreceived := (receiveBlocks_iff coapBlockSize szx response _).1 (h _ hpayload)
    rwa [hpayload] at hreceived
  · apply (receiveBlocks_iff coapBlockSize szx response payload).2
    rwa [hlength]

/-- A server with blocks of 16 bytes, and a payload of 64 bytes in which each byte is its position. -/
def sixteenBytes : CoapBlockSize := ⟨16, by decide⟩

def positions : List UInt8 := (List.range 64).map UInt8.ofNat

/-- Asked for the second block of 32 bytes, it tells the second block of 16 bytes and sends the
third. -/
theorem secondBlock_misplaced : ¬ Sliced positions
    (respondBlockwise sixteenBytes (some (block2Request 1 1))
      (contentResponse (coapInitMessage .ack coapContent 0) positions)) := by
  intro h
  have hbytes := (h (by decide) { num := 1, more := true, size := 16 } (by decide)).1
  exact absurd hbytes (by decide)

end Wakaama
