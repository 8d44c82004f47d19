import Wakaama.Core.Base64Buffer
import Wakaama.Misc.Bits

/-!
# Base64 there and back

The text of the encoder is decoded to the data. The decoder stays inside of its buffer on every
text. The `unsigned int` indices of the encoder hold for 3 * 2^30 bytes of data.
-/

namespace Wakaama

/-! ## Six bits -/

theorem base64Digit_alphabet {value : UInt8} (h : value.toNat < 64) :
    base64Digit (b64Alphabet value) = some value ∧ b64Alphabet value ≠ b64Padding := by
  have hall : ∀ n < 64, base64Digit (b64Alphabet n.toUInt8) = some n.toUInt8 ∧
      b64Alphabet n.toUInt8 ≠ b64Padding := by decide
  have hvalue : value = value.toNat.toUInt8 := by
    rw [Nat.toUInt8_eq, UInt8.ofNat_toNat]
  rw [hvalue]
  exact hall value.toNat h

theorem mask_toNat (a : UInt8) : (a &&& 0x03).toNat = a.toNat % 4 ∧
    (a &&& 0x0F).toNat = a.toNat % 16 ∧ (a &&& 0x3F).toNat = a.toNat % 64 := by
  refine ⟨?_, ?_, ?_⟩
  · rw [UInt8.toNat_and]
    exact Nat.and_two_pow_sub_one_eq_mod a.toNat 2
  · rw [UInt8.toNat_and]
    exact Nat.and_two_pow_sub_one_eq_mod a.toNat 4
  · rw [UInt8.toNat_and]
    exact Nat.and_two_pow_sub_one_eq_mod a.toNat 6

theorem shiftLeft_toNat (a : UInt8) : (a <<< 2).toNat = a.toNat * 4 % 256 ∧
    (a <<< 4).toNat = a.toNat * 16 % 256 ∧ (a <<< 6).toNat = a.toNat * 64 % 256 := by
  refine ⟨?_, ?_, ?_⟩
  · rw [UInt8.toNat_shiftLeft]
    exact congrArg (· % 256) (Nat.shiftLeft_eq a.toNat 2)
  · rw [UInt8.toNat_shiftLeft]
    exact congrArg (· % 256) (Nat.shiftLeft_eq a.toNat 4)
  · rw [UInt8.toNat_shiftLeft]
    exact congrArg (· % 256) (Nat.shiftLeft_eq a.toNat 6)

theorem shiftRight_toNat (a : UInt8) : (a >>> 2).toNat = a.toNat / 4 ∧
    (a >>> 4).toNat = a.toNat / 16 ∧ (a >>> 6).toNat = a.toNat / 64 := by
  refine ⟨?_, ?_, ?_⟩
  · rw [UInt8.toNat_shiftRight]
    exact Nat.shiftRight_eq_div_pow a.toNat 2
  · rw [UInt8.toNat_shiftRight]
    exact Nat.shiftRight_eq_div_pow a.toNat 4
  · rw [UInt8.toNat_shiftRight]
    exact Nat.shiftRight_eq_div_pow a.toNat 6

theorem sextets (a b c : UInt8) : (a >>> 2).toNat = a.toNat / 4 ∧
    ((a &&& 0x03) <<< 4).toNat = a.toNat % 4 * 16 ∧
    ((a &&& 0x03) <<< 4 ||| b >>> 4).toNat = a.toNat % 4 * 16 + b.toNat / 16 ∧
    ((b &&& 0x0F) <<< 2).toNat = b.toNat % 16 * 4 ∧
    ((b &&& 0x0F) <<< 2 ||| c >>> 6).toNat = b.toNat % 16 * 4 + c.toNat / 64 ∧
    (c &&& 0x3F).toNat = c.toNat % 64 := by
  have ha := a.toNat_lt
  have hb := b.toNat_lt
  have hc := c.toNat_lt
  have hsecond : ((a &&& 0x03) <<< 4).toNat = a.toNat % 4 * 16 := by
    rw [(shiftLeft_toNat _).2.1, (mask_toNat a).1]
    omega
  have hthird : ((b &&& 0x0F) <<< 2).toNat = b.toNat % 16 * 4 := by
    rw [(shiftLeft_toNat _).1, (mask_toNat b).2.1]
    omega
  refine ⟨(shiftRight_toNat a).1, hsecond, ?_, hthird, ?_, (mask_toNat c).2.2⟩
  · rw [@or_toNat _ _ 4 (a.toNat % 4) hsecond (by rw [(shiftRight_toNat b).2.1]; omega), hsecond,
      (shiftRight_toNat b).2.1]
  · rw [@or_toNat _ _ 2 (b.toNat % 16) hthird (by rw [(shiftRight_toNat c).2.2]; omega), hthird,
      (shiftRight_toNat c).2.2]

theorem joined_toNat (v1 v2 : UInt8) :
    ((v1 <<< 2) + (v2 >>> 4)).toNat = (v1.toNat * 4 + v2.toNat / 16) % 256 ∧
    ((v1 <<< 4) + (v2 >>> 2)).toNat = (v1.toNat * 16 + v2.toNat / 4) % 256 ∧
    ((v1 <<< 6) + v2).toNat = (v1.toNat * 64 + v2.toNat) % 256 := by
  obtain ⟨hleft2, hleft4, hleft6⟩ := shiftLeft_toNat v1
  obtain ⟨hright2, hright4, -⟩ := shiftRight_toNat v2
  rw [UInt8.toNat_add, UInt8.toNat_add, UInt8.toNat_add, hleft2, hleft4, hleft6, hright2, hright4]
  omega

/-! ## Groups -/

section groups

variable {decodedSize : Nat} {buffer text : List UInt8}

theorem base64DecodeLoop_full (a b c : UInt8) (rest : List UInt8) :
    base64DecodeLoop decodedSize buffer (base64Group (a :: b :: c :: rest) ++ text) =
      base64DecodeLoop decodedSize (buffer ++ [a, b, c]) text := by
  obtain ⟨h1, -, h2, -, h3, h4⟩ := sextets a b c
  have ha := a.toNat_lt
  have hb := b.toNat_lt
  have hc := c.toNat_lt
  have hfirst : ((a >>> 2) <<< 2) + (((a &&& 0x03) <<< 4 ||| b >>> 4) >>> 4) = a := by
    rw [← UInt8.toNat_inj, (joined_toNat _ _).1, h1, h2]
    omega
  have hsecond : (((a &&& 0x03) <<< 4 ||| b >>> 4) <<< 4) +
      (((b &&& 0x0F) <<< 2 ||| c >>> 6) >>> 2) = b := by
    rw [← UInt8.toNat_inj, (joined_toNat _ _).2.1, h2, h3]
    omega
  have hthird : (((b &&& 0x0F) <<< 2 ||| c >>> 6) <<< 6) + (c &&& 0x3F) = c := by
    rw [← UInt8.toNat_inj, (joined_toNat _ _).2.2, h3, h4]
    omega
  have hdigit1 := base64Digit_alphabet (show (a >>> 2).toNat < 64 by omega)
  have hdigit2 := base64Digit_alphabet
    (show ((a &&& 0x03) <<< 4 ||| b >>> 4).toNat < 64 by omega)
  have hdigit3 := base64Digit_alphabet
    (show ((b &&& 0x0F) <<< 2 ||| c >>> 6).toNat < 64 by omega)
  have hdigit4 := base64Digit_alphabet (show (c &&& 0x3F).toNat < 64 by omega)
  rw [base64Group]
  simp only [List.cons_append, List.nil_append]
  rw [base64DecodeLoop, hdigit1.1, hdigit2.1]
  simp only [Option.bind_eq_bind, Option.bind_some]
  rw [if_pos hdigit3.2, hdigit3.1, Option.bind_some]
  rw [if_pos hdigit4.2, hdigit4.1, Option.bind_some, hfirst, hsecond, hthird, List.append_assoc,
    List.append_assoc]
  rfl

theorem base64DecodeLoop_one (a : UInt8) :
    base64DecodeLoop decodedSize buffer (base64Group [a]) =
      if buffer.length + 1 ≠ decodedSize then none else some (buffer ++ [a]) := by
  obtain ⟨h1, h2, -⟩ := sextets a 0 0
  have ha := a.toNat_lt
  have hfirst : ((a >>> 2) <<< 2) + (((a &&& 0x03) <<< 4) >>> 4) = a := by
    rw [← UInt8.toNat_inj, (joined_toNat _ _).1, h1, h2]
    omega
  have hdigit1 := base64Digit_alphabet (show (a >>> 2).toNat < 64 by omega)
  have hdigit2 := base64Digit_alphabet (show ((a &&& 0x03) <<< 4).toNat < 64 by omega)
  rw [base64Group, base64DecodeLoop, hdigit1.1, hdigit2.1]
  simp only [Option.bind_eq_bind, Option.bind_some]
  rw [if_neg (not_not_intro rfl), hfirst, List.length_append, List.length_singleton]
  split
  · rfl
  · exact base64DecodeLoop_nil _ _

theorem base64DecodeLoop_two (a b : UInt8) :
    base64DecodeLoop decodedSize buffer (base64Group [a, b]) =
      if buffer.length + 2 ≠ decodedSize then none else some (buffer ++ [a, b]) := by
  obtain ⟨h1, -, h2, h3, -⟩ := sextets a b 0
  have ha := a.toNat_lt
  have hb := b.toNat_lt
  have hfirst : ((a >>> 2) <<< 2) + (((a &&& 0x03) <<< 4 ||| b >>> 4) >>> 4) = a := by
    rw [← UInt8.toNat_inj, (joined_toNat _ _).1, h1, h2]
    omega
  have hsecond : (((a &&& 0x03) <<< 4 ||| b >>> 4) <<< 4) + (((b &&& 0x0F) <<< 2) >>> 2) = b := by
    rw [← UInt8.toNat_inj, (joined_toNat _ _).2.1, h2, h3]
    omega
  have hdigit1 := base64Digit_alphabet (show (a >>> 2).toNat < 64 by omega)
  have hdigit2 := base64Digit_alphabet
    (show ((a &&& 0x03) <<< 4 ||| b >>> 4).toNat < 64 by omega)
  have hdigit3 := base64Digit_alphabet (show ((b &&& 0x0F) <<< 2).toNat < 64 by omega)
  rw [base64Group, base64DecodeLoop, hdigit1.1, hdigit2.1]
  simp only [Option.bind_eq_bind, Option.bind_some]
  rw [if_pos hdigit3.2, hdigit3.1, Option.bind_some, if_neg (not_not_intro rfl), hfirst, hsecond,
    List.append_assoc, List.length_append]
  show (if buffer.length + 2 ≠ decodedSize then none
    else base64DecodeLoop decodedSize (buffer ++ [a, b]) []) = _
  split
  · rfl
  · exact base64DecodeLoop_nil _ _

end groups

variable {data text bytes : List UInt8}

theorem base64EncodeLoop_group (h : data ≠ []) :
    base64EncodeLoop data = base64Group data ++ base64EncodeLoop (data.drop 3) := by
  match data with
  | [] => exact absurd rfl h
  | [a] => rfl
  | [a, b] => rfl
  | a :: b :: c :: rest => rfl

theorem base64DecodeLoop_encoded (data : List UInt8) :
    ∀ buffer, base64DecodeLoop (buffer.length + data.length) buffer (base64EncodeLoop data) =
      some (buffer ++ data) := by
  induction data using base64EncodeLoop.induct with
  | case1 =>
    intro buffer
    rw [base64EncodeLoop, base64DecodeLoop_nil, List.append_nil]
  | case2 a =>
    intro buffer
    exact (base64DecodeLoop_one a).trans (if_neg (not_not_intro rfl))
  | case3 a b =>
    intro buffer
    exact (base64DecodeLoop_two a b).trans (if_neg (not_not_intro rfl))
  | case4 a b c rest ih =>
    intro buffer
    have hnext := ih (buffer ++ [a, b, c])
    have hsize : (buffer ++ [a, b, c]).length + rest.length =
        buffer.length + (a :: b :: c :: rest).length := by
      simp only [List.length_append, List.length_cons, List.length_nil]
      omega
    rw [hsize, List.append_assoc] at hnext
    rw [base64EncodeLoop_group (List.cons_ne_nil _ _), base64DecodeLoop_full]
    exact hnext

/-! ## Sizes -/

theorem base64Group_length {data : List UInt8} (h : data ≠ []) : (base64Group data).length = 4 := by
  match data with
  | [] => exact absurd rfl h
  | [a] => rfl
  | [a, b] => rfl
  | a :: b :: c :: rest => rfl

theorem base64EncodeLoop_length (data : List UInt8) :
    (base64EncodeLoop data).length = utilsBase64GetSize data.length := by
  induction data using base64EncodeLoop.induct with
  | case1 => rfl
  | case2 a => simp [base64EncodeLoop, utilsBase64GetSize]
  | case3 a b => simp [base64EncodeLoop, utilsBase64GetSize]
  | case4 a b c rest ih =>
    rw [base64EncodeLoop_group (List.cons_ne_nil _ _), List.length_append,
      base64Group_length (List.cons_ne_nil _ _)]
    show 4 + (base64EncodeLoop rest).length = utilsBase64GetSize (rest.length + 1 + 1 + 1)
    rw [ih]
    unfold utilsBase64GetSize
    split <;> split <;> omega

theorem utilsBase64GetSize_mod (n : Nat) : utilsBase64GetSize n % 4 = 0 := by
  unfold utilsBase64GetSize
  split <;> omega

theorem utilsBase64GetDecodedSize_four {c3 c4 : UInt8}
    (hlength : (text ++ [c3, c4]).length % 4 = 0) :
    utilsBase64GetDecodedSize (text ++ [c3, c4]) =
      3 * ((text ++ [c3, c4]).length / 4) - if c3 = b64Padding then 2
        else if c4 = b64Padding then 1 else 0 := by
  have h3 : (text ++ [c3, c4])[(text ++ [c3, c4]).length - 2]? = some c3 := by
    rw [List.length_append, show text.length + [c3, c4].length - 2 = text.length by
      simp, List.getElem?_append_right (Nat.le_refl _), Nat.sub_self]
    rfl
  have h4 : (text ++ [c3, c4])[(text ++ [c3, c4]).length - 1]? = some c4 := by
    rw [List.length_append, show text.length + [c3, c4].length - 1 = text.length + 1 by
      simp, List.getElem?_append_right (Nat.le_add_right _ 1), Nat.add_sub_cancel_left]
    rfl
  have hpos : 0 < 3 * ((text ++ [c3, c4]).length / 4) := by
    rw [List.length_append] at hlength ⊢
    simp only [List.length_cons, List.length_nil] at hlength ⊢
    omega
  unfold utilsBase64GetDecodedSize
  rw [hlength]
  dsimp only
  rw [if_pos hpos, h3, h4]
  simp only [Option.some.injEq]
  split
  · rfl
  · split <;> rfl

theorem base64EncodeLoop_last (h : data ≠ []) :
    ∃ text c3 c4, base64EncodeLoop data = text ++ [c3, c4] ∧
      (c3 = b64Padding ↔ data.length % 3 = 1) ∧
      (c3 ≠ b64Padding → (c4 = b64Padding ↔ data.length % 3 = 2)) := by
  induction data using base64EncodeLoop.induct with
  | case1 => exact absurd rfl h
  | case2 a =>
    exact ⟨[b64Alphabet (a >>> 2), b64Alphabet ((a &&& 0x03) <<< 4)], b64Padding, b64Padding, rfl,
      iff_of_true rfl rfl, fun hne => absurd rfl hne⟩
  | case3 a b =>
    obtain ⟨-, -, -, h3, -⟩ := sextets a b 0
    have hb := b.toNat_lt
    have hdigit := (base64Digit_alphabet (show ((b &&& 0x0F) <<< 2).toNat < 64 by omega)).2
    exact ⟨[b64Alphabet (a >>> 2), b64Alphabet ((a &&& 0x03) <<< 4 ||| b >>> 4)],
      b64Alphabet ((b &&& 0x0F) <<< 2), b64Padding, rfl, iff_of_false hdigit (by simp),
      fun _ => iff_of_true rfl rfl⟩
  | case4 a b c rest ih =>
    rw [base64EncodeLoop_group (List.cons_ne_nil _ _)]
    cases rest with
    | nil =>
      obtain ⟨-, -, -, -, h3, h4⟩ := sextets a b c
      have hb := b.toNat_lt
      have hc := c.toNat_lt
      have hdigit3 := (base64Digit_alphabet
        (show ((b &&& 0x0F) <<< 2 ||| c >>> 6).toNat < 64 by omega)).2
      have hdigit4 := (base64Digit_alphabet (show (c &&& 0x3F).toNat < 64 by omega)).2
      exact ⟨[b64Alphabet (a >>> 2), b64Alphabet ((a &&& 0x03) <<< 4 ||| b >>> 4)],
        b64Alphabet ((b &&& 0x0F) <<< 2 ||| c >>> 6), b64Alphabet (c &&& 0x3F), rfl,
        iff_of_false hdigit3 (by simp), fun _ => iff_of_false hdigit4 (by simp)⟩
    | cons d rest =>
      obtain ⟨text, c3, c4, htext, hone, htwo⟩ := ih (List.cons_ne_nil d rest)
      have hmod : (a :: b :: c :: d :: rest).length % 3 = (d :: rest).length % 3 := by
        simp only [List.length_cons]
        omega
      refine ⟨base64Group (a :: b :: c :: d :: rest) ++ text, c3, c4, ?_, ?_, ?_⟩
      · rw [List.append_assoc, ← htext]
        rfl
      · rw [hmod]
        exact hone
      · rw [hmod]
        exact htwo

theorem utilsBase64GetDecodedSize_encoded (data : List UInt8) :
    utilsBase64GetDecodedSize (base64EncodeLoop data) = data.length := by
  by_cases h : data = []
  · subst h
    rfl
  · have hlength := base64EncodeLoop_length data
    have hmod := utilsBase64GetSize_mod data.length
    have hpos := List.length_pos_iff.2 h
    obtain ⟨text, c3, c4, htext, hone, htwo⟩ := base64EncodeLoop_last h
    rw [htext] at hlength ⊢
    rw [utilsBase64GetDecodedSize_four (by rw [hlength, hmod]), hlength]
    unfold utilsBase64GetSize
    by_cases h3 : c3 = b64Padding
    · have := hone.1 h3
      rw [if_pos h3]
      split <;> omega
    · have hnot : ¬ data.length % 3 = 1 := fun hone' => h3 (hone.2 hone')
      by_cases h4 : c4 = b64Padding
      · have := (htwo h3).1 h4
        rw [if_neg h3, if_pos h4]
        split <;> omega
      · have hnot' : ¬ data.length % 3 = 2 := fun htwo' => h4 ((htwo h3).2 htwo')
        rw [if_neg h3, if_neg h4]
        split <;> omega

/-! ## The decoder in its buffer -/

section decoder

variable {data rest : List UInt8} {c1 c2 c3 c4 : UInt8} {g : Nat}

theorem utilsBase64GetDecodedSize_room (h : data.drop (4 * g) = c1 :: c2 :: rest) :
    3 * g + 1 ≤ utilsBase64GetDecodedSize data ∧
      (∀ c3 rest', rest = c3 :: rest' → c3 ≠ b64Padding →
        3 * g + 2 ≤ utilsBase64GetDecodedSize data ∧
        ∀ c4 rest'', rest' = c4 :: rest'' → c4 ≠ b64Padding →
          3 * g + 3 ≤ utilsBase64GetDecodedSize data) := by
  have hlength := congrArg List.length h
  rw [List.length_drop, List.length_cons, List.length_cons] at hlength
  have hbehind : ∀ k, data[4 * g + (k + 2)]? = rest[k]? := by
    intro k
    rw [← List.getElem?_drop, h]
    rfl
  have hpos : data.length % 4 = 0 → 0 < 3 * (data.length / 4) := by omega
  have hsize : utilsBase64GetDecodedSize data =
      if data.length % 4 = 0 then
        3 * (data.length / 4) - if data[data.length - 2]? = some b64Padding then 2
          else if data[data.length - 1]? = some b64Padding then 1 else 0
      else if data.length % 4 = 2 then 3 * (data.length / 4) + 1
      else if data.length % 4 = 3 then 3 * (data.length / 4) + 2
      else 3 * (data.length / 4) := by
    unfold utilsBase64GetDecodedSize
    split
    · rename_i hmod
      rw [if_pos hmod, if_pos (hpos hmod)]
      split
      · rfl
      · split <;> rfl
    · rename_i hmod
      rw [hmod]
      rfl
    · rename_i hmod
      rw [hmod]
      rfl
    · rename_i h0 h2 h3
      rw [if_neg h0, if_neg h2, if_neg h3]
  rw [hsize]
  by_cases hlast : data.length = 4 * g + 4
  · have h3 : data[data.length - 2]? = rest[0]? := by
      rw [← hbehind, hlast]
      rfl
    have h4 : data[data.length - 1]? = rest[1]? := by
      rw [← hbehind, hlast]
      rfl
    rw [if_pos (by omega), h3, h4]
    refine ⟨by split_ifs <;> omega, ?_⟩
    rintro c3 rest' rfl hc3
    have hnot : ¬ (c3 :: rest')[0]? = some b64Padding := fun hpad => hc3 (Option.some.inj hpad)
    rw [if_neg hnot]
    refine ⟨by split_ifs <;> omega, ?_⟩
    rintro c4 rest'' rfl hc4
    have hnot' : ¬ (c3 :: c4 :: rest'')[1]? = some b64Padding := fun hpad =>
      hc4 (Option.some.inj hpad)
    rw [if_neg hnot']
    omega
  · refine ⟨by split_ifs <;> omega, ?_⟩
    rintro c3 rest' rfl -
    rw [List.length_cons] at hlength
    refine ⟨by split_ifs <;> omega, ?_⟩
    rintro c4 rest'' rfl -
    rw [List.length_cons] at hlength
    split_ifs <;> omega

/-- What the decoder leaves in a buffer: the bytes without the buffer are those in front. -/
def DecodesTo (length : Nat) (decoded : Option (List UInt8))
    (written : Except Fault (List UInt8 × Bool)) : Prop :=
  ∃ buffer, written = .ok (buffer, decoded.isSome) ∧ buffer.length = length ∧
    ∀ bytes ∈ decoded, bytes <+: buffer

theorem base64Digit_eq (c : UInt8) :
    base64Digit c = if 64 ≤ prvBase64Value c then none else some (prvBase64Value c) := rfl

variable {written buffer : List UInt8}

theorem storeByte_behind (hwritten : written <+: buffer) (hroom : written.length < buffer.length)
    (byte : UInt8) :
    ∃ buffer', storeByte buffer written.length byte = .ok buffer' ∧
      buffer'.length = buffer.length ∧ written ++ [byte] <+: buffer' := by
  obtain ⟨behind, rfl⟩ := hwritten
  cases behind with
  | nil =>
    rw [List.append_nil] at hroom
    exact absurd hroom (Nat.lt_irrefl _)
  | cons old behind =>
    refine ⟨_, storeByte_place old byte rfl, ?_, behind, ?_⟩
    · rw [List.length_append, List.length_append]
      rfl
    · rw [List.append_assoc]
      rfl

theorem length_behind {n : Nat} (h : written.length = n) (byte : UInt8) :
    (written ++ [byte]).length = n + 1 := by
  rw [List.length_append, h, List.length_singleton]

theorem decodesTo_refused {length : Nat} (h : buffer.length = length) :
    DecodesTo length none (.ok (buffer, false)) :=
  ⟨buffer, rfl, h, fun _ hbytes => nomatch hbytes⟩

theorem decodesTo_taken {length : Nat} (h : buffer.length = length)
    (hwritten : written <+: buffer) : DecodesTo length (some written) (.ok (buffer, true)) := by
  refine ⟨buffer, rfl, h, fun bytes hbytes => ?_⟩
  cases hbytes
  exact hwritten

/-- The rounds of the decoder stay inside of the buffer, and take a text if it is taken without
the buffer. -/
theorem base64DecodeRounds_decodes (data : List UInt8) :
    ∀ (fuel g : Nat) {dataIndex : Nat} {text written buffer : List UInt8},
      data.drop dataIndex = text → text.length ≤ fuel →
      (text = [] ∨ dataIndex = 4 * g) → written.length ≤ 3 * g →
      written <+: buffer → utilsBase64GetDecodedSize data ≤ buffer.length →
      DecodesTo buffer.length (base64DecodeLoop (utilsBase64GetDecodedSize data) written text)
        (base64DecodeRounds data (utilsBase64GetDecodedSize data) fuel dataIndex written.length
          buffer) := by
  intro fuel
  induction fuel with
  | zero =>
    intro g dataIndex text written buffer htext hfuel _ _ hwritten _
    have hnil := List.eq_nil_of_length_eq_zero (Nat.le_zero.1 hfuel)
    subst hnil
    have hend : ¬ dataIndex < data.length := Nat.not_lt.2 (List.drop_eq_nil_iff.1 htext)
    rw [base64DecodeRounds, if_neg hend, base64DecodeLoop]
    exact decodesTo_taken rfl hwritten
  | succ fuel ih =>
    intro g dataIndex text written buffer htext hfuel hindex hlength hwritten hroom
    rcases text with _ | ⟨c1, _ | ⟨c2, rest⟩⟩
    · have hend : ¬ dataIndex < data.length := Nat.not_lt.2 (List.drop_eq_nil_iff.1 htext)
      rw [base64DecodeRounds, if_neg hend, base64DecodeLoop]
      exact decodesTo_taken rfl hwritten
    · have hcount := congrArg List.length htext
      rw [List.length_drop, List.length_singleton] at hcount
      rw [base64DecodeRounds, if_pos (by omega), if_pos (by omega), base64DecodeLoop]
      exact decodesTo_refused rfl
    · have hgroup : dataIndex = 4 * g := hindex.resolve_left (List.cons_ne_nil _ _)
      have hcount := congrArg List.length htext
      rw [List.length_drop, List.length_cons, List.length_cons] at hcount
      rw [List.length_cons, List.length_cons] at hfuel
      have hsecond := drop_next htext
      have hthird := drop_next hsecond
      rw [Nat.add_assoc] at hthird
      obtain ⟨hroom1, hroom2⟩ := utilsBase64GetDecodedSize_room (hgroup ▸ htext)
      rw [base64DecodeRounds, if_pos (by omega), if_neg (by omega), loadByte_drop htext, ok_bind,
        base64DecodeLoop, base64Digit_eq c1, base64Digit_eq c2]
      dsimp only
      split
      · exact decodesTo_refused rfl
      rw [loadByte_drop hsecond, ok_bind]
      split
      · exact decodesTo_refused rfl
      obtain ⟨buffer1, hstore1, hlength1, hwritten1⟩ := storeByte_behind hwritten (by omega)
        (prvBase64Value c1 <<< 2 + prvBase64Value c2 >>> 4)
      rw [hstore1, ok_bind]
      simp only [Option.bind_eq_bind, Option.bind_some]
      -- the next round, behind what this one has written
      have hnext : ∀ {index : Nat} {behind : List UInt8} {written' buffer' : List UInt8}
          {place : Nat}, data.drop index = behind → behind.length ≤ fuel →
          (behind = [] ∨ index = dataIndex + 4) → written'.length ≤ written.length + 3 →
          place = written'.length → written' <+: buffer' → buffer'.length = buffer.length →
          DecodesTo buffer.length
            (base64DecodeLoop (utilsBase64GetDecodedSize data) written' behind)
            (base64DecodeRounds data (utilsBase64GetDecodedSize data) fuel index place buffer') := by
        intro index behind written' buffer' place hbehind hrest hplace hlong hplace' hinside hsame
        rw [hplace', ← hsame]
        exact ih (g + 1) hbehind hrest (hplace.imp id fun h => by omega) (by omega) hinside
          (by omega)
      have hlong1 := length_behind (@rfl _ written.length)
        (prvBase64Value c1 <<< 2 + prvBase64Value c2 >>> 4)
      rcases rest with _ | ⟨c3, rest⟩
      · rw [List.length_nil] at hcount
        rw [if_neg (by omega)]
        dsimp only
        have := hnext hthird (Nat.zero_le _) (Or.inl rfl) (by omega) hlong1.symm hwritten1 hlength1
        rw [base64DecodeLoop] at this
        exact this
      · rw [List.length_cons] at hcount hfuel
        have hfourth := drop_next hthird
        rw [Nat.add_assoc] at hfourth
        rw [if_pos (by omega), loadByte_drop hthird, ok_bind]
        dsimp only
        by_cases hpad : c3 ≠ b64Padding
        · rw [if_pos hpad, if_pos hpad, base64Digit_eq c3]
          split
          · exact decodesTo_refused hlength1
          obtain ⟨hroom3, hroom4⟩ := hroom2 c3 rest rfl hpad
          obtain ⟨buffer2, hstore2, hlength2, hwritten2⟩ := storeByte_behind hwritten1 (by omega)
            (prvBase64Value c2 <<< 4 + prvBase64Value c3 >>> 2)
          rw [hlong1] at hstore2
          have hlong2 := length_behind hlong1 (prvBase64Value c2 <<< 4 + prvBase64Value c3 >>> 2)
          rw [hlength1] at hlength2
          rw [hstore2, ok_bind, Option.bind_some]
          rcases rest with _ | ⟨c4, rest⟩
          · rw [List.length_nil] at hcount
            rw [if_neg (by omega)]
            dsimp only
            have := hnext hfourth (Nat.zero_le _) (Or.inl rfl) (by omega) hlong2.symm hwritten2
              hlength2
            rw [base64DecodeLoop] at this
            exact this
          · rw [List.length_cons] at hcount hfuel
            have hfifth := drop_next hfourth
            rw [Nat.add_assoc] at hfifth
            rw [if_pos (by omega), loadByte_drop hfourth, ok_bind]
            dsimp only
            by_cases hpad4 : c4 ≠ b64Padding
            · rw [if_pos hpad4, if_pos hpad4, base64Digit_eq c4]
              split
              · exact decodesTo_refused hlength2
              have hroom5 := hroom4 c4 rest rfl hpad4
              obtain ⟨buffer3, hstore3, hlength3, hwritten3⟩ := storeByte_behind hwritten2
                (by omega) (prvBase64Value c3 <<< 6 + prvBase64Value c4)
              rw [hlong2] at hstore3
              rw [hlength2] at hlength3
              rw [hstore3, ok_bind, Option.bind_some]
              have hlong3 := length_behind hlong2 (prvBase64Value c3 <<< 6 + prvBase64Value c4)
              exact hnext hfifth (by omega) (Or.inr rfl) (by omega) hlong3.symm hwritten3 hlength3
            · rw [if_neg hpad4, if_neg hpad4, hlong2]
              split
              · exact decodesTo_refused hlength2
              · exact hnext hfifth (by omega) (Or.inr rfl) (by omega) hlong2.symm hwritten2 hlength2
        · rw [if_neg hpad, if_neg hpad, hlong1]
          split
          · exact decodesTo_refused hlength1
          · have hafter : data.drop (dataIndex + 4) = rest.tail := by
              rw [← hfourth, List.tail_drop]
            have htail : rest.tail.length ≤ fuel := by
              rw [List.length_tail]
              omega
            have := hnext hafter htail (Or.inr rfl) (by omega) hlong1.symm hwritten1 hlength1
            cases rest with
            | nil =>
              rw [List.tail_nil, base64DecodeLoop_nil] at this
              exact this
            | cons _ rest => exact this

end decoder

theorem utilsBase64DecodeAt_inside (text buffer : List UInt8) :
    Base64DecodesInside text buffer := by
  unfold Base64DecodesInside utilsBase64DecodeAt
  split
  · exact ⟨buffer, 0, rfl, rfl, Or.inl rfl⟩
  · rename_i hroom
    obtain ⟨buffer', hwritten, hlength, -⟩ := base64DecodeRounds_decodes text text.length 0
      (List.drop_zero) (Nat.le_refl _) (Or.inr rfl) (Nat.le_refl _) (@List.nil_prefix _ buffer)
      (Nat.not_lt.1 hroom)
    rw [List.length_nil] at hwritten
    rw [hwritten, ok_bind]
    dsimp only
    refine ⟨buffer', _, rfl, hlength, ?_⟩
    split
    · exact Or.inr rfl
    · exact Or.inl rfl

theorem utilsBase64DecodeAt_decoded {target : List UInt8}
    (hdecoded : base64DecodeLoop (utilsBase64GetDecodedSize text) [] text = some bytes)
    (hroom : utilsBase64GetDecodedSize text ≤ target.length) :
    ∃ rest, utilsBase64DecodeAt text target = .ok (bytes ++ rest, utilsBase64GetDecodedSize text) := by
  obtain ⟨buffer', hwritten, -, hbytes⟩ := base64DecodeRounds_decodes text text.length 0
    (List.drop_zero) (Nat.le_refl _) (Or.inr rfl) (Nat.le_refl _) (@List.nil_prefix _ target) hroom
  rw [hdecoded] at hwritten hbytes
  obtain ⟨rest, rfl⟩ := hbytes bytes rfl
  refine ⟨rest, ?_⟩
  unfold utilsBase64DecodeAt
  rw [List.length_nil] at hwritten
  rw [if_neg (Nat.not_lt.2 hroom), hwritten, ok_bind]
  rfl

theorem utilsBase64DecodeAt_taken {target target' : List UInt8} {n : Nat} (hn : 0 < n)
    (h : utilsBase64DecodeAt text target = .ok (target', n)) :
    (base64DecodeLoop (utilsBase64GetDecodedSize text) [] text).isSome = true := by
  unfold utilsBase64DecodeAt at h
  split at h
  · cases h
    exact absurd hn (Nat.lt_irrefl _)
  · rename_i hroom
    obtain ⟨buffer', hwritten, -⟩ := base64DecodeRounds_decodes text text.length 0
      (List.drop_zero) (Nat.le_refl _) (Or.inr rfl) (Nat.le_refl _) (@List.nil_prefix _ target)
      (Nat.not_lt.1 hroom)
    rw [List.length_nil] at hwritten
    rw [hwritten, ok_bind] at h
    by_cases hsome : (base64DecodeLoop (utilsBase64GetDecodedSize text) [] text).isSome = true
    · exact hsome
    · dsimp only at h
      rw [if_neg hsome] at h
      cases h
      exact absurd hn (Nat.lt_irrefl _)

/-! ## The encoder in its buffer -/

section encoder

variable {data : List UInt8}

theorem base64EncodeRounds_encodes (hdata : data.length ≤ 3 * 2 ^ 30) :
    ∀ (fuel : Nat) {dataIndex resultIndex : Nat} {s front place back : List UInt8},
      data.drop dataIndex = s → s.length ≤ fuel →
      (s = [] ∨ (resultIndex = front.length ∧ 3 * resultIndex = 4 * dataIndex)) →
      place.length = (base64EncodeLoop s).length →
      base64EncodeRounds data fuel dataIndex resultIndex (front ++ place ++ back) =
        .ok (some (front ++ base64EncodeLoop s ++ back)) := by
  intro fuel
  induction fuel with
  | zero =>
    intro dataIndex resultIndex s front place back hs hfuel _ hplace
    have hnil := List.eq_nil_of_length_eq_zero (Nat.le_zero.1 hfuel)
    subst hnil
    rw [base64EncodeRounds, if_neg (Nat.not_lt.2 (List.drop_eq_nil_iff.1 hs)),
      List.eq_nil_of_length_eq_zero hplace]
    rfl
  | succ fuel ih =>
    intro dataIndex resultIndex s front place back hs hfuel hindex hplace
    by_cases hempty : s = []
    · subst hempty
      rw [base64EncodeRounds, if_neg (Nat.not_lt.2 (List.drop_eq_nil_iff.1 hs)),
        List.eq_nil_of_length_eq_zero hplace]
      rfl
    · obtain ⟨hresult, hsame⟩ := hindex.resolve_left hempty
      have hpos := List.length_pos_iff.2 hempty
      have hcount := congrArg List.length hs
      rw [List.length_drop] at hcount
      have hgroup := base64Group_length hempty
      rw [base64EncodeLoop_group hempty, List.length_append, hgroup] at hplace
      have htake : (place.take 4).length = 4 := List.length_take_of_le (by omega)
      have hstore := @storeBytes_place front (place.take 4) (place.drop 4 ++ back)
        (base64Group s) resultIndex hresult (by rw [hgroup, htake])
      have hindex' : cUnsigned (dataIndex + 3) = dataIndex + 3 := Nat.mod_eq_of_lt (by omega)
      have hdrop : data.drop (dataIndex + 3) = s.drop 3 := by
        rw [← hs, List.drop_drop]
      have hnext := @ih (dataIndex + 3) (cUnsigned (resultIndex + 4)) (s.drop 3)
        (front ++ base64Group s) (place.drop 4) back hdrop
        (by rw [List.length_drop]; omega) ?_ (by rw [List.length_drop]; omega)
      · rw [base64EncodeRounds, if_pos (by omega), hs, ← List.take_append_drop 4 place]
        simp only [List.append_assoc] at hstore hnext ⊢
        rw [hstore, ok_bind, hindex', hnext, base64EncodeLoop_group hempty, List.append_assoc]
      · by_cases hlast : s.drop 3 = []
        · exact Or.inl hlast
        · have hmore := List.length_pos_iff.2 hlast
          rw [List.length_drop] at hmore
          have hwrap : cUnsigned (resultIndex + 4) = resultIndex + 4 := Nat.mod_eq_of_lt (by omega)
          rw [hwrap, List.length_append, hgroup, hresult]
          exact Or.inr ⟨rfl, by omega⟩

theorem utilsBase64EncodeAt_encodes (hdata : data.length ≤ 3 * 2 ^ 30) {buffer : List UInt8}
    (hroom : utilsBase64GetSize data.length ≤ buffer.length) :
    utilsBase64EncodeAt data.length data buffer =
      .ok (some (base64EncodeLoop data ++ buffer.drop (utilsBase64GetSize data.length),
        utilsBase64GetSize data.length)) := by
  have hplace : (buffer.take (utilsBase64GetSize data.length)).length =
      (base64EncodeLoop data).length := by
    rw [base64EncodeLoop_length, List.length_take_of_le hroom]
  have hrounds := @base64EncodeRounds_encodes data hdata data.length 0 0 data [] _
    (buffer.drop (utilsBase64GetSize data.length)) List.drop_zero (Nat.le_refl _)
    (Or.inr ⟨rfl, rfl⟩) hplace
  rw [List.nil_append, List.nil_append, List.take_append_drop] at hrounds
  unfold utilsBase64EncodeAt
  rw [if_neg (Nat.not_lt.2 hroom), hrounds, ok_bind]
  rfl

theorem storeBytes_before {place : Nat} :
    ∀ {bytes memory memory' : List UInt8} {start : Nat}, start + bytes.length ≤ place →
      storeBytes memory start bytes = .ok memory' → memory'[place]? = memory[place]? := by
  intro bytes
  induction bytes with
  | nil =>
    intro memory memory' start _ h
    cases h
    rfl
  | cons byte bytes ih =>
    intro memory memory' start hplace h
    rw [List.length_cons] at hplace
    rw [storeBytes] at h
    obtain ⟨memory1, hstore, hrest⟩ := bind_eq_ok.1 h
    rw [ih (by omega) hrest, (storeByte_ok hstore).2, Int.toNat_natCast,
      List.getElem?_set_ne (by omega)]

/-- An index of the type `unsigned int` does not reach the character at 2^32. -/
theorem base64EncodeRounds_unreached :
    ∀ (fuel : Nat) {dataIndex resultIndex : Nat} {buffer buffer' : List UInt8},
      resultIndex % 4 = 0 → resultIndex < 2 ^ 32 →
      base64EncodeRounds data fuel dataIndex resultIndex buffer = .ok (some buffer') →
      buffer'[2 ^ 32]? = buffer[2 ^ 32]? := by
  intro fuel
  induction fuel with
  | zero =>
    intro dataIndex resultIndex buffer buffer' _ _ h
    rw [base64EncodeRounds] at h
    split at h
    · cases h
    · cases h
      rfl
  | succ fuel ih =>
    intro dataIndex resultIndex buffer buffer' hmod hlt h
    rw [base64EncodeRounds] at h
    split at h
    · rename_i hmore
      obtain ⟨buffer1, hstore, hrest⟩ := bind_eq_ok.1 h
      have hgroup := @base64Group_length (data.drop dataIndex) fun hnil =>
        absurd (List.drop_eq_nil_iff.1 hnil) (Nat.not_le.2 hmore)
      have hwrap : cUnsigned (resultIndex + 4) = (resultIndex + 4) % 2 ^ 32 := rfl
      rw [ih (by omega) (by omega) hrest]
      exact storeBytes_before (by omega) hstore
    · cases h
      rfl

end encoder

theorem base64DecodeLoop_next {decodedSize : Nat} {buffer rest : List UInt8} {c1 c2 : UInt8}
    (h : base64DecodeLoop decodedSize buffer (c1 :: c2 :: rest) = some bytes) :
    base64Digit c1 ≠ none ∧
      ∃ buffer', base64DecodeLoop decodedSize buffer' (rest.drop 2) = some bytes := by
  rw [base64DecodeLoop] at h
  obtain ⟨v1, hv1, h⟩ := Option.bind_eq_some_iff.1 h
  obtain ⟨v2, -, h⟩ := Option.bind_eq_some_iff.1 h
  refine ⟨fun hnone => ?_, ?_⟩
  · rw [hnone] at hv1
    cases hv1
  rcases rest with _ | ⟨c3, _ | ⟨c4, rest⟩⟩
  · refine ⟨buffer ++ [v1 <<< 2 + v2 >>> 4], ?_⟩
    rw [List.drop_nil, base64DecodeLoop_nil]
    exact h
  · dsimp only at h
    split at h
    · obtain ⟨v3, -, h⟩ := Option.bind_eq_some_iff.1 h
      exact ⟨bytes, by rw [List.drop_of_length_le (Nat.le_succ 1), base64DecodeLoop_nil]⟩
    · exact ⟨bytes, by rw [List.drop_of_length_le (Nat.le_succ 1), base64DecodeLoop_nil]⟩
  · dsimp only at h
    rw [List.drop_succ_cons, List.drop_succ_cons, List.drop_zero]
    split at h
    · obtain ⟨v3, -, h⟩ := Option.bind_eq_some_iff.1 h
      split at h
      · obtain ⟨v4, -, h⟩ := Option.bind_eq_some_iff.1 h
        exact ⟨_, h⟩
      · split at h
        · cases h
        · exact ⟨_, h⟩
    · split at h
      · cases h
      · exact ⟨_, h⟩

theorem base64DecodeLoop_digits {decodedSize : Nat} {c : UInt8} (k : Nat) :
    ∀ {buffer text : List UInt8}, base64DecodeLoop decodedSize buffer text = some bytes →
      text[4 * k]? = some c → base64Digit c ≠ none := by
  induction k with
  | zero =>
    intro buffer text h hc
    rcases text with _ | ⟨c1, _ | ⟨c2, rest⟩⟩
    · cases hc
    · rw [base64DecodeLoop] at h
      cases h
    · cases hc
      exact (base64DecodeLoop_next h).1
  | succ k ih =>
    intro buffer text h hc
    rcases text with _ | ⟨c1, _ | ⟨c2, rest⟩⟩
    · cases hc
    · rw [base64DecodeLoop] at h
      cases h
    · obtain ⟨buffer', hnext⟩ := (base64DecodeLoop_next h).2
      apply ih hnext
      rw [List.getElem?_drop, Nat.add_comm 2]
      exact hc

theorem base64RoundTrips_of_le (hdata : data.length ≤ 3 * 2 ^ 30) : Base64RoundTrips data := by
  intro buffer hroom
  have hsize := utilsBase64GetDecodedSize_encoded data
  refine ⟨data.length, base64EncodeLoop data, _, utilsBase64EncodeAt_encodes hdata hroom,
    base64EncodeLoop_length data, hsize, fun target htarget => ?_⟩
  have hdecoded := base64DecodeLoop_encoded data []
  rw [List.length_nil, Nat.zero_add, ← hsize] at hdecoded
  obtain ⟨rest, hrest⟩ := utilsBase64DecodeAt_decoded hdecoded (hsize ▸ htarget)
  rw [hsize] at hrest
  exact ⟨rest, hrest⟩

theorem base64RoundTrips_le (h : Base64RoundTrips data) : data.length ≤ 3 * 2 ^ 30 := by
  apply Nat.le_of_not_lt
  intro hlong
  have hsize : 2 ^ 32 < utilsBase64GetSize data.length := by
    unfold utilsBase64GetSize
    split <;> omega
  obtain ⟨fuel, text, rest, hencoded, hlength, hdecodedSize, hdecode⟩ :=
    h (List.replicate (utilsBase64GetSize data.length) 0)
      (Nat.le_of_eq List.length_replicate.symm)
  obtain ⟨rest', hdecoded⟩ := hdecode (List.replicate data.length 0)
    (Nat.le_of_eq List.length_replicate.symm)
  have htaken := utilsBase64DecodeAt_taken (by omega) hdecoded
  obtain ⟨bytes, hbytes⟩ := Option.isSome_iff_exists.1 htaken
  have hunwritten : text[2 ^ 32]? = some 0 := by
    unfold utilsBase64EncodeAt at hencoded
    rw [List.length_replicate, if_neg (Nat.lt_irrefl _)] at hencoded
    obtain ⟨result, hrounds, hresult⟩ := bind_eq_ok.1 hencoded
    cases result with
    | none => cases hresult
    | some written =>
      cases hresult
      have hkept := base64EncodeRounds_unreached fuel rfl (by decide) hrounds
      rw [List.getElem?_replicate_of_lt hsize, List.getElem?_append_left (by omega)] at hkept
      exact hkept
  exact base64DecodeLoop_digits (2 ^ 30) hbytes hunwritten rfl

/-- Data is encoded and decoded again up to 3 * 2^30 bytes, the text of which `unsigned int`
indices reach; the decoder stays inside of every buffer. -/
theorem base64RoundTrips_iff (data : List UInt8) :
    (Base64RoundTrips data ↔ data.length ≤ 3 * 2 ^ 30) ∧
      ∀ text buffer, Base64DecodesInside text buffer :=
  ⟨⟨base64RoundTrips_le, base64RoundTrips_of_le⟩, utilsBase64DecodeAt_inside⟩

/-- 3 * 2^30 + 1 bytes are not encoded and decoded again. -/
theorem threeGibibytes_lost : ¬ Base64RoundTrips (List.replicate (3 * 2 ^ 30 + 1) 0) := by
  intro h
  have hlength := base64RoundTrips_le h
  rw [List.length_replicate] at hlength
  omega

end Wakaama
