import Wakaama.Data.CborItem
import Wakaama.Data.Proofs.BigEndian

/-!
# What `cbor_get_singular` takes

The reader of heads makes an argument of the additional information 31, and takes a simple value in
two bytes for a boolean. All else that it takes is a supported item.
-/

namespace Wakaama

theorem info_lt (first : UInt8) : (first &&& 0x1f).toNat < 32 := by
  have hle : (first &&& 0x1f).toNat ≤ 31 := by
    rw [UInt8.toNat_and]
    exact Nat.and_le_right
  omega

variable {ai first : UInt8} {n : Nat} {value : UInt64} {type : CborType}
  {rest item argument tag : List UInt8} {data : Lwm2mData}

theorem plainWidth_cases (hai : ai.toNat < 32) :
    if ai = 31 then plainWidth ai = none else plainWidth ai = argumentWidth ai := by
  have hall : ∀ n < 32, if n.toUInt8 = 31 then plainWidth n.toUInt8 = none
      else plainWidth n.toUInt8 = argumentWidth n.toUInt8 := by decide
  have hvalue := hall ai.toNat hai
  rw [Nat.toUInt8_eq, UInt8.ofNat_toNat] at hvalue
  exact hvalue

theorem plainWidth_some (hai : ai.toNat < 32) :
    plainWidth ai = some n ↔ argumentWidth ai = some n ∧ ai ≠ 31 := by
  have hcases := plainWidth_cases hai
  split at hcases
  · rename_i heq
    rw [hcases]
    exact iff_of_false (fun h => nomatch h) fun h => h.2 heq
  · rename_i hne
    rw [hcases]
    exact ⟨fun h => ⟨h, hne⟩, fun h => h.1⟩

theorem ite_some {p : Prop} [Decidable p] {α : Type} {x : Option α} {a : α}
    (h : (if p then none else x) = some a) : ¬ p ∧ x = some a := by
  by_cases hp : p
  · rw [if_pos hp] at h
    cases h
  · rw [if_neg hp] at h
    exact ⟨hp, h⟩

theorem cborTypeAndValue_major {mt : UInt8} {val : UInt64}
    (h : cborTypeAndValue mt ai val = some (type, value)) :
    match type with
    | .unsignedInteger => mt = cborUnsignedInteger
    | .negativeInteger => mt = cborNegativeInteger
    | .byteString => mt = cborByteString ∧ value = val
    | .textString => mt = cborTextString ∧ value = val
    | .semanticTag => mt = cborSemanticTag
    | .float => 6 < mt.toNat ∧
        (ai = cborAiTwoByteValue ∨ ai = cborAiFourByteValue ∨ ai = cborAiEightByteValue)
    | .simpleValue => 6 < mt.toNat ∧ value = val ∧ ai ≠ cborAiTwoByteValue ∧
        ai ≠ cborAiFourByteValue ∧ ai ≠ cborAiEightByteValue ∧ ai ≠ cborAiIndefiniteOrBreak
    | _ => True := by
  have hne : ∀ {other : UInt8}, mt ≠ other → mt.toNat ≠ other.toNat := fun h h' =>
    h (UInt8.toNat_inj.1 h')
  unfold cborTypeAndValue at h
  by_cases h0 : mt = cborUnsignedInteger
  · rw [if_pos h0] at h
    cases h
    exact h0
  rw [if_neg h0] at h
  by_cases h1 : mt = cborNegativeInteger
  · rw [if_pos h1] at h
    obtain ⟨-, h⟩ := ite_some h
    cases h
    exact h1
  rw [if_neg h1] at h
  by_cases h2 : mt = cborByteString
  · rw [if_pos h2] at h
    cases h
    exact ⟨h2, rfl⟩
  rw [if_neg h2] at h
  by_cases h3 : mt = cborTextString
  · rw [if_pos h3] at h
    cases h
    exact ⟨h3, rfl⟩
  rw [if_neg h3] at h
  by_cases h4 : mt = cborArray
  · rw [if_pos h4] at h
    cases h
    trivial
  rw [if_neg h4] at h
  by_cases h5 : mt = cborMap
  · rw [if_pos h5] at h
    cases h
    trivial
  rw [if_neg h5] at h
  by_cases h6 : mt = cborSemanticTag
  · rw [if_pos h6] at h
    cases h
    exact h6
  rw [if_neg h6] at h
  have hmajor : 6 < mt.toNat := by
    have h0' : mt.toNat ≠ 0 := hne h0
    have h1' : mt.toNat ≠ 1 := hne h1
    have h2' : mt.toNat ≠ 2 := hne h2
    have h3' : mt.toNat ≠ 3 := hne h3
    have h4' : mt.toNat ≠ 4 := hne h4
    have h5' : mt.toNat ≠ 5 := hne h5
    have h6' : mt.toNat ≠ 6 := hne h6
    omega
  by_cases h25 : ai = cborAiTwoByteValue
  · rw [if_pos h25] at h
    cases h
    exact ⟨hmajor, Or.inl h25⟩
  rw [if_neg h25] at h
  by_cases h26 : ai = cborAiFourByteValue
  · rw [if_pos h26] at h
    cases h
    exact ⟨hmajor, Or.inr (Or.inl h26)⟩
  rw [if_neg h26] at h
  by_cases h27 : ai = cborAiEightByteValue
  · rw [if_pos h27] at h
    cases h
    exact ⟨hmajor, Or.inr (Or.inr h27)⟩
  rw [if_neg h27] at h
  by_cases h31 : ai = cborAiIndefiniteOrBreak
  · rw [if_pos h31] at h
    cases h
    trivial
  rw [if_neg h31] at h
  cases h
  exact ⟨hmajor, rfl, h25, h26, h27, h31⟩

def contentLength (mt : UInt8) (value : Nat) : Nat :=
  if mt = cborByteString ∨ mt = cborTextString then value else 0

/-- An initial byte, its argument, and the content of a string. -/
inductive RawItem : List UInt8 → UInt8 → Prop
  | mk {first : UInt8} {argument content : List UInt8}
    (hwidth : argumentWidth (first &&& 0x1f) = some argument.length)
    (hcontent : content.length = contentLength (first >>> 5) (headValue first argument)) :
    RawItem (first :: argument ++ content) first

theorem rawItem_unique {item' rest' : List UInt8} {first' : UInt8} (h : RawItem item first)
    (h' : RawItem item' first') (heq : item ++ rest = item' ++ rest') :
    item = item' ∧ first = first' ∧ rest = rest' := by
  cases h with
  | @mk _ argument content hwidth hcontent =>
    cases h' with
    | @mk _ argument' content' hwidth' hcontent' =>
      simp only [List.cons_append, List.append_assoc, List.cons.injEq] at heq
      obtain ⟨rfl, heq⟩ := heq
      obtain ⟨rfl, hbehind⟩ :=
        List.append_inj heq (Option.some.inj (hwidth.symm.trans hwidth'))
      obtain ⟨rfl, rfl⟩ := List.append_inj hbehind (hcontent.trans hcontent'.symm)
      exact ⟨rfl, rfl, rfl⟩

theorem initialByte_self (first : UInt8) : first = initialByte (first >>> 5) (first &&& 0x1f) := by
  have hall : ∀ n < 256, (fun byte : UInt8 => byte = initialByte (byte >>> 5) (byte &&& 0x1f))
      n.toUInt8 := by decide +kernel
  have hvalue := hall first.toNat first.toNat_lt
  rw [Nat.toUInt8_eq, UInt8.ofNat_toNat] at hvalue
  exact hvalue

theorem major_seven (h : 6 < (first >>> 5).toNat) : first >>> 5 = cborFloatingOrSimple := by
  have hlt := first.toNat_lt
  have hshift : (first >>> 5).toNat = first.toNat / 2 ^ 5 := by
    rw [UInt8.toNat_shiftRight]
    exact Nat.shiftRight_eq_div_pow first.toNat 5
  rw [← UInt8.toNat_inj, hshift]
  rw [hshift] at h
  show first.toNat / 2 ^ 5 = 7
  omega

theorem headValue_eq (h : argument.length ≤ 8) :
    (argumentValue (first &&& 0x1f) argument).toNat = headValue first argument := by
  unfold argumentValue headValue
  split
  · exact UInt8.toNat_toUInt64 _
  · have hlt := bigEndianValue_lt argument
    have hpow := Nat.pow_le_pow_right (show 0 < 256 by decide) h
    rw [Nat.toUInt64_eq, UInt64.toNat_ofNat', Nat.mod_eq_of_lt (Nat.lt_of_lt_of_le hlt hpow)]

theorem plainHead_raw {head content : List UInt8} {mt : UInt8} {value : Nat}
    (h : PlainHead head mt value) (hcontent : content.length = contentLength mt value) :
    ∃ first argument, head = first :: argument ∧ mt = first >>> 5 ∧
      plainWidth (first &&& 0x1f) = some argument.length ∧ first &&& 0x1f ≠ 31 ∧
      RawItem (head ++ content) first := by
  cases h with
  | @mk first argument hwidth =>
    obtain ⟨hargument, hne⟩ := (plainWidth_some (info_lt first)).1 hwidth
    exact ⟨first, argument, rfl, rfl, hwidth, hne, RawItem.mk hargument hcontent⟩

theorem reservedForm_false :
    reservedForm (first :: rest) = false ↔ first &&& 0x1f ≠ 31 ∧ first ≠ 0xf8 := by
  unfold reservedForm
  rw [decide_eq_false_iff_not, not_or]

theorem supportedItem_raw (h : SupportedItem item) :
    ∃ first, RawItem item first ∧ first >>> 5 ≠ cborSemanticTag ∧ reservedForm item = false := by
  cases h with
  | @integer head mt value h hmt =>
    have hcontent : ([] : List UInt8).length = contentLength mt value := by
      rcases hmt with rfl | rfl <;> rfl
    obtain ⟨first, argument, rfl, rfl, -, hne, hraw⟩ := plainHead_raw h hcontent
    rw [List.append_nil] at hraw
    refine ⟨first, hraw, ?_, reservedForm_false.2 ⟨hne, ?_⟩⟩
    · rcases hmt with hmt | hmt <;> rw [hmt] <;> decide
    · rintro rfl
      rcases hmt with hmt | hmt <;> exact absurd hmt (by decide)
  | @float head value h hwidth =>
    obtain ⟨first, argument, rfl, hmt, hplain, hne, hraw⟩ := @plainHead_raw _ [] _ _ h rfl
    rw [List.append_nil] at hraw
    refine ⟨first, hraw, by rw [← hmt]; decide, reservedForm_false.2 ⟨hne, ?_⟩⟩
    rintro rfl
    have hone : 1 = argument.length := Option.some.inj hplain
    rw [List.length_cons] at hwidth
    omega
  | @boolean first h =>
    rcases h with rfl | rfl
    · exact ⟨0xf4, @RawItem.mk 0xf4 [] [] rfl rfl, by decide, by decide⟩
    · exact ⟨0xf5, @RawItem.mk 0xf5 [] [] rfl rfl, by decide, by decide⟩
  | @string head content mt h hmt =>
    obtain ⟨first, argument, rfl, rfl, -, hne, hraw⟩ := plainHead_raw h (if_pos hmt).symm
    refine ⟨first, hraw, ?_, reservedForm_false.2 ⟨hne, ?_⟩⟩
    · rcases hmt with hmt | hmt <;> rw [hmt] <;> decide
    · rintro rfl
      rcases hmt with hmt | hmt <;> exact absurd hmt (by decide)

theorem cborHead_parts {head : List UInt8} (h : CborHead head type value) :
    ∃ first argument, head = first :: argument ∧
      argumentWidth (first &&& 0x1f) = some argument.length ∧
      cborTypeAndValue (first >>> 5) (first &&& 0x1f)
        (argumentValue (first &&& 0x1f) argument) = some (type, value) := by
  cases h with
  | @mk first argument type value hwidth hvalue => exact ⟨first, argument, rfl, hwidth, hvalue⟩

theorem plainHead_of_reserved (hwidth : argumentWidth (first &&& 0x1f) = some argument.length)
    (hreserved : reservedForm (first :: rest) = false) :
    PlainHead (first :: argument) (first >>> 5) (headValue first argument) :=
  PlainHead.mk ((plainWidth_some (info_lt first)).2 ⟨hwidth, (reservedForm_false.1 hreserved).1⟩)

theorem rawItem_head (hwidth : argumentWidth (first &&& 0x1f) = some argument.length)
    (hmajor : first >>> 5 ≠ cborByteString ∧ first >>> 5 ≠ cborTextString) :
    RawItem (first :: argument) first := by
  have hraw := @RawItem.mk first argument [] hwidth
    (if_neg fun hor => hor.elim hmajor.1 hmajor.2).symm
  rw [List.append_nil] at hraw
  exact hraw

theorem string_raw {head content : List UInt8} {val : UInt64} {mt : UInt8}
    (h : CborHead head type val) (hlength : content.length = val.toNat)
    (hmt : mt = cborByteString ∨ mt = cborTextString)
    (hmajor : ∀ {first ai : UInt8} {argument : UInt64}, cborTypeAndValue first ai argument = some (type, val) → first = mt ∧ val = argument) :
    ∃ first, RawItem (head ++ content) first ∧ first >>> 5 ≠ cborSemanticTag ∧
      (reservedForm (head ++ content) = false → SupportedItem (head ++ content)) := by
  obtain ⟨first, argument, rfl, hwidth, hvalue⟩ := cborHead_parts h
  obtain ⟨hfirst, hval⟩ := hmajor hvalue
  have hcontent : content.length = headValue first argument := by
    rw [hlength, hval, headValue_eq (argumentWidth_le hwidth)]
  have hstring : first >>> 5 = cborByteString ∨ first >>> 5 = cborTextString := hfirst ▸ hmt
  refine ⟨first, RawItem.mk hwidth (hcontent.trans (if_pos hstring).symm), ?_, fun hreserved => ?_⟩
  · rcases hstring with hstring | hstring <;> rw [hstring] <;> decide
  · have hplain := plainHead_of_reserved hwidth hreserved
    rw [← hcontent] at hplain
    exact SupportedItem.string hplain hstring

theorem float_width (hwidth : argumentWidth ai = some n)
    (hai : ai = cborAiTwoByteValue ∨ ai = cborAiFourByteValue ∨ ai = cborAiEightByteValue) :
    2 ≤ n := by
  rcases hai with rfl | rfl | rfl
  · cases hwidth
    exact Nat.le_refl 2
  · cases hwidth
    omega
  · cases hwidth
    omega

theorem boolean_byte (value : Bool) (hwidth : argumentWidth (first &&& 0x1f) = some argument.length)
    (hmajor : first >>> 5 = cborFloatingOrSimple)
    (hvalue : (if value then cborSimpleTrue else cborSimpleFalse) = argumentValue (first &&& 0x1f) argument)
    (hai : first &&& 0x1f ≠ cborAiTwoByteValue ∧ first &&& 0x1f ≠ cborAiFourByteValue ∧ first &&& 0x1f ≠ cborAiEightByteValue)
    (hreserved : first ≠ 0xf8) : argument = [] ∧ (first = 0xf4 ∨ first = 0xf5) := by
  have hone : first &&& 0x1f ≠ cborAiOneByteValue := by
    intro hone
    apply hreserved
    rw [initialByte_self first, hmajor, hone]
    rfl
  have hnil : argument = [] := by
    unfold argumentWidth at hwidth
    rw [if_neg hone, if_neg hai.1, if_neg hai.2.1, if_neg hai.2.2] at hwidth
    obtain ⟨-, hwidth⟩ := ite_some hwidth
    exact List.length_eq_zero_iff.1 (Option.some.inj hwidth).symm
  subst hnil
  refine ⟨rfl, ?_⟩
  have hinfo : (first &&& 0x1f).toUInt64 = if value then cborSimpleTrue else cborSimpleFalse :=
    hvalue.symm
  rw [← UInt64.toNat_inj, UInt8.toNat_toUInt64] at hinfo
  rw [initialByte_self first, hmajor]
  cases value with
  | false =>
    left
    rw [show first &&& 0x1f = 20 from UInt8.toNat_inj.1 hinfo]
    rfl
  | true =>
    right
    rw [show first &&& 0x1f = 21 from UInt8.toNat_inj.1 hinfo]
    rfl

/-- An item that the reader takes, and is supported where it is of no reserved form. -/
theorem untagged_raw (h : CborUntagged item data) :
    ∃ first, RawItem item first ∧ first >>> 5 ≠ cborSemanticTag ∧
      (reservedForm item = false → SupportedItem item) := by
  cases h with
  | @unsignedInteger head val h =>
    obtain ⟨first, argument, rfl, hwidth, hvalue⟩ := cborHead_parts h
    have hmajor : first >>> 5 = cborUnsignedInteger := cborTypeAndValue_major hvalue
    exact ⟨first, rawItem_head hwidth (by rw [hmajor]; decide), by rw [hmajor]; decide,
      fun hreserved => SupportedItem.integer (plainHead_of_reserved hwidth hreserved)
        (Or.inl hmajor)⟩
  | @negativeInteger head val h =>
    obtain ⟨first, argument, rfl, hwidth, hvalue⟩ := cborHead_parts h
    have hmajor : first >>> 5 = cborNegativeInteger := cborTypeAndValue_major hvalue
    exact ⟨first, rawItem_head hwidth (by rw [hmajor]; decide), by rw [hmajor]; decide,
      fun hreserved => SupportedItem.integer (plainHead_of_reserved hwidth hreserved)
        (Or.inr hmajor)⟩
  | @float head val h =>
    obtain ⟨first, argument, rfl, hwidth, hvalue⟩ := cborHead_parts h
    obtain ⟨hlarge, hai⟩ := cborTypeAndValue_major hvalue
    have hmajor := major_seven hlarge
    refine ⟨first, rawItem_head hwidth (by rw [hmajor]; decide), by rw [hmajor]; decide,
      fun hreserved => ?_⟩
    have hplain := plainHead_of_reserved hwidth hreserved
    rw [hmajor] at hplain
    have hlong := float_width hwidth hai
    exact SupportedItem.float hplain (Nat.succ_le_succ hlong)
  | @boolean head value h =>
    obtain ⟨first, argument, rfl, hwidth, hvalue⟩ := cborHead_parts h
    obtain ⟨hlarge, hval, h25, h26, h27, -⟩ := cborTypeAndValue_major hvalue
    have hmajor := major_seven hlarge
    refine ⟨first, rawItem_head hwidth (by rw [hmajor]; decide), by rw [hmajor]; decide,
      fun hreserved => ?_⟩
    obtain ⟨rfl, hfirst⟩ := boolean_byte value hwidth hmajor hval ⟨h25, h26, h27⟩
      (reservedForm_false.1 hreserved).2
    exact SupportedItem.boolean hfirst
  | @byteString head content val h hlength =>
    exact string_raw h hlength (Or.inl rfl) cborTypeAndValue_major
  | @textString head content val h hlength =>
    exact string_raw h hlength (Or.inr rfl) cborTypeAndValue_major

theorem tag_raw (h : CborHead tag .semanticTag value) :
    ∃ first, RawItem tag first ∧ first >>> 5 = cborSemanticTag ∧
      (reservedForm tag = false → ∃ value', PlainHead tag cborSemanticTag value') := by
  obtain ⟨first, argument, rfl, hwidth, hvalue⟩ := cborHead_parts h
  have hmajor : first >>> 5 = cborSemanticTag := cborTypeAndValue_major hvalue
  refine ⟨first, rawItem_head hwidth (by rw [hmajor]; decide), hmajor, fun hreserved => ?_⟩
  have hplain := plainHead_of_reserved hwidth hreserved
  rw [hmajor] at hplain
  exact ⟨_, hplain⟩

theorem intOfSize_pos_iff : 0 < intOfSize n ↔ n % 2 ^ 32 ≠ 0 ∧ n % 2 ^ 32 < 2 ^ 31 := by
  unfold intOfSize
  rw [Int.bmod_def]
  split <;> omega

theorem cborSingular_split {bytes : List UInt8} (h : CborSingular bytes data) :
    ∃ tag item, bytes = tag ++ item ∧ (tag = [] ∨ ∃ value, CborHead tag .semanticTag value) ∧
      CborUntagged item data := by
  cases h with
  | untagged h => exact ⟨[], _, rfl, Or.inl rfl, h⟩
  | tagged htag h => exact ⟨_, _, rfl, Or.inr ⟨_, htag⟩, h⟩

theorem cborSingular_join (htag : tag = [] ∨ ∃ value, CborHead tag .semanticTag value)
    (h : CborUntagged item data) : CborSingular (tag ++ item) data := by
  rcases htag with rfl | ⟨value, htag⟩
  · exact CborSingular.untagged h
  · exact CborSingular.tagged htag h

theorem supportedSingular_unique {tag item rest item' rest' : List UInt8} {data : Lwm2mData}
    (htag : tag = [] ∨ ∃ value, CborHead tag .semanticTag value) (h : CborUntagged item data)
    (h' : SupportedSingular item') (heq : item' ++ rest' = tag ++ item ++ rest) :
    item' = tag ++ item ∧ reservedForm tag = false ∧ reservedForm item = false := by
  rw [List.append_assoc] at heq
  obtain ⟨first, hraw, hmajor, -⟩ := untagged_raw h
  cases h' with
  | untagged h' =>
    obtain ⟨first', hraw', hmajor', hreserved⟩ := supportedItem_raw h'
    rcases htag with rfl | ⟨value, htag⟩
    · obtain ⟨rfl, -, -⟩ := rawItem_unique hraw' hraw heq
      exact ⟨rfl, rfl, hreserved⟩
    · obtain ⟨firstTag, hrawTag, htagMajor, -⟩ := tag_raw htag
      obtain ⟨-, rfl, -⟩ := rawItem_unique hraw' hrawTag heq
      exact absurd htagMajor hmajor'
  | @tagged tag' item' value' hplain h' =>
    obtain ⟨first', hraw', -, hreserved⟩ := supportedItem_raw h'
    obtain ⟨firstTag', argument', rfl, hmt, -, hne, hrawTag'⟩ :=
      @plainHead_raw _ [] _ _ hplain rfl
    rw [List.append_nil] at hrawTag'
    rw [List.append_assoc] at heq
    rcases htag with rfl | ⟨value, htag⟩
    · obtain ⟨-, rfl, -⟩ := rawItem_unique hrawTag' hraw heq
      exact absurd hmt.symm hmajor
    · obtain ⟨firstTag, hrawTag, htagMajor, -⟩ := tag_raw htag
      obtain ⟨rfl, rfl, hbehind⟩ := rawItem_unique hrawTag' hrawTag heq
      obtain ⟨rfl, -, -⟩ := rawItem_unique hraw' hraw hbehind
      refine ⟨rfl, reservedForm_false.2 ⟨hne, ?_⟩, hreserved⟩
      rintro rfl
      exact absurd htagMajor (by decide)

theorem supportedSingular_of_reserved (htag : tag = [] ∨ ∃ value, CborHead tag .semanticTag value)
    (h : CborUntagged item data) (hnoTag : reservedForm tag = false)
    (hnoItem : reservedForm item = false) : SupportedSingular (tag ++ item) := by
  obtain ⟨first, -, -, hitem⟩ := untagged_raw h
  rcases htag with rfl | ⟨value, htag⟩
  · exact SupportedSingular.untagged (hitem hnoItem)
  · obtain ⟨firstTag, -, -, hplain⟩ := tag_raw htag
    obtain ⟨value', hplain⟩ := hplain hnoTag
    exact SupportedSingular.tagged hplain (hitem hnoItem)

/-- A result above 0 is the length of a supported item, but for the reserved forms and for lengths
that leave the `int`. -/
theorem cborTakesSupported_iff (buffer : List UInt8) :
    CborTakesSupported buffer ↔ CborAvoidsReserved buffer := by
  constructor
  · intro h tag item rest data hbuffer htag hitem hnonzero hsmall
    have htaken := (cborSingular_join htag hitem).taken rest
    have hpos := intOfSize_pos_iff.2 ⟨hnonzero, hsmall⟩
    unfold CborTakesSupported at h
    rw [hbuffer, htaken] at h
    rcases h with h | ⟨data', res, h, hsupported⟩
    · cases h
    · obtain ⟨-, rfl⟩ := Prod.mk.inj (Option.some.inj (Except.ok.inj h))
      obtain ⟨item', rest', heq, hitem', hres⟩ := hsupported hpos
      obtain ⟨rfl, hnoTag, hnoItem⟩ := supportedSingular_unique htag hitem hitem' heq.symm
      refine ⟨hnoTag, hnoItem, ?_⟩
      have := (intOfSize_range (tag ++ item).length).2
      omega
  · intro h
    rcases cborGetSingular_takes buffer with hfail | ⟨⟨data, res⟩, hread, hfound⟩
    · exact Or.inl hfail
    · refine Or.inr ⟨data, res, hread, fun hpos => ?_⟩
      obtain ⟨bytes, rest, hbuffer, hres, hbytes⟩ := hfound
      obtain ⟨tag, item, rfl, htag, hitem⟩ := cborSingular_split hbytes
      rw [hres] at hpos
      obtain ⟨hnonzero, hsmall⟩ := intOfSize_pos_iff.1 hpos
      obtain ⟨hnoTag, hnoItem, hshort⟩ := h tag item rest data hbuffer htag hitem hnonzero hsmall
      refine ⟨tag ++ item, rest, hbuffer, ?_, hres.trans (intOfSize_small hshort)⟩
      exact supportedSingular_of_reserved htag hitem hnoTag hnoItem

/-- The initial byte of an indefinite length is taken for the number 31. -/
theorem indefiniteLength_taken : ¬ CborTakesSupported [0x1f] := by
  intro h
  have hhead : CborHead [0x1f] .unsignedInteger 31 :=
    @CborHead.mk 0x1f [] _ _ (by decide) (by decide)
  have htaken := (CborSingular.untagged (.unsignedInteger hhead)).taken []
  unfold CborTakesSupported at h
  rw [show ([0x1f] : List UInt8) = [0x1f] ++ [] from rfl, htaken] at h
  rcases h with h | ⟨data', res, h, hsupported⟩
  · cases h
  · obtain ⟨-, rfl⟩ := Prod.mk.inj (Option.some.inj (Except.ok.inj h))
    obtain ⟨item', rest', heq, hitem', -⟩ := hsupported (by decide)
    have hreserved := (@supportedSingular_unique [] _ _ _ _ _ (Or.inl rfl) (.unsignedInteger hhead)
      hitem' heq.symm).2.2
    exact absurd hreserved (by decide)

end Wakaama
