import Wakaama.Core.Proofs.NumberText

/-!
# Which texts are read as numbers

The check in the loop of `utils_textToUInt` and `utils_textToInt` leaves room for the
multiplication only. A text whose value passes 2^64 by the digit that is added goes on with the
value modulo 2^64, and a sign alone is read as 0.
-/

namespace Wakaama

/-- The check of the loop lets every digit pass: what stands in front of it is small, modulo
2^64. -/
def PassesGuard (value : Nat) (digits : List UInt8) : Prop :=
  ∀ n < digits.length, decimalFrom value (digits.take n) % 2 ^ 64 ≤ (2 ^ 64 - 1) / 10

instance (value : Nat) (digits : List UInt8) : Decidable (PassesGuard value digits) :=
  inferInstanceAs (Decidable (∀ n < digits.length, _))

theorem passesGuard_nil (value : Nat) : PassesGuard value [] := fun _ h => absurd h (Nat.not_lt_zero _)

theorem passesGuard_cons {value : Nat} {character : UInt8} {rest : List UInt8} :
    PassesGuard value (character :: rest) ↔ value % 2 ^ 64 ≤ (2 ^ 64 - 1) / 10 ∧
      PassesGuard (value * 10 + (character.toNat - 48)) rest := by
  constructor
  · intro h
    refine ⟨h 0 (Nat.succ_pos _), ?_⟩
    intro n hn
    exact h (n + 1) (Nat.succ_lt_succ hn)
  · rintro ⟨hfirst, hrest⟩ n hn
    cases n with
    | zero => exact hfirst
    | succ n => exact hrest n (Nat.lt_of_succ_lt_succ hn)

variable {digits text : List UInt8} {negative : Bool}

theorem passesGuard_of_fits :
    ∀ {value : Nat}, decimalFrom value digits < 2 ^ 64 → PassesGuard value digits := by
  induction digits with
  | nil => exact fun _ => passesGuard_nil _
  | cons character rest ih =>
    intro value h
    have hgrow : value * 10 + (character.toNat - 48) ≤ decimalFrom value (character :: rest) :=
      decimalFrom_le _ rest
    rw [passesGuard_cons]
    refine ⟨?_, ih h⟩
    rw [Nat.mod_eq_of_lt (by omega)]
    omega

theorem textToUIntLoop_step {value : UInt64} {n : Nat} {character : UInt8}
    (hvalue : value.toNat = n % 2 ^ 64) (hdigit : isDigit character = true) :
    (value * 10 + (character - digitZero).toUInt64).toNat =
      (n * 10 + (character.toNat - 48)) % 2 ^ 64 := by
  rw [UInt64.toNat_add, UInt64.toNat_mul, hvalue, UInt8.toNat_toUInt64, isDigit_value hdigit]
  show (n % 2 ^ 64 * 10 % 2 ^ 64 + (character.toNat - 48)) % 2 ^ 64 = _
  rw [Nat.mod_mul_mod, Nat.mod_add_mod]

/-- The loop takes digits that pass the check, and gives their value modulo 2^64. -/
theorem textToUIntLoop_eq_some {digits : List UInt8} :
    ∀ {value : UInt64} {n : Nat} {data : UInt64}, value.toNat = n % 2 ^ 64 →
      (textToUIntLoop value digits = some data ↔
        (∀ character ∈ digits, isDigit character = true) ∧ PassesGuard n digits ∧
          data.toNat = decimalFrom n digits % 2 ^ 64) := by
  induction digits with
  | nil =>
    intro value n data hvalue
    rw [textToUIntLoop, Option.some.injEq, ← UInt64.toNat_inj, hvalue]
    constructor
    · intro h
      exact ⟨List.forall_mem_nil _, passesGuard_nil n, h.symm⟩
    · rintro ⟨-, -, h⟩
      exact h.symm
  | cons character rest ih =>
    intro value n data hvalue
    have hguard : 18446744073709551615 / 10 < value ↔ ¬ n % 2 ^ 64 ≤ (2 ^ 64 - 1) / 10 := by
      rw [UInt64.lt_iff_toNat_lt, hvalue, Nat.not_le]
      rfl
    rw [textToUIntLoop, List.forall_mem_cons, passesGuard_cons]
    by_cases hdigit : isDigit character = true
    · rw [if_pos (isDigit_iff.1 hdigit)]
      by_cases hsmall : n % 2 ^ 64 ≤ (2 ^ 64 - 1) / 10
      · rw [if_neg (fun h => hguard.1 h hsmall), ih (textToUIntLoop_step hvalue hdigit)]
        constructor
        · rintro ⟨hdigits, hpass, hdata⟩
          exact ⟨⟨hdigit, hdigits⟩, ⟨hsmall, hpass⟩, hdata⟩
        · rintro ⟨⟨-, hdigits⟩, ⟨-, hpass⟩, hdata⟩
          exact ⟨hdigits, hpass, hdata⟩
      · rw [if_pos (hguard.2 hsmall)]
        constructor
        · intro h
          cases h
        · rintro ⟨-, ⟨hpass, -⟩, -⟩
          exact absurd hpass hsmall
    · rw [if_neg (fun h => hdigit (isDigit_iff.2 h))]
      constructor
      · intro h
        cases h
      · rintro ⟨⟨h, -⟩, -⟩
        exact absurd h hdigit

/-- Digits whose value does not fit in 64 bits, but that the check lets pass. -/
def SlipsThrough (digits : List UInt8) : Prop :=
  (∀ character ∈ digits, isDigit character = true) ∧ 2 ^ 64 ≤ decimalFrom 0 digits ∧
    PassesGuard 0 digits

instance (digits : List UInt8) : Decidable (SlipsThrough digits) :=
  inferInstanceAs (Decidable (_ ∧ _ ∧ _))

/-- `utils_textToUInt` is exact on a text: non-empty digits are read as their value if it fits, and
nothing else is read. -/
def ReadsUInt (text : List UInt8) : Prop :=
  ∀ data, utilsTextToUInt text = some data ↔
    text ≠ [] ∧ (∀ character ∈ text, isDigit character = true) ∧ decimalFrom 0 text = data.toNat

/-- The value of digits behind a sign. -/
def signedValue (negative : Bool) (digits : List UInt8) : Int :=
  if negative then -(decimalFrom 0 digits : Int) else decimalFrom 0 digits

/-- A text as digits behind an optional sign. -/
def signedText (negative : Bool) (digits : List UInt8) : List UInt8 :=
  if negative then minusSign :: digits else digits

/-- `utils_textToInt` is exact on a text. -/
def ReadsInt (text : List UInt8) : Prop :=
  ∀ data, utilsTextToInt text = some data ↔ ∃ negative digits,
    text = signedText negative digits ∧ digits ≠ [] ∧
      (∀ character ∈ digits, isDigit character = true) ∧ signedValue negative digits = data.toInt

theorem utilsTextToUInt_eq_some {data : UInt64} :
    utilsTextToUInt text = some data ↔ text ≠ [] ∧
      (∀ character ∈ text, isDigit character = true) ∧ PassesGuard 0 text ∧
        data.toNat = decimalFrom 0 text % 2 ^ 64 := by
  rw [← @textToUIntLoop_eq_some text 0 0 data rfl, utilsTextToUInt]
  cases text with
  | nil => simp
  | cons first rest => simp

theorem readsUInt_iff (text : List UInt8) : ReadsUInt text ↔ ¬ SlipsThrough text := by
  constructor
  · rintro h ⟨hdigits, hbig, hpass⟩
    have hne : text ≠ [] := by
      rintro rfl
      exact absurd hbig (by decide)
    have hread : utilsTextToUInt text = some (decimalFrom 0 text).toUInt64 :=
      utilsTextToUInt_eq_some.2 ⟨hne, hdigits, hpass, rfl⟩
    have hlt := (decimalFrom 0 text).toUInt64.toNat_lt
    obtain ⟨-, -, hvalue⟩ := (h _).1 hread
    omega
  · intro h data
    rw [utilsTextToUInt_eq_some]
    constructor
    · rintro ⟨hne, hdigits, hpass, hdata⟩
      have hfits : decimalFrom 0 text < 2 ^ 64 :=
        Nat.not_le.1 fun hbig => h ⟨hdigits, hbig, hpass⟩
      exact ⟨hne, hdigits, by rw [hdata, Nat.mod_eq_of_lt hfits]⟩
    · rintro ⟨hne, hdigits, hvalue⟩
      have hfits : decimalFrom 0 text < 2 ^ 64 := by
        rw [hvalue]
        exact data.toNat_lt
      exact ⟨hne, hdigits, passesGuard_of_fits hfits, by rw [Nat.mod_eq_of_lt hfits, hvalue]⟩

/-- The bound for the value behind a sign. -/
def magnitudeBound (negative : Bool) : Nat := if negative then 2 ^ 63 else 2 ^ 63 - 1

theorem toInt64_toInt (result : UInt64) : result.toInt64.toInt =
    if 2 * result.toNat < 2 ^ 64 then (result.toNat : Int) else result.toNat - 2 ^ 64 :=
  BitVec.toInt_eq_toNat_cond result.toBitVec

theorem signed_toInt {negative : Bool} {result : UInt64}
    (h : result.toNat ≤ magnitudeBound negative) :
    (if negative then 0 - result else result).toInt64.toInt =
      if negative then -(result.toNat : Int) else result.toNat := by
  unfold magnitudeBound at h
  cases negative with
  | false =>
    rw [if_neg Bool.false_ne_true] at h ⊢
    rw [toInt64_toInt, if_pos (by omega), if_neg Bool.false_ne_true]
  | true =>
    rw [if_pos rfl] at h ⊢
    have hneg : (0 - result).toNat = (2 ^ 64 - result.toNat) % 2 ^ 64 := by
      rw [UInt64.toNat_sub]
      rfl
    rw [toInt64_toInt, hneg, if_pos rfl]
    split <;> omega

theorem utilsTextToInt_signedText
    (hsign : negative = false → digits ≠ [] ∧ digits.head? ≠ some minusSign) :
    utilsTextToInt (signedText negative digits) =
      match textToUIntLoop 0 digits with
      | none => none
      | some result =>
        if magnitudeBound negative < result.toNat then none
        else some (if negative then 0 - result else result).toInt64 := by
  cases negative with
  | true =>
    rw [signedText, if_pos rfl, utilsTextToInt, if_pos rfl]
    rfl
  | false =>
    obtain ⟨hne, hhead⟩ := hsign rfl
    rw [signedText, if_neg Bool.false_ne_true]
    cases digits with
    | nil => exact absurd rfl hne
    | cons first rest =>
      have hfirst : first ≠ minusSign := fun h => hhead (by rw [h]; rfl)
      rw [utilsTextToInt, if_neg hfirst]
      rfl

/-- The sign of a text, and what stands behind it. -/
def signOf (text : List UInt8) : Bool := text.head? == some minusSign

def unsignedPart (text : List UInt8) : List UInt8 := if signOf text then text.tail else text

theorem signedText_parts (text : List UInt8) :
    signedText (signOf text) (unsignedPart text) = text := by
  unfold signedText unsignedPart
  cases hsign : signOf text with
  | false => rfl
  | true =>
    obtain ⟨rest, rfl⟩ := List.head?_eq_some_iff.1 (beq_iff_eq.1 hsign)
    rfl

theorem signOf_false (hne : text ≠ []) (h : signOf text = false) :
    unsignedPart text ≠ [] ∧ (unsignedPart text).head? ≠ some minusSign := by
  unfold unsignedPart
  rw [h, if_neg Bool.false_ne_true]
  exact ⟨hne, beq_eq_false_iff_ne.1 h⟩

theorem signedText_digits (negative : Bool) (hne : digits ≠ [])
    (hdigits : ∀ character ∈ digits, isDigit character = true) :
    signOf (signedText negative digits) = negative ∧
      unsignedPart (signedText negative digits) = digits := by
  cases negative with
  | true => exact ⟨rfl, rfl⟩
  | false =>
    cases digits with
    | nil => exact absurd rfl hne
    | cons first rest =>
      have hfirst : first ≠ minusSign := by
        rintro rfl
        exact absurd (hdigits minusSign List.mem_cons_self) (by decide)
      have hsign : signOf (first :: rest) = false := by
        unfold signOf
        rw [beq_eq_false_iff_ne]
        exact fun h => hfirst (Option.some.inj h)
      refine ⟨hsign, ?_⟩
      show unsignedPart (first :: rest) = first :: rest
      unfold unsignedPart
      rw [hsign]
      rfl

theorem utilsTextToInt_eq_some {data : Int64} :
    utilsTextToInt text = some data ↔ text ≠ [] ∧
      (∀ character ∈ unsignedPart text, isDigit character = true) ∧
      PassesGuard 0 (unsignedPart text) ∧
      decimalFrom 0 (unsignedPart text) % 2 ^ 64 ≤ magnitudeBound (signOf text) ∧
      data.toInt = if signOf text then -((decimalFrom 0 (unsignedPart text) % 2 ^ 64 : Nat) : Int)
        else (decimalFrom 0 (unsignedPart text) % 2 ^ 64 : Nat) := by
  by_cases hne : text = []
  · subst hne
    constructor
    · intro h
      cases h
    · rintro ⟨h, -⟩
      exact absurd rfl h
  · have hloop := fun result => @textToUIntLoop_eq_some (unsignedPart text) 0 0 result rfl
    have hread := utilsTextToInt_signedText (signOf_false hne)
    rw [signedText_parts] at hread
    rw [hread]
    constructor
    · intro h
      split at h
      · cases h
      · rename_i result hresult
        obtain ⟨hdigits, hpass, hvalue⟩ := (hloop result).1 hresult
        split at h
        · cases h
        · rename_i hbound
          have hbound := Nat.not_lt.1 hbound
          cases h
          rw [← hvalue]
          exact ⟨hne, hdigits, hpass, hbound, signed_toInt hbound⟩
    · rintro ⟨-, hdigits, hpass, hbound, hdata⟩
      have hvalue : (decimalFrom 0 (unsignedPart text)).toUInt64.toNat =
          decimalFrom 0 (unsignedPart text) % 2 ^ 64 := rfl
      rw [(hloop _).2 ⟨hdigits, hpass, hvalue⟩]
      dsimp only
      rw [hvalue, if_neg (Nat.not_lt.2 hbound), Option.some.injEq, ← Int64.toInt_inj, hdata,
        signed_toInt (by rwa [hvalue]), hvalue]

/-- A signed text whose value does not fit, and that is read. -/
def SlipsThroughSigned (text : List UInt8) : Prop :=
  SlipsThrough (unsignedPart text) ∧
    decimalFrom 0 (unsignedPart text) % 2 ^ 64 ≤ magnitudeBound (signOf text)

instance (text : List UInt8) : Decidable (SlipsThroughSigned text) :=
  inferInstanceAs (Decidable (_ ∧ _))

theorem signedValue_inj {n : Nat}
    (h : signedValue negative digits = if negative then -(n : Int) else n) :
    decimalFrom 0 digits = n := by
  unfold signedValue at h
  cases negative with
  | true =>
    rw [if_pos rfl, if_pos rfl] at h
    omega
  | false =>
    rw [if_neg Bool.false_ne_true, if_neg Bool.false_ne_true] at h
    omega

theorem signedValue_bound {data : Int64} (h : signedValue negative digits = data.toInt) :
    decimalFrom 0 digits ≤ magnitudeBound negative := by
  have hlow := data.le_toInt
  have hhigh := data.toInt_lt
  unfold signedValue at h
  unfold magnitudeBound
  cases negative with
  | true =>
    rw [if_pos rfl] at h ⊢
    omega
  | false =>
    rw [if_neg Bool.false_ne_true] at h ⊢
    omega

theorem magnitudeBound_lt (negative : Bool) : magnitudeBound negative < 2 ^ 64 := by
  cases negative <;> decide

theorem readsInt_iff (text : List UInt8) :
    ReadsInt text ↔ text ≠ [minusSign] ∧ ¬ SlipsThroughSigned text := by
  constructor
  · intro h
    refine ⟨?_, ?_⟩
    · rintro rfl
      obtain ⟨negative, digits, htext, hne, hdigits, -⟩ := (h 0).1 rfl
      have hempty := (signedText_digits negative hne hdigits).2
      rw [← htext] at hempty
      exact hne hempty.symm
    · rintro ⟨⟨hdigits, hbig, hpass⟩, hbound⟩
      have hne : text ≠ [] := by
        rintro rfl
        exact absurd hbig (by decide)
      have hmagnitude : (decimalFrom 0 (unsignedPart text)).toUInt64.toNat ≤
          magnitudeBound (signOf text) := hbound
      have hread := utilsTextToInt_eq_some.2
        ⟨hne, hdigits, hpass, hbound, signed_toInt hmagnitude⟩
      obtain ⟨negative, digits, htext, hdigitsNe, hall, hvalue⟩ := (h _).1 hread
      obtain ⟨hsign, hpart⟩ := signedText_digits negative hdigitsNe hall
      rw [← htext] at hsign hpart
      rw [signed_toInt hmagnitude, hsign, ← hpart] at hvalue
      have hwrapped := signedValue_inj hvalue
      have hlt := (decimalFrom 0 (unsignedPart text)).toUInt64.toNat_lt
      omega
  · rintro ⟨hminus, hslips⟩ data
    rw [utilsTextToInt_eq_some]
    constructor
    · rintro ⟨hne, hdigits, hpass, hbound, hdata⟩
      have hfits : decimalFrom 0 (unsignedPart text) < 2 ^ 64 :=
        Nat.not_le.1 fun hbig => hslips ⟨⟨hdigits, hbig, hpass⟩, hbound⟩
      refine ⟨signOf text, unsignedPart text, (signedText_parts text).symm, ?_, hdigits, ?_⟩
      · intro hempty
        have hparts := signedText_parts text
        rw [hempty] at hparts
        cases hsign : signOf text with
        | true =>
          rw [hsign] at hparts
          exact hminus hparts.symm
        | false =>
          rw [hsign] at hparts
          exact hne hparts.symm
      · rw [hdata, Nat.mod_eq_of_lt hfits]
        rfl
    · rintro ⟨negative, digits, rfl, hne, hdigits, hvalue⟩
      obtain ⟨hsign, hpart⟩ := signedText_digits negative hne hdigits
      have hbound := signedValue_bound hvalue
      have hfits := Nat.lt_of_le_of_lt hbound (magnitudeBound_lt negative)
      rw [hsign, hpart, Nat.mod_eq_of_lt hfits]
      refine ⟨?_, hdigits, passesGuard_of_fits hfits, hbound, hvalue.symm⟩
      intro hempty
      have hpartNil := congrArg unsignedPart hempty
      rw [hpart] at hpartNil
      exact hne hpartNil

/-- A text is read as its value, but for those that slip through and a sign alone. -/
theorem decimalParsing_iff (text : List UInt8) :
    (ReadsUInt text ↔ ¬ SlipsThrough text) ∧
      (ReadsInt text ↔ text ≠ [minusSign] ∧ ¬ SlipsThroughSigned text) :=
  ⟨readsUInt_iff text, readsInt_iff text⟩

/-- "18446744073709551616" is read as 0, and so is "-". -/
theorem overflow_readAsZero :
    ¬ ReadsUInt [49, 56, 52, 52, 54, 55, 52, 52, 48, 55, 51, 55, 48, 57, 53, 53, 49, 54, 49, 54] ∧
      ¬ ReadsInt [minusSign] := by
  refine ⟨fun h => ?_, fun h => ?_⟩
  · obtain ⟨-, -, hvalue⟩ := (h 0).1 (by decide)
    exact absurd hvalue (by decide)
  · obtain ⟨negative, digits, htext, hne, hdigits, -⟩ := (h 0).1 (by decide)
    have hempty := (signedText_digits negative hne hdigits).2
    rw [← htext] at hempty
    exact hne hempty.symm

end Wakaama
