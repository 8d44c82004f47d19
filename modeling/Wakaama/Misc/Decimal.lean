import Mathlib.Data.Nat.Digits.Lemmas

/-!
# Numbers in decimal digits

Nothing here is about a particular program: the text of a number, most significant digit first,
and the value of a text of digits. Reading takes the text back to the number.
-/

namespace Wakaama

/-- The character of a digit. -/
def digitChar (digit : Nat) : UInt8 := (48 + digit).toUInt8

/-- A number as text. -/
def decimalText (n : Nat) : List UInt8 :=
  if n = 0 then [digitChar 0] else (Nat.digits 10 n).reverse.map digitChar

/-- The character is a digit. -/
def isDigit (character : UInt8) : Bool := 48 ≤ character && character ≤ 57

/-- The value of a text of digits behind a number that was read already. -/
def decimalFrom (value : Nat) (text : List UInt8) : Nat :=
  text.foldl (fun value character => value * 10 + (character.toNat - 48)) value

theorem digitChar_toNat {digit : Nat} (h : digit < 10) : (digitChar digit).toNat = 48 + digit := by
  unfold digitChar
  rw [Nat.toUInt8_eq, UInt8.toNat_ofNat']
  omega

theorem isDigit_digitChar {digit : Nat} (h : digit < 10) : isDigit (digitChar digit) = true := by
  have hvalue := digitChar_toNat h
  simp only [isDigit, Bool.and_eq_true, decide_eq_true_eq, UInt8.le_iff_toNat_le, hvalue]
  exact ⟨Nat.le_add_right 48 digit, by simp; omega⟩

theorem decimalText_of_lt {n : Nat} (h : n < 10) : decimalText n = [digitChar n] := by
  unfold decimalText
  split
  · rename_i hzero
    rw [hzero]
  · rename_i hzero
    rw [Nat.digits_of_lt 10 n hzero h]
    rfl

/-- The last digit comes last. -/
theorem decimalText_step {n : Nat} (h : 10 ≤ n) :
    decimalText n = decimalText (n / 10) ++ [digitChar (n % 10)] := by
  have hn : n ≠ 0 := by omega
  have hdiv : n / 10 ≠ 0 := by omega
  unfold decimalText
  rw [if_neg hn, if_neg hdiv, Nat.digits_def' (by decide) (by omega), List.reverse_cons,
    List.map_append]
  rfl

/-- Induction along the digits. -/
theorem decimalText_induction {P : Nat → Prop} (single : ∀ n < 10, P n)
    (step : ∀ n, 10 ≤ n → P (n / 10) → P n) (n : Nat) : P n := by
  induction n using Nat.strongRecOn with
  | ind n ih =>
    by_cases h : n < 10
    · exact single n h
    · exact step n (by omega) (ih (n / 10) (by omega))

theorem decimalText_ne_nil (n : Nat) : decimalText n ≠ [] := by
  induction n using decimalText_induction with
  | single n h => simp [decimalText_of_lt h]
  | step n h ih => simp [decimalText_step h]

theorem decimalText_isDigit (n : Nat) : ∀ character ∈ decimalText n, isDigit character = true := by
  induction n using decimalText_induction with
  | single n h =>
    rw [decimalText_of_lt h]
    intro character hmem
    obtain rfl := List.mem_singleton.mp hmem
    exact isDigit_digitChar h
  | step n h ih =>
    rw [decimalText_step h]
    intro character hmem
    rcases List.mem_append.mp hmem with hmem | hmem
    · exact ih character hmem
    · obtain rfl := List.mem_singleton.mp hmem
      exact isDigit_digitChar (Nat.mod_lt n (by decide))

theorem decimalFrom_append (value : Nat) (text text' : List UInt8) :
    decimalFrom value (text ++ text') = decimalFrom (decimalFrom value text) text' := by
  unfold decimalFrom
  exact List.foldl_append

theorem decimalFrom_le (value : Nat) (text : List UInt8) : value ≤ decimalFrom value text := by
  induction text generalizing value with
  | nil => exact Nat.le_refl value
  | cons character text ih =>
    calc value ≤ value * 10 + (character.toNat - 48) := by omega
      _ ≤ decimalFrom value (character :: text) := ih _

/-- Reading a number's text gives the number. -/
theorem decimalFrom_decimalText (n : Nat) : decimalFrom 0 (decimalText n) = n := by
  induction n using decimalText_induction with
  | single n h =>
    rw [decimalText_of_lt h]
    simp [decimalFrom, digitChar_toNat h]
  | step n h ih =>
    have hlast := digitChar_toNat (Nat.mod_lt n (by decide : 0 < 10))
    rw [decimalText_step h, decimalFrom_append, ih]
    simp only [decimalFrom, List.foldl_cons, List.foldl_nil, hlast]
    omega

theorem decimalText_length_le {n k : Nat} (h : n < 10 ^ (k + 1)) : (decimalText n).length ≤ k + 1 := by
  unfold decimalText
  split
  · exact Nat.succ_le_succ (Nat.zero_le k)
  · rw [List.length_map, List.length_reverse]
    exact (Nat.digits_length_le_iff (by decide) n).mpr h

theorem decimalText_length_pos (n : Nat) : 0 < (decimalText n).length :=
  List.length_pos_iff.mpr (decimalText_ne_nil n)

end Wakaama
