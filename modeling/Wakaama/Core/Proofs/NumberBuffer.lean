import Wakaama.Core.NumberBuffer
import Wakaama.Core.Proofs.TextToNumber

/-!
# Numbers in buffers

A number is written when its text fits, and a result other than 0 is the length of the text. The
index into the buffer is an `int`, which a longer buffer than 2^31 bytes takes too far.
-/

namespace Wakaama

/-! ## The digits -/

theorem lastDigit_eq (data : UInt64) : lastDigit data = digitChar (data.toNat % 10) := by
  apply UInt8.toNat_inj.mp
  rw [digitChar_toNat (Nat.mod_lt _ (by decide)), lastDigit, UInt64.toNat_toUInt8,
    UInt64.toNat_add, UInt64.toNat_mod]
  simp
  omega

theorem div_toNat (data : UInt64) : (data / 10).toNat = data.toNat / 10 := by
  rw [UInt64.toNat_div]
  rfl

theorem div_pos_iff {data : UInt64} : 0 < data / 10 ↔ 10 ≤ data.toNat := by
  rw [UInt64.lt_iff_toNat_lt, div_toNat]
  show 0 < data.toNat / 10 ↔ _
  omega

variable {n length : Nat} {memory : List UInt8} {data : Int64}

theorem exists_snoc {left : List UInt8} (h : left.length = n + 1) :
    ∃ init old, left = init ++ [old] ∧ init.length = n := by
  have hne : left ≠ [] := by
    rintro rfl
    cases h
  refine ⟨left.dropLast, left.getLast hne, (List.dropLast_append_getLast hne).symm, ?_⟩
  rw [List.length_dropLast, h, Nat.add_sub_cancel]

theorem uintToTextDigits_step (front init right : List UInt8) (old : UInt8) (data : UInt64) :
    uintToTextDigits front.length init.length data (front ++ (init ++ [old] ++ right)) =
      if 10 ≤ data.toNat ∧ 0 < init.length then
        uintToTextDigits front.length (init.length - 1) (data / 10)
          (front ++ (init ++ ([lastDigit data] ++ right)))
      else .ok (front ++ (init ++ ([lastDigit data] ++ right)), data / 10, init.length - 1) := by
  have hstore : storeByte (front ++ (init ++ [old] ++ right)) (front.length + init.length : Nat)
      (lastDigit data) = .ok (front ++ (init ++ ([lastDigit data] ++ right))) := by
    have hplace := @storeByte_place (front ++ init) right (front.length + init.length) old
      (lastDigit data) List.length_append.symm
    simpa only [List.append_assoc, List.cons_append, List.nil_append] using hplace
  cases hindex : init.length with
  | zero =>
    rw [hindex, Nat.add_zero] at hstore
    rw [uintToTextDigits, hstore, ok_bind, if_neg fun h => Nat.lt_irrefl 0 h.2]
    rfl
  | succ index =>
    rw [hindex] at hstore
    rw [uintToTextDigits, hstore, ok_bind]
    by_cases hmore : 10 ≤ data.toNat
    · rw [if_pos (div_pos_iff.2 hmore), if_pos ⟨hmore, Nat.succ_pos index⟩]
      rfl
    · rw [if_neg fun h => hmore (div_pos_iff.1 h), if_neg fun h => hmore h.1]
      simp only [pure, Except.pure, Nat.cast_add, Nat.cast_one, add_sub_cancel_right]

theorem uintToTextDigits_fits (front : List UInt8) :
    ∀ {data : UInt64} {left right : List UInt8} {index : Nat}, left.length = index + 1 →
      (decimalText data.toNat).length ≤ index + 1 →
      uintToTextDigits front.length index data (front ++ (left ++ right)) =
        .ok (front ++ (left.take (index + 1 - (decimalText data.toNat).length) ++
          (decimalText data.toNat ++ right)), 0,
            (index : Int) - (decimalText data.toNat).length) := by
  suffices h : ∀ (n : Nat) {data : UInt64} {left right : List UInt8} {index : Nat},
      data.toNat = n → left.length = index + 1 → (decimalText n).length ≤ index + 1 →
      uintToTextDigits front.length index data (front ++ (left ++ right)) =
        .ok (front ++ (left.take (index + 1 - (decimalText n).length) ++
          (decimalText n ++ right)), 0, (index : Int) - (decimalText n).length) by
    intro data left right index hleft hfits
    exact h data.toNat rfl hleft hfits
  intro n
  induction n using decimalText_induction with
  | single n hsmall =>
    intro data left right index hdata hleft _
    obtain ⟨init, old, rfl, rfl⟩ := exists_snoc hleft
    have hzero : data / 10 = 0 := by
      apply UInt64.toNat_inj.1
      rw [div_toNat, hdata, Nat.div_eq_of_lt hsmall]
      rfl
    rw [uintToTextDigits_step, if_neg fun h => absurd h.1 (by omega), hzero,
      decimalText_of_lt hsmall, lastDigit_eq, hdata, Nat.mod_eq_of_lt hsmall, List.length_singleton,
      Nat.add_sub_cancel, List.take_left' rfl]
    rfl
  | step n hbig ih =>
    intro data left right index hdata hleft hfits
    obtain ⟨init, old, rfl, rfl⟩ := exists_snoc hleft
    rw [decimalText_step hbig, List.length_append, List.length_singleton] at hfits ⊢
    have hpos := decimalText_length_pos (n / 10)
    have hinit : init.length = init.length - 1 + 1 := by omega
    have hdiv : (data / 10).toNat = n / 10 := by rw [div_toNat, hdata]
    have htake : (init ++ [old]).take (init.length + 1 - ((decimalText (n / 10)).length + 1)) =
        init.take (init.length - 1 + 1 - (decimalText (n / 10)).length) := by
      rw [List.take_append_of_le_length (by omega)]
      congr 1
      omega
    have hindex : ((init.length - 1 : Nat) : Int) - (decimalText (n / 10)).length =
        (init.length : Int) - ((decimalText (n / 10)).length + 1 : Nat) := by omega
    rw [uintToTextDigits_step, if_pos ⟨by omega, by omega⟩, ih hdiv hinit (by omega), lastDigit_eq,
      hdata, htake, hindex, List.append_assoc (decimalText (n / 10))]

theorem ten_le_of_length (h : 1 < (decimalText n).length) : 10 ≤ n := by
  refine Nat.not_lt.1 fun hsmall => ?_
  rw [decimalText_of_lt hsmall] at h
  exact Nat.lt_irrefl 1 h

theorem uintToTextDigits_short (front : List UInt8) :
    ∀ {index : Nat} {data : UInt64} {left right : List UInt8}, left.length = index + 1 →
      index + 1 < (decimalText data.toNat).length →
      ∃ left' data', uintToTextDigits front.length index data (front ++ (left ++ right)) =
        .ok (front ++ (left' ++ right), data', -1) ∧ 0 < data' ∧ left'.length = left.length := by
  intro index
  induction index with
  | zero =>
    intro data left right hleft hshort
    obtain ⟨init, old, rfl, hinit⟩ := exists_snoc hleft
    have hstep := uintToTextDigits_step front init right old data
    rw [hinit, if_neg fun h => Nat.lt_irrefl 0 h.2] at hstep
    refine ⟨init ++ [lastDigit data], data / 10, ?_, div_pos_iff.2 (ten_le_of_length hshort), ?_⟩
    · rw [hstep, List.append_assoc init]
      rfl
    · simp only [List.length_append, List.length_singleton]
  | succ index ih =>
    intro data left right hleft hshort
    obtain ⟨init, old, rfl, hinit⟩ := exists_snoc hleft
    have hbig : 10 ≤ data.toNat := ten_le_of_length (by omega)
    have hstep := uintToTextDigits_step front init right old data
    rw [hinit, if_pos ⟨hbig, Nat.succ_pos index⟩] at hstep
    have hrest : index + 1 < (decimalText (data / 10).toNat).length := by
      rw [decimalText_step hbig, List.length_append, List.length_singleton] at hshort
      rw [div_toNat]
      omega
    obtain ⟨left', data', hrun, hpos, hlength⟩ :=
      @ih (data / 10) init ([lastDigit data] ++ right) hinit hrest
    refine ⟨left' ++ [lastDigit data], data', ?_, hpos, ?_⟩
    · rw [hstep, Nat.add_sub_cancel, hrun, List.append_assoc left']
    · rw [List.length_append, List.length_append, hlength]
      rfl

/-! ## `utils_uintToText` -/

theorem cInt_narrow (h : n < 2 ^ 31) : cInt n = n := by
  unfold cInt
  rw [Int.bmod_def]
  split <;> omega

theorem cInt_wide {n : Nat} (h : 2 ^ 31 ≤ n) : cInt n + 2 ^ 32 ≤ n := by
  unfold cInt
  rw [Int.bmod_def]
  split <;> omega

theorem cInt_high (n : Int) : cInt n < 2 ^ 31 := by
  unfold cInt
  rw [Int.bmod_def]
  split <;> omega

/-- The text fits in front of the index: it stands at the start of the buffer, and the result is
the distance of the text's end to the end of the buffer. With the index in the front half nothing
but what the buffer held stands behind the text. -/
theorem utilsUintToTextAt_fits {data : UInt64} {front area back : List UInt8} {index : Nat}
    (hindex : cInt (area.length - 1 : Nat) = index) (hinside : index < area.length)
    (hsize : area.length < 2 ^ 64) (hfits : (decimalText data.toNat).length ≤ index + 1) :
    ∃ rest, utilsUintToTextAt data front.length area.length (front ++ area ++ back) =
        .ok (front ++ (decimalText data.toNat ++ rest) ++ back,
          area.length - (index + 1 - (decimalText data.toNat).length)) ∧
      (decimalText data.toNat).length + rest.length = area.length ∧
      (2 * (index + 1) ≤ area.length → ∀ byte ∈ rest, byte = 0 ∨ byte ∈ area) := by
  obtain ⟨left, right, rfl, hleft⟩ : ∃ left right, area = left ++ right ∧ left.length = index + 1 :=
    ⟨area.take (index + 1), area.drop (index + 1), (List.take_append_drop _ _).symm,
      List.length_take_of_le hinside⟩
  have hpos := decimalText_length_pos data.toNat
  have hlength : (left ++ right).length = index + 1 + right.length := by
    rw [List.length_append, hleft]
  obtain ⟨gap, hgap⟩ : ∃ gap, index + 1 = gap + (decimalText data.toNat).length :=
    ⟨index + 1 - (decimalText data.toNat).length, by omega⟩
  have hdo : uintToTextDo front.length index data (front ++ (left ++ right) ++ back) =
      .ok (front ++ (left.take gap ++ (decimalText data.toNat ++ right)) ++ back, 0,
        (gap : Int) - 1) := by
    have hrun := @uintToTextDigits_fits front data left (right ++ back) index hleft hfits
    have htake : index + 1 - (decimalText data.toNat).length = gap := by omega
    have hlast : (index : Int) - (decimalText data.toNat).length = (gap : Int) - 1 := by omega
    rw [htake, hlast] at hrun
    simp only [List.append_assoc] at hrun ⊢
    exact hrun
  have hresult : sizeT ((left ++ right).length - (gap - 1 + 1 : Int)) =
      (left ++ right).length - gap := by
    unfold sizeT
    omega
  have hdistance : (left ++ right).length - (index + 1 - (decimalText data.toNat).length) =
      (left ++ right).length - gap := by omega
  unfold utilsUintToTextAt
  rw [if_neg (by omega), hindex, hdo, ok_bind]
  dsimp only
  rw [if_neg (by decide), hresult, hdistance]
  cases gap with
  | zero =>
    rw [if_neg (by omega)]
    exact ⟨right, by rw [List.take_zero, List.nil_append]; rfl, by omega,
      fun _ byte hmem => .inr (List.mem_append_right left hmem)⟩
  | succ gap =>
    have hmoved : (left ++ right).length - (gap + 1) = (decimalText data.toNat ++ right).length := by
      rw [hlength, List.length_append]
      omega
    have hmove := @moveBytes_place front (left.take (gap + 1))
      (decimalText data.toNat ++ right) back front.length (front.length + ((gap + 1 : Nat) - 1 + 1))
      ((left ++ right).length - (gap + 1)) rfl
      (by rw [List.length_append, List.length_take_of_le (by omega)]; omega)
      hmoved
    have hbehind : 2 * (index + 1) ≤ (left ++ right).length → ∀ byte ∈ (left.take (gap + 1) ++
        (decimalText data.toNat ++ right)).drop (decimalText data.toNat ++ right).length,
        byte ∈ right := by
      intro hhalf byte hmem
      rw [← List.append_assoc, List.drop_append, List.drop_of_length_le, List.nil_append] at hmem
      · exact List.mem_of_mem_drop hmem
      · rw [List.length_append, List.length_append, List.length_take_of_le (by omega)]
        omega
    have hrest := moved_length (left.take (gap + 1)) (decimalText data.toNat ++ right)
    rw [List.length_take_of_le (by omega)] at hrest
    rw [if_pos (by omega), hmove, ok_bind]
    obtain ⟨old, rest, hdrop⟩ := List.exists_cons_of_length_eq_add_one hrest
    have hstore := @storeByte_place (front ++ (decimalText data.toNat ++ right)) (rest ++ back)
      (front.length + ((left ++ right).length - (gap + 1))) old 0
      (by rw [hmoved]; exact List.length_append.symm)
    rw [hdrop] at hrest hbehind ⊢
    simp only [List.append_assoc, List.cons_append] at hstore ⊢
    rw [hstore, ok_bind]
    refine ⟨right ++ 0 :: rest, ?_, ?_, ?_⟩
    · simp only [List.append_assoc, List.cons_append]
      rfl
    · rw [List.length_append, List.length_cons]
      rw [List.length_cons] at hrest
      omega
    · intro hhalf byte hmem
      rcases List.mem_append.1 hmem with hright | hrest
      · exact .inr (List.mem_append_right left hright)
      · rcases List.mem_cons.1 hrest with rfl | hbyte
        · exact .inl rfl
        · exact .inr (List.mem_append_right left (hbehind hhalf byte (List.mem_cons_of_mem _ hbyte)))

theorem utilsUintToTextAt_short {data : UInt64} {front area back : List UInt8} {index : Nat}
    (hindex : cInt (area.length - 1 : Nat) = index) (hinside : index < area.length)
    (hshort : index + 1 < (decimalText data.toNat).length) :
    ∃ area', utilsUintToTextAt data front.length area.length (front ++ area ++ back) =
        .ok (front ++ area' ++ back, 0) ∧ area'.length = area.length := by
  obtain ⟨left, right, rfl, hleft⟩ : ∃ left right, area = left ++ right ∧ left.length = index + 1 :=
    ⟨area.take (index + 1), area.drop (index + 1), (List.take_append_drop _ _).symm,
      List.length_take_of_le hinside⟩
  obtain ⟨left', data', hrun, hpos, hlength⟩ :=
    @uintToTextDigits_short front index data left (right ++ back) hleft hshort
  refine ⟨left' ++ right, ?_, by rw [List.length_append, List.length_append, hlength]⟩
  have hdo : uintToTextDo front.length index data (front ++ (left ++ right) ++ back) =
      .ok (front ++ (left' ++ right) ++ back, data', -1) := by
    simp only [List.append_assoc] at hrun ⊢
    exact hrun
  unfold utilsUintToTextAt
  rw [if_neg (Nat.ne_of_gt (Nat.lt_of_le_of_lt (Nat.zero_le index) hinside)), hindex, hdo, ok_bind]
  exact if_pos hpos

theorem utilsUintToTextAt_narrow (data : UInt64) {front area back : List UInt8}
    (hlength : area.length ≤ 2 ^ 31) :
    ∃ area', utilsUintToTextAt data front.length area.length (front ++ area ++ back) =
        .ok (front ++ area' ++ back, (utilsUintToText data area.length).length) ∧
      area'.length = area.length ∧
      utilsUintToText data area.length = area'.take (utilsUintToText data area.length).length := by
  cases area with
  | nil => exact ⟨[], rfl, rfl, rfl⟩
  | cons first area =>
    have hindex : cInt ((first :: area).length - 1 : Nat) = area.length := by
      rw [List.length_cons] at hlength ⊢
      exact cInt_narrow (by omega)
    rw [utilsUintToText_eq]
    split
    · rename_i hfits
      obtain ⟨rest, hrun, hrest, -⟩ := @utilsUintToTextAt_fits data front (first :: area) back
        area.length hindex (Nat.lt_succ_self _) (by omega) hfits
      rw [List.length_cons] at hrun hfits
      rw [Nat.sub_sub_self hfits] at hrun
      exact ⟨decimalText data.toNat ++ rest, hrun, by rw [List.length_append, hrest],
        (List.take_left' rfl).symm⟩
    · rename_i hshort
      obtain ⟨area', hrun, harea⟩ := @utilsUintToTextAt_short data front (first :: area) back
        area.length hindex (Nat.lt_succ_self _) (Nat.not_le.1 hshort)
      exact ⟨area', hrun, harea, rfl⟩

theorem utilsUintToTextAt_astray {data : UInt64} {string below : Nat} (hpos : 0 < length)
    (hindex : cInt (length - 1 : Nat) = .negSucc below) (hsize : length + below + 1 < 2 ^ 64) :
    utilsUintToTextAt data string length memory = (do
      let memory ← storeByte memory (string + .negSucc below) (lastDigit data)
      return (memory, if 10 ≤ data.toNat then 0 else length + below + 1)) := by
  unfold utilsUintToTextAt
  rw [if_neg (Nat.ne_of_gt hpos), hindex, uintToTextDo]
  cases storeByte memory (string + .negSucc below) (lastDigit data) with
  | error fault => rfl
  | ok memory =>
    have hresult : sizeT (length - (Int.negSucc (below + 1) + 1)) = length + below + 1 := by
      unfold sizeT
      omega
    simp only [ok_bind, pure, Except.pure]
    rw [hresult]
    by_cases hbig : 10 ≤ data.toNat
    · rw [if_pos (div_pos_iff.2 hbig), if_pos hbig]
    · rw [if_neg fun h => hbig (div_pos_iff.1 h), if_neg hbig, if_neg (by omega)]

theorem utilsUintToTextAt_outside {data : UInt64} {string below : Nat} (hpos : 0 < length)
    (hindex : cInt (length - 1 : Nat) = .negSucc below)
    (hbefore : ¬ 0 ≤ (string : Int) + .negSucc below) :
    utilsUintToTextAt data string length memory = .error .outOfBounds := by
  unfold utilsUintToTextAt
  rw [if_neg (Nat.ne_of_gt hpos), hindex, uintToTextDo, storeByte_outside fun h => hbefore h.1]
  rfl

theorem utilsUintToTextAt_wide {data : UInt64} {front area back memory : List UInt8} {n : Nat}
    (hlength : 2 ^ 31 < area.length) (hsize : front.length + area.length < 2 ^ 64)
    (hfront : front.length ≤ 1)
    (h : utilsUintToTextAt data front.length area.length (front ++ area ++ back) =
      .ok (memory, n)) :
    n = 0 ∨ 2 ^ 31 < n ∧ n ≤ front.length + area.length ∧ area.length ≤ n + 2 ^ 31 ∧
      memory.length = (front ++ area ++ back).length := by
  have hwide := @cInt_wide (area.length - 1) (by omega)
  cases hindex : cInt (area.length - 1 : Nat) with
  | ofNat index =>
    rw [hindex] at hwide
    change ((index : Nat) : Int) + 2 ^ 32 ≤ (area.length - 1 : Nat) at hwide
    have hinside : index < area.length := by omega
    by_cases hfits : (decimalText data.toNat).length ≤ index + 1
    · obtain ⟨rest, hrun, hrest, -⟩ := @utilsUintToTextAt_fits data front area back index hindex hinside
        (by omega) hfits
      rw [hrun] at h
      cases h
      have hhigh := cInt_high (area.length - 1 : Nat)
      rw [hindex] at hhigh
      change (index : Int) < 2 ^ 31 at hhigh
      refine .inr ⟨by omega, by omega, by omega, ?_⟩
      simp only [List.length_append]
      omega
    · obtain ⟨area', hrun, -⟩ := @utilsUintToTextAt_short data front area back index hindex hinside
        (Nat.not_le.1 hfits)
      rw [hrun] at h
      cases h
      exact .inl rfl
  | negSucc below =>
    by_cases hinside : 0 ≤ (front.length : Int) + .negSucc below
    · rw [utilsUintToTextAt_astray (by omega) hindex (by omega)] at h
      obtain ⟨stored, hstore, hresult⟩ := bind_eq_ok.1 h
      cases hresult
      split
      · exact .inl rfl
      · exact .inr ⟨by omega, by omega, by omega, storeByte_length hstore⟩
    · rw [utilsUintToTextAt_outside (by omega) hindex hinside] at h
      cases h

/-! ## The magnitude of an integer -/

theorem toInt_eq_toUInt64 (data : Int64) : data.toInt =
    if 2 * data.toUInt64.toNat < 2 ^ 64 then (data.toUInt64.toNat : Int)
    else data.toUInt64.toNat - 2 ^ 64 := toInt64_toInt data.toUInt64

theorem int64_neg_iff {data : Int64} : data < 0 ↔ data.toInt < 0 := Int64.lt_iff_toInt_lt

theorem toUInt64_of_nonneg (h : ¬ data < 0) : data.toUInt64.toNat = data.toInt.natAbs := by
  have hvalue := toInt_eq_toUInt64 data
  have hlt := data.toUInt64.toNat_lt
  rw [int64_neg_iff] at h
  split at hvalue <;> omega

theorem neg_toUInt64_of_neg (h : data < 0) : (-data).toUInt64.toNat = data.toInt.natAbs := by
  have hvalue := toInt_eq_toUInt64 data
  have hlt := data.toUInt64.toNat_lt
  have hneg : (-data).toUInt64.toNat = (2 ^ 64 - data.toUInt64.toNat) % 2 ^ 64 :=
    BitVec.toNat_neg data.toBitVec
  rw [int64_neg_iff] at h
  rw [hneg]
  split at hvalue <;> omega

theorem natAbs_bound (data : Int64) : data.toInt.natAbs ≤ 2 ^ 63 := by
  have hlow := data.le_toInt
  have hhigh := data.toInt_lt
  omega

/-- The decimal text of an integer. -/
def intText (data : Int64) : List UInt8 := signedText (data < 0) (decimalText data.toInt.natAbs)

/-! ## What is exact -/

/-- A writer is exact on a text in a buffer of a length: whatever the buffer holds, it writes
inside only, the result is 0 if and only if the text is longer, and otherwise it is the length of
the text, which stands in the buffer. -/
def WritesExactly (write : List UInt8 → Except Fault (List UInt8 × Nat)) (text : List UInt8)
    (length : Nat) : Prop :=
  ∀ memory, memory.length = length → ∃ memory' n, write memory = .ok (memory', n) ∧
    memory'.length = length ∧ (n = 0 ↔ length < text.length) ∧
      (n ≠ 0 → n = text.length ∧ memory'.take n = text)

theorem WritesExactly.result {write : List UInt8 → Except Fault (List UInt8 × Nat)}
    {text : List UInt8} (h : WritesExactly write text length) (hfits : text.length ≤ length) :
    ∃ memory', write (List.replicate length 0) =
      .ok (memory', text.length) := by
  obtain ⟨memory', n, hrun, -, hzero, htext⟩ := h (List.replicate length 0) List.length_replicate
  have hne : n ≠ 0 := fun hn => Nat.not_lt.2 hfits (hzero.1 hn)
  exact ⟨memory', by rw [hrun, (htext hne).1]⟩

theorem writesExactly_of_text {write : List UInt8 → Except Fault (List UInt8 × Nat)}
    {text : List UInt8} (hpos : 0 < text.length)
    (h : ∀ memory, memory.length = length → ∃ memory', memory'.length = length ∧ write memory = .ok (memory', if text.length ≤ length then text.length else 0) ∧ (text.length ≤ length → memory'.take text.length = text)) :
    WritesExactly write text length := by
  intro memory hmemory
  obtain ⟨memory', hlength, hrun, htext⟩ := h memory hmemory
  refine ⟨memory', _, hrun, hlength, ?_, ?_⟩
  · split
    · rename_i hfits
      exact iff_of_false (Nat.ne_of_gt hpos) (Nat.not_lt.2 hfits)
    · rename_i hshort
      exact iff_of_true rfl (Nat.not_le.1 hshort)
  · split
    · rename_i hfits
      exact fun _ => ⟨rfl, htext hfits⟩
    · exact fun h => absurd rfl h

theorem decimalText_uint64_length (data : UInt64) : (decimalText data.toNat).length ≤ 20 := by
  have hlt := data.toNat_lt
  exact @decimalText_length_le data.toNat 19 (by omega)

theorem utilsUintToTextAt_exact_iff (data : UInt64) (hsize : length < 2 ^ 64) :
    WritesExactly (utilsUintToTextAt data 0 length) (decimalText data.toNat) length ↔
      length ≤ 2 ^ 31 := by
  constructor
  · intro h
    refine Nat.not_lt.1 fun hwide => ?_
    have hshort := decimalText_uint64_length data
    have hpos := decimalText_length_pos data.toNat
    obtain ⟨memory', hrun⟩ := h.result (by omega)
    have hbad := @utilsUintToTextAt_wide data [] (List.replicate length 0) [] memory' _
      (by rwa [List.length_replicate]) (by rw [List.length_replicate]; simpa using hsize)
      (Nat.zero_le 1) (by rw [List.length_replicate, List.nil_append, List.append_nil]; exact hrun)
    omega
  · intro hnarrow
    apply writesExactly_of_text (decimalText_length_pos data.toNat)
    intro memory hmemory
    obtain ⟨memory', hrun, hlength, htake⟩ :=
      @utilsUintToTextAt_narrow data [] memory [] (by rwa [hmemory])
    simp only [List.nil_append, List.append_nil, hmemory, List.length_nil] at hrun hlength htake
    rw [utilsUintToText_eq] at hrun htake
    refine ⟨memory', hlength, ?_, ?_⟩
    · rw [hrun]
      split <;> rfl
    · intro hfits
      rw [if_pos hfits] at htake
      exact htake.symm

/-! ## `utils_intToText` -/

theorem intText_of_nonneg (h : ¬ data < 0) : intText data = decimalText data.toUInt64.toNat := by
  rw [intText, decide_eq_false h, toUInt64_of_nonneg h]
  rfl

theorem intText_of_neg (h : data < 0) :
    intText data = minusSign :: decimalText (-data).toUInt64.toNat := by
  rw [intText, decide_eq_true h, neg_toUInt64_of_neg h]
  rfl

theorem intText_minValue : intText Int64.minValue = int64MinText := by
  have htext := utilsUintToText_eq 9223372036854775808 19
  have hdigits : utilsUintToText 9223372036854775808 19 = int64MinText.tail := by decide
  rw [hdigits] at htext
  split at htext
  · show minusSign :: decimalText (9223372036854775808 : UInt64).toNat = _
    rw [← htext]
    rfl
  · cases htext

theorem utilsIntToTextAt_of_neg (hneg : data < 0) (hmin : data ≠ Int64.minValue) (first : UInt8)
    (rest : List UInt8) :
    utilsIntToTextAt data 0 (first :: rest).length (first :: rest) = (do
      let (memory, result) ←
        utilsUintToTextAt (-data).toUInt64 1 rest.length (minusSign :: rest)
      return (memory, if result ≠ 0 then sizeT (result + 1) else 0)) := by
  unfold utilsIntToTextAt
  rw [if_pos hneg, if_neg (show ¬ (first :: rest).length = 0 from nofun),
    storeByte_head, ok_bind, if_neg hmin]
  rfl

/-- The lengths of buffers in which `utils_intToText` is exact. -/
def IntTextLength (data : Int64) (length : Nat) : Prop :=
  if data = Int64.minValue then length ≠ int64MinText.length
  else if data < 0 then length ≤ 2 ^ 31 + 1
  else length ≤ 2 ^ 31

theorem utilsIntToTextAt_exact_of_neg (hneg : data < 0) (hmin : data ≠ Int64.minValue)
    (hsize : length < 2 ^ 64) :
    WritesExactly (utilsIntToTextAt data 0 length) (intText data) length ↔
      length ≤ 2 ^ 31 + 1 := by
  have hpos := decimalText_length_pos (-data).toUInt64.toNat
  have hshort := decimalText_uint64_length (-data).toUInt64
  have htext := intText_of_neg hneg
  have hlength : (intText data).length = (decimalText (-data).toUInt64.toNat).length + 1 := by
    rw [htext]
    rfl
  constructor
  · intro h
    refine Nat.not_lt.1 fun hwide => ?_
    obtain ⟨memory', hrun⟩ := h.result (by omega)
    obtain ⟨rest, rfl⟩ : ∃ rest, length = rest + 1 := ⟨length - 1, by omega⟩
    have hrepl : List.replicate (rest + 1) (0 : UInt8) = 0 :: List.replicate rest 0 := rfl
    have hof := utilsIntToTextAt_of_neg hneg hmin 0 (List.replicate rest 0)
    rw [List.length_cons, List.length_replicate] at hof
    rw [hrepl, hof] at hrun
    obtain ⟨⟨memory, n⟩, hcall, hresult⟩ := bind_eq_ok.1 hrun
    have hbad := @utilsUintToTextAt_wide (-data).toUInt64 [minusSign] (List.replicate rest 0) []
      memory n (by rw [List.length_replicate]; omega)
      (by rw [List.length_replicate, List.length_singleton]; omega) (Nat.le_refl 1)
      (by rw [List.length_replicate, List.append_nil]; exact hcall)
    rw [List.length_singleton, List.length_replicate] at hbad
    have hn : (if n ≠ 0 then sizeT (n + 1) else 0) = (intText data).length :=
      congrArg Prod.snd (Except.ok.inj hresult)
    unfold sizeT at hn
    split at hn <;> omega
  · intro hnarrow
    apply writesExactly_of_text (by omega)
    intro memory hmemory
    cases memory with
    | nil =>
      subst hmemory
      refine ⟨[], rfl, ?_, ?_⟩
      · unfold utilsIntToTextAt
        rw [if_pos hneg, if_pos List.length_nil, if_neg (by rw [List.length_nil]; omega)]
      · intro hfits
        rw [List.length_nil] at hfits
        omega
    | cons first rest =>
      subst hmemory
      rw [utilsIntToTextAt_of_neg hneg hmin]
      obtain ⟨area, hrun, harea, htake⟩ :=
        @utilsUintToTextAt_narrow (-data).toUInt64 [minusSign] rest []
          (by rw [List.length_cons] at hnarrow; omega)
      simp only [List.append_nil, List.length_singleton, List.cons_append, List.nil_append]
        at hrun
      rw [utilsUintToText_eq] at hrun htake
      rw [hrun, ok_bind, hlength, htext]
      refine ⟨minusSign :: area, by rw [List.length_cons, harea]; rfl, ?_, ?_⟩
      · by_cases hfits : (decimalText (-data).toUInt64.toNat).length ≤ rest.length
        · have hresult : sizeT ((decimalText (-data).toUInt64.toNat).length + 1) =
              (decimalText (-data).toUInt64.toNat).length + 1 := by
            unfold sizeT
            omega
          rw [if_pos hfits, List.length_cons, if_pos (Nat.add_le_add_right hfits 1)]
          dsimp only
          rw [if_pos (Nat.ne_of_gt hpos), hresult]
          rfl
        · rw [if_neg hfits, if_neg (by rw [List.length_cons]; omega)]
          rfl
      · intro hfits
        rw [if_pos (Nat.le_of_succ_le_succ hfits)] at htake
        rw [List.take_succ_cons, ← htake]

/-- The text of the least integer is not written into a buffer of just its length. -/
theorem utilsIntToTextAt_exact_minValue (length : Nat) :
    WritesExactly (utilsIntToTextAt Int64.minValue 0 length) (intText Int64.minValue) length ↔
      length ≠ int64MinText.length := by
  rw [intText_minValue]
  have hneg : Int64.minValue < 0 := by decide
  constructor
  · rintro h rfl
    obtain ⟨memory', hrun⟩ := h.result (Nat.le_refl _)
    cases hrun
  · intro hne
    apply writesExactly_of_text (by decide)
    intro memory hmemory
    cases memory with
    | nil =>
      subst hmemory
      exact ⟨[], rfl, rfl, fun hfits => absurd hfits (by decide)⟩
    | cons first rest =>
      have hstart : utilsIntToTextAt Int64.minValue 0 length (first :: rest) =
          if length ≤ int64MinText.length then .ok (minusSign :: rest, 0)
          else do
            let memory ← storeBytes (minusSign :: rest) 0 int64MinText
            let memory ← storeByte memory (0 + int64MinText.length : Nat) 0
            return (memory, int64MinText.length) := by
        unfold utilsIntToTextAt
        rw [if_pos hneg, if_neg (by rw [← hmemory]; exact Nat.succ_ne_zero _), storeByte_head,
          ok_bind, if_pos rfl]
        rfl
      by_cases hshort : length ≤ int64MinText.length
      · have hless : ¬ int64MinText.length ≤ length := by omega
        rw [hstart, if_pos hshort, if_neg hless]
        exact ⟨minusSign :: rest, hmemory, rfl, fun hfits => absurd hfits hless⟩
      · have hfits : int64MinText.length < (minusSign :: rest).length := by
          rw [List.length_cons] at hmemory ⊢
          omega
        obtain ⟨place, old, back, hsplit, hplace⟩ := split_at_address hfits
        have hcopy := @storeBytes_place [] place (old :: back) int64MinText 0 rfl hplace.symm
        rw [List.nil_append, List.nil_append, ← hsplit] at hcopy
        rw [hstart, if_neg hshort, if_pos (by omega), hcopy, ok_bind,
          @storeByte_place int64MinText back (0 + int64MinText.length) old 0 (Nat.zero_add _)]
        refine ⟨int64MinText ++ 0 :: back, ?_, rfl, fun _ => List.take_left' rfl⟩
        have hlength := congrArg List.length hsplit
        rw [List.length_append, hplace] at hlength
        rw [List.length_append, List.length_cons, ← hmemory]
        exact hlength.symm

theorem utilsIntToTextAt_exact_iff (data : Int64) (hsize : length < 2 ^ 64) :
    WritesExactly (utilsIntToTextAt data 0 length) (intText data) length ↔
      IntTextLength data length := by
  unfold IntTextLength
  split
  · rename_i hmin
    subst hmin
    exact utilsIntToTextAt_exact_minValue length
  · rename_i hmin
    split
    · rename_i hneg
      exact utilsIntToTextAt_exact_of_neg hneg hmin hsize
    · rename_i hneg
      have hwrite : utilsIntToTextAt data 0 length = utilsUintToTextAt data.toUInt64 0 length := by
        funext memory
        unfold utilsIntToTextAt
        exact if_neg hneg
      rw [hwrite, intText_of_nonneg hneg]
      exact utilsUintToTextAt_exact_iff data.toUInt64 hsize

/-! ## `utils_objLinkToText` -/

/-- The text of an object link. -/
def objLinkDecimal (objectId objectInstanceId : UInt16) : List UInt8 :=
  decimalText objectId.toNat ++ 58 :: decimalText objectInstanceId.toNat

theorem decimalText_uint16 (id : UInt16) :
    decimalText id.toUInt64.toNat = decimalText id.toNat := by
  rw [UInt16.toNat_toUInt64]

theorem utilsIntToTextAt_id (id : UInt16) (string length : Nat) (memory : List UInt8) :
    utilsIntToTextAt id.toUInt64.toInt64 string length memory =
      utilsUintToTextAt id.toUInt64 string length memory := by
  have hnonneg : ¬ id.toUInt64.toInt64 < 0 := by
    rw [Int64.lt_iff_toInt_lt, toInt64_id]
    simp
  unfold utilsIntToTextAt
  exact if_neg hnonneg

theorem utilsObjLinkToTextAt_wide {objectId objectInstanceId : UInt16} {memory memory' : List UInt8}
    {n : Nat} (hlength : 2 ^ 31 < memory.length) (hsize : memory.length < 2 ^ 64)
    (h : utilsObjLinkToTextAt objectId objectInstanceId 0 memory.length memory =
      .ok (memory', n)) : n = 0 ∨ 2 ^ 31 < n := by
  unfold utilsObjLinkToTextAt at h
  obtain ⟨⟨first, head⟩, hfirst, h⟩ := bind_eq_ok.1 h
  have hbounds := @utilsUintToTextAt_wide objectId.toUInt64 [] memory [] first head hlength
    (by rwa [List.length_nil, Nat.zero_add]) (Nat.zero_le 1)
    (by rw [List.nil_append, List.append_nil]; exact hfirst)
  rw [List.nil_append, List.append_nil, List.length_nil, Nat.zero_add] at hbounds
  dsimp only at h
  split at h
  · cases h
    exact .inl rfl
  · rename_i hne
    obtain ⟨hlow, hhigh, hgap, hkept⟩ := hbounds.resolve_left hne
    have hleft : sizeT (memory.length - head) = memory.length - head := by
      unfold sizeT
      omega
    rw [hleft] at h
    split at h
    · cases h
      exact .inl rfl
    · rename_i hroom
      obtain ⟨colon, hcolon, h⟩ := bind_eq_ok.1 h
      obtain ⟨⟨second, res⟩, hsecond, h⟩ := bind_eq_ok.1 h
      have hinside : head + 1 ≤ colon.length := by
        rw [storeByte_length hcolon, hkept]
        omega
      have hrest : sizeT (memory.length - (head + 1 : Nat)) = (colon.drop (head + 1)).length := by
        rw [List.length_drop, storeByte_length hcolon, hkept]
        unfold sizeT
        omega
      have hres : res ≤ (colon.drop (head + 1)).length := by
        obtain ⟨area, hrun, -⟩ := @utilsUintToTextAt_narrow objectInstanceId.toUInt64
          (colon.take (head + 1)) (colon.drop (head + 1)) []
          (by rw [List.length_drop, storeByte_length hcolon, hkept]; omega)
        rw [List.append_nil, List.take_append_drop, List.length_take_of_le hinside,
          List.append_nil] at hrun
        rw [hrest, Nat.zero_add, hrun] at hsecond
        cases hsecond
        exact utilsUintToText_length _ _
      rw [← hrest] at hres
      unfold sizeT at hres
      dsimp only at h
      split at h
      · cases h
        exact .inl rfl
      · cases h
        right
        unfold sizeT
        omega

/-- In a shorter one the texts of both ids stand one behind the other, if there is room for them
and the colon. -/
theorem utilsObjLinkToTextAt_narrow (objectId objectInstanceId : UInt16)
    (hlength : memory.length ≤ 2 ^ 31) :
    ∃ memory', memory'.length = memory.length ∧
      utilsObjLinkToTextAt objectId objectInstanceId 0 memory.length memory =
        .ok (memory', if (objLinkDecimal objectId objectInstanceId).length ≤ memory.length then
          (objLinkDecimal objectId objectInstanceId).length else 0) ∧
      ((objLinkDecimal objectId objectInstanceId).length ≤ memory.length →
        memory'.take (objLinkDecimal objectId objectInstanceId).length =
          objLinkDecimal objectId objectInstanceId) := by
  have hpos := decimalText_length_pos objectId.toNat
  have hpos' := decimalText_length_pos objectInstanceId.toNat
  have htotal : (objLinkDecimal objectId objectInstanceId).length =
      (decimalText objectId.toNat).length + ((decimalText objectInstanceId.toNat).length + 1) := by
    rw [objLinkDecimal, List.length_append, List.length_cons]
  obtain ⟨first, hfirst, hfirstLength, htake⟩ :=
    @utilsUintToTextAt_narrow objectId.toUInt64 [] memory [] hlength
  simp only [List.nil_append, List.append_nil, List.length_nil] at hfirst
  rw [utilsUintToText_eq, decimalText_uint16] at hfirst
  rw [utilsUintToText_eq, decimalText_uint16] at htake
  rw [htotal]
  unfold utilsObjLinkToTextAt
  rw [hfirst, ok_bind]
  by_cases hfits : (decimalText objectId.toNat).length ≤ memory.length
  · rw [if_pos hfits] at htake ⊢
    dsimp only
    have hroom : sizeT (memory.length - (decimalText objectId.toNat).length) =
        memory.length - (decimalText objectId.toNat).length := by
      unfold sizeT
      omega
    rw [if_neg (Nat.ne_of_gt hpos), hroom]
    by_cases hfull : memory.length - (decimalText objectId.toNat).length < 1
    · rw [if_pos hfull, if_neg (by omega)]
      exact ⟨first, hfirstLength, rfl, fun h => absurd h (by omega)⟩
    · obtain ⟨front, old, area, rfl, hfront⟩ :=
        @split_at_address first (decimalText objectId.toNat).length (by omega)
      have htext : front = decimalText objectId.toNat := by
        rw [htake, List.take_left' hfront]
      subst htext
      rw [List.length_append, List.length_cons] at hfirstLength
      have hrest : sizeT (memory.length - ((decimalText objectId.toNat).length + 1 : Nat)) =
          area.length := by
        unfold sizeT
        omega
      obtain ⟨second, hsecond, hsecondLength, htake'⟩ :=
        @utilsUintToTextAt_narrow objectInstanceId.toUInt64
          (decimalText objectId.toNat ++ [58]) area [] (by omega)
      simp only [List.append_nil, List.append_assoc, List.cons_append, List.nil_append,
        List.length_append, List.length_singleton] at hsecond
      rw [utilsUintToText_eq, decimalText_uint16] at hsecond htake'
      rw [if_neg hfull, storeByte_place old 58 (Nat.zero_add _), ok_bind]
      rw [hrest, Nat.zero_add, hsecond, ok_bind]
      refine ⟨decimalText objectId.toNat ++ 58 :: second, ?_, ?_, ?_⟩
      · rw [List.length_append, List.length_cons]
        omega
      · dsimp only
        by_cases hfits' : (decimalText objectInstanceId.toNat).length ≤ area.length
        · have hresult : sizeT (((decimalText objectId.toNat).length + 1 : Nat) +
              (decimalText objectInstanceId.toNat).length) =
              (decimalText objectId.toNat).length +
                ((decimalText objectInstanceId.toNat).length + 1) := by
            unfold sizeT
            omega
          rw [if_pos hfits', if_neg (Nat.ne_of_gt hpos'), hresult, if_pos (by omega)]
          rfl
        · rw [if_neg hfits', List.length_nil, if_pos rfl, if_neg (by omega)]
          rfl
      · intro hfits'
        rw [if_pos (by omega)] at htake'
        rw [objLinkDecimal, List.take_append, List.take_of_length_le (Nat.le_add_right _ _),
          Nat.add_sub_cancel_left, List.take_succ_cons, ← htake']
  · rw [if_neg hfits, if_neg (by omega)]
    refine ⟨first, hfirstLength, rfl, fun h => absurd h (by omega)⟩

theorem utilsObjLinkToTextAt_exact_iff (objectId objectInstanceId : UInt16)
    (hsize : length < 2 ^ 64) :
    WritesExactly (utilsObjLinkToTextAt objectId objectInstanceId 0 length)
      (objLinkDecimal objectId objectInstanceId) length ↔ length ≤ 2 ^ 31 := by
  have htotal : (objLinkDecimal objectId objectInstanceId).length =
      (decimalText objectId.toNat).length + ((decimalText objectInstanceId.toNat).length + 1) := by
    rw [objLinkDecimal, List.length_append, List.length_cons]
  constructor
  · intro h
    refine Nat.not_lt.1 fun hwide => ?_
    have hshort := decimalText_id_length objectId
    have hshort' := decimalText_id_length objectInstanceId
    obtain ⟨memory', hrun⟩ := h.result (by omega)
    have hbad := @utilsObjLinkToTextAt_wide objectId objectInstanceId (List.replicate length 0)
      memory' _ (by rwa [List.length_replicate]) (by rwa [List.length_replicate])
      (by rw [List.length_replicate]; exact hrun)
    omega
  · intro hnarrow
    apply writesExactly_of_text (by omega)
    rintro memory rfl
    exact utilsObjLinkToTextAt_narrow objectId objectInstanceId hnarrow

/-! ## What is written is read back -/

theorem utilsTextToUInt_decimalText (data : UInt64) :
    utilsTextToUInt (decimalText data.toNat) = some data := by
  have hvalue := decimalFrom_decimalText data.toNat
  have hfits : decimalFrom 0 (decimalText data.toNat) < 2 ^ 64 := by
    rw [hvalue]
    exact data.toNat_lt
  refine utilsTextToUInt_eq_some.2
    ⟨decimalText_ne_nil _, decimalText_isDigit _, passesGuard_of_fits hfits, ?_⟩
  rw [hvalue, Nat.mod_eq_of_lt data.toNat_lt]

theorem utilsTextToInt_intText (data : Int64) : utilsTextToInt (intText data) = some data := by
  obtain ⟨hsign, hpart⟩ := signedText_digits (data < 0) (decimalText_ne_nil data.toInt.natAbs)
    (decimalText_isDigit data.toInt.natAbs)
  have hvalue := decimalFrom_decimalText data.toInt.natAbs
  have hbound := natAbs_bound data
  have hhigh := data.toInt_lt
  have hneg := @int64_neg_iff data
  refine utilsTextToInt_eq_some.2 ⟨?_, ?_, ?_, ?_, ?_⟩
  · intro hempty
    have hparts := congrArg unsignedPart hempty
    rw [intText, hpart] at hparts
    exact decimalText_ne_nil _ hparts
  · rw [intText, hpart]
    exact decimalText_isDigit _
  · rw [intText, hpart]
    apply passesGuard_of_fits
    omega
  · rw [intText, hpart, hsign, hvalue, Nat.mod_eq_of_lt (by omega)]
    unfold magnitudeBound
    split
    · exact hbound
    · rename_i hnonneg
      have hnot : ¬ data < 0 := by simpa using hnonneg
      rw [hneg] at hnot
      omega
  · rw [intText, hpart, hsign, hvalue, Nat.mod_eq_of_lt (by omega)]
    split
    · rename_i hlt
      have := hneg.1 (of_decide_eq_true hlt)
      omega
    · rename_i hnonneg
      have hnot : ¬ data < 0 := by simpa using hnonneg
      rw [hneg] at hnot
      omega

theorem utilsTextToObjLink_objLinkDecimal (objectId objectInstanceId : UInt16) :
    utilsTextToObjLink (objLinkDecimal objectId objectInstanceId) =
      some (objectId, objectInstanceId) := by
  have hobject : (objLinkDecimal objectId objectInstanceId).takeWhile (· != 58) =
      decimalText objectId.toNat := by
    rw [objLinkDecimal, List.takeWhile_append_of_pos]
    · rw [List.takeWhile_cons_of_neg (by simp), List.append_nil]
    · intro character hmem
      have hdigit := decimalText_isDigit _ character hmem
      rw [bne_iff_ne]
      rintro rfl
      exact absurd hdigit (by decide)
  have hinstance : (objLinkDecimal objectId objectInstanceId).drop
      ((decimalText objectId.toNat).length + 1) = decimalText objectInstanceId.toNat := by
    rw [objLinkDecimal, List.drop_append, List.drop_of_length_le (Nat.le_succ _),
      Nat.add_sub_cancel_left]
    rfl
  have hpos := decimalText_length_pos objectId.toNat
  have hread := fun id : UInt16 => utilsTextToUInt_decimalText id.toUInt64
  simp only [decimalText_uint16] at hread
  have hid : ∀ id : UInt16, ¬ 0xFFFF < id.toUInt64 := by
    intro id
    rw [UInt64.lt_iff_toNat_lt, UInt16.toNat_toUInt64]
    have hlt := id.toNat_lt
    show ¬ 65535 < id.toNat
    omega
  unfold utilsTextToObjLink
  dsimp only
  rw [hobject, hinstance, hread, hread, if_neg]
  · dsimp only
    rw [if_neg (fun h => h.elim (hid _) (hid _)), UInt16.toUInt16_toUInt64,
      UInt16.toUInt16_toUInt64]
  · rw [objLinkDecimal, List.length_append, List.length_cons]
    omega

/-- `utils_uintToText` writes a number exactly into a buffer of a length, and
`utils_textToUInt` gives it back. -/
def FormatsUInt (data : UInt64) (length : UInt64) : Prop :=
  WritesExactly (utilsUintToTextAt data 0 length.toNat) (decimalText data.toNat) length.toNat ∧
    utilsTextToUInt (decimalText data.toNat) = some data

/-- The same of `utils_intToText` and `utils_textToInt`. -/
def FormatsInt (data : Int64) (length : UInt64) : Prop :=
  WritesExactly (utilsIntToTextAt data 0 length.toNat) (intText data) length.toNat ∧
    utilsTextToInt (intText data) = some data

/-- The same of `utils_objLinkToText` and `utils_textToObjLink`. -/
def FormatsObjLink (objectId objectInstanceId : UInt16) (length : UInt64) : Prop :=
  WritesExactly (utilsObjLinkToTextAt objectId objectInstanceId 0 length.toNat)
      (objLinkDecimal objectId objectInstanceId) length.toNat ∧
    utilsTextToObjLink (objLinkDecimal objectId objectInstanceId) =
      some (objectId, objectInstanceId)

/-- The writers are exact but for a buffer of just its length for the least integer, and for
buffers that are too long for the index. -/
theorem numberFormatting_iff (length : UInt64) :
    (∀ data, FormatsUInt data length ↔ length.toNat ≤ 2 ^ 31) ∧
      (∀ data, FormatsInt data length ↔ IntTextLength data length.toNat) ∧
      ∀ objectId objectInstanceId,
        FormatsObjLink objectId objectInstanceId length ↔ length.toNat ≤ 2 ^ 31 := by
  refine ⟨fun data => ?_, fun data => ?_, fun objectId objectInstanceId => ?_⟩
  · rw [FormatsUInt, and_iff_left (utilsTextToUInt_decimalText data)]
    exact utilsUintToTextAt_exact_iff data length.toNat_lt
  · rw [FormatsInt, and_iff_left (utilsTextToInt_intText data)]
    exact utilsIntToTextAt_exact_iff data length.toNat_lt
  · rw [FormatsObjLink, and_iff_left (utilsTextToObjLink_objLinkDecimal _ _)]
    exact utilsObjLinkToTextAt_exact_iff objectId objectInstanceId length.toNat_lt

/-- A buffer of 20 bytes has room for "-9223372036854775808", but nothing is written. -/
theorem minValue_notWritten : ¬ FormatsInt Int64.minValue 20 := by
  intro h
  obtain ⟨memory', hrun⟩ := h.1.result (by rw [intText_minValue]; decide)
  rw [intText_minValue] at hrun
  cases hrun

end Wakaama
