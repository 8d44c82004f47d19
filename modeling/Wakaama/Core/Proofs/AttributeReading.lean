import Wakaama.Core.AttributeQuery
import Wakaama.Core.Proofs.GetParameters
import Wakaama.Core.Proofs.TextToNumber

/-!
# What is read of an attribute query (`core/management.c`)

A segment that ends within a key is compared past its end. A period is taken from any text that
`utils_textToInt` reads as a number of at least 0, and its low 32 bits are stored.
-/

namespace Wakaama

/-! ## The comparisons -/

/-- The segment is the beginning of a key and ends before it. -/
def TruncatedAttribute (text : List UInt8) : Prop :=
  ∃ key : AttributeKey, text <+: key.text ∧ text ≠ key.text

theorem mem_attributeKeys (key : AttributeKey) : key ∈ attributeKeys := by
  cases key <;> decide

theorem attributeKey_text (key : AttributeKey) : key.text = key.name ++ [61] := by
  cases key <;> rfl

theorem attributeKey_length (key : AttributeKey) : key.text.length = key.name.length + 1 := by
  rw [attributeKey_text, List.length_append, List.length_singleton]

variable {key : AttributeKey} {text value : List UInt8}

theorem attributeKey_starts {other : AttributeKey} (h : key.name <+: other.text) : key = other := by
  revert h
  cases key <;> cases other <;> decide

theorem name_starts (key : AttributeKey) : key.name <+: key.text :=
  ⟨[61], (attributeKey_text key).symm⟩

theorem attributeKey_unique {other : AttributeKey} (h : key.name <+: text)
    (hother : other.name <+: text) : key = other := by
  rcases List.prefix_or_prefix_of_prefix h hother with hle | hle
  · exact attributeKey_starts (hle.trans (name_starts other))
  · exact (attributeKey_starts (hle.trans (name_starts key))).symm

variable {query : QuerySegment}

theorem byte_inside {index : Nat} (h : index < query.text.length) :
    query.byte index = query.text[index] := by
  rw [QuerySegment.byte, List.getElem?_eq_getElem h, Option.getD_some]

theorem readsTo_ge (key : List UInt8) : ∀ index, index ≤ query.readsTo index key := by
  induction key with
  | nil => exact fun index => Nat.le_refl index
  | cons character key ih =>
    intro index
    rw [QuerySegment.readsTo]
    split
    · exact Nat.le_trans (Nat.le_succ index) (ih (index + 1))
    · exact Nat.le_succ index

/-- By induction on the key: a segment that does not end within it is compared inside, and the
comparison is one of texts. -/
theorem startsWith_inside (key : List UInt8) : ∀ index, index ≤ query.text.length →
    (query.text.drop index <+: key → query.text.drop index = key) →
    query.readsTo index key ≤ query.text.length ∧
      (query.startsWith index key = true ↔ key <+: query.text.drop index) := by
  induction key with
  | nil => exact fun index hle _ => ⟨hle, iff_of_true rfl (List.nil_prefix)⟩
  | cons character key ih =>
    intro index hle hwhole
    have hlt : index < query.text.length := by
      rcases Nat.lt_or_eq_of_le hle with hlt | heq
      · exact hlt
      · rw [heq, List.drop_length] at hwhole
        exact nomatch hwhole List.nil_prefix
    have hdrop : query.text.drop index = query.text[index] :: query.text.drop (index + 1) :=
      List.drop_eq_getElem_cons hlt
    rw [hdrop] at hwhole ⊢
    rw [QuerySegment.readsTo, QuerySegment.startsWith, byte_inside hlt, Bool.and_eq_true,
      beq_iff_eq, List.cons_prefix_cons]
    by_cases heq : query.text[index] = character
    · rw [if_pos heq, heq]
      have hnext := ih (index + 1) hlt fun hpre =>
        (List.cons.inj (hwhole (List.cons_prefix_cons.2 ⟨heq, hpre⟩))).2
      exact ⟨hnext.1, by rw [hnext.2]⟩
    · rw [if_neg heq]
      exact ⟨hlt, iff_of_false (fun h => heq h.1) fun h => heq h.1.symm⟩

theorem readsTo_outside (key : List UInt8) : ∀ index, index ≤ query.text.length →
    query.text.drop index <+: key → query.text.drop index ≠ key →
    query.text.length < query.readsTo index key := by
  induction key with
  | nil => exact fun index _ hpre hne => absurd (List.prefix_nil.1 hpre) hne
  | cons character key ih =>
    intro index hle hpre hne
    rw [QuerySegment.readsTo]
    rcases Nat.lt_or_eq_of_le hle with hlt | heq
    · have hdrop : query.text.drop index = query.text[index] :: query.text.drop (index + 1) :=
        List.drop_eq_getElem_cons hlt
      rw [hdrop] at hpre hne
      obtain ⟨hfirst, hpre⟩ := List.cons_prefix_cons.1 hpre
      rw [byte_inside hlt, if_pos hfirst]
      exact ih (index + 1) hlt hpre fun h => hne (by rw [hfirst, h])
    · split
      · exact Nat.lt_of_lt_of_le (by omega) (readsTo_ge key (index + 1))
      · omega

def NotWithin (text key : List UInt8) : Prop := text <+: key → text = key

theorem comparesInside_iff (key : List UInt8) :
    query.comparesInside key = true ↔ NotWithin query.text key := by
  rw [QuerySegment.comparesInside, decide_eq_true_iff]
  constructor
  · intro h hpre
    by_contra hne
    exact absurd (readsTo_outside key 0 (Nat.zero_le _) hpre hne) (Nat.not_lt.2 h)
  · exact fun h => (startsWith_inside key 0 (Nat.zero_le _) h).1

theorem startsWith_iff {key : List UInt8} (h : NotWithin query.text key) :
    query.startsWith 0 key = true ↔ key <+: query.text :=
  (startsWith_inside key 0 (Nat.zero_le _) h).2

theorem NotWithin.name (h : NotWithin text key.text) : NotWithin text key.name := by
  intro hpre
  have heq := h (hpre.trans (name_starts key))
  have hlength := hpre.length_le
  rw [heq, attributeKey_length] at hlength
  omega

theorem findsInside_iff : findsInside query attributeKeys = true ↔
    ¬ TruncatedAttribute query.text := by
  have hkeys : ∀ keys : List AttributeKey, findsInside query keys = true ↔
      ∀ key ∈ keys, NotWithin query.text key.text := by
    intro keys
    induction keys with
    | nil => exact iff_of_true rfl fun _ hmem => nomatch hmem
    | cons key keys ih =>
      rw [findsInside, Bool.and_eq_true, Bool.or_eq_true, Bool.and_eq_true, Bool.or_eq_true,
        comparesInside_iff, comparesInside_iff, List.forall_mem_cons, ih]
      constructor
      · intro h
        obtain ⟨hkey, hrest⟩ := h
        refine ⟨hkey, ?_⟩
        rw [startsWith_iff hkey, startsWith_iff hkey.name] at hrest
        have hname : key.name <+: query.text → ∀ other ∈ keys,
            NotWithin query.text other.text := by
          intro hstart other _ hpre
          obtain rfl := attributeKey_starts (hstart.trans hpre)
          exact hkey hpre
        rcases hrest with hstart | ⟨-, hstart | hall⟩
        · exact hname ((name_starts key).trans hstart)
        · exact hname hstart
        · exact hall
      · intro h
        exact ⟨h.1, .inr ⟨h.1.name, .inr h.2⟩⟩
  rw [hkeys]
  constructor
  · intro hall htruncated
    obtain ⟨key, hpre, hne⟩ := htruncated
    exact hne (hall key (mem_attributeKeys key) hpre)
  · intro h key _ hpre
    by_contra hne
    exact h ⟨key, hpre, hne⟩

theorem findAttribute_starts (h : ¬ TruncatedAttribute query.text) {key : AttributeKey}
    {sets : Bool} (hstart : (if sets then key.text else key.name) <+: query.text)
    (hnot : sets = false → ¬ key.text <+: query.text) :
    findAttribute query attributeKeys = some (key, sets) := by
  have hname : key.name <+: query.text := by
    cases sets with
    | true => exact (name_starts key).trans hstart
    | false => exact hstart
  have hkeys : ∀ keys : List AttributeKey, key ∈ keys →
      findAttribute query keys = some (key, sets) := by
    intro keys
    induction keys with
    | nil => exact fun hmem => nomatch hmem
    | cons other keys ih =>
      intro hmem
      have hwithin : NotWithin query.text other.text := fun hpre => by
        by_contra hne
        exact h ⟨other, hpre, hne⟩
      rw [findAttribute]
      simp only [startsWith_iff hwithin, startsWith_iff hwithin.name]
      by_cases heq : other = key
      · subst heq
        cases sets with
        | true =>
          have htext : other.text <+: query.text := hstart
          rw [if_pos htext]
        | false => rw [if_neg (hnot rfl), if_pos hname]
      · have hother : ¬ other.name <+: query.text := fun hpre =>
          heq (attributeKey_unique hpre hname)
        rw [if_neg fun hpre => hother ((name_starts other).trans hpre), if_neg hother]
        exact ih (List.mem_of_ne_of_mem (Ne.symm heq) hmem)
  exact hkeys attributeKeys (mem_attributeKeys key)

theorem findAttribute_none (h : ¬ TruncatedAttribute query.text)
    (hnone : ∀ key : AttributeKey, ¬ key.name <+: query.text) :
    findAttribute query attributeKeys = none := by
  have hkeys : ∀ keys : List AttributeKey, findAttribute query keys = none := by
    intro keys
    induction keys with
    | nil => rfl
    | cons key keys ih =>
      have hwithin : NotWithin query.text key.text := fun hpre => by
        by_contra hne
        exact h ⟨key, hpre, hne⟩
      rw [findAttribute]
      simp only [startsWith_iff hwithin, startsWith_iff hwithin.name]
      rw [if_neg fun hpre => hnone key ((name_starts key).trans hpre), if_neg (hnone key), ih]
  exact hkeys attributeKeys

/-! ## The texts that are taken -/

/-- `utils_textToInt` reads the text as a number of at least 0. -/
def ReadsPeriod (value : List UInt8) (number : Int64) : Prop :=
  utilsTextToInt value = some number ∧ 0 ≤ number.toInt

/-- The value is taken for the key. -/
def ValueTaken (textToFloat : AttributeKey → List UInt8 → Option UInt64) (key : AttributeKey)
    (value : List UInt8) : Prop :=
  value ≠ [] ∧
    if key.isPeriod then ∃ number, ReadsPeriod value number
    else ∃ number, textToFloat key value = some number ∧
      ¬ (key = .step ∧ doubleLess number 0 = true)

/-- The segment sets an attribute that none of the segments before it sets. -/
def SegmentTaken (textToFloat : AttributeKey → List UInt8 → Option UInt64)
    (before : List QuerySegment) (segment : QuerySegment) : Prop :=
  ∃ key value, segment.text = AttributeKey.text key ++ value ∧ ValueTaken textToFloat key value ∧
    ∀ earlier ∈ before, ¬ key.text <+: earlier.text

/-- The segments all set attributes, each its own. -/
def QueryTaken (textToFloat : AttributeKey → List UInt8 → Option UInt64)
    (query : List QuerySegment) : Prop := EachEvent (SegmentTaken textToFloat) [] query

/-- The texts that are taken for a period and are none: a minus sign with a value of 0, modulo 2^64,
behind it, or with nothing behind it; and a numeral of 2^32 or more that passes the checks of
`utils_textToInt`. -/
def OddPeriod (value : List UInt8) : Prop :=
  (∃ digits, value = minusSign :: digits ∧ (∀ character ∈ digits, isDigit character = true) ∧
      PassesGuard 0 digits ∧ numeralValue digits % 2 ^ 64 = 0) ∨
    IsNumeral value ∧ 2 ^ 32 ≤ numeralValue value ∧ PassesGuard 0 value ∧
      numeralValue value % 2 ^ 64 < 2 ^ 63

/-- A numeral that fits the 32 bits of a period. -/
def PeriodNumeral (value : List UInt8) : Prop := IsNumeral value ∧ numeralValue value < 2 ^ 32

theorem readsPeriod_iff :
    (∃ number, ReadsPeriod value number) ↔ PeriodNumeral value ∨ OddPeriod value := by
  constructor
  · intro h
    obtain ⟨number, hread, hnonneg⟩ := h
    obtain ⟨hne, hdigits, hpass, hbound, hnumber⟩ := utilsTextToInt_eq_some.1 hread
    cases hsign : signOf value with
    | true =>
      rw [hsign, if_pos rfl] at hnumber
      have hvalue : value = minusSign :: unsignedPart value := by
        have hparts := signedText_parts value
        rw [hsign] at hparts
        exact hparts.symm
      refine .inr (.inl ⟨unsignedPart value, hvalue, hdigits, hpass, ?_⟩)
      unfold numeralValue
      omega
    | false =>
      have hpart : unsignedPart value = value := by
        unfold unsignedPart
        rw [hsign]
        rfl
      rw [hpart] at hdigits hpass hbound
      have hsmall : numeralValue value % 2 ^ 64 < 2 ^ 63 := by
        rw [hsign] at hbound
        exact Nat.lt_of_le_of_lt hbound (by decide)
      by_cases hlarge : numeralValue value < 2 ^ 32
      · exact .inl ⟨⟨hne, hdigits⟩, hlarge⟩
      · exact .inr (.inr ⟨⟨hne, hdigits⟩, Nat.not_lt.1 hlarge, hpass, hsmall⟩)
  · have hread : IsNumeral value → PassesGuard 0 value → numeralValue value % 2 ^ 64 < 2 ^ 63 →
        ∃ number, ReadsPeriod value number := by
      intro hnumeral hpass hsmall
      obtain ⟨hsign, hpart⟩ := signedText_digits false hnumeral.nonempty hnumeral.digits
      have hbound : (numeralValue value).toUInt64.toNat ≤ magnitudeBound false :=
        Nat.le_of_lt_succ hsmall
      refine ⟨(numeralValue value).toUInt64.toInt64, utilsTextToInt_eq_some.2 ?_, ?_⟩
      · change signOf value = false at hsign
        change unsignedPart value = value at hpart
        rw [hsign, hpart]
        exact ⟨hnumeral.nonempty, hnumeral.digits, hpass, hbound, signed_toInt hbound⟩
      · have hint := @signed_toInt false _ hbound
        change (numeralValue value).toUInt64.toInt64.toInt = _ at hint
        rw [hint]
        exact Int.natCast_nonneg _
    intro h
    rcases h with ⟨hnumeral, hsmall⟩ | ⟨digits, rfl, hdigits, hpass, hzero⟩ |
        ⟨hnumeral, -, hpass, hsmall⟩
    · have hfits : numeralValue value < 2 ^ 64 := Nat.lt_trans hsmall (by decide)
      refine hread hnumeral (passesGuard_of_fits hfits) ?_
      rw [Nat.mod_eq_of_lt hfits]
      exact Nat.lt_trans hsmall (by decide)
    · refine ⟨0, utilsTextToInt_eq_some.2 ⟨nofun, hdigits, hpass, ?_, ?_⟩, Int.le_refl 0⟩
      · exact Nat.le_trans (Nat.le_of_eq hzero) (Nat.zero_le _)
      · rw [show signOf (minusSign :: digits) = true from rfl, if_pos rfl]
        change (0 : Int) = -((numeralValue digits % 2 ^ 64 : Nat) : Int)
        rw [hzero]
        rfl
    · exact hread hnumeral hpass hsmall

theorem OddPeriod.not_numeral (h : OddPeriod value) : ¬ PeriodNumeral value := by
  intro hnumeral
  rcases h with ⟨digits, rfl, -⟩ | ⟨-, hlarge, -⟩
  · have hminus := hnumeral.1.digits minusSign (List.mem_cons_self ..)
    exact absurd hminus (by decide)
  · exact absurd hnumeral.2 (Nat.not_lt.2 hlarge)

theorem readsPeriod_value {number : Int64} (h : ReadsPeriod value number)
    (hnumeral : PeriodNumeral value) : number.toUInt64.toUInt32.toNat = numeralValue value := by
  obtain ⟨hread, hnonneg⟩ := h
  obtain ⟨-, -, -, -, hnumber⟩ := utilsTextToInt_eq_some.1 hread
  obtain ⟨hsign, hpart⟩ := signedText_digits false hnumeral.1.nonempty hnumeral.1.digits
  change signOf value = false at hsign
  change unsignedPart value = value at hpart
  rw [hsign, if_neg Bool.noConfusion, hpart] at hnumber
  change number.toInt = ((numeralValue value % 2 ^ 64 : Nat) : Int) at hnumber
  have hsmall := hnumeral.2
  rw [UInt64.toNat_toUInt32, int64_toNat hnonneg, hnumber, Int.toNat_natCast,
    Nat.mod_eq_of_lt (Nat.lt_trans hsmall (by decide)), Nat.mod_eq_of_lt hsmall]

/-! ## The loop -/

variable {textToFloat : AttributeKey → List UInt8 → Option UInt64}

theorem flag_set (key other : AttributeKey) (flags : UInt8) :
    (flags ||| key.flag) &&& other.flag ≠ 0 ↔ flags &&& other.flag ≠ 0 ∨ other = key := by
  have hbits : key.flag &&& other.flag ≠ 0 ↔ other = key := by
    cases key <;> cases other <;> decide
  rw [← hbits, uint8_or_and]
  have hor : ∀ x y : UInt8, x ||| y ≠ 0 ↔ x ≠ 0 ∨ y ≠ 0 := by
    intro x y
    rw [← not_iff_not]
    simp [UInt8.or_eq_zero_iff]
  exact hor _ _

/-- The attributes behind the segments `before`, which were all taken. -/
structure AttributesRead (before : List QuerySegment) (attr : Lwm2mAttributes) : Prop where
  cleared : attr.toClear = 0
  set : ∀ key : AttributeKey, attr.toSet &&& key.flag ≠ 0 ↔
    ∃ segment ∈ before, key.text <+: segment.text
  periods : ∀ key value, AttributeKey.isPeriod key = true → ∀ segment ∈ before,
    segment.text = key.text ++ value →
      ∃ number, ReadsPeriod value number ∧ attr.period key = number.toUInt64.toUInt32

theorem AttributesRead.nil : AttributesRead [] noAttributes where
  cleared := rfl
  set key := by
    have hzero : noAttributes.toSet &&& key.flag = 0 := UInt8.zero_and
    exact iff_of_false (fun h => h hzero) fun h => by simp at h
  periods _ _ _ _ hmem := nomatch hmem

theorem AttributesRead.unset {before : List QuerySegment} {attr : Lwm2mAttributes}
    (h : AttributesRead before attr) (key : AttributeKey) :
    (attr.toSet ||| attr.toClear) &&& key.flag = 0 ↔
      ∀ earlier ∈ before, ¬ key.text <+: earlier.text := by
  rw [h.cleared, UInt8.or_zero, ← not_iff_not, ← ne_eq, h.set]
  simp

theorem text_prefix_length (h : text = key.text ++ value) : text.drop key.text.length = value ∧
      (text.length = key.text.length ↔ value = []) ∧ ¬ text.length < key.text.length := by
  subst h
  simp

/-- A segment with a key and a value that is taken adds to the attributes; one whose value is not,
or whose key is there already, ends the loop. -/
theorem setAttribute_read {before : List QuerySegment} {attr : Lwm2mAttributes}
    (h : AttributesRead before attr) (htext : query.text = key.text ++ value) :
    (SegmentTaken textToFloat before query ∧ ∃ attr', setAttribute textToFloat query key attr =
        .ok (some attr') ∧ AttributesRead (before ++ [query]) attr') ∨
      ¬ SegmentTaken textToFloat before query ∧
        setAttribute textToFloat query key attr = .ok none := by
  obtain ⟨hdrop, hwhole, hlong⟩ := text_prefix_length htext
  have hpre : key.text <+: query.text := ⟨value, htext.symm⟩
  have honly : SegmentTaken textToFloat before query ↔
      ValueTaken textToFloat key value ∧ ∀ earlier ∈ before, ¬ key.text <+: earlier.text := by
    constructor
    · intro htaken
      obtain ⟨other, value', htext', hvalue, hfresh⟩ := htaken
      obtain rfl := attributeKey_unique ((name_starts key).trans hpre)
        ((name_starts other).trans ⟨value', htext'.symm⟩)
      obtain rfl := List.append_cancel_left (htext.symm.trans htext')
      exact ⟨hvalue, hfresh⟩
    · exact fun hboth => ⟨key, value, htext, hboth.1, hboth.2⟩
  -- the attributes with the flag of the key, and the number in its field
  have hread : ∀ attr' : Lwm2mAttributes, attr'.toClear = attr.toClear →
      attr'.toSet = attr.toSet ||| key.flag →
      (∀ other, other ≠ key → attr'.period other = attr.period other) →
      (∀ earlier ∈ before, ¬ key.text <+: earlier.text) →
      (key.isPeriod = true → ∃ number, ReadsPeriod value number ∧
        attr'.period key = number.toUInt64.toUInt32) →
      AttributesRead (before ++ [query]) attr' := by
    intro attr' hclear hset hother hfresh hperiod
    refine ⟨by rw [hclear, h.cleared], fun other => ?_, fun other value' hkind segment hsegment heq => ?_⟩
    · rw [hset, flag_set, h.set]
      constructor
      · intro hcase
        rcases hcase with ⟨segment, hmem, hstart⟩ | rfl
        · exact ⟨segment, List.mem_append_left _ hmem, hstart⟩
        · exact ⟨query, by simp, hpre⟩
      · intro hcase
        obtain ⟨segment, hmem, hstart⟩ := hcase
        rcases List.mem_append.1 hmem with hmem | hmem
        · exact .inl ⟨segment, hmem, hstart⟩
        · obtain rfl := List.mem_singleton.1 hmem
          exact .inr (attributeKey_unique ((name_starts other).trans hstart)
            ((name_starts key).trans hpre))
    · rcases List.mem_append.1 hsegment with hmem | hmem
      · have hne : other ≠ key := by
          rintro rfl
          exact hfresh segment hmem ⟨value', heq.symm⟩
        rw [hother other hne]
        exact h.periods other value' hkind segment hmem heq
      · obtain rfl := List.mem_singleton.1 hmem
        obtain rfl := attributeKey_unique ((name_starts other).trans ⟨value', heq.symm⟩)
          ((name_starts key).trans hpre)
        obtain rfl := List.append_cancel_left (htext.symm.trans heq)
        exact hperiod hkind
  rw [honly, setAttribute]
  by_cases hfresh : ∀ earlier ∈ before, ¬ key.text <+: earlier.text
  · rw [if_neg (fun hne => hne ((h.unset key).2 hfresh))]
    by_cases hempty : value = []
    · rw [if_pos (hwhole.2 hempty)]
      exact .inr ⟨fun htaken => htaken.1.1 hempty, rfl⟩
    · rw [if_neg (fun heq => hempty (hwhole.1 heq)), hdrop]
      unfold ValueTaken readPeriod
      rw [if_neg hlong, if_neg hlong, hdrop]
      by_cases hkind : key.isPeriod = true
      · rw [if_pos hkind, if_pos hkind]
        cases hnumber : utilsTextToInt value with
        | none =>
          refine .inr ⟨?_, rfl⟩
          intro htaken
          obtain ⟨number, hread', -⟩ := htaken.1.2
          rw [hnumber] at hread'
          cases hread'
        | some number =>
          dsimp only
          by_cases hsign : number < 0
          · rw [if_pos hsign]
            refine .inr ⟨?_, rfl⟩
            intro htaken
            obtain ⟨other, hread', hnonneg⟩ := htaken.1.2
            rw [hnumber] at hread'
            cases hread'
            rw [Int64.lt_iff_toInt_lt] at hsign
            exact absurd hnonneg (Int.not_le.2 hsign)
          · rw [if_neg hsign]
            have hnonneg : 0 ≤ number.toInt := by
              rw [Int64.lt_iff_toInt_lt] at hsign
              exact Int.not_lt.1 hsign
            refine .inl ⟨⟨⟨hempty, number, hnumber, hnonneg⟩, hfresh⟩, _, rfl, ?_⟩
            refine hread _ ?_ ?_ ?_ hfresh fun _ => ⟨number, ⟨hnumber, hnonneg⟩, ?_⟩
            · cases key <;> rfl
            · cases key <;> rfl
            · intro other hne
              cases key <;> cases other <;> first | rfl | exact absurd rfl hne
            · cases key <;> first | rfl | exact absurd hkind nofun
      · rw [if_neg hkind, if_neg hkind]
        cases hnumber : textToFloat key value with
        | none =>
          refine .inr ⟨?_, rfl⟩
          intro htaken
          obtain ⟨number, hread', -⟩ := htaken.1.2
          cases hread'
        | some number =>
          dsimp only
          by_cases hsign : key = .step ∧ doubleLess number 0 = true
          · rw [if_pos hsign]
            refine .inr ⟨?_, rfl⟩
            intro htaken
            obtain ⟨other, hread', hnot⟩ := htaken.1.2
            cases hread'
            exact hnot hsign
          · rw [if_neg hsign]
            refine .inl ⟨⟨⟨hempty, number, rfl, hsign⟩, hfresh⟩, _, rfl, ?_⟩
            refine hread _ ?_ ?_ ?_ hfresh fun hperiod => absurd hperiod hkind
            · cases key <;> rfl
            · cases key <;> rfl
            · intro other _
              cases key <;> cases other <;> rfl
  · rw [if_pos (fun heq => hfresh ((h.unset key).1 heq))]
    exact .inr ⟨fun htaken => hfresh htaken.2, rfl⟩

theorem SegmentTaken.whole {before : List QuerySegment}
    (h : SegmentTaken textToFloat before query) : ¬ TruncatedAttribute query.text := by
  obtain ⟨key, value, htext, hvalue, -⟩ := h
  intro htruncated
  obtain ⟨other, hpre, -⟩ := htruncated
  have hkey : key.text <+: query.text := ⟨value, htext.symm⟩
  obtain rfl := attributeKey_starts (((name_starts key).trans hkey).trans hpre)
  have hlength := hpre.length_le
  rw [htext, List.length_append] at hlength
  exact hvalue.1 (List.length_eq_zero_iff.1 (by omega))

/-- One segment that does not end within a key: it is taken, or the loop ends with -1. -/
theorem readAttribute_whole {before : List QuerySegment} {attr : Lwm2mAttributes}
    (h : AttributesRead before attr) (hwhole : ¬ TruncatedAttribute query.text) :
    (SegmentTaken textToFloat before query ∧ ∃ attr', readAttribute textToFloat query attr =
        .ok (some attr') ∧ AttributesRead (before ++ [query]) attr') ∨
      ¬ SegmentTaken textToFloat before query ∧
        readAttribute textToFloat query attr = .ok none := by
  unfold readAttribute
  by_cases hsets : ∃ key : AttributeKey, key.text <+: query.text
  · obtain ⟨key, value, htext⟩ := hsets
    have hfind := @findAttribute_starts query hwhole key true ⟨value, htext⟩ nofun
    rw [hfind]
    exact setAttribute_read h htext.symm
  · have hnot : ¬ SegmentTaken textToFloat before query := by
      intro htaken
      obtain ⟨key, value, htext, -⟩ := htaken
      exact hsets ⟨key, value, htext.symm⟩
    refine .inr ⟨hnot, ?_⟩
    by_cases hclears : ∃ key : AttributeKey, key.name <+: query.text
    · obtain ⟨key, hname⟩ := hclears
      have hfind := @findAttribute_starts query hwhole key false hname
        fun _ hpre => hsets ⟨key, hpre⟩
      have hlength : query.text.length ≠ key.text.length - 1 := by
        rw [attributeKey_length, Nat.add_sub_cancel]
        intro heq
        have hsame := hname.eq_of_length heq.symm
        refine hwhole ⟨key, hsame ▸ name_starts key, fun htext => ?_⟩
        have hlength := congrArg List.length htext
        rw [heq, attributeKey_length] at hlength
        omega
      rw [hfind]
      refine congrArg Except.ok ?_
      unfold clearAttribute
      split
      · rfl
      · rfl
    · have hnone := findAttribute_none hwhole fun key hpre => hclears ⟨key, hpre⟩
      rw [hnone]

/-- The loop behind segments that are all taken, by induction on the segments to come: it reads
them all, or comes to one that ends within a key, or to another one that is not taken. -/
theorem readAttributesLoop_cases (rest : List QuerySegment) : ∀ {before : List QuerySegment}
    {attr : Lwm2mAttributes}, AttributesRead before attr →
      (EachEvent (SegmentTaken textToFloat) before rest ∧ ∃ attr',
          readAttributesLoop textToFloat rest attr = .ok (some attr', true) ∧
            AttributesRead (before ++ rest) attr') ∨
        ∃ front segment back, rest = front ++ segment :: back ∧
          EachEvent (SegmentTaken textToFloat) before front ∧
          (TruncatedAttribute segment.text ∧
              (∀ result, readAttributesLoop textToFloat rest attr ≠ .ok (result, true)) ∨
            ¬ TruncatedAttribute segment.text ∧
              ¬ SegmentTaken textToFloat (before ++ front) segment ∧
              readAttributesLoop textToFloat rest attr = .ok (none, true)) := by
  induction rest with
  | nil =>
    intro before attr h
    exact .inl ⟨trivial, attr, rfl, by rwa [List.append_nil]⟩
  | cons segment next ih =>
    intro before attr h
    rw [readAttributesLoop]
    by_cases htruncated : TruncatedAttribute segment.text
    · have hinside : findsInside segment attributeKeys = false :=
        Bool.eq_false_of_not_eq_true fun htrue => findsInside_iff.1 htrue htruncated
      refine .inr ⟨[], segment, next, rfl, trivial, .inl ⟨htruncated, ?_⟩⟩
      rw [hinside]
      intro result hresult
      split at hresult
      · cases hresult
      · cases hresult
      · rename_i attr' _
        cases hnext : readAttributesLoop textToFloat next attr' with
        | error fault =>
          rw [hnext] at hresult
          cases hresult
        | ok out =>
          rw [hnext] at hresult
          cases hresult
    · rw [findsInside_iff.2 htruncated]
      rcases @readAttribute_whole segment textToFloat _ _ h htruncated with
        ⟨htaken, attr', hread, hattr⟩ | ⟨hnot, hread⟩
      · have hon : ∀ out : Except Fault (Option Lwm2mAttributes × Bool),
            out.map (fun out => (out.1, true && out.2)) = out := by
          intro out
          cases out <;> rfl
        rw [hread]
        dsimp only
        rw [hon]
        rcases ih hattr with ⟨heach, attr'', hloop, hall⟩ |
            ⟨front, other, back, rfl, heach, hcase⟩
        · refine .inl ⟨⟨htaken, heach⟩, attr'', hloop, ?_⟩
          rwa [List.append_assoc, List.singleton_append] at hall
        · refine .inr ⟨segment :: front, other, back, rfl, ⟨htaken, heach⟩, ?_⟩
          rwa [List.append_assoc, List.singleton_append] at hcase
      · rw [hread]
        exact .inr ⟨[], segment, next, rfl, trivial, .inr ⟨htruncated, by simpa using hnot, rfl⟩⟩

/-! ## What is asked of the client -/

/-- Everything that is read is inside its segment, and where the query is taken, every period in it
is a numeral that fits and is stored. -/
def ReadsPeriods (textToFloat : AttributeKey → List UInt8 → Option UInt64)
    (query : List QuerySegment) : Prop :=
  ∃ result, prvReadAttributes textToFloat query = .ok (result, true) ∧
    ∀ attr ∈ result, ∀ segment ∈ query, ∀ key value, AttributeKey.isPeriod key = true →
      segment.text = key.text ++ value →
      PeriodNumeral value ∧ (attr.period key).toNat = numeralValue value

/-- No segment that the client comes to ends within a key, and where the query is taken, no period in
it is odd. -/
structure QueryReadable (textToFloat : AttributeKey → List UInt8 → Option UInt64)
    (query : List QuerySegment) : Prop where
  whole : ∀ before segment rest, query = before ++ segment :: rest →
    QueryTaken textToFloat before → ¬ TruncatedAttribute segment.text
  periods : QueryTaken textToFloat query → ∀ segment ∈ query, ∀ key value,
    AttributeKey.isPeriod key = true → segment.text = key.text ++ value → ¬ OddPeriod value

theorem readsPeriods_iff (query : List QuerySegment) :
    ReadsPeriods textToFloat query ↔ QueryReadable textToFloat query := by
  have hloop := @readAttributesLoop_cases textToFloat query [] noAttributes .nil
  constructor
  · intro h
    obtain ⟨result, hrun, hperiods⟩ := h
    have hwhole : ∀ before segment rest, query = before ++ segment :: rest →
        QueryTaken textToFloat before → ¬ TruncatedAttribute segment.text := by
      intro before segment rest hsplit htaken htruncated
      rcases hloop with ⟨heach, -⟩ | ⟨front, other, back, hother, hfront, hcase⟩
      · rw [hsplit] at heach
        exact heach.at.whole htruncated
      · rcases hcase with ⟨-, hnever⟩ | ⟨hwhole, hnot, -⟩
        · exact hnever result hrun
        · -- the two splits are the same, or one goes on behind the other
          rcases List.append_eq_append_iff.1 (hother.symm.trans hsplit) with
            ⟨more, rfl, hrest⟩ | ⟨more, rfl, hrest⟩
          · cases more with
            | nil =>
              obtain ⟨rfl, -⟩ := List.cons.inj hrest
              exact hwhole htruncated
            | cons first more =>
              obtain ⟨rfl, -⟩ := List.cons.inj hrest
              exact hnot htaken.at
          · cases more with
            | nil =>
              obtain ⟨rfl, -⟩ := List.cons.inj hrest
              exact hwhole htruncated
            | cons first more =>
              obtain ⟨rfl, -⟩ := List.cons.inj hrest
              exact hfront.at.whole htruncated
    refine ⟨hwhole, ?_⟩
    intro htaken segment hsegment key value hkind htext hodd
    rcases hloop with ⟨-, attr, hall, -⟩ | ⟨front, other, back, hsplit, -, hcase⟩
    · have hsame := hrun.symm.trans hall
      cases hsame
      exact hodd.not_numeral (hperiods attr rfl segment hsegment key value hkind htext).1
    · rw [hsplit] at htaken
      have hother := htaken.at
      rcases hcase with ⟨htruncated, -⟩ | ⟨-, hnot, -⟩
      · exact hother.whole htruncated
      · exact hnot hother
  · intro h
    rcases hloop with ⟨htaken, attr, hall, hread⟩ | ⟨front, segment, back, hsplit, htaken, hcase⟩
    · refine ⟨some attr, hall, ?_⟩
      intro other hother segment hsegment key value hkind htext
      obtain rfl := Option.mem_some.1 hother
      obtain ⟨number, hnumber, hstored⟩ := hread.periods key value hkind segment hsegment htext
      have hnumeral : PeriodNumeral value := by
        rcases readsPeriod_iff.1 ⟨number, hnumber⟩ with hnumeral | hodd
        · exact hnumeral
        · exact absurd hodd (h.periods htaken segment hsegment key value hkind htext)
      exact ⟨hnumeral, by rw [hstored]; exact readsPeriod_value hnumber hnumeral⟩
    · rcases hcase with ⟨htruncated, -⟩ | ⟨-, -, hrun⟩
      · exact absurd htruncated (h.whole front segment back hsplit htaken)
      · exact ⟨none, hrun, fun _ hmem => nomatch hmem⟩

end Wakaama
