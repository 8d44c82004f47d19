import Wakaama.Data.Proofs.SenmlBase

/-!
# Integer sums with a base value

The sum is taken in the type of the record's value and no record is rejected for it, so it is the
sum of the two numbers exactly where that type holds it. Both parsers add in the same way, and the
data that a record is converted to keep its type and its value.
-/

namespace Wakaama

/-- The number of a base value; where it is 0 or absent there is none to add. -/
def baseNumber (base : Lwm2mData) : Option Int :=
  if base.type = .undefined then some 0 else wholeNumber base

/-- The data that are made of the record have the number. -/
def BecomesNumber (convert : SenmlRecord → Lwm2mData → Option Lwm2mData) (record : SenmlRecord)
    (number : Int) : Prop :=
  ∀ target, ∃ data, convert record target = some data ∧ wholeNumber data = some number

/-- The numbers that an integer of the type takes. -/
def InRange (type : DataType) (number : Int) : Prop :=
  if type = .integer then FitsInt64 number else 0 ≤ number ∧ number < 2 ^ 64

theorem wholeNumber_type {data : Lwm2mData} {number : Int} (h : wholeNumber data = some number) :
    data.type = .integer ∨ data.type = .unsignedInteger := by
  unfold wholeNumber at h
  split at h
  · next htype => exact .inl htype
  · next htype => exact .inr htype
  · cases h

theorem wholeNumber_inRange {data : Lwm2mData} {number : Int}
    (h : wholeNumber data = some number) : InRange data.type number := by
  unfold InRange
  rcases wholeNumber_type h with htype | htype
  · rw [wholeNumber_integer htype] at h
    rw [if_pos htype, ← Option.some.inj h]
    exact ⟨data.asInteger.le_toInt, data.asInteger.toInt_lt⟩
  · rw [wholeNumber_unsigned htype] at h
    have hlt := data.asUnsigned.toNat_lt
    rw [htype, if_neg nofun, ← Option.some.inj h]
    omega

theorem addBaseValue_type {base value sum : Lwm2mData} {number : Int}
    (h : addBaseValue base value = some sum) (hvalue : wholeNumber value = some number) :
    sum.type = value.type := by
  simp only [addBaseValue] at h
  by_cases hbase : base.type = .undefined
  · rw [if_pos hbase] at h
    rw [← Option.some.inj h]
  · rw [if_neg hbase] at h
    split at h
    · next hundefined =>
      rw [wholeNumber, hundefined] at hvalue
      cases hvalue
    · split at h
      case h_10 => cases h
      all_goals next htype _ =>
        rw [← Option.some.inj h]
        exact htype.symm

theorem addBaseValue_exact_iff {base value sum : Lwm2mData} {b v : Int}
    (h : addBaseValue base value = some sum) (hbase : baseNumber base = some b)
    (hvalue : wholeNumber value = some v) :
    wholeNumber sum = some (b + v) ↔ InRange value.type (b + v) := by
  have hsum := addBaseValue_sum_iff h
  have hnumber : value.type ≠ .undefined := by
    rcases wholeNumber_type hvalue with htype | htype
    · rw [htype]
      nofun
    · rw [htype]
      nofun
  unfold baseNumber at hbase
  by_cases hnone : base.type = .undefined
  · -- Nothing is added.
    rw [if_pos hnone] at hbase
    simp only [addBaseValue, if_pos hnone] at h
    rw [← Option.some.inj h, ← Option.some.inj hbase, Int.zero_add, hvalue]
    exact ⟨fun _ => wholeNumber_inRange hvalue, fun _ => rfl⟩
  · rw [if_neg hnone] at hbase
    rw [ValueSum, if_neg hnone, if_neg hnumber, SumFits, if_neg (by simp [hnone, hnumber]),
      NumericSum, hbase, hvalue] at hsum
    exact hsum

theorem becomesNumber_iff {convert : SenmlRecord → Lwm2mData → Option Lwm2mData}
    {record : SenmlRecord}
    (hconvert : ∀ target, convert record target =
      some (.node record.value.type target.id record.value.value)) (number : Int) :
    BecomesNumber convert record number ↔ wholeNumber record.value = some number := by
  have hsame : ∀ id, wholeNumber (.node record.value.type id record.value.value) =
      wholeNumber record.value := by
    intro id
    cases record.value with
    | node type _ value => rfl
  constructor
  · intro h
    obtain ⟨data, hdata, hnumber⟩ := h (.node .undefined 0 .zero)
    rw [hconvert] at hdata
    rw [← Option.some.inj hdata, hsame] at hnumber
    exact hnumber
  · intro h target
    exact ⟨_, hconvert target, by rw [hsame, h]⟩

theorem prvConvertValue_integer {record : SenmlRecord} {number : Int}
    (h : wholeNumber record.value = some number) (target : Lwm2mData) :
    prvConvertValue record target =
      some (.node record.value.type target.id record.value.value) := by
  unfold prvConvertValue
  rcases wholeNumber_type h with htype | htype
  · rw [htype]
  · rw [htype]

theorem senmlJsonConvertValue_integer {record : SenmlRecord} {number : Int}
    (h : wholeNumber record.value = some number) (target : Lwm2mData) :
    senmlJsonConvertValue record target =
      some (.node record.value.type target.id record.value.value) := by
  unfold senmlJsonConvertValue
  rcases wholeNumber_type h with htype | htype
  · rw [htype]
  · rw [htype]

theorem resolveAll_value {items : List SenmlItem} {records : List SenmlRecord}
    (h : resolveAll ⟨[], 0, .node .undefined 0 .zero⟩ items = some records) {k : Nat}
    {item : SenmlItem} {record : SenmlRecord} (hitem : items[k]? = some item)
    (hrecord : records[k]? = some record) :
    addBaseValue (latestBaseValue items k) item.value = some record.value := by
  have hget := resolveAll_get [] h hitem hrecord
  obtain ⟨ids, -, hget⟩ := Option.bind_eq_some_iff.1 hget
  obtain ⟨value, hvalue, hget⟩ := Option.bind_eq_some_iff.1 hget
  rw [← Option.some.inj hget]
  exact hvalue

/-- Each record whose value and base value are integers becomes data with the exact sum if and
only if the type of the value holds it. -/
def SumsExactly (convert : SenmlRecord → Lwm2mData → Option Lwm2mData) (items : List SenmlItem)
    (records : List SenmlRecord) : Prop :=
  ∀ (k : Nat) item record, items[k]? = some item → records[k]? = some record →
    ∀ b v, baseNumber (latestBaseValue items k) = some b → wholeNumber item.value = some v →
      (BecomesNumber convert record (b + v) ↔ InRange item.value.type (b + v))

theorem resolveAll_sumsExactly {convert : SenmlRecord → Lwm2mData → Option Lwm2mData}
    (hconvert : ∀ record number, wholeNumber record.value = some number → ∀ target,
      convert record target = some (.node record.value.type target.id record.value.value))
    {items : List SenmlItem} {records : List SenmlRecord}
    (h : resolveAll ⟨[], 0, .node .undefined 0 .zero⟩ items = some records) :
    SumsExactly convert items records := by
  intro k item record hitem hrecord b v hbase hvalue
  have hsum := resolveAll_value h hitem hrecord
  have htype := addBaseValue_type hsum hvalue
  obtain ⟨number, hnumber⟩ : ∃ number, wholeNumber record.value = some number := by
    rcases wholeNumber_type hvalue with hinteger | hunsigned
    · exact ⟨_, wholeNumber_integer (htype.trans hinteger)⟩
    · exact ⟨_, wholeNumber_unsigned (htype.trans hunsigned)⟩
  rw [becomesNumber_iff (hconvert record number hnumber)]
  exact addBaseValue_exact_iff hsum hbase hvalue

/-- In every message that either parser accepts, a record with an integer on top of an integer base
value becomes data with their sum if and only if the type of its value holds the sum: an `int64_t`
for a negative value, a `uint64_t` otherwise. -/
theorem senmlIntegerSums_iff (textToFloat : List UInt8 → Option UInt64) :
    (∀ buffer records, (senmlCborRecords buffer).run = .ok (some records) →
      ∃ items, (senmlCborItems buffer).run = .ok (some items) ∧ records.length = items.length ∧
        SumsExactly prvConvertValue items records) ∧
    ∀ buffer records, senmlJsonRecords textToFloat buffer = some records →
      ∃ items, senmlJsonItems textToFloat buffer = some items ∧ records.length = items.length ∧
        SumsExactly senmlJsonConvertValue items records := by
  constructor
  · intro buffer records h
    obtain ⟨items, hitems, hall⟩ := senmlCborRecords_read h
    exact ⟨items, hitems, resolveAll_length hall, resolveAll_sumsExactly
      (fun record number hnumber => prvConvertValue_integer hnumber) hall⟩
  · intro buffer records h
    obtain ⟨items, hitems, hall⟩ := senmlJsonRecords_read h
    exact ⟨items, hitems, resolveAll_length hall, resolveAll_sumsExactly
      (fun record number hnumber => senmlJsonConvertValue_integer hnumber) hall⟩

theorem carriedMessage_sums : ∃ records items,
    (senmlCborRecords carriedMessage).run = .ok (some records) ∧
      (senmlCborItems carriedMessage).run = .ok (some items) ∧ records.length = items.length ∧
        SumsExactly prvConvertValue items records := by
  have hfound : found (fun records : List SenmlRecord =>
      records.map (fun record => wholeNumber record.value) == [some 2, some 6])
        (senmlCborRecords carriedMessage).run = true := by
    decide +kernel
  obtain ⟨records, hrecords, -⟩ := found_some hfound
  obtain ⟨items, hitems⟩ := (senmlIntegerSums_iff fun _ => none).1 carriedMessage records hrecords
  exact ⟨records, items, hrecords, hitems⟩

/-- `[{bn: "/3/0/9", bv: 18446744073709551615, v: -1}]`. -/
def largeBaseMessage : List UInt8 :=
  [0x81, 0xA3, 0x21, 0x66, 0x2F, 0x33, 0x2F, 0x30, 0x2F, 0x39, 0x24, 0x1B, 0xFF, 0xFF, 0xFF, 0xFF,
    0xFF, 0xFF, 0xFF, 0xFF, 0x02, 0x20]

/-- The sum of -1 and a base value 18446744073709551615 is taken for -2. -/
theorem largeBase_changesSign : ∃ item record,
    (senmlCborItems largeBaseMessage).run = .ok (some [item]) ∧
      (senmlCborRecords largeBaseMessage).run = .ok (some [record]) ∧
      item.baseValue.bind wholeNumber = some 18446744073709551615 ∧
      wholeNumber item.value = some (-1) ∧
      BecomesNumber prvConvertValue record (-2) ∧
      ¬ BecomesNumber prvConvertValue record 18446744073709551614 := by
  have hitem : found (fun items : List SenmlItem =>
      items.map (fun item => (item.baseValue.bind wholeNumber, wholeNumber item.value)) ==
        [(some 18446744073709551615, some (-1))]) (senmlCborItems largeBaseMessage).run = true := by
    decide +kernel
  have hrecord : found (fun records : List SenmlRecord =>
      records.map (fun record => wholeNumber record.value) == [some (-2)])
        (senmlCborRecords largeBaseMessage).run = true := by
    decide +kernel
  obtain ⟨items, hitems, hread⟩ := found_some hitem
  obtain ⟨records, hrecords, hvalue⟩ := found_some hrecord
  simp only [beq_iff_eq, List.map_eq_cons_iff, List.map_eq_nil_iff] at hread hvalue
  obtain ⟨item, -, rfl, hnumbers, rfl⟩ := hread
  obtain ⟨record, -, rfl, hnumber, rfl⟩ := hvalue
  obtain ⟨hbase, hown⟩ := Prod.mk.inj hnumbers
  have hconvert := becomesNumber_iff (prvConvertValue_integer hnumber)
  refine ⟨item, record, hitems, hrecords, hbase, hown, (hconvert _).2 hnumber, fun h => ?_⟩
  have hwrong := (hconvert _).1 h
  rw [hnumber] at hwrong
  exact absurd (Option.some.inj hwrong) (by decide)

end Wakaama
