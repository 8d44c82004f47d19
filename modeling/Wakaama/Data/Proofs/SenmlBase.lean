import Wakaama.Core.Proofs.StringToUri
import Wakaama.Data.Proofs.BigEndian
import Wakaama.Data.SenmlJsonParse

/-!
# The base attributes of SenML records

What a record stands for by the format: its name, its time and its value on top of the base name,
the base time and the base value that were set last, in the record itself or before it. Both
parsers thread the base attributes through their loops over the fields and over the records.
-/

namespace Wakaama

/-- The value that was set last. -/
def latest {α : Type} (values : List (Option α)) : Option α := (values.filterMap id).getLast?

variable {α : Type} {base : BaseValues} {records : List SenmlRecord} {record : SenmlRecord}
  {fields : List (UInt64 × Lwm2mData)} {buffer : List UInt8}

theorem latest_append (values : List (Option α)) (value : Option α) :
    latest (values ++ [value]) = value.or (latest values) := by
  cases value <;> simp [latest, List.filterMap_append]

/-- What a record says: the base attributes that it sets, and what it has of its own. A base value
0 is none. -/
structure SenmlItem where
  baseName : Option (List UInt8)
  baseTime : Option Int64
  baseValue : Option Lwm2mData
  name : Option (List UInt8)
  time : Int64
  value : Lwm2mData

/-- The base attributes for a record: those that were set last, up to this record. -/
def latestBaseName (items : List SenmlItem) (k : Nat) : List UInt8 :=
  (latest ((items.take (k + 1)).map SenmlItem.baseName)).getD []

def latestBaseTime (items : List SenmlItem) (k : Nat) : Int64 :=
  (latest ((items.take (k + 1)).map SenmlItem.baseTime)).getD 0

def latestBaseValue (items : List SenmlItem) (k : Nat) : Lwm2mData :=
  (latest ((items.take (k + 1)).map SenmlItem.baseValue)).getD (.node .undefined 0 .zero)

/-- The ids are those of the base name with the name behind it; without both there are none. -/
def PathOf (baseName : List UInt8) (name : Option (List UInt8)) (ids : Lwm2mUri) : Prop :=
  if baseName = [] ∧ name = none then ids = .reset
  else lwm2mStringToUri (baseName ++ name.getD []) = some ids

/-- The number of an integer. -/
def wholeNumber (data : Lwm2mData) : Option Int :=
  match data.type with
  | .integer => some data.asInteger.toInt
  | .unsignedInteger => some data.asUnsigned.toNat
  | _ => none

/-- A number as a `double`. -/
def doubleOf (data : Lwm2mData) : Float :=
  match data.type with
  | .integer => data.asInteger.toFloat
  | .unsignedInteger => data.asUnsigned.toFloat
  | _ => Float.ofBits data.asFloat

/-- The bits of that. -/
def doubleBits (data : Lwm2mData) : UInt64 :=
  match data.type with
  | .integer => data.asInteger.toFloat.toBits
  | .unsignedInteger => data.asUnsigned.toFloat.toBits
  | _ => data.asFloat

/-- The sum of two numbers: exact for integers, the sum of the doubles otherwise. -/
def NumericSum (base value result : Lwm2mData) : Prop :=
  match wholeNumber base, wholeNumber value with
  | some b, some v => wholeNumber result = some (b + v)
  | _, _ => doubleBits result = (doubleOf value + doubleOf base).toBits

/-- A value on top of a base value. -/
def ValueSum (base value result : Lwm2mData) : Prop :=
  if base.type = .undefined then result = value
  else if value.type = .undefined then result = base
  else NumericSum base value result

/-- A record is what the `k`-th one stands for. -/
structure Resolves (items : List SenmlItem) (k : Nat) (item : SenmlItem) (record : SenmlRecord) :
    Prop where
  path : PathOf (latestBaseName items k) item.name record.ids
  time : record.time.toInt = (latestBaseTime items k).toInt + item.time.toInt
  value : ValueSum (latestBaseValue items k) item.value record.value

/-- An `int64_t` holds the number. -/
def FitsInt64 (n : Int) : Prop := -2 ^ 63 ≤ n ∧ n < 2 ^ 63

/-- The type of the value holds the sum with the base value. -/
def SumFits (base value : Lwm2mData) : Prop :=
  if base.type = .undefined ∨ value.type = .undefined then True
  else
    match wholeNumber base, wholeNumber value with
    | some b, some v =>
      if value.type = .integer then FitsInt64 (b + v) else 0 ≤ b + v ∧ b + v < 2 ^ 64
    | none, some _ =>
      if value.type = .integer then
        (doubleOf value + doubleOf base).toInt64.toFloat.toBits =
          (doubleOf value + doubleOf base).toBits
      else
        (doubleOf value + doubleOf base).toUInt64.toFloat.toBits =
          (doubleOf value + doubleOf base).toBits
    | _, none => True

/-- The base name has no NUL, and the sums with the base time and the base value fit. -/
structure BasesFit (items : List SenmlItem) (k : Nat) (item : SenmlItem) : Prop where
  name : 0 ∉ latestBaseName items k
  time : FitsInt64 ((latestBaseTime items k).toInt + item.time.toInt)
  value : SumFits (latestBaseValue items k) item.value

/-! ## The combination with the base attributes -/

theorem int64_add_toInt (x y : Int64) :
    (x + y).toInt = y.toInt + x.toInt ↔ FitsInt64 (y.toInt + x.toInt) := by
  rw [Int64.toInt_add, Int.add_comm y.toInt, FitsInt64, Int.bmod_def]
  split <;> omega

theorem uint64_add_toNat (x y : UInt64) :
    ((x + y).toNat : Int) = y.toNat + x.toNat ↔
      0 ≤ (y.toNat : Int) + x.toNat ∧ (y.toNat : Int) + x.toNat < 2 ^ 64 := by
  rw [UInt64.toNat_add]
  omega

theorem int64_addUnsigned_toInt (x : Int64) (y : UInt64) :
    (x.toUInt64 + y).toInt64.toInt = y.toNat + x.toInt ↔ FitsInt64 (y.toNat + x.toInt) := by
  have hx := int64_toInt x
  have hsum := int64_toInt (x.toUInt64 + y).toInt64
  have hsmall := x.toUInt64.toNat_lt
  rw [UInt64.toUInt64_toInt64, UInt64.toNat_add] at hsum
  rw [hsum, hx, FitsInt64, Int.bmod_def, Int.bmod_def]
  split <;> split <;> omega

theorem uint64_addSigned_toNat (x : UInt64) (y : Int64) :
    ((x + y.toUInt64).toNat : Int) = y.toInt + x.toNat ↔
      0 ≤ y.toInt + (x.toNat : Int) ∧ y.toInt + (x.toNat : Int) < 2 ^ 64 := by
  have hy := int64_toInt y
  have hsmall := y.toUInt64.toNat_lt
  rw [UInt64.toNat_add, hy, Int.bmod_def]
  split <;> omega

@[simp] theorem wholeNumber_asInteger (id : UInt16) (value : Int64) :
    wholeNumber (.node .integer id (.asInteger value)) = some value.toInt := rfl

@[simp] theorem wholeNumber_asUnsigned (id : UInt16) (value : UInt64) :
    wholeNumber (.node .unsignedInteger id (.asUnsigned value)) = some (value.toNat : Int) := rfl

@[simp] theorem doubleBits_asInteger (id : UInt16) (value : Int64) :
    doubleBits (.node .integer id (.asInteger value)) = value.toFloat.toBits := rfl

@[simp] theorem doubleBits_asUnsigned (id : UInt16) (value : UInt64) :
    doubleBits (.node .unsignedInteger id (.asUnsigned value)) = value.toFloat.toBits := rfl

@[simp] theorem doubleBits_asFloat (id : UInt16) (bits : UInt64) :
    doubleBits (.node .float id (.asFloat bits)) = bits := rfl

section Numbers

variable {data : Lwm2mData}

theorem wholeNumber_integer (h : data.type = .integer) :
    wholeNumber data = some data.asInteger.toInt := by simp [wholeNumber, h]

theorem wholeNumber_unsigned (h : data.type = .unsignedInteger) :
    wholeNumber data = some (data.asUnsigned.toNat : Int) := by simp [wholeNumber, h]

theorem wholeNumber_float (h : data.type = .float) : wholeNumber data = none := by
  simp [wholeNumber, h]

end Numbers

theorem addBaseValue_sum_iff {base value result : Lwm2mData}
    (h : addBaseValue base value = some result) :
    ValueSum base value result ↔ SumFits base value := by
  simp only [addBaseValue] at h
  by_cases hbase : base.type = .undefined
  · rw [if_pos hbase] at h
    simpa [ValueSum, SumFits, hbase, eq_comm] using h
  · rw [if_neg hbase] at h
    by_cases hvalue : value.type = .undefined
    · rw [if_pos hvalue] at h
      simpa [ValueSum, SumFits, hbase, hvalue, eq_comm] using h
    · rw [if_neg hvalue] at h
      simp only [ValueSum, SumFits, hbase, hvalue, or_self, if_false, NumericSum]
      -- one case for each pair of numeric types
      split at h
      · next hv hb =>
        obtain rfl := Option.some.inj h
        rw [wholeNumber_integer hv, wholeNumber_integer hb]
        simpa only [hv, if_true, wholeNumber_asInteger, Option.some.injEq] using
          int64_add_toInt value.asInteger base.asInteger
      · next hv hb =>
        obtain rfl := Option.some.inj h
        rw [wholeNumber_integer hv, wholeNumber_unsigned hb]
        simpa only [hv, if_true, wholeNumber_asInteger, Option.some.injEq] using
          int64_addUnsigned_toInt value.asInteger base.asUnsigned
      · next hv hb =>
        obtain rfl := Option.some.inj h
        rw [wholeNumber_integer hv, wholeNumber_float hb]
        simp [doubleOf, hv, hb]
      · next hv hb =>
        obtain rfl := Option.some.inj h
        rw [wholeNumber_unsigned hv, wholeNumber_integer hb]
        simpa only [hv, reduceCtorEq, if_false, wholeNumber_asUnsigned, Option.some.injEq] using
          uint64_addSigned_toNat value.asUnsigned base.asInteger
      · next hv hb =>
        obtain rfl := Option.some.inj h
        rw [wholeNumber_unsigned hv, wholeNumber_unsigned hb]
        simpa only [hv, reduceCtorEq, if_false, wholeNumber_asUnsigned, Option.some.injEq] using
          uint64_add_toNat value.asUnsigned base.asUnsigned
      · next hv hb =>
        obtain rfl := Option.some.inj h
        rw [wholeNumber_unsigned hv, wholeNumber_float hb]
        simp [doubleOf, hv, hb]
      · next hv hb =>
        obtain rfl := Option.some.inj h
        rw [wholeNumber_float hv, wholeNumber_integer hb]
        simp [doubleOf, hv, hb]
      · next hv hb =>
        obtain rfl := Option.some.inj h
        rw [wholeNumber_float hv, wholeNumber_unsigned hb]
        simp [doubleOf, hv, hb]
      · next hv hb =>
        obtain rfl := Option.some.inj h
        rw [wholeNumber_float hv, wholeNumber_float hb]
        simp [doubleOf, hv, hb]
      · cases h

/-! ## The path -/

def upToNul (text : List UInt8) : List UInt8 := text.takeWhile fun character => character != 0

theorem upToNul_eq {text : List UInt8} (h : 0 ∉ text) : upToNul text = text := by
  rw [upToNul, List.takeWhile_eq_self_iff]
  intro character hmem
  rw [bne_iff_ne]
  rintro rfl
  exact h hmem

theorem jsonRecordIds_pathOf_iff {baseName : List UInt8} {name : Option (List UInt8)}
    {ids : Lwm2mUri} (h : jsonRecordIds (upToNul baseName) name = some ids) :
    PathOf baseName name ids ↔ 0 ∉ baseName := by
  constructor
  · intro hpath hnul
    have hne : baseName ≠ [] := List.ne_nil_of_mem hnul
    rw [PathOf, if_neg fun hempty => hne hempty.1] at hpath
    exact lwm2mStringToUri_noNul hpath (List.mem_append_left _ hnul)
  · intro hnul
    rw [upToNul_eq hnul, jsonRecordIds] at h
    rw [PathOf]
    split at h
    · next hempty =>
      rw [if_pos hempty]
      exact (Option.some.inj h).symm
    · next hempty =>
      rw [if_neg hempty]
      split at h
      · cases h
      · exact h

/-! ## The records in turn -/

def SenmlItem.applied (item : SenmlItem) (base : BaseValues) : BaseValues where
  baseUri := (item.baseName.map upToNul).getD base.baseUri
  baseTime := item.baseTime.getD base.baseTime
  baseValue := item.baseValue.getD base.baseValue

/-- What the parsers make of a record with the base attributes behind it. -/
def resolve (base : BaseValues) (item : SenmlItem) : Option SenmlRecord := do
  let ids ← jsonRecordIds base.baseUri item.name
  let value ← addBaseValue base.baseValue item.value
  return { ids, value, time := item.time + base.baseTime }

def resolveAll : BaseValues → List SenmlItem → Option (List SenmlRecord)
  | _, [] => some []
  | base, item :: items => do
    let record ← resolve (item.applied base) item
    let records ← resolveAll (item.applied base) items
    return record :: records

def baseOf (items : List SenmlItem) : BaseValues where
  baseUri := upToNul ((latest (items.map SenmlItem.baseName)).getD [])
  baseTime := (latest (items.map SenmlItem.baseTime)).getD 0
  baseValue := (latest (items.map SenmlItem.baseValue)).getD (.node .undefined 0 .zero)

theorem baseOf_append (items : List SenmlItem) (item : SenmlItem) :
    baseOf (items ++ [item]) = item.applied (baseOf items) := by
  simp only [baseOf, SenmlItem.applied, List.map_append, List.map_cons, List.map_nil,
    latest_append]
  congr 1
  · cases item.baseName <;> rfl
  · cases item.baseTime <;> rfl
  · cases item.baseValue <;> rfl

variable {items : List SenmlItem}

theorem resolveAll_length (h : resolveAll base items = some records) :
    records.length = items.length := by
  induction items generalizing base records with
  | nil =>
    obtain rfl := Option.some.inj h
    rfl
  | cons item items ih =>
    obtain ⟨record, -, h⟩ := Option.bind_eq_some_iff.1 h
    obtain ⟨rest, hrest, h⟩ := Option.bind_eq_some_iff.1 h
    obtain rfl := Option.some.inj h
    simp [ih hrest]

theorem resolveAll_get (past : List SenmlItem) (h : resolveAll (baseOf past) items = some records)
    {k : Nat} {item : SenmlItem} (hitem : items[k]? = some item)
    (hrecord : records[k]? = some record) :
    resolve (baseOf (past ++ items.take (k + 1))) item = some record := by
  induction items generalizing past records k with
  | nil => simp at hitem
  | cons first items ih =>
    obtain ⟨firstRecord, hfirst, h⟩ := Option.bind_eq_some_iff.1 h
    obtain ⟨rest, hrest, h⟩ := Option.bind_eq_some_iff.1 h
    obtain rfl := Option.some.inj h
    rw [← baseOf_append] at hfirst hrest
    cases k with
    | zero =>
      obtain rfl : first = item := by simpa using hitem
      obtain rfl : firstRecord = record := by simpa using hrecord
      simpa using hfirst
    | succ k =>
      have hnext := ih (past ++ [first]) hrest (by simpa using hitem) (by simpa using hrecord)
      simpa using hnext

theorem resolveAll_resolves_iff
    (h : resolveAll ⟨[], 0, .node .undefined 0 .zero⟩ items = some records) {k : Nat}
    {item : SenmlItem} (hitem : items[k]? = some item) (hrecord : records[k]? = some record) :
    Resolves items k item record ↔ BasesFit items k item := by
  have hget := resolveAll_get [] h hitem hrecord
  obtain ⟨ids, hids, hget⟩ := Option.bind_eq_some_iff.1 hget
  obtain ⟨value, hvalue, hget⟩ := Option.bind_eq_some_iff.1 hget
  obtain rfl := Option.some.inj hget
  have hpath := jsonRecordIds_pathOf_iff hids
  have htime := int64_add_toInt item.time (latestBaseTime items k)
  have hsum := addBaseValue_sum_iff hvalue
  constructor
  · intro hresolves
    exact ⟨hpath.1 hresolves.path, htime.1 hresolves.time, hsum.1 hresolves.value⟩
  · intro hfit
    exact ⟨hpath.2 hfit.name, htime.2 hfit.time, hsum.2 hfit.value⟩

/-! ## The fields of a record -/

section Fields

variable {L V : Type}

/-- The last field with a label among those. -/
def lastField (accepts : L → Bool) (fields : List (L × V)) : Option (L × V) :=
  (fields.filter fun field => accepts field.1).getLast?

/-- The value of the last field with the label. -/
def fieldUnder [BEq L] (label : L) (fields : List (L × V)) : Option V :=
  (lastField (· == label) fields).map Prod.snd

theorem lastField_append (accepts : L → Bool) (fields : List (L × V)) (label : L) (value : V) :
    lastField accepts (fields ++ [(label, value)]) =
      if accepts label then some (label, value) else lastField accepts fields := by
  by_cases haccepts : accepts label = true <;> simp [lastField, List.filter_append, haccepts]

theorem fieldUnder_append [BEq L] (wanted : L) (fields : List (L × V)) (label : L) (value : V) :
    fieldUnder wanted (fields ++ [(label, value)]) =
      if label == wanted then some value else fieldUnder wanted fields := by
  rw [fieldUnder, lastField_append]
  split <;> rfl

end Fields

/-! ## SenML-CBOR -/

/-- The value of a record, which may have none. -/
def itemValue (id : UInt16) : Option (DataType × DataValue Lwm2mData) → Lwm2mData
  | some (type, value) => .node type id value
  | none => .node .undefined id .zero

theorem itemValue_id (id : UInt16) (value : Option (DataType × DataValue Lwm2mData)) :
    (itemValue id value).id = id := by
  cases value <;> rfl

/-- What the fields of a record say. -/
def cborItem (fields : List (UInt64 × Lwm2mData)) : SenmlItem where
  baseName := (fieldUnder senmlCborBaseNameLabel fields).map Lwm2mData.asBuffer
  baseTime := (fieldUnder senmlCborBaseTimeLabel fields).bind lwm2mDataDecodeInt
  baseValue := (fieldUnder senmlCborBaseValueLabel fields).bind newBaseValue
  name := ((fieldUnder senmlCborNameLabel fields).map Lwm2mData.asBuffer).filter (· != [])
  time := ((fieldUnder senmlCborTimeLabel fields).bind lwm2mDataDecodeInt).getD 0
  value := itemValue lwm2mMaxId
    ((lastField isValueLabel fields).bind fun field => newValue field.1 field.2)

/-- The loop of `prv_parseItem` has read the fields. -/
structure FieldsRead (base : BaseValues) (fields : List (UInt64 × Lwm2mData))
    (state : ItemState) : Prop where
  base : state.base = (cborItem fields).applied base
  name : state.name = (cborItem fields).name.getD []
  time : state.time = (cborItem fields).time
  value : state.value = (cborItem fields).value

theorem startItem_read (base : BaseValues) : FieldsRead base [] (startItem base) :=
  ⟨rfl, rfl, rfl, rfl⟩

theorem cborItem_append (fields : List (UInt64 × Lwm2mData)) (label : UInt64) (data : Lwm2mData) :
    cborItem (fields ++ [(label, data)]) =
      { baseName :=
          if label == senmlCborBaseNameLabel then some data.asBuffer else (cborItem fields).baseName
        baseTime :=
          if label == senmlCborBaseTimeLabel then lwm2mDataDecodeInt data
          else (cborItem fields).baseTime
        baseValue :=
          if label == senmlCborBaseValueLabel then newBaseValue data
          else (cborItem fields).baseValue
        name :=
          if label == senmlCborNameLabel then (some data.asBuffer).filter (· != [])
          else (cborItem fields).name
        time :=
          if label == senmlCborTimeLabel then (lwm2mDataDecodeInt data).getD 0
          else (cborItem fields).time
        value :=
          if isValueLabel label then itemValue lwm2mMaxId (newValue label data)
          else (cborItem fields).value } := by
  simp only [cborItem, fieldUnder_append, lastField_append]
  congr 1 <;> split <;> rfl

theorem FieldsRead.field {state next : ItemState} (h : FieldsRead base fields state)
    {label : UInt64} {data : Lwm2mData} (hfield : parseField state label data = some next) :
    FieldsRead base (fields ++ [(label, data)]) next := by
  obtain ⟨hbase, hname, htime, hvalue⟩ := h
  have happend := cborItem_append fields label data
  revert hfield
  fun_cases parseField state label data with
  | case1 | case3 | case5 | case7 | case9 | case10 | case11 | case13 | case15 => exact nofun
  | case2 hlabel =>
    intro hfield
    obtain ⟨baseValue, hnew, rfl⟩ := Option.map_eq_some_iff.1 hfield
    subst hlabel
    constructor <;> simp +decide [happend, SenmlItem.applied, hbase, hname, htime, hvalue, hnew]
  | case4 _ hlabel =>
    intro hfield
    obtain ⟨baseTime, hnew, rfl⟩ := Option.map_eq_some_iff.1 hfield
    subst hlabel
    constructor <;> simp +decide [happend, SenmlItem.applied, hbase, hname, htime, hvalue, hnew]
  | case6 _ _ hlabel =>
    intro hfield
    obtain ⟨baseUri, hnew, rfl⟩ := Option.map_eq_some_iff.1 hfield
    have huri : baseUri = upToNul data.asBuffer := by
      unfold newBaseUri at hnew
      split at hnew
      · cases hnew
      · split at hnew
        · cases hnew
        · split at hnew
          · cases hnew
          · exact (Option.some.inj hnew).symm
    subst hlabel
    constructor <;> simp +decide [happend, SenmlItem.applied, hbase, hname, htime, hvalue, huri]
  | case8 _ _ _ hlabel =>
    intro hfield
    obtain rfl := Option.some.inj hfield
    subst hlabel
    constructor <;> simp +decide [happend, SenmlItem.applied, hbase, hname, htime, hvalue]
  | case12 _ _ _ _ hlabel =>
    intro hfield
    obtain rfl := Option.some.inj hfield
    subst hlabel
    have htext : ((some data.asBuffer).filter (· != [])).getD [] = data.asBuffer := by
      by_cases hempty : data.asBuffer = [] <;> simp [Option.filter, hempty]
    constructor <;>
      simp +decide only [happend, SenmlItem.applied, hbase, htime, hvalue, htext, if_true, if_false]
  | case14 h1 h2 h3 h4 h5 hlabel =>
    intro hfield
    obtain ⟨⟨type, value⟩, hnew, rfl⟩ := Option.map_eq_some_iff.1 hfield
    have h6 : label ≠ senmlCborTimeLabel := by
      rintro rfl
      exact absurd hlabel (by decide)
    have hid : state.value.id = lwm2mMaxId := by rw [hvalue, cborItem, itemValue_id]
    constructor <;>
      simp [happend, SenmlItem.applied, hbase, hname, htime, hid, hnew, itemValue, h1, h2, h3, h5,
        h6, hlabel]
  | case16 h1 h2 h3 h4 h5 h6 hlabel =>
    intro hfield
    obtain ⟨time, hnew, rfl⟩ := Option.map_eq_some_iff.1 hfield
    subst hlabel
    constructor <;> simp +decide [happend, SenmlItem.applied, hbase, hname, hvalue, hnew]
  | case17 h1 h2 h3 h4 h5 h6 h7 =>
    intro hfield
    obtain rfl := Option.some.inj hfield
    constructor <;>
      simp [happend, SenmlItem.applied, hbase, hname, htime, hvalue, h1, h2, h3, h5, h6, h7]

/-- The fields of a record, whatever they are, and the offset behind them. -/
def readFields (buffer : List UInt8) : Nat → Int → Get (List (UInt64 × Lwm2mData) × Int)
  | 0, offset => return ([], offset)
  | count + 1, offset => do
    let (data, res) ← cborGetSingular (← behind buffer offset)
    if res ≤ 0 then failure
    else
      let offset := addInt offset res
      let label ← itemLabel data
      let (data, res) ← cborGetSingular (← behind buffer offset)
      if res ≤ 0 then failure
      else
        let (fields, offset) ← readFields buffer count (addInt offset res)
        return ((label, data) :: fields, offset)

/-- A record with what it says. -/
def readItem (buffer : List UInt8) : Get (SenmlItem × Int) := do
  let (type, val, res) ← prvGetCborTypeAndValue buffer
  if type ≠ .map then failure
  else
    let (fields, offset) ← readFields buffer (intOfSize val.toNat).toNat res
    return (cborItem fields, offset)

/-- The records one after the other. -/
def readItems (buffer : List UInt8) : Nat → Nat → Get (List SenmlItem × Nat)
  | 0, offset => return ([], offset)
  | count + 1, offset => do
    let (item, res) ← readItem (← behind buffer offset)
    let (items, offset) ← readItems buffer count (offset + res.toNat)
    return (item :: items, offset)

/-- What the records of a SenML-CBOR message say. -/
def senmlCborItems (buffer : List UInt8) : Get (List SenmlItem) := do
  let (_, val, res) ← prvGetCborTypeAndValue buffer
  let (items, _) ← readItems buffer (intOfSize val.toNat).toNat res
  return items

theorem get_bind_some {β : Type} {read : Get α} {next : α → Get β} {b : β}
    (h : (read >>= next).run = .ok (some b)) :
    ∃ a, read.run = .ok (some a) ∧ (next a).run = .ok (some b) := by
  rw [OptionT.run_bind] at h
  cases hread : read.run with
  | error fault =>
    rw [hread] at h
    cases h
  | ok found =>
    rw [hread] at h
    cases found with
    | none => cases h
    | some a => exact ⟨a, rfl, h⟩

theorem get_bind_eq {β : Type} {read : Get α} {a : α} (h : read.run = .ok (some a))
    (next : α → Get β) : (read >>= next).run = (next a).run := by
  rw [OptionT.run_bind, h]
  rfl

theorem parseFields_read (n : Nat) :
    ∀ {offset : Int} {fields : List (UInt64 × Lwm2mData)} {state : ItemState}
      {final : ItemState × Int}, FieldsRead base fields state →
      (parseFields buffer n offset state).run = .ok (some final) →
      ∃ rest, (readFields buffer n offset).run = .ok (some (rest, final.2)) ∧
        FieldsRead base (fields ++ rest) final.1 := by
  induction n with
  | zero =>
    intro offset fields state final hread h
    obtain rfl : (state, offset) = final := Option.some.inj (Except.ok.inj h)
    exact ⟨[], rfl, by simpa using hread⟩
  | succ n ih =>
    intro offset fields state final hread h
    rw [parseFields] at h
    obtain ⟨bytes, hbytes, h⟩ := get_bind_some h
    obtain ⟨⟨labelData, res⟩, hlabelData, h⟩ := get_bind_some h
    by_cases hres : res ≤ 0
    · simp only [if_pos hres] at h
      cases h
    · simp only [if_neg hres] at h
      obtain ⟨label, hlabel, h⟩ := get_bind_some h
      obtain ⟨bytes', hbytes', h⟩ := get_bind_some h
      obtain ⟨⟨data, res'⟩, hdata, h⟩ := get_bind_some h
      by_cases hres' : res' ≤ 0
      · simp only [if_pos hres'] at h
        cases h
      · simp only [if_neg hres'] at h
        cases hfield : parseField state label data with
        | none =>
          simp only [hfield] at h
          cases h
        | some next =>
          simp only [hfield] at h
          obtain ⟨rest, hrest, hfinal⟩ := ih (hread.field hfield) h
          refine ⟨(label, data) :: rest, ?_, by simpa using hfinal⟩
          rw [readFields, get_bind_eq hbytes, get_bind_eq hlabelData]
          simp only [if_neg hres]
          rw [get_bind_eq hlabel, get_bind_eq hbytes', get_bind_eq hdata]
          simp only [if_neg hres']
          rw [get_bind_eq hrest]
          rfl

theorem cborItem_name : (cborItem fields).name ≠ some [] := by
  intro hname
  have := Option.filter_eq_some_iff.1 hname
  simp at this

theorem recordIds_eq {baseUri : List UInt8} {name : Option (List UInt8)} (h : name ≠ some []) :
    recordIds baseUri (name.getD []) = jsonRecordIds baseUri name := by
  have hnull : name.getD [] = [] ↔ name = none := by
    cases name with
    | none => simp
    | some text => simpa using fun hempty => h (by rw [hempty])
  simp only [recordIds, jsonRecordIds, hnull]

theorem FieldsRead.finish {state : ItemState} (h : FieldsRead base fields state) :
    finishItem state = resolve state.base (cborItem fields) := by
  rw [finishItem, resolve, h.name, recordIds_eq cborItem_name, h.value, h.time]

theorem prvParseItem_read {next : BaseValues} {res : Int}
    (h : (prvParseItem buffer base).run = .ok (some (record, next, res))) :
    ∃ item, (readItem buffer).run = .ok (some (item, res)) ∧ next = item.applied base ∧
      resolve next item = some record := by
  rw [prvParseItem] at h
  obtain ⟨⟨type, val, start⟩, hhead, h⟩ := get_bind_some h
  by_cases htype : type ≠ .map
  · simp only [if_pos htype] at h
    cases h
  · simp only [if_neg htype] at h
    split at h
    · cases h
    · obtain ⟨final, hfinal, h⟩ := get_bind_some h
      obtain ⟨fields, hfields, hread⟩ := parseFields_read _ (startItem_read base) hfinal
      rw [List.nil_append] at hread
      rw [itemResult, hread.finish] at h
      cases hresolve : resolve final.1.base (cborItem fields) with
      | none =>
        rw [hresolve] at h
        cases h
      | some resolved =>
        rw [hresolve] at h
        obtain ⟨rfl, rfl, rfl⟩ : resolved = record ∧ final.1.base = next ∧ final.2 = res := by
          simpa using Option.some.inj (Except.ok.inj h)
        refine ⟨cborItem fields, ?_, hread.base, hresolve⟩
        rw [readItem, get_bind_eq hhead]
        simp only [if_neg htype]
        rw [get_bind_eq hfields]
        rfl

theorem parseItems_read (n : Nat) :
    ∀ {offset : Nat} {base : BaseValues} {found : List SenmlRecord × Nat},
      (parseItems buffer n offset base).run = .ok (some found) →
      ∃ items, (readItems buffer n offset).run = .ok (some (items, found.2)) ∧
        resolveAll base items = some found.1 := by
  induction n with
  | zero =>
    intro offset base found h
    obtain rfl : ([], offset) = found := Option.some.inj (Except.ok.inj h)
    exact ⟨[], rfl, rfl⟩
  | succ n ih =>
    intro offset base found h
    rw [parseItems] at h
    obtain ⟨bytes, hbytes, h⟩ := get_bind_some h
    obtain ⟨⟨record, next, res⟩, hrecord, h⟩ := get_bind_some h
    by_cases hres : res ≤ 0
    · simp only [if_pos hres] at h
      cases h
    · simp only [if_neg hres] at h
      obtain ⟨⟨records, offset'⟩, hrecords, h⟩ := get_bind_some h
      obtain rfl : (record :: records, offset') = found := Option.some.inj (Except.ok.inj h)
      obtain ⟨item, hitem, rfl, hresolve⟩ := prvParseItem_read hrecord
      obtain ⟨items, hitems, hall⟩ := ih hrecords
      refine ⟨item :: items, ?_, ?_⟩
      · rw [readItems, get_bind_eq hbytes, get_bind_eq hitem]
        simp only
        rw [get_bind_eq hitems]
        rfl
      · rw [resolveAll, hresolve]
        simp only [Option.bind_eq_bind, Option.bind_some] at hall ⊢
        rw [hall]
        rfl

theorem senmlCborRecords_read (h : (senmlCborRecords buffer).run = .ok (some records)) :
    ∃ items, (senmlCborItems buffer).run = .ok (some items) ∧
      resolveAll ⟨[], 0, .node .undefined 0 .zero⟩ items = some records := by
  rw [senmlCborRecords] at h
  obtain ⟨⟨type, val, res⟩, hhead, h⟩ := get_bind_some h
  by_cases htype : type ≠ .array
  · simp only [if_pos htype] at h
    cases h
  · simp only [if_neg htype] at h
    split at h
    · cases h
    · obtain ⟨⟨found, offset⟩, hfound, h⟩ := get_bind_some h
      obtain ⟨items, hitems, hall⟩ := parseItems_read _ hfound
      simp only at h
      split at h
      · cases h
      · obtain rfl : found = records := Option.some.inj (Except.ok.inj h)
        refine ⟨items, ?_, hall⟩
        rw [senmlCborItems, get_bind_eq hhead]
        simp only
        rw [get_bind_eq hitems]
        rfl

/-! ## SenML-JSON -/

section Floats

variable (textToFloat : List UInt8 → Option UInt64)

/-- What the fields of a record say. -/
def jsonSenmlItem (fields : List (List UInt8 × List UInt8)) : SenmlItem where
  baseName := (fieldUnder senmlBaseName fields).bind quotedText
  baseTime := (fieldUnder senmlBaseTime fields).bind jsonConvertTime
  baseValue := (fieldUnder senmlBaseValue fields).bind (jsonBaseValue textToFloat)
  name := (fieldUnder senmlName fields).bind quotedText
  time := ((fieldUnder senmlTime fields).bind jsonConvertTime).getD 0
  value := itemValue 0
    ((lastField isValueToken fields).bind fun field => jsonNewValue textToFloat field.1 field.2)

/-- The loop of `prv_parseItem` has read the fields. -/
structure JsonFieldsRead (base : BaseValues) (fields : List (List UInt8 × List UInt8))
    (state : JsonItemState) : Prop where
  base : state.base = (jsonSenmlItem textToFloat fields).applied base
  name : state.name = (jsonSenmlItem textToFloat fields).name
  time : state.time = (jsonSenmlItem textToFloat fields).time
  value : state.value = (jsonSenmlItem textToFloat fields).value

theorem jsonStartItem_read (base : BaseValues) :
    JsonFieldsRead textToFloat base [] (jsonStartItem base) :=
  ⟨rfl, rfl, rfl, rfl⟩

theorem jsonSenmlItem_append (fields : List (List UInt8 × List UInt8)) (token value : List UInt8) :
    jsonSenmlItem textToFloat (fields ++ [(token, value)]) =
      { baseName :=
          if token == senmlBaseName then quotedText value
          else (jsonSenmlItem textToFloat fields).baseName
        baseTime :=
          if token == senmlBaseTime then jsonConvertTime value
          else (jsonSenmlItem textToFloat fields).baseTime
        baseValue :=
          if token == senmlBaseValue then jsonBaseValue textToFloat value
          else (jsonSenmlItem textToFloat fields).baseValue
        name :=
          if token == senmlName then quotedText value else (jsonSenmlItem textToFloat fields).name
        time :=
          if token == senmlTime then (jsonConvertTime value).getD 0
          else (jsonSenmlItem textToFloat fields).time
        value :=
          if isValueToken token then itemValue 0 (jsonNewValue textToFloat token value)
          else (jsonSenmlItem textToFloat fields).value } := by
  simp only [jsonSenmlItem, fieldUnder_append, lastField_append]
  congr 1 <;> split <;> rfl

variable {textToFloat}

variable {value buffer : List UInt8} {base : BaseValues} {state : JsonItemState}

theorem jsonBaseUri_some {baseUri : List UInt8} (h : jsonBaseUri value = some baseUri) :
    ∃ text, quotedText value = some text ∧ baseUri = upToNul text := by
  unfold jsonBaseUri at h
  split at h
  · cases h
  · next text htext =>
    refine ⟨text, htext, ?_⟩
    split at h
    · cases h
    · split at h
      · cases h
      · exact (Option.some.inj h).symm

theorem JsonFieldsRead.field {fields : List (List UInt8 × List UInt8)} {next : JsonItemState}
    (h : JsonFieldsRead textToFloat base fields state) {token : List UInt8}
    (hfield : jsonParseField textToFloat state token value = some next) :
    JsonFieldsRead textToFloat base (fields ++ [(token, value)]) next := by
  obtain ⟨hbase, hname, htime, hvalue⟩ := h
  have happend := jsonSenmlItem_append textToFloat fields token value
  revert hfield
  fun_cases jsonParseField textToFloat state token value with
  | case1 | case3 | case5 | case7 | case9 | case10 | case12 | case14 | case16 => exact nofun
  | case2 hlabel =>
    intro hfield
    obtain ⟨baseUri, hnew, rfl⟩ := Option.map_eq_some_iff.1 hfield
    obtain ⟨text, htext, rfl⟩ := jsonBaseUri_some hnew
    subst hlabel
    constructor <;> simp +decide [happend, SenmlItem.applied, hbase, hname, htime, hvalue, htext]
  | case4 _ hlabel =>
    intro hfield
    obtain ⟨baseTime, hnew, rfl⟩ := Option.map_eq_some_iff.1 hfield
    subst hlabel
    constructor <;> simp +decide [happend, SenmlItem.applied, hbase, hname, htime, hvalue, hnew]
  | case6 _ _ hlabel =>
    intro hfield
    obtain ⟨baseValue, hnew, rfl⟩ := Option.map_eq_some_iff.1 hfield
    subst hlabel
    constructor <;> simp +decide [happend, SenmlItem.applied, hbase, hname, htime, hvalue, hnew]
  | case8 _ _ _ hlabel =>
    intro hfield
    obtain rfl := Option.some.inj hfield
    subst hlabel
    constructor <;> simp +decide [happend, SenmlItem.applied, hbase, hname, htime, hvalue]
  | case11 _ _ _ _ hlabel =>
    intro hfield
    obtain ⟨name, hnew, rfl⟩ := Option.map_eq_some_iff.1 hfield
    subst hlabel
    constructor <;> simp +decide [happend, SenmlItem.applied, hbase, htime, hvalue, hnew]
  | case13 _ _ _ _ _ hlabel =>
    intro hfield
    obtain ⟨time, hnew, rfl⟩ := Option.map_eq_some_iff.1 hfield
    subst hlabel
    constructor <;> simp +decide [happend, SenmlItem.applied, hbase, hname, hvalue, hnew]
  | case15 h1 h2 h3 h4 h5 h6 hlabel =>
    intro hfield
    obtain ⟨⟨type, number⟩, hnew, rfl⟩ := Option.map_eq_some_iff.1 hfield
    have hid : state.value.id = 0 := by rw [hvalue, jsonSenmlItem, itemValue_id]
    constructor <;>
      simp [happend, SenmlItem.applied, hbase, hname, htime, hid, hnew, itemValue, h1, h2, h3, h5,
        h6, hlabel]
  | case17 h1 h2 h3 h4 h5 h6 h7 =>
    intro hfield
    obtain rfl := Option.some.inj hfield
    constructor <;>
      simp [happend, SenmlItem.applied, hbase, hname, htime, hvalue, h1, h2, h3, h5, h6, h7]

variable (textToFloat)

/-- The fields of a record, whatever they are. -/
def jsonReadFields (buffer : List UInt8) : Option (List (List UInt8 × List UInt8)) :=
  match _hsplit : jsonSplit buffer with
  | none => none
  | some (token, value, rest) =>
    if rest = [] then some [(token, value)]
    else (jsonReadFields rest).map ((token, value) :: ·)
termination_by buffer.length
decreasing_by exact jsonSplit_rest _hsplit

/-- What some records say. -/
def jsonReadItems : Nat → List UInt8 → Option (List SenmlItem)
  | 0, _ => some []
  | count + 1, buffer => do
    let (item, rest) ← jsonItem buffer
    let fields ← jsonReadFields item
    let rest ← jsonNextItem (count != 0) rest
    let items ← jsonReadItems count rest
    return jsonSenmlItem textToFloat fields :: items

/-- What the records of a SenML-JSON message say. -/
def senmlJsonItems (buffer : List UInt8) : Option (List SenmlItem) :=
  let records := jsonSkipSpace ((jsonSkipSpace buffer).drop 1)
  (jsonCountItems records).bind fun count => jsonReadItems textToFloat count records

variable {textToFloat}

theorem jsonReadFields_split {token rest : List UInt8}
    (h : jsonSplit buffer = some (token, value, rest)) :
    jsonReadFields buffer =
      if rest = [] then some [(token, value)]
      else (jsonReadFields rest).map ((token, value) :: ·) := by
  rw [jsonReadFields]
  split
  · next hnone => simp [hnone] at h
  · next hsome =>
    obtain ⟨rfl, rfl, rfl⟩ : _ = token ∧ _ = value ∧ _ = rest := by
      simpa using hsome.symm.trans h
    rfl

theorem jsonParseFields_read {final : JsonItemState}
    (h : jsonParseFields textToFloat state buffer = some final) :
    ∀ {fields : List (List UInt8 × List UInt8)}, JsonFieldsRead textToFloat base fields state →
      ∃ rest, jsonReadFields buffer = some rest ∧
        JsonFieldsRead textToFloat base (fields ++ rest) final := by
  fun_induction jsonParseFields textToFloat state buffer with
  | case1 => cases h
  | case2 => cases h
  | case3 => cases h
  | case4 state buffer token value htoken next hfield hsplit =>
    intro fields hread
    obtain rfl := Option.some.inj h
    exact ⟨[(token, value)], by simp [jsonReadFields_split hsplit], hread.field hfield⟩
  | case5 state buffer token value rest hsplit htoken next hfield hrest ih =>
    intro fields hread
    obtain ⟨more, hmore, hfinal⟩ := ih h (hread.field hfield)
    refine ⟨(token, value) :: more, ?_, by simpa using hfinal⟩
    rw [jsonReadFields_split hsplit, if_neg hrest, hmore]
    rfl

theorem JsonFieldsRead.finish {fields : List (List UInt8 × List UInt8)}
    (h : JsonFieldsRead textToFloat base fields state) :
    jsonFinishItem state = resolve state.base (jsonSenmlItem textToFloat fields) := by
  rw [jsonFinishItem, resolve, h.name, h.value, h.time]

theorem jsonParseItem_read {next : BaseValues} {record : SenmlRecord}
    (h : jsonParseItem textToFloat buffer base = some (record, next)) :
    ∃ fields, jsonReadFields buffer = some fields ∧
      next = (jsonSenmlItem textToFloat fields).applied base ∧
      resolve next (jsonSenmlItem textToFloat fields) = some record := by
  unfold jsonParseItem at h
  cases hfinal : jsonParseFields textToFloat (jsonStartItem base) buffer with
  | none => simp [hfinal] at h
  | some state =>
    obtain ⟨fields, hfields, hread⟩ := jsonParseFields_read hfinal (jsonStartItem_read textToFloat base)
    rw [List.nil_append] at hread
    simp only [hfinal] at h
    obtain ⟨resolved, hresolved, hpair⟩ := Option.map_eq_some_iff.1 h
    obtain ⟨rfl, rfl⟩ := Prod.mk.inj hpair
    exact ⟨fields, hfields, hread.base, by rw [← hread.finish, hresolved]⟩

theorem jsonParseItems_read (n : Nat) :
    ∀ {buffer : List UInt8} {base : BaseValues} {records : List SenmlRecord},
      jsonParseItems textToFloat n buffer base = some records →
      ∃ items, jsonReadItems textToFloat n buffer = some items ∧
        resolveAll base items = some records := by
  induction n with
  | zero =>
    intro buffer base records h
    unfold jsonParseItems at h
    split at h
    · obtain rfl := Option.some.inj h
      exact ⟨[], rfl, rfl⟩
    · cases h
  | succ n ih =>
    intro buffer base records h
    obtain ⟨⟨item, rest⟩, hitem, h⟩ := Option.bind_eq_some_iff.1 h
    obtain ⟨⟨record, next⟩, hrecord, h⟩ := Option.bind_eq_some_iff.1 h
    obtain ⟨rest', hrest, h⟩ := Option.bind_eq_some_iff.1 h
    obtain ⟨more, hmore, h⟩ := Option.bind_eq_some_iff.1 h
    obtain rfl := Option.some.inj h
    obtain ⟨fields, hfields, rfl, hresolve⟩ := jsonParseItem_read hrecord
    obtain ⟨items, hitems, hall⟩ := ih hmore
    refine ⟨jsonSenmlItem textToFloat fields :: items, ?_, ?_⟩
    · simp only [jsonReadItems, hitem, Option.bind_eq_bind, Option.bind_some, hfields] at hitems ⊢
      simp only [hrest, Option.bind_some, hitems]
      rfl
    · simp only [resolveAll, hresolve, Option.bind_eq_bind, Option.bind_some] at hall ⊢
      rw [hall]
      rfl

theorem senmlJsonRecords_read {records : List SenmlRecord}
    (h : senmlJsonRecords textToFloat buffer = some records) :
    ∃ items, senmlJsonItems textToFloat buffer = some items ∧
      resolveAll ⟨[], 0, .node .undefined 0 .zero⟩ items = some records := by
  unfold senmlJsonRecords at h
  cases hstart : jsonSkipSpace buffer with
  | nil => simp [hstart] at h
  | cons sign rest =>
    simp only [hstart] at h
    split at h
    · cases h
    · split at h
      · cases h
      · cases hcount : jsonCountItems (jsonSkipSpace rest) with
        | none => simp [hcount] at h
        | some count =>
          simp only [hcount] at h
          obtain ⟨items, hitems, hall⟩ := jsonParseItems_read count h
          exact ⟨items, by simp [senmlJsonItems, hstart, hcount, hitems], hall⟩

end Floats

def found {α : Type} (check : α → Bool) : Except Fault (Option α) → Bool
  | .ok (some a) => check a
  | _ => false

theorem found_some {check : α → Bool} {result : Except Fault (Option α)}
    (h : found check result = true) : ∃ a, result = .ok (some a) ∧ check a = true := by
  cases result with
  | error fault => cases h
  | ok option =>
    cases option with
    | none => cases h
    | some a => exact ⟨a, rfl, h⟩

/-- `[{bn: "/3/0/", bv: 1, n: "9", v: 1}, {n: "6", v: 5}]`. -/
def carriedMessage : List UInt8 :=
  [0x82, 0xA4, 0x21, 0x65, 0x2F, 0x33, 0x2F, 0x30, 0x2F, 0x24, 0x01, 0x00, 0x61, 0x39, 0x02, 0x01,
    0xA2, 0x00, 0x61, 0x36, 0x02, 0x05]

/-- `[{bn: "/3/0/9", bv: -2, v: 1}]`. -/
def negativeBaseMessage : List UInt8 :=
  [0x81, 0xA3, 0x21, 0x66, 0x2F, 0x33, 0x2F, 0x30, 0x2F, 0x39, 0x24, 0x21, 0x02, 0x01]

end Wakaama
