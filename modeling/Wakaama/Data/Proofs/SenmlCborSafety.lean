import Wakaama.Data.Proofs.CborReaders
import Wakaama.Data.SenmlCbor
import Wakaama.Misc.Repeated

/-!
# The SenML-CBOR parser reads inside its buffer

A message is an array of maps of fields, and the parser goes through it field by field. It looks
at the last character of every text label, which an empty label, a NULL, does not have.
-/

namespace Wakaama

/-! ## The grammar -/

/-- A head behind which no value is skipped, after a tag or not. -/
inductive TaggedHead : List UInt8 → CborType → UInt64 → Prop where
  | plain {bytes : List UInt8} {type : CborType} {val : UInt64} (h : CborHead bytes type val)
      (htype : type ≠ .semanticTag) : TaggedHead bytes type val
  | tagged {tag bytes : List UInt8} {type : CborType} {tagVal val : UInt64}
      (htag : CborHead tag .semanticTag tagVal) (h : CborHead bytes type val) :
      TaggedHead (tag ++ bytes) type val

/-- A label and its value. -/
def SenmlField (bytes : List UInt8) : Prop :=
  ∃ labelBytes label valueBytes value, bytes = labelBytes ++ valueBytes ∧
    CborSingular labelBytes label ∧ CborSingular valueBytes value

/-- A map of as many fields as its head says. -/
def SenmlMap (bytes : List UInt8) : Prop :=
  ∃ head count fields, bytes = head ++ fields ∧ TaggedHead head .map count ∧
    Repeated SenmlField count.toNat fields

/-- An array of as many maps as its head says. -/
def SenmlMessage (bytes : List UInt8) : Prop :=
  ∃ head count items, bytes = head ++ items ∧ TaggedHead head .array count ∧
    Repeated SenmlMap count.toNat items

/-! ## What is accepted, and the labels that are reached -/

/-- Fields that the loop of `prv_parseItem` gets through. -/
inductive FieldsAccepted : ItemState → Nat → List UInt8 → ItemState → Prop where
  | nil (state : ItemState) : FieldsAccepted state 0 [] state
  | cons {state next final : ItemState} {n : Nat} {labelBytes valueBytes rest : List UInt8}
      {labelData value : Lwm2mData} {label : UInt64} (hlabel : CborSingular labelBytes labelData)
      (hitem : itemLabel labelData = pure label) (hvalue : CborSingular valueBytes value)
      (hfield : parseField state label value = some next)
      (hrest : FieldsAccepted next n rest final) :
      FieldsAccepted state (n + 1) (labelBytes ++ valueBytes ++ rest) final

/-- An empty text string. -/
def EmptyText (data : Lwm2mData) : Prop := data.type = .string ∧ data.asBuffer = []

/-- Of `n` fields, some are accepted and the label of the next one is an empty text. -/
def EmptyLabelAt (state : ItemState) (n : Nat) (fields : List UInt8) : Prop :=
  ∃ k bytes next label data rest, k < n ∧ fields = bytes ++ label ++ rest ∧
    FieldsAccepted state k bytes next ∧ CborSingular label data ∧ EmptyText data

/-- A map that `prv_parseItem` makes a record of. -/
def ItemAccepted (base : BaseValues) (bytes : List UInt8) (record : SenmlRecord)
    (base' : BaseValues) : Prop :=
  ∃ head count fields state, bytes = head ++ fields ∧ TaggedHead head .map count ∧
    0 < count.toNat ∧ FieldsAccepted (startItem base) count.toNat fields state ∧
    finishItem state = some record ∧ state.base = base'

/-- A map of which there are bytes enough, up to an empty label. -/
def ItemEmptyLabel (base : BaseValues) (bytes : List UInt8) : Prop :=
  ∃ head count fields, bytes = head ++ fields ∧ TaggedHead head .map count ∧
    count.toNat ≤ bytes.length / 2 ∧ EmptyLabelAt (startItem base) count.toNat fields

/-- Maps that the loop of `senml_cbor_parse` gets through. -/
inductive ItemsAccepted : BaseValues → Nat → List UInt8 → List SenmlRecord → BaseValues → Prop where
  | nil (base : BaseValues) : ItemsAccepted base 0 [] [] base
  | cons {base next final : BaseValues} {n : Nat} {bytes rest : List UInt8} {record : SenmlRecord}
      {records : List SenmlRecord} (hitem : ItemAccepted base bytes record next)
      (hrest : ItemsAccepted next n rest records final) :
      ItemsAccepted base (n + 1) (bytes ++ rest) (record :: records) final

/-- The values that no record has set. -/
def noBaseValues : BaseValues := ⟨[], 0, .node .undefined 0 .zero⟩

/-- Of `n` maps, some are accepted, and the next one has an empty label. -/
def EmptyLabelIn (base : BaseValues) (n : Nat) (items : List UInt8) : Prop :=
  ∃ k bytes records next rest, k < n ∧ items = bytes ++ rest ∧
    ItemsAccepted base k bytes records next ∧ ItemEmptyLabel next rest

/-- An empty label that the parser reaches: whatever is before it in the message is accepted. -/
def EmptyLabelReached (buffer : List UInt8) : Prop :=
  ∃ head count items, buffer = head ++ items ∧ TaggedHead head .array count ∧
    count.toNat ≤ buffer.length / 3 ∧ EmptyLabelIn noBaseValues count.toNat items

/-- The parser reads inside the buffer, `wrongArm` being no read of the buffer but what the tree
builder does with records, and it succeeds only on a complete message. -/
def ParsesSafely (uri : Option Lwm2mUri) (buffer : List UInt8) : Prop :=
  (∀ fault, senmlCborParse uri buffer = .error fault → fault = .wrongArm) ∧
    ∀ n data, senmlCborParse uri buffer = .ok (n, data) → 0 < n → SenmlMessage buffer

/-! ## Heads and labels -/

def nullRead {α : Type} : Get α := OptionT.lift (.error .nullDeref)

variable {val : UInt64} {bytes : List UInt8} {state : ItemState} {n : Nat} {base base' : BaseValues}
  {record : SenmlRecord} {records : List SenmlRecord} {α : Type}
  {f : Lwm2mData → Conversion Lwm2mData}

theorem TaggedHead.read {type : CborType} (h : TaggedHead bytes type val) (rest : List UInt8) :
    prvGetCborTypeAndValue (bytes ++ rest) = pure (type, val, bytes.length) := by
  unfold prvGetCborTypeAndValue
  cases h with
  | plain h htype =>
    rw [h.read]
    simp only [pure_bind, if_neg htype]
  | tagged htag h =>
    rw [List.append_assoc, htag.read]
    simp only [pure_bind, if_true]
    rw [behind_append]
    show (cborGetTypeAndValue _ >>= _) = _
    rw [h.read]
    simp

theorem prvGetCborTypeAndValue_reads (buffer : List UInt8) :
    ReadsOr (prvGetCborTypeAndValue buffer) fun (type, val, n) =>
      ∃ bytes rest, buffer = bytes ++ rest ∧ bytes.length = n ∧ TaggedHead bytes type val := by
  unfold prvGetCborTypeAndValue
  refine (cborGetTypeAndValue_reads buffer).bind ?_
  rintro ⟨type, val, n⟩ ⟨head, rest, rfl, rfl, hhead⟩
  simp only
  split
  · rename_i htag
    subst htag
    rw [behind_append]
    show ReadsOr (cborGetTypeAndValue rest >>= fun (type, val, n') =>
      pure (type, val, head.length + n')) _
    refine (cborGetTypeAndValue_reads rest).bind ?_
    rintro ⟨type', val', n'⟩ ⟨head', rest', rfl, rfl, hhead'⟩
    exact Or.inr ⟨_, rfl, head ++ head', rest', by simp, by simp, .tagged hhead hhead'⟩
  · rename_i htype
    exact Or.inr ⟨_, rfl, head, rest, rfl, rfl, .plain hhead htype⟩

theorem itemLabel_emptyText {data : Lwm2mData} (h : EmptyText data) : itemLabel data = nullRead := by
  unfold itemLabel
  rw [if_pos h.1, h.2]
  rfl

theorem itemLabel_reads {data : Lwm2mData} (h : ¬ EmptyText data) :
    ReadsOr (itemLabel data) fun _ => True := by
  unfold itemLabel
  split
  · rename_i htype
    split
    · exact Or.inr ⟨_, rfl, trivial⟩
    · have hne : data.asBuffer ≠ [] := fun hnil => h ⟨htype, hnil⟩
      obtain ⟨last, hlast⟩ : ∃ last, lastCharacter data.asBuffer = .ok last := by
        have hlength := List.length_pos_of_ne_nil hne
        refine ⟨data.asBuffer[data.asBuffer.length - 1], ?_⟩
        unfold lastCharacter readAt
        rw [if_neg hne, List.getElem?_eq_getElem (by omega)]
      rw [hlast]
      show ReadsOr (if last = 95 then failure else pure senmlCborUnknown) _
      split
      · exact Or.inl rfl
      · exact Or.inr ⟨_, rfl, trivial⟩
  · split
    · split
      · exact Or.inr ⟨_, rfl, trivial⟩
      · exact Or.inl rfl
    · exact Or.inr ⟨_, rfl, trivial⟩

/-! ## Fields -/

theorem addInt_small {a b : Nat} (h : a + b < 2 ^ 31) : addInt a b = ((a + b : Nat) : Int) := by
  unfold addInt
  rw [Int.bmod_def]
  split <;> omega

theorem parseFields_round (pre fields : List UInt8) (n : Nat) (state : ItemState) :
    parseFields (pre ++ fields) (n + 1) pre.length state = (do
      let (data, res) ← cborGetSingular fields
      if res ≤ 0 then failure
      else
        let label ← itemLabel data
        let (data, res') ← cborGetSingular (← behind (pre ++ fields) (addInt pre.length res))
        if res' ≤ 0 then failure
        else
          match parseField state label data with
          | none => failure
          | some state =>
            parseFields (pre ++ fields) n (addInt (addInt pre.length res) res') state) := by
  rw [parseFields, behind_append]
  rfl

theorem parseFields_label {labelBytes : List UInt8} {labelData : Lwm2mData}
    (hlabel : CborSingular labelBytes labelData) (pre rest : List UInt8) (n : Nat)
    (state : ItemState) (hsmall : (pre ++ (labelBytes ++ rest)).length < 2 ^ 31) :
    parseFields (pre ++ (labelBytes ++ rest)) (n + 1) pre.length state = (do
      let label ← itemLabel labelData
      let (data, res) ← cborGetSingular rest
      if res ≤ 0 then failure
      else
        match parseField state label data with
        | none => failure
        | some state =>
          parseFields (pre ++ (labelBytes ++ rest)) n
            (addInt ((pre ++ labelBytes).length : Nat) res) state) := by
  have hpos := hlabel.length_pos
  simp only [List.length_append] at hsmall
  rw [parseFields_round, hlabel.read _ (by simp; omega), pure_bind]
  simp only
  rw [if_neg (by omega), addInt_small (by omega)]
  rw [show pre ++ (labelBytes ++ rest) = (pre ++ labelBytes) ++ rest by simp,
    show pre.length + labelBytes.length = (pre ++ labelBytes).length by simp, behind_append]
  rfl

theorem parseFields_value {labelBytes valueBytes : List UInt8} {labelData value : Lwm2mData}
    {label : UInt64} {next : ItemState} (hlabel : CborSingular labelBytes labelData)
    (hitem : itemLabel labelData = pure label) (hvalue : CborSingular valueBytes value)
    (hfield : parseField state label value = some next) (pre rest : List UInt8) (n : Nat)
    (hsmall : (pre ++ (labelBytes ++ (valueBytes ++ rest))).length < 2 ^ 31) :
    parseFields (pre ++ (labelBytes ++ (valueBytes ++ rest))) (n + 1) pre.length state =
      parseFields ((pre ++ labelBytes ++ valueBytes) ++ rest) n
        ((pre ++ labelBytes ++ valueBytes).length : Nat) next := by
  have hpos := hvalue.length_pos
  rw [parseFields_label hlabel pre _ n state hsmall]
  simp only [List.length_append] at hsmall
  rw [hitem, pure_bind, hvalue.read _ (by simp; omega), pure_bind]
  simp only
  rw [if_neg (by omega), hfield]
  simp only
  rw [addInt_small (by simp; omega)]
  simp [Int.add_assoc]

theorem FieldsAccepted.run {final : ItemState} {k : Nat} (h : FieldsAccepted state k bytes final)
    (n : Nat) (rest : List UInt8) :
    ∀ pre : List UInt8, (pre ++ (bytes ++ rest)).length < 2 ^ 31 →
      parseFields (pre ++ (bytes ++ rest)) (k + n) pre.length state =
        parseFields ((pre ++ bytes) ++ rest) n ((pre ++ bytes).length : Nat) final := by
  induction h with
  | nil state =>
    intro pre _
    simp
  | @cons state next final k labelBytes valueBytes tail labelData value label hlabel hitem hvalue
      hfield _ ih =>
    intro pre hsmall
    have hread := ih (pre ++ labelBytes ++ valueBytes) (by simpa using hsmall)
    have hround := parseFields_value hlabel hitem hvalue hfield pre (tail ++ rest) (k + n)
      (by simpa using hsmall)
    rw [show k + 1 + n = (k + n) + 1 by omega]
    simp only [List.append_assoc] at hread hround ⊢
    rw [hround, hread]

theorem EmptyLabelAt.nullRead {fields : List UInt8} (h : EmptyLabelAt state n fields)
    (pre : List UInt8) (hsmall : (pre ++ fields).length < 2 ^ 31) :
    parseFields (pre ++ fields) n pre.length state = nullRead := by
  obtain ⟨k, bytes, next, label, data, rest, hlt, rfl, haccepted, hlabel, hempty⟩ := h
  obtain ⟨m, rfl⟩ : ∃ m, n = k + (m + 1) := ⟨n - k - 1, by omega⟩
  have hrun := haccepted.run (m + 1) (label ++ rest) pre (by simpa using hsmall)
  have hround := parseFields_label hlabel (pre ++ bytes) rest m next (by simpa using hsmall)
  rw [List.append_assoc, hrun, hround, itemLabel_emptyText hempty]
  rfl

theorem parseFields_reads (n : Nat) : ∀ (pre fields : List UInt8) (state : ItemState),
    (pre ++ fields).length < 2 ^ 31 →
      (ReadsOr (parseFields (pre ++ fields) n pre.length state) fun (final, offset) =>
        ∃ bytes rest, fields = bytes ++ rest ∧ offset = ((pre ++ bytes).length : Nat) ∧
          FieldsAccepted state n bytes final) ∨ EmptyLabelAt state n fields := by
  induction n with
  | zero =>
    intro pre fields state _
    exact Or.inl (Or.inr ⟨(state, pre.length), rfl, [], fields, rfl, by simp, .nil state⟩)
  | succ n ih =>
    intro pre fields state hsmall
    rcases cborGetSingular_reads fields (by simp at hsmall; omega) with
      hnone | ⟨⟨labelData, res⟩, -, labelBytes, afterLabel, rfl, -, hlabel⟩
    · refine Or.inl (Or.inl ?_)
      rw [parseFields_round, hnone]
      rfl
    by_cases hempty : EmptyText labelData
    · exact Or.inr ⟨0, [], state, labelBytes, labelData, afterLabel, by omega, rfl, .nil state,
        hlabel, hempty⟩
    have hround := parseFields_label hlabel pre afterLabel n state hsmall
    rcases itemLabel_reads hempty with hnone | ⟨label, hitem, -⟩
    · refine Or.inl (Or.inl ?_)
      rw [hround, hnone]
      rfl
    rw [hitem, pure_bind] at hround
    rcases cborGetSingular_reads afterLabel (by simp at hsmall; omega) with
      hnone | ⟨⟨value, res'⟩, hread, valueBytes, rest, rfl, rfl, hvalue⟩
    · refine Or.inl (Or.inl ?_)
      rw [hround, hnone]
      rfl
    cases hfield : parseField state label value with
    | none =>
      refine Or.inl (Or.inl ?_)
      have hpos := hvalue.length_pos
      rw [hround, hread, pure_bind]
      simp only
      rw [if_neg (by omega), hfield]
    | some next =>
      have hstep := parseFields_value hlabel hitem hvalue hfield pre rest n hsmall
      rcases ih (pre ++ labelBytes ++ valueBytes) rest next (by simpa using hsmall) with
        hreads | ⟨k, bytes, last, label', data, rest', hlt, rfl, haccepted, hlabel', hempty'⟩
      · refine Or.inl ?_
        rw [hstep]
        refine hreads.imp ?_
        rintro ⟨final, offset⟩ ⟨bytes, rest', rfl, rfl, haccepted⟩
        exact ⟨labelBytes ++ valueBytes ++ bytes, rest', by simp, by simp,
          .cons hlabel hitem hvalue hfield haccepted⟩
      · exact Or.inr ⟨k + 1, labelBytes ++ valueBytes ++ bytes, last, label', data, rest',
          by omega, by simp, .cons hlabel hitem hvalue hfield haccepted, hlabel', hempty'⟩

/-! ## Maps -/

theorem count_checked {bound : Int}
    (h : ¬ (intOfSize val.toNat % 2 ^ 64 ≠ val.toNat ∨ intOfSize val.toNat ≤ 0 ∨ bound < intOfSize val.toNat)) :
    (intOfSize val.toNat).toNat = val.toNat ∧ 0 < val.toNat ∧ (val.toNat : Int) ≤ bound := by
  have hrange := intOfSize_range val.toNat
  omega

theorem count_passes {bound : Int} (hpos : 0 < val.toNat) (hsmall : val.toNat < 2 ^ 31)
    (hbound : (val.toNat : Int) ≤ bound) :
    ¬ (intOfSize val.toNat % 2 ^ 64 ≠ val.toNat ∨ intOfSize val.toNat ≤ 0 ∨
      bound < intOfSize val.toNat) := by
  rw [intOfSize_small hsmall]
  omega

theorem FieldsAccepted.repeated {final : ItemState} (h : FieldsAccepted state n bytes final) :
    Repeated SenmlField n bytes := by
  induction h with
  | nil => exact .nil
  | cons hlabel _ hvalue _ _ ih => exact .cons ⟨_, _, _, _, rfl, hlabel, hvalue⟩ ih

theorem senmlField_length (h : SenmlField bytes) : 2 ≤ bytes.length := by
  obtain ⟨labelBytes, label, valueBytes, value, rfl, hlabel, hvalue⟩ := h
  have hpos := hlabel.length_pos
  have hpos' := hvalue.length_pos
  rw [List.length_append]
  omega

theorem prvParseItem_head {head : List UInt8} {count : UInt64}
    (hhead : TaggedHead head .map count) (fields : List UInt8) (base : BaseValues)
    (hpos : 0 < count.toNat) (hsmall : (head ++ fields).length < 2 ^ 31)
    (hroom : count.toNat ≤ (head ++ fields).length / 2) :
    prvParseItem (head ++ fields) base =
      parseFields (head ++ fields) count.toNat head.length (startItem base) >>= itemResult := by
  have hcount : intOfSize count.toNat = count.toNat := intOfSize_small (by omega)
  have hbound : intOfSize ((head ++ fields).length / 2) = ((head ++ fields).length / 2 : Nat) :=
    intOfSize_small (by omega)
  unfold prvParseItem
  rw [hhead.read, pure_bind]
  simp only
  rw [if_neg (by simp), hbound, if_neg (count_passes hpos (by omega) (by omega)), hcount,
    Int.toNat_natCast]

theorem ItemAccepted.read (h : ItemAccepted base bytes record base') (rest : List UInt8)
    (hsmall : (bytes ++ rest).length < 2 ^ 31) :
    prvParseItem (bytes ++ rest) base = pure (record, base', (bytes.length : Int)) := by
  obtain ⟨head, count, fields, state, rfl, hhead, hpos, hfields, hrecord, rfl⟩ := h
  have hlength := hfields.repeated.length_ge fun _ => senmlField_length
  have hrun := hfields.run 0 rest head (by simpa using hsmall)
  rw [List.append_assoc, prvParseItem_head hhead _ base hpos (by simpa using hsmall)
    (by simp; omega)]
  rw [Nat.add_zero] at hrun
  rw [hrun, parseFields, pure_bind]
  simp only [itemResult, hrecord]

theorem ItemEmptyLabel.nullRead (h : ItemEmptyLabel base bytes) (hsmall : bytes.length < 2 ^ 31) :
    prvParseItem bytes base = nullRead := by
  obtain ⟨head, count, fields, rfl, hhead, hroom, hempty⟩ := h
  have hpos : 0 < count.toNat := by
    obtain ⟨k, -, -, -, -, -, hlt, -⟩ := hempty
    omega
  rw [prvParseItem_head hhead _ base hpos hsmall hroom, hempty.nullRead head hsmall]
  rfl

theorem prvParseItem_reads (bytes : List UInt8) (base : BaseValues)
    (hsmall : bytes.length < 2 ^ 31) :
    (ReadsOr (prvParseItem bytes base) fun (record, base', res) =>
      ∃ item rest, bytes = item ++ rest ∧ res = (item.length : Int) ∧
        ItemAccepted base item record base') ∨ ItemEmptyLabel base bytes := by
  rcases prvGetCborTypeAndValue_reads bytes with
    hnone | ⟨⟨type, count, n⟩, hread, head, fields, rfl, rfl, hhead⟩
  · refine Or.inl (Or.inl ?_)
    unfold prvParseItem
    rw [hnone]
    rfl
  by_cases htype : type = .map
  · subst htype
    by_cases hcheck : intOfSize count.toNat % 2 ^ 64 ≠ count.toNat ∨ intOfSize count.toNat ≤ 0 ∨
        intOfSize ((head ++ fields).length / 2) < intOfSize count.toNat
    · refine Or.inl (Or.inl ?_)
      unfold prvParseItem
      rw [hread, pure_bind]
      simp only
      rw [if_neg (by simp), if_pos hcheck]
    · obtain ⟨-, hpos, hroom⟩ := count_checked hcheck
      rw [intOfSize_small (by omega)] at hroom
      have hparse := prvParseItem_head hhead fields base hpos hsmall (by omega)
      rcases parseFields_reads count.toNat head fields (startItem base) hsmall with
        hfields | hempty
      · refine Or.inl ?_
        rw [hparse]
        refine hfields.bind ?_
        rintro ⟨state, offset⟩ ⟨accepted, rest, rfl, rfl, haccepted⟩
        cases hrecord : finishItem state with
        | none =>
          refine Or.inl ?_
          simp only [itemResult, hrecord]
        | some record =>
          have hresult : itemResult (state, ((head ++ accepted).length : Int)) =
              pure (record, state.base, ((head ++ accepted).length : Int)) := by
            simp only [itemResult, hrecord]
          exact Or.inr ⟨_, hresult, head ++ accepted, rest, by simp, rfl, head, count, accepted,
            state, rfl, hhead, hpos, haccepted, hrecord, rfl⟩
      · exact Or.inr ⟨head, count, fields, rfl, hhead, by omega, hempty⟩
  · refine Or.inl (Or.inl ?_)
    unfold prvParseItem
    rw [hread, pure_bind]
    simp only
    rw [if_pos htype]

theorem ItemAccepted.length_pos (h : ItemAccepted base bytes record base') : 0 < bytes.length := by
  obtain ⟨head, count, fields, state, rfl, hhead, hpos, hfields, -⟩ := h
  have hlength := hfields.repeated.length_ge fun _ => senmlField_length
  rw [List.length_append]
  omega

theorem ItemAccepted.senmlMap (h : ItemAccepted base bytes record base') : SenmlMap bytes := by
  obtain ⟨head, count, fields, state, rfl, hhead, -, hfields, -⟩ := h
  exact ⟨head, count, fields, rfl, hhead, hfields.repeated⟩

/-! ## The message -/

theorem parseItems_round (pre items : List UInt8) (n : Nat) (base : BaseValues) :
    parseItems (pre ++ items) (n + 1) pre.length base = (do
      let (record, base, res) ← prvParseItem items base
      if res ≤ 0 then failure
      else
        let (records, offset) ← parseItems (pre ++ items) n (pre.length + res.toNat) base
        return (record :: records, offset)) := by
  rw [parseItems, behind_append]
  rfl

theorem parseItems_item {next : BaseValues} (hitem : ItemAccepted base bytes record next)
    (pre rest : List UInt8) (n : Nat) (hsmall : (pre ++ (bytes ++ rest)).length < 2 ^ 31) :
    parseItems (pre ++ (bytes ++ rest)) (n + 1) pre.length base = (do
      let (records, offset) ← parseItems ((pre ++ bytes) ++ rest) n (pre ++ bytes).length next
      return (record :: records, offset)) := by
  have hpos := hitem.length_pos
  simp only [List.length_append] at hsmall
  rw [parseItems_round, hitem.read rest (by simp; omega), pure_bind]
  simp only
  rw [if_neg (by omega), Int.toNat_natCast, List.append_assoc, List.length_append]

/-- The loop goes through maps that are accepted, `pre` being what is before them. -/
theorem ItemsAccepted.run {final : BaseValues} {k : Nat}
    (h : ItemsAccepted base k bytes records final) (n : Nat) (rest : List UInt8) :
    ∀ pre : List UInt8, (pre ++ (bytes ++ rest)).length < 2 ^ 31 →
      parseItems (pre ++ (bytes ++ rest)) (k + n) pre.length base = (do
        let (later, offset) ← parseItems ((pre ++ bytes) ++ rest) n (pre ++ bytes).length final
        return (records ++ later, offset)) := by
  induction h with
  | nil base =>
    intro pre _
    simp
  | @cons base next final k item tail record records hitem _ ih =>
    intro pre hsmall
    have hround := parseItems_item hitem pre (tail ++ rest) (k + n) (by simpa using hsmall)
    have hrest := ih (pre ++ item) (by simpa using hsmall)
    rw [show k + 1 + n = (k + n) + 1 by omega]
    simp only [List.append_assoc] at hround hrest ⊢
    rw [hround, hrest]
    simp

theorem EmptyLabelIn.nullRead {items : List UInt8} (h : EmptyLabelIn base n items)
    (pre : List UInt8) (hsmall : (pre ++ items).length < 2 ^ 31) :
    parseItems (pre ++ items) n pre.length base = nullRead := by
  obtain ⟨k, bytes, records, next, rest, hlt, rfl, haccepted, hempty⟩ := h
  obtain ⟨m, rfl⟩ : ∃ m, n = k + (m + 1) := ⟨n - k - 1, by omega⟩
  have hrest : rest.length < 2 ^ 31 := by
    simp only [List.length_append] at hsmall
    omega
  rw [haccepted.run (m + 1) rest pre hsmall, parseItems_round, hempty.nullRead hrest]
  rfl

theorem parseItems_reads (n : Nat) : ∀ (pre items : List UInt8) (base : BaseValues),
    (pre ++ items).length < 2 ^ 31 →
      (ReadsOr (parseItems (pre ++ items) n pre.length base) fun (records, offset) =>
        ∃ bytes rest final, items = bytes ++ rest ∧ offset = (pre ++ bytes).length ∧
          ItemsAccepted base n bytes records final) ∨ EmptyLabelIn base n items := by
  induction n with
  | zero =>
    intro pre items base _
    exact Or.inl (Or.inr ⟨([], pre.length), rfl, [], items, base, rfl, by simp, .nil base⟩)
  | succ n ih =>
    intro pre items base hsmall
    rcases prvParseItem_reads items base (by simp at hsmall; omega) with
      (hnone | ⟨⟨record, next, res⟩, -, bytes, rest, rfl, -, hitem⟩) | hempty
    · refine Or.inl (Or.inl ?_)
      rw [parseItems_round, hnone]
      rfl
    · have hround := parseItems_item hitem pre rest n hsmall
      rcases ih (pre ++ bytes) rest next (by simpa using hsmall) with
        hreads | ⟨k, later, records, last, rest', hlt, rfl, haccepted, hempty⟩
      · refine Or.inl ?_
        rw [hround]
        refine hreads.bind ?_
        rintro ⟨records, offset⟩ ⟨later, rest', final, rfl, rfl, haccepted⟩
        exact Or.inr ⟨_, rfl, bytes ++ later, rest', final, by simp, by simp,
          .cons hitem haccepted⟩
      · exact Or.inr ⟨k + 1, bytes ++ later, record :: records, last, rest', by omega, by simp,
          .cons hitem haccepted, hempty⟩
    · exact Or.inr ⟨0, [], [], base, items, by omega, rfl, .nil base, hempty⟩

theorem ItemsAccepted.repeated {final : BaseValues} (h : ItemsAccepted base n bytes records final) :
    Repeated SenmlMap n bytes := by
  induction h with
  | nil => exact .nil
  | cons hitem _ ih => exact .cons hitem.senmlMap ih

theorem senmlCborRecords_head {head : List UInt8} {count : UInt64}
    (hhead : TaggedHead head .array count) (items : List UInt8) (hpos : 0 < count.toNat)
    (hsmall : (head ++ items).length < 2 ^ 31)
    (hroom : count.toNat ≤ (head ++ items).length / 3) :
    senmlCborRecords (head ++ items) = (do
      let (records, offset) ← parseItems (head ++ items) count.toNat head.length noBaseValues
      if offset ≠ (head ++ items).length then failure else return records) := by
  have hcount : intOfSize count.toNat = count.toNat := intOfSize_small (by omega)
  unfold senmlCborRecords
  rw [hhead.read, pure_bind]
  simp only
  rw [if_neg (by simp), if_neg (count_passes hpos (by omega) (by omega)), hcount,
    Int.toNat_natCast]
  rfl

theorem senmlCborRecords_reads (buffer : List UInt8) (hsmall : buffer.length < 2 ^ 31) :
    (ReadsOr (senmlCborRecords buffer) fun _ => SenmlMessage buffer) ∨
      EmptyLabelReached buffer := by
  rcases prvGetCborTypeAndValue_reads buffer with
    hnone | ⟨⟨type, count, n⟩, hread, head, items, rfl, rfl, hhead⟩
  · refine Or.inl (Or.inl ?_)
    unfold senmlCborRecords
    rw [hnone]
    rfl
  by_cases htype : type = .array
  · subst htype
    by_cases hcheck : intOfSize count.toNat % 2 ^ 64 ≠ count.toNat ∨ intOfSize count.toNat ≤ 0 ∨
        ((head ++ items).length / 3 : Nat) < intOfSize count.toNat
    · refine Or.inl (Or.inl ?_)
      unfold senmlCborRecords
      rw [hread, pure_bind]
      simp only
      rw [if_neg (by simp), if_pos hcheck]
    · obtain ⟨-, hpos, hroom⟩ := count_checked hcheck
      have hparse := senmlCborRecords_head hhead items hpos hsmall (by omega)
      rcases parseItems_reads count.toNat head items noBaseValues hsmall with hitems | hempty
      · refine Or.inl ?_
        rw [hparse]
        refine hitems.bind ?_
        rintro ⟨records, offset⟩ ⟨bytes, rest, final, rfl, rfl, haccepted⟩
        simp only
        split
        · exact Or.inl rfl
        · rename_i hend
          have hnil : rest = [] := by
            apply List.eq_nil_of_length_eq_zero
            simp only [List.length_append, ne_eq, not_not] at hend
            omega
          subst hnil
          exact Or.inr ⟨_, rfl, head, count, bytes, by simp, hhead, haccepted.repeated⟩
      · exact Or.inr ⟨head, count, items, rfl, hhead, by omega, hempty⟩
  · refine Or.inl (Or.inl ?_)
    unfold senmlCborRecords
    rw [hread, pure_bind]
    simp only
    rw [if_pos htype]

theorem EmptyLabelReached.nullRead {buffer : List UInt8} (h : EmptyLabelReached buffer)
    (hsmall : buffer.length < 2 ^ 31) : senmlCborRecords buffer = nullRead := by
  obtain ⟨head, count, items, rfl, hhead, hroom, hempty⟩ := h
  have hpos : 0 < count.toNat := by
    obtain ⟨k, -, -, -, -, hlt, -⟩ := hempty
    omega
  rw [senmlCborRecords_head hhead items hpos hsmall hroom, hempty.nullRead head hsmall]
  rfl

/-! ## The tree builder -/

/-- A conversion that faults only where it takes a value for children. -/
def OnlyWrongArm {α : Type} (conversion : Conversion α) : Prop :=
  ∀ fault, conversion = .error (some fault) → fault = .wrongArm

theorem OnlyWrongArm.pure (x : α) : OnlyWrongArm (pure x : Conversion α) :=
  fun _ h => by cases h

theorem OnlyWrongArm.giveUp : OnlyWrongArm (throw none : Conversion α) :=
  fun _ h => by cases h

theorem OnlyWrongArm.wrongArm : OnlyWrongArm (throw (some .wrongArm) : Conversion α) :=
  fun _ h => by cases h; rfl

theorem OnlyWrongArm.bind {β : Type} {conversion : Conversion α} {next : α → Conversion β}
    (h : OnlyWrongArm conversion) (hnext : ∀ x, OnlyWrongArm (next x)) :
    OnlyWrongArm (conversion >>= next) := by
  cases conversion with
  | error fault => exact fun _ heq => h _ (by cases heq; rfl)
  | ok x => exact hnext x

theorem withItem_onlyWrongArm (hf : ∀ data, OnlyWrongArm (f data)) (array : List Lwm2mData)
    (id : UInt16) (type : DataType) : OnlyWrongArm (withItem array id type f) := by
  unfold withItem
  split
  · exact (hf _).bind fun _ => .pure _
  · exact (hf _).bind fun _ => .pure _

theorem withChild_onlyWrongArm (hf : ∀ data, OnlyWrongArm (f data)) (parent : Lwm2mData)
    (id : UInt16) (type : DataType) : OnlyWrongArm (withChild parent id type f) := by
  unfold withChild
  split
  · exact (withItem_onlyWrongArm hf _ _ _).bind fun _ => .pure _
  · exact .wrongArm

theorem withNewInstance_onlyWrongArm (hf : ∀ data, OnlyWrongArm (f data)) (parent : Lwm2mData)
    (id : UInt16) : OnlyWrongArm (withNewInstance parent id f) := by
  unfold withNewInstance
  split
  · exact (hf _).bind fun _ => .pure _
  · exact .wrongArm

theorem convertedValue_onlyWrongArm (value : Option Lwm2mData) :
    OnlyWrongArm (match value with
      | none => (throw none : Conversion Lwm2mData)
      | some data => return data) := by
  cases value with
  | none => exact .giveUp
  | some data => exact .pure _

theorem convertRecord_onlyWrongArm
    (convertValue : SenmlRecord → Lwm2mData → Option Lwm2mData) (root : List Lwm2mData)
    (record : SenmlRecord) : OnlyWrongArm (convertRecord convertValue root record) := by
  have hput := fun target => convertedValue_onlyWrongArm (convertValue record target)
  refine withItem_onlyWrongArm (fun object => ?_) _ _ _
  split
  · refine withChild_onlyWrongArm (fun inst => ?_) _ _ _
    split
    · refine withChild_onlyWrongArm (fun resource => ?_) _ _ _
      split
      · exact withNewInstance_onlyWrongArm hput _ _
      · exact hput resource
    · split
      · exact withNewInstance_onlyWrongArm hput _ _
      · exact hput inst
  · exact hput object

theorem prvConvertRecord_onlyWrongArm
    (convertValue : SenmlRecord → Lwm2mData → Option Lwm2mData) (records : List SenmlRecord) :
    OnlyWrongArm (prvConvertRecord convertValue records) := by
  have hfold : ∀ (records : List SenmlRecord) (root : List Lwm2mData),
      OnlyWrongArm (records.foldlM (convertRecord convertValue) root) := by
    intro records
    induction records with
    | nil => exact fun root => .pure root
    | cons record records ih =>
      intro root
      rw [List.foldlM_cons]
      exact (convertRecord_onlyWrongArm convertValue root record).bind ih
  unfold prvConvertRecord
  split
  · exact .giveUp
  · exact hfold records []

theorem senmlDataStrip_onlyWrongArm (data : List Lwm2mData) :
    OnlyWrongArm (senmlDataStrip data) := by
  unfold senmlDataStrip
  split
  · exact .giveUp
  · exact .pure _

theorem instanceChildren_onlyWrongArm (instanceId : UInt16) (array : List Lwm2mData) :
    OnlyWrongArm (instanceChildren instanceId array) := by
  induction array with
  | nil => exact .giveUp
  | cons target rest ih =>
    unfold instanceChildren
    split
    · refine OnlyWrongArm.bind ?_ fun children => ?_
      · unfold childArray
        split
        · exact .pure _
        · exact .wrongArm
      · split
        · exact ih
        · exact .pure _
    · exact ih

theorem resourceData_onlyWrongArm (uri : Lwm2mUri) (resources : List Lwm2mData) :
    OnlyWrongArm (resourceData uri resources) := by
  unfold resourceData
  split
  · split
    · exact .giveUp
    · split
      · split
        · exact .giveUp
        · exact .pure _
      · exact senmlDataStrip_onlyWrongArm _
  · exact .pure _

theorem resourceInstanceData_onlyWrongArm (uri : Lwm2mUri) (instances : List Lwm2mData) :
    OnlyWrongArm (resourceInstanceData uri instances) := by
  unfold resourceInstanceData
  split
  · split
    · exact .giveUp
    · exact senmlDataStrip_onlyWrongArm _
  · exact .pure _

theorem requestedData_onlyWrongArm (uri : Lwm2mUri) (parsed : List Lwm2mData) :
    OnlyWrongArm (requestedData uri parsed) := by
  unfold requestedData
  split
  · exact .pure _
  · split
    · exact .giveUp
    · split
      · exact .giveUp
      · split
        · refine (instanceChildren_onlyWrongArm _ _).bind fun resources => ?_
          exact (resourceData_onlyWrongArm uri resources).bind
            (resourceInstanceData_onlyWrongArm uri)
        · exact .pure _

theorem senmlConvertRecords_onlyWrongArm
    (convertValue : SenmlRecord → Lwm2mData → Option Lwm2mData) (uri : Option Lwm2mUri)
    (records : List SenmlRecord) :
    OnlyWrongArm (senmlConvertRecords convertValue uri records) := by
  unfold senmlConvertRecords
  refine (prvConvertRecord_onlyWrongArm convertValue records).bind fun parsed => ?_
  split
  · exact senmlDataStrip_onlyWrongArm parsed
  · split
    · exact (requestedData_onlyWrongArm _ parsed).bind senmlDataStrip_onlyWrongArm
    · exact senmlDataStrip_onlyWrongArm parsed

/-! ## The parser -/

theorem senmlCborParse_records {buffer : List UInt8} (h : senmlCborRecords buffer = pure records)
    (uri : Option Lwm2mUri) :
    senmlCborParse uri buffer =
      match senmlConvertRecords prvConvertValue uri records with
      | .ok data => .ok (data.length, data)
      | .error none => .ok (-1, [])
      | .error (some fault) => .error fault := by
  unfold senmlCborParse
  rw [h]
  rfl

/-- An array of one map of one field: the number 5 under the label 2. -/
def oneNumber : List UInt8 := [0x81, 0xa1, 0x02, 0x05]

theorem oneNumber_message : SenmlMessage oneNumber := by
  have hlabel : CborSingular [0x02] (.node .unsignedInteger 0 (.asUnsigned 2)) :=
    .untagged (.unsignedInteger (.mk rfl rfl))
  have hvalue : CborSingular [0x05] (.node .unsignedInteger 0 (.asUnsigned 5)) :=
    .untagged (.unsignedInteger (.mk rfl rfl))
  have hfield : SenmlField [0x02, 0x05] := ⟨[0x02], _, [0x05], _, rfl, hlabel, hvalue⟩
  have hmap : SenmlMap [0xa1, 0x02, 0x05] :=
    ⟨[0xa1], 1, [0x02, 0x05], rfl, .plain (.mk rfl rfl) (by decide), .cons hfield .nil⟩
  exact ⟨[0x81], 1, [0xa1, 0x02, 0x05], rfl, .plain (.mk rfl rfl) (by decide), .cons hmap .nil⟩

end Wakaama
