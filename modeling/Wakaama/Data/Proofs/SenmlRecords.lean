import Wakaama.Data.Proofs.TreeRounds
import Wakaama.Data.SenmlCbor

/-!
# The tree of an array of SenML records

The rounds of `prv_convertRecord` look for nodes by id, skip the nodes without a type, and put
a value wherever the path of a record ends. When that gives the tree that the records describe
depends on the records before each record.
-/

namespace Wakaama

namespace SenmlRecord

/-- The ids of a record up to the first that is not set. -/
def path (record : SenmlRecord) : List UInt16 :=
  [record.ids.objectId, record.ids.instanceId, record.ids.resourceId,
    record.ids.resourceInstanceId].takeWhile fun id => id != lwm2mMaxId

/-- Where a record is put: records without a path share a node with the reserved id. -/
def key (record : SenmlRecord) : List UInt16 :=
  if record.path = [] then [lwm2mMaxId] else record.path

def hasValue (record : SenmlRecord) : Prop := record.value.type ≠ .undefined

/-- The type and the value that a record carries. -/
def info (record : SenmlRecord) : NodeInfo := (record.value.type, record.value.value)

end SenmlRecord

/-- The types and unions that the parser gives to the value of a record. -/
def ParsedValue : DataType → DataValue Lwm2mData → Prop
  | .undefined, .zero => True
  | .string, .asBuffer _ => True
  | .opaqueBytes, .asBuffer _ => True
  | .integer, .asInteger _ => True
  | .unsignedInteger, .asUnsigned _ => True
  | .float, .asFloat _ => True
  | .boolean, .asBoolean _ => True
  | .objectLink, .asObjLink _ _ => True
  | _, _ => False

/-- A record as the parser leaves it: no id behind one that is not set. -/
structure SenmlRecord.Parsed (record : SenmlRecord) : Prop where
  instanceId : record.ids.instanceId ≠ lwm2mMaxId → record.ids.objectId ≠ lwm2mMaxId
  resourceId : record.ids.resourceId ≠ lwm2mMaxId → record.ids.instanceId ≠ lwm2mMaxId
  resourceInstanceId :
    record.ids.resourceInstanceId ≠ lwm2mMaxId → record.ids.resourceId ≠ lwm2mMaxId
  value : ParsedValue record.value.type record.value.value

variable {record : SenmlRecord} {f : Lwm2mData → Conversion Lwm2mData} {id : UInt16}
  {land : Lwm2mData → Lwm2mData} {q : List UInt16} {records : List SenmlRecord}
  {tree : List Lwm2mData}

theorem SenmlRecord.Parsed.noChildren (h : record.Parsed) (array : List Lwm2mData) :
    record.info.2 ≠ .asChildren array := by
  intro heq
  have hvalue := h.value
  rw [show record.value.value = .asChildren array from heq] at hvalue
  cases htype : record.value.type <;> simp [htype, ParsedValue] at hvalue

theorem SenmlRecord.Parsed.zero (h : record.Parsed) (hvalue : ¬ record.hasValue) :
    record.value.value = .zero := by
  have hparsed := h.value
  rw [show record.value.type = .undefined from not_not.1 hvalue] at hparsed
  cases heq : record.value.value <;> simp [heq, ParsedValue] at hparsed
  rfl

theorem SenmlRecord.Parsed.notChildren (h : record.Parsed) :
    record.value.type.hasChildren = false := by
  have hvalue := h.value
  cases htype : record.value.type <;> simp_all [ParsedValue, DataType.hasChildren]

theorem prvConvertValue_eq (h : record.Parsed) (target : Lwm2mData) :
    prvConvertValue record target = some (landOn record.info target) := by
  have hvalue := h.value
  unfold prvConvertValue landOn SenmlRecord.info Lwm2mData.asBuffer
  cases htype : record.value.type <;> cases heq : record.value.value <;>
    simp_all [ParsedValue]

theorem withItem_congr {array : List Lwm2mData} {type : DataType}
    {g : Lwm2mData → Conversion Lwm2mData} (h : ∀ data, f data = g data) :
    withItem array id type f = withItem array id type g := by
  rw [funext h]

theorem withChild_eq_reachIn (depth : Nat) {rest : List UInt16} (hdepth : depth < 2)
    (h : ∀ data, f data = reachIn land (depth + 1) rest data) (data : Lwm2mData) :
    withChild data id (levelType (depth + 1) id) f = reachIn land depth (id :: rest) data := by
  have hopens : Opens depth data.type ↔ data.type.hasChildren :=
    ⟨fun h => h.resolve_right fun h2 => absurd h2.1 (by omega), Or.inl⟩
  have hpass : passType depth data.type = data.type := if_neg (by omega)
  unfold withChild
  rw [reachIn, if_neg (List.cons_ne_nil id rest), reach_cons land (by omega), withItem_congr h, hpass]
  by_cases hchildren : data.type.hasChildren
  · rw [if_pos hchildren, if_pos (hopens.2 hchildren)]
    rfl
  · rw [if_neg hchildren, if_neg fun h => hchildren (hopens.1 h)]
    rfl

theorem withNewInstance_eq_reachIn (h : ∀ data, f data = .ok (land data)) (data : Lwm2mData) :
    withNewInstance data id f = reachIn land 2 [id] data := by
  have hopens : Opens 2 data.type ↔ data.type.hasChildren ∨ data.type = .undefined := by
    simp [Opens]
  unfold withNewInstance
  rw [reachIn, if_neg (List.cons_ne_nil id []), reach, if_pos rfl, h]
  by_cases hchildren : data.type.hasChildren ∨ data.type = .undefined
  · rw [if_pos hchildren, if_pos (hopens.2 hchildren)]
    rfl
  · rw [if_neg hchildren, if_neg fun h => hchildren (hopens.1 h)]
    rfl

theorem walk_eq_reach (h : record.Parsed) {put : Lwm2mData → Conversion Lwm2mData}
    (hput : ∀ target, put target = .ok (land target)) {rootType : DataType}
    (hobject : record.ids.objectId ≠ lwm2mMaxId → rootType = .object)
    (hreserved : record.ids.objectId = lwm2mMaxId → land (.node rootType lwm2mMaxId .zero) = land (.node .undefined lwm2mMaxId .zero))
    (root : List Lwm2mData) :
    (withItem root record.ids.objectId rootType fun target =>
      if record.ids.instanceId ≠ lwm2mMaxId then
        withChild target record.ids.instanceId (utilsDepthToDatatype .objectInstance) fun target =>
          if record.ids.resourceId ≠ lwm2mMaxId then
            withChild target record.ids.resourceId
              (utilsDepthToDatatype (senmlDecreaseLevel .objectInstance)) fun target =>
                if record.ids.resourceInstanceId ≠ lwm2mMaxId then
                  withNewInstance target record.ids.resourceInstanceId put
                else put target
          else
            if record.ids.resourceInstanceId ≠ lwm2mMaxId then
              withNewInstance target record.ids.resourceInstanceId put
            else put target
      else put target) = reach land 0 record.key root := by
  have hroot : record.ids.objectId ≠ lwm2mMaxId →
      rootType = levelType 0 record.ids.objectId := by
    intro hset
    rw [hobject hset, levelType, if_pos rfl, if_pos hset]
  by_cases hinstance : record.ids.instanceId ≠ lwm2mMaxId
  · have hset := h.instanceId hinstance
    rw [hroot hset]
    by_cases hresource : record.ids.resourceId ≠ lwm2mMaxId
    · by_cases hri : record.ids.resourceInstanceId ≠ lwm2mMaxId
      · have hkey : record.key = [record.ids.objectId, record.ids.instanceId,
            record.ids.resourceId, record.ids.resourceInstanceId] := by
          simp [SenmlRecord.key, SenmlRecord.path, hset, hinstance, hresource, hri]
        rw [hkey, reach_cons land (by decide)]
        apply withItem_congr
        intro target
        rw [if_pos hinstance]
        refine withChild_eq_reachIn 0 (by decide) (fun target => ?_) target
        rw [if_pos hresource]
        refine withChild_eq_reachIn 1 (by decide) (fun target => ?_) target
        rw [if_pos hri]
        exact withNewInstance_eq_reachIn hput target
      · have hkey : record.key = [record.ids.objectId, record.ids.instanceId,
            record.ids.resourceId] := by
          simp [SenmlRecord.key, SenmlRecord.path, hset, hinstance, hresource, not_not.1 hri]
        rw [hkey, reach_cons land (by decide)]
        apply withItem_congr
        intro target
        rw [if_pos hinstance]
        refine withChild_eq_reachIn 0 (by decide) (fun target => ?_) target
        rw [if_pos hresource]
        refine withChild_eq_reachIn 1 (by decide) (fun target => ?_) target
        rw [if_neg hri]
        exact hput target
    · have hri : ¬ record.ids.resourceInstanceId ≠ lwm2mMaxId :=
        fun hri => hresource (h.resourceInstanceId hri)
      have hkey : record.key = [record.ids.objectId, record.ids.instanceId] := by
        simp [SenmlRecord.key, SenmlRecord.path, hset, hinstance, not_not.1 hresource]
      rw [hkey, reach_cons land (by decide)]
      apply withItem_congr
      intro target
      rw [if_pos hinstance]
      refine withChild_eq_reachIn 0 (by decide) (fun target => ?_) target
      rw [if_neg hresource, if_neg hri]
      exact hput target
  · have hkey : record.key = [record.ids.objectId] := by
      by_cases hset : record.ids.objectId = lwm2mMaxId
      · simp [SenmlRecord.key, SenmlRecord.path, hset]
      · simp [SenmlRecord.key, SenmlRecord.path, hset, not_not.1 hinstance]
    have hput' : ∀ target, (if record.ids.instanceId ≠ lwm2mMaxId then
        withChild target record.ids.instanceId (utilsDepthToDatatype .objectInstance) fun target =>
          if record.ids.resourceId ≠ lwm2mMaxId then
            withChild target record.ids.resourceId
              (utilsDepthToDatatype (senmlDecreaseLevel .objectInstance)) fun target =>
                if record.ids.resourceInstanceId ≠ lwm2mMaxId then
                  withNewInstance target record.ids.resourceInstanceId put
                else put target
          else
            if record.ids.resourceInstanceId ≠ lwm2mMaxId then
              withNewInstance target record.ids.resourceInstanceId put
            else put target
      else put target) = reachIn land 0 [] target := by
      intro target
      rw [if_neg hinstance]
      exact hput target
    rw [hkey, reach_cons land (by decide), withItem_congr hput']
    by_cases hset : record.ids.objectId = lwm2mMaxId
    · rw [hset]
      unfold withItem reachIn
      simp only [if_true, hreserved hset]
      rfl
    · rw [hroot hset]

theorem convertRecord_eq_place (h : record.Parsed) (root : List Lwm2mData) :
    convertRecord prvConvertValue root record = place record.info 0 record.key root := by
  rw [place_eq_reach]
  apply walk_eq_reach h
  · intro target
    rw [prvConvertValue_eq h]
    rfl
  · exact fun hset => if_pos hset
  · intro hset
    rw [if_neg (not_not.2 hset)]

/-- What the records before a record have to be for its round to be right: no value on the way
to it and no resource that was there without instances; nothing below it; and a record for the
same path only where that can be found again. -/
structure Compatible (earlier : List SenmlRecord) (record : SenmlRecord) : Prop where
  above : ∀ r ∈ earlier, r.path ≠ [] → r.path <+: record.path → r.path ≠ record.path →
    r.path.length ≤ 2 ∧ ¬ r.hasValue
  below : ∀ r ∈ earlier, record.path ≠ [] → record.path <+: r.path → r.path = record.path
  same : (∃ r ∈ earlier, r.path = record.path) →
    record.path.length = 1 ∨ record.path.length = 2 ∨
      record.path.length ≠ 4 ∧ ∃ r ∈ earlier, r.path = record.path ∧ r.hasValue

/-- Every record is compatible with the records before it. -/
def AllCompatible (records : List SenmlRecord) : Prop :=
  ∀ earlier record later, records = earlier ++ record :: later → Compatible earlier record

/-- A record that carries the last value of its path. -/
def LastValue (record : SenmlRecord) (later : List SenmlRecord) : Prop :=
  record.hasValue ∧ ∀ r ∈ later, r.path = record.path → ¬ r.hasValue

/-- No record without a value comes behind the last value of its path, unless that is zero. -/
def LastValueKept (records : List SenmlRecord) : Prop :=
  ∀ earlier record later, records = earlier ++ record :: later → LastValue record later →
    record.value.value.plain = .zero ∨ ∀ r ∈ later, r.path ≠ record.path

/-- The loop of `prv_convertRecord`. -/
def buildTree (records : List SenmlRecord) : Conversion (List Lwm2mData) :=
  records.foldlM (convertRecord prvConvertValue) []

/-- No round takes away a node, so that none that holds children is overwritten or reset. -/
def NothingLost (records : List SenmlRecord) : Prop :=
  ∀ earlier record later, records = earlier ++ record :: later → ∀ tree tree',
    buildTree earlier = .ok tree → buildTree (earlier ++ [record]) = .ok tree' →
      ∀ q, infoAt q tree ≠ none → infoAt q tree' ≠ none

/-- The last value of every path is in the tree. -/
def ValuesPresent (records : List SenmlRecord) (tree : List Lwm2mData) : Prop :=
  ∀ earlier record later, records = earlier ++ record :: later → LastValue record later →
    infoAt record.key tree = some (record.value.type, record.value.value.plain)

/-- The conversion fails, or it reads children only of nodes that have them, loses nothing, and
gives a tree with unique sibling ids and all the values. -/
def TreeSound (records : List SenmlRecord) : Prop :=
  prvConvertRecord prvConvertValue records = .error none ∨
    ∃ tree, prvConvertRecord prvConvertValue records = .ok tree ∧ NothingLost records ∧
      SiblingsUnique tree ∧ ValuesPresent records tree

instance (record : SenmlRecord) : Decidable record.hasValue :=
  inferInstanceAs (Decidable (_ ≠ _))

/-- The records with a key, and those of them that carry a value. -/
def recordsAt (records : List SenmlRecord) (q : List UInt16) : List SenmlRecord :=
  records.filter fun record => record.key = q

def valuesAt (records : List SenmlRecord) (q : List UInt16) : List SenmlRecord :=
  records.filter fun record => record.key = q ∧ record.hasValue

/-- The type that the node at a path has: that of the last value, or that of a node without. -/
def expectedType (records : List SenmlRecord) (q : List UInt16) : DataType :=
  match (valuesAt records q).getLast? with
  | some record => record.value.type
  | none =>
    if q.length = 3 ∧ ∃ record ∈ records, q <+: record.key ∧ q ≠ record.key then
      .multipleResource
    else baseType 0 q

def expectedValue (records : List SenmlRecord) (q : List UInt16) : DataValue Lwm2mData :=
  match (recordsAt records q).getLast? with
  | some record => record.value.value.plain
  | none => .zero

structure Explains (records : List SenmlRecord) (tree : List Lwm2mData) : Prop where
  unique : SiblingsUnique tree
  present : ∀ q, infoAt q tree ≠ none ↔ q ≠ [] ∧ ∃ record ∈ records, q <+: record.key
  info : ∀ q i, infoAt q tree = some i → i = (expectedType records q, expectedValue records q)
  inner : ∀ r ∈ records, ∀ r' ∈ records, r.path ≠ [] → r.path <+: r'.path → r.path ≠ r'.path →
    r.path.length ≤ 2 ∧ ¬ r.hasValue

theorem explains_nil : Explains [] [] := by
  refine ⟨trivial, ?_, ?_, ?_⟩
  · intro q
    simp [infoAt_nil]
  · intro q i h
    rw [infoAt_nil] at h
    cases h
  · intro r hr
    simp at hr

namespace SenmlRecord

variable {record : SenmlRecord}

theorem path_ne_max {id : UInt16} (h : id ∈ record.path) : id ≠ lwm2mMaxId := by
  have hid := List.mem_takeWhile_imp h
  simpa using hid

theorem path_length_le (record : SenmlRecord) : record.path.length ≤ 4 :=
  (List.takeWhile_sublist _).length_le

theorem key_ne_nil (record : SenmlRecord) : record.key ≠ [] := by
  unfold key
  split
  · simp
  · assumption

theorem key_length_le (record : SenmlRecord) : record.key.length ≤ 4 := by
  unfold key
  split
  · simp
  · exact record.path_length_le

theorem key_of_path_ne_nil (h : record.path ≠ []) :
    record.key = record.path := if_neg h

theorem key_of_path_eq_nil (h : record.path = []) :
    record.key = [lwm2mMaxId] := if_pos h

theorem key_eq_iff (r r' : SenmlRecord) : r.key = r'.key ↔ r.path = r'.path := by
  have hmax : ∀ r : SenmlRecord, r.path ≠ [lwm2mMaxId] := by
    intro r h
    exact path_ne_max (show lwm2mMaxId ∈ r.path by rw [h]; simp) rfl
  unfold key
  by_cases h : r.path = [] <;> by_cases h' : r'.path = []
  · simp [h, h']
  · simp [h, h', (hmax r').symm, Ne.symm h']
  · simp [h, h', hmax r]
  · simp [h, h']

theorem key_eq_path {q : List UInt16} (hq : q ≠ []) (hbegin : q <+: record.key)
    (hne : q ≠ record.key) : record.key = record.path := by
  by_cases h : record.path = []
  · rw [key_of_path_eq_nil h] at hbegin hne
    rcases List.prefix_cons_iff.1 hbegin with rfl | ⟨tail, rfl, htail⟩
    · exact absurd rfl hq
    · exact absurd (by rw [List.prefix_nil.1 htail]) hne
  · exact key_of_path_ne_nil h

theorem key_dropLast_ne_max (record : SenmlRecord) :
    ∀ id ∈ record.key.dropLast, id ≠ lwm2mMaxId := by
  intro id hid
  by_cases h : record.path = []
  · rw [key_of_path_eq_nil h] at hid
    simp at hid
  · rw [key_of_path_ne_nil h] at hid
    exact path_ne_max (List.mem_of_mem_dropLast hid)

end SenmlRecord

theorem baseType_cases (hq : q ≠ []) :
    (q.length ≤ 2 ∧ q ≠ [lwm2mMaxId] ∧ (baseType 0 q).hasChildren = true) ∨
      (¬ (q.length ≤ 2 ∧ q ≠ [lwm2mMaxId]) ∧ baseType 0 q = .undefined) := by
  match q, hq with
  | [id], _ =>
    by_cases hid : id = lwm2mMaxId
    · subst hid
      exact Or.inr ⟨by simp, rfl⟩
    · refine Or.inl ⟨by simp, by simpa using hid, ?_⟩
      simp [baseType, levelType, hid, DataType.hasChildren]
  | [_, _], _ => exact Or.inl ⟨by simp, by simp, rfl⟩
  | _ :: _ :: c :: rest, _ =>
    refine Or.inr ⟨by simp, ?_⟩
    have hdeep : ∀ (rest : List UInt16) depth, 2 ≤ depth → baseType depth rest = .undefined := by
      intro rest
      induction rest with
      | nil => intro depth _; rfl
      | cons id rest ih =>
        intro depth hdepth
        have hlevel : levelType depth id = .undefined := by
          unfold levelType
          rw [if_neg (by omega), if_neg (by omega)]
        rw [baseType, ih (depth + 1) (by omega), hlevel, ite_self]
    rw [baseType, if_neg (by simp), baseType, if_neg (by simp)]
    exact hdeep _ _ (by omega)

theorem valuesAt_eq_nil : valuesAt records q = [] ↔ ∀ r ∈ records, r.key = q → ¬ r.hasValue := by
  simp [valuesAt, List.filter_eq_nil_iff]

theorem expectedType_of_value (hparsed : ∀ r ∈ records, r.Parsed)
    (hvalue : ∃ r ∈ records, r.key = q ∧ r.hasValue) :
    (expectedType records q).hasChildren = false ∧ expectedType records q ≠ .undefined := by
  unfold expectedType
  cases hlast : (valuesAt records q).getLast? with
  | none =>
    rcases hvalue with ⟨r, hr, hkey, hv⟩
    exact absurd hv (valuesAt_eq_nil.1 (List.getLast?_eq_none_iff.1 hlast) r hr hkey)
  | some r =>
    have hmem : r ∈ valuesAt records q := List.mem_of_getLast? hlast
    have hr : r ∈ records ∧ r.key = q ∧ r.hasValue := by simpa [valuesAt] using hmem
    exact ⟨(hparsed r hr.1).notChildren, hr.2.2⟩

theorem expectedType_of_no_value (hvalue : ¬ ∃ r ∈ records, r.key = q ∧ r.hasValue) :
    expectedType records q =
      if q.length = 3 ∧ ∃ record ∈ records, q <+: record.key ∧ q ≠ record.key then
        .multipleResource
      else baseType 0 q := by
  have hnil : valuesAt records q = [] := by
    rw [valuesAt_eq_nil]
    exact fun r hr hkey hv => hvalue ⟨r, hr, hkey, hv⟩
  unfold expectedType
  rw [hnil]
  rfl

theorem Compatible.key_eq {earlier : List SenmlRecord} {r : SenmlRecord}
    (h : Compatible earlier record) (hr : r ∈ earlier) (hbegin : record.key <+: r.key) :
    r.key = record.key := by
  by_cases hpath : record.path = []
  · rw [SenmlRecord.key_of_path_eq_nil hpath] at hbegin ⊢
    by_cases hrpath : r.path = []
    · exact SenmlRecord.key_of_path_eq_nil hrpath
    · rw [SenmlRecord.key_of_path_ne_nil hrpath] at hbegin
      exact absurd rfl (SenmlRecord.path_ne_max (hbegin.subset (by simp)))
  · rw [SenmlRecord.key_eq_iff]
    rw [SenmlRecord.key_of_path_ne_nil hpath] at hbegin
    have hrpath : r.path ≠ [] := by
      intro hnil
      rw [SenmlRecord.key_of_path_eq_nil hnil] at hbegin
      rcases List.prefix_cons_iff.1 hbegin with heq | ⟨tail, heq, _⟩
      · exact hpath heq
      · exact absurd rfl (SenmlRecord.path_ne_max (show lwm2mMaxId ∈ record.path by simp [heq]))
    rw [SenmlRecord.key_of_path_ne_nil hrpath] at hbegin
    exact h.below r hr hpath hbegin

theorem path_eq_of_key_eq {r : SenmlRecord} (hq : q ≠ []) (hbegin : q <+: record.key)
    (hne : q ≠ record.key) (hkey : r.key = q) : r.path = q := by
  have hrecord := SenmlRecord.key_eq_path hq hbegin hne
  rw [hrecord] at hbegin
  by_cases hpath : r.path = []
  · rw [SenmlRecord.key_of_path_eq_nil hpath] at hkey
    rw [← hkey] at hbegin
    exact absurd rfl (SenmlRecord.path_ne_max (hbegin.subset (by simp)))
  · rw [← SenmlRecord.key_of_path_ne_nil hpath, hkey]

theorem Compatible.way {earlier : List SenmlRecord} (h : Compatible earlier record) (hq : q ≠ [])
    (hbegin : q <+: record.key) (hne : q ≠ record.key) :
    ∀ r ∈ earlier, r.key = q → q.length ≤ 2 ∧ ¬ r.hasValue := by
  intro r hr hkey
  have hpath := path_eq_of_key_eq hq hbegin hne hkey
  have hrecord := SenmlRecord.key_eq_path hq hbegin hne
  rw [hrecord] at hbegin hne
  have habove := h.above r hr (by rwa [hpath]) (by rwa [hpath]) (by rwa [hpath])
  rwa [hpath] at habove

theorem free_of_compatible (hparsed : ∀ r ∈ records, r.Parsed) (hexplains : Explains records tree)
    (h : Compatible records record) : Free 0 record.key tree := by
  have hlength := record.key_length_le
  rw [free_iff record.key_ne_nil 0 (by omega)]
  constructor
  · intro q i hq hbegin hne hi
    have hinfo := hexplains.info q i hi
    have hway := h.way hq hbegin hne
    rw [hinfo]
    show (expectedType records q).hasChildren = true
    rw [expectedType_of_no_value fun hv => by
      rcases hv with ⟨r, hr, hkey, hvalue⟩
      exact (hway r hr hkey).2 hvalue]
    split
    · rfl
    · next hnot =>
      have hpath := SenmlRecord.key_eq_path hq hbegin hne
      have hqmax : q ≠ [lwm2mMaxId] := by
        intro heq
        rw [hpath, heq] at hbegin
        exact absurd rfl (SenmlRecord.path_ne_max (hbegin.subset (by simp)))
      have hqlength : q.length ≤ 2 := by
        by_contra hlong
        have hlt := hbegin.length_le.lt_of_ne fun heq => hne (hbegin.eq_of_length heq)
        rcases ((hexplains.present q).1 (by rw [hi]; simp)).2 with ⟨r, hr, hrbegin⟩
        refine hnot ⟨by omega, r, hr, hrbegin, fun heq => hlong ?_⟩
        exact (hway r hr heq.symm).1
      rcases baseType_cases hq with hbase | hbase
      · exact hbase.2.2
      · exact absurd ⟨hqlength, hqmax⟩ hbase.1
  · intro i hi
    have hinfo := hexplains.info _ i hi
    rcases ((hexplains.present _).1 (by rw [hi]; simp)).2 with ⟨r, hr, hrbegin⟩
    have hsame := h.same ⟨r, hr, (SenmlRecord.key_eq_iff r record).1 (h.key_eq hr hrbegin)⟩
    refine ⟨?_, ?_, ?_⟩
    · by_cases hpath : record.path = []
      · rw [SenmlRecord.key_of_path_eq_nil hpath]
        simp
      · have hle := record.path_length_le
        rw [SenmlRecord.key_of_path_ne_nil hpath]
        omega
    · rw [hinfo]
      show expectedType records record.key ≠ .undefined
      by_cases hvalue : ∃ r ∈ records, r.key = record.key ∧ r.hasValue
      · exact (expectedType_of_value hparsed hvalue).2
      · have hshort : record.path.length = 1 ∨ record.path.length = 2 := by
          rcases hsame with hone | htwo | ⟨_, r', hr', hpath, hv⟩
          · exact Or.inl hone
          · exact Or.inr htwo
          · exact absurd ⟨r', hr', (SenmlRecord.key_eq_iff _ _).2 hpath, hv⟩ hvalue
        have hpath : record.path ≠ [] := by
          intro hnil
          simp [hnil] at hshort
        have hmax : record.path ≠ [lwm2mMaxId] := by
          intro heq
          exact SenmlRecord.path_ne_max (show lwm2mMaxId ∈ record.path by simp [heq]) rfl
        rw [expectedType_of_no_value hvalue, SenmlRecord.key_of_path_ne_nil hpath,
          if_neg (by omega)]
        rcases baseType_cases hpath with hbase | hbase
        · intro hundefined
          rw [hundefined] at hbase
          exact absurd hbase.2.2 (by simp [DataType.hasChildren])
        · exact absurd ⟨by omega, hmax⟩ hbase.1
    · intro id
      by_contra hsome
      rcases ((hexplains.present _).1 hsome).2 with ⟨r', hr', hbegin'⟩
      have heq := h.key_eq hr' ((List.prefix_append _ _).trans hbegin')
      have hle := hbegin'.length_le
      rw [heq] at hle
      simp at hle

theorem compatible_of_free (hparsed : ∀ r ∈ records, r.Parsed) (hexplains : Explains records tree)
    (h : Free 0 record.key tree) : Compatible records record := by
  have hlength := record.key_length_le
  rw [free_iff record.key_ne_nil 0 (by omega)] at h
  obtain ⟨hway, hend⟩ := h
  -- a key that has been met is a node, and nothing is below the key of the record
  have hsome : ∀ r ∈ records, ∀ q, q ≠ [] → q <+: r.key → ∃ i, infoAt q tree = some i := by
    intro r hr q hq hbegin
    exact Option.ne_none_iff_exists'.1 ((hexplains.present q).2 ⟨hq, r, hr, hbegin⟩)
  have hbelow : ∀ r ∈ records, record.key <+: r.key → r.key = record.key := by
    intro r hr hbegin
    rcases hbegin with ⟨tail, htail⟩
    cases tail with
    | nil => rw [← htail, List.append_nil]
    | cons id tail =>
      obtain ⟨i, hi⟩ := hsome r hr record.key record.key_ne_nil ⟨_, htail⟩
      obtain ⟨j, hj⟩ := hsome r hr (record.key ++ [id]) (by simp) ⟨tail, by simpa using htail⟩
      rw [(hend i hi).2.2 id] at hj
      cases hj
  refine ⟨?_, ?_, ?_⟩
  · intro r hr hrpath hbegin hne
    have hpath : record.path ≠ [] := by
      intro hnil
      rw [hnil] at hbegin
      exact hrpath (List.prefix_nil.1 hbegin)
    have hrkey := SenmlRecord.key_of_path_ne_nil hrpath
    have hkey := SenmlRecord.key_of_path_ne_nil hpath
    obtain ⟨i, hi⟩ := hsome r hr r.path hrpath (by rw [hrkey])
    have hchildren := hway r.path i hrpath (by rwa [hkey]) (by rwa [hkey]) hi
    rw [hexplains.info _ i hi] at hchildren
    have hchildren' : (expectedType records r.path).hasChildren = true := hchildren
    have hnone : ¬ ∃ r' ∈ records, r'.key = r.path ∧ r'.hasValue := by
      intro hv
      rw [(expectedType_of_value hparsed hv).1] at hchildren'
      cases hchildren'
    refine ⟨?_, fun hv => hnone ⟨r, hr, hrkey, hv⟩⟩
    by_contra hlong
    rw [expectedType_of_no_value hnone] at hchildren'
    split at hchildren'
    · next hthree =>
      obtain ⟨_, r', hr', hbegin', hne'⟩ := hthree
      have hr'path := SenmlRecord.key_eq_path hrpath hbegin' hne'
      rw [hr'path] at hbegin' hne'
      exact hlong (hexplains.inner r hr r' hr' hrpath hbegin' hne').1
    · rcases baseType_cases hrpath with hbase | hbase
      · exact hlong hbase.1
      · rw [hbase.2] at hchildren'
        cases hchildren'
  · intro r hr hpath hbegin
    have hrpath : r.path ≠ [] := by
      intro hnil
      rw [hnil] at hbegin
      exact hpath (List.prefix_nil.1 hbegin)
    rw [← SenmlRecord.key_eq_iff]
    apply hbelow r hr
    rwa [SenmlRecord.key_of_path_ne_nil hpath, SenmlRecord.key_of_path_ne_nil hrpath]
  · intro hsame
    obtain ⟨r, hr, hpath⟩ := hsame
    have hkey := (SenmlRecord.key_eq_iff r record).2 hpath
    obtain ⟨i, hi⟩ := hsome r hr record.key record.key_ne_nil (by rw [hkey])
    obtain ⟨hlt, htype, _⟩ := hend i hi
    rw [hexplains.info _ i hi] at htype
    have htype' : expectedType records record.key ≠ .undefined := htype
    by_cases hvalue : ∃ r ∈ records, r.key = record.key ∧ r.hasValue
    · obtain ⟨r', hr', hkey', hv⟩ := hvalue
      refine Or.inr (Or.inr ⟨?_, r', hr', (SenmlRecord.key_eq_iff _ _).1 hkey', hv⟩)
      intro hfour
      have hne : record.path ≠ [] := by
        intro hnil
        simp [hnil] at hfour
      rw [SenmlRecord.key_of_path_ne_nil hne] at hlt
      omega
    · rw [expectedType_of_no_value hvalue, if_neg] at htype'
      · rcases baseType_cases record.key_ne_nil with hbase | hbase
        · have hne : record.path ≠ [] := by
            intro hnil
            exact hbase.2.1 (SenmlRecord.key_of_path_eq_nil hnil)
          have hpos := List.length_pos_of_ne_nil hne
          have hle := hbase.1
          rw [SenmlRecord.key_of_path_ne_nil hne] at hle
          omega
        · exact absurd hbase.2 htype'
      · intro hthree
        obtain ⟨_, r', hr', hbegin', hne'⟩ := hthree
        exact hne' (hbelow r' hr' hbegin').symm

theorem valuesAt_append (records : List SenmlRecord) (record : SenmlRecord) (q : List UInt16) :
    valuesAt (records ++ [record]) q =
      if record.key = q ∧ record.hasValue then valuesAt records q ++ [record]
      else valuesAt records q := by
  unfold valuesAt
  rw [List.filter_append, List.filter_singleton]
  by_cases h : record.key = q ∧ record.hasValue
  · simp [h]
  · simp [h]

theorem recordsAt_append (records : List SenmlRecord) (record : SenmlRecord) (q : List UInt16) :
    recordsAt (records ++ [record]) q =
      if record.key = q then recordsAt records q ++ [record] else recordsAt records q := by
  unfold recordsAt
  rw [List.filter_append, List.filter_singleton]
  by_cases h : record.key = q
  · simp [h]
  · simp [h]

theorem exists_mem_append_singleton {p : SenmlRecord → Prop} :
    (∃ r ∈ records ++ [record], p r) ↔ (∃ r ∈ records, p r) ∨ p record := by
  constructor
  · intro h
    obtain ⟨r, hr, hp⟩ := h
    rcases List.mem_append.1 hr with hr | hr
    · exact Or.inl ⟨r, hr, hp⟩
    · rw [List.mem_singleton.1 hr] at hp
      exact Or.inr hp
  · intro h
    rcases h with ⟨r, hr, hp⟩ | hp
    · exact ⟨r, List.mem_append_left _ hr, hp⟩
    · exact ⟨record, by simp, hp⟩

theorem expected_append_other (records : List SenmlRecord) (hq : ¬ q <+: record.key) :
    expectedType (records ++ [record]) q = expectedType records q ∧
      expectedValue (records ++ [record]) q = expectedValue records q := by
  have hkey : record.key ≠ q := fun h => hq (by rw [h])
  unfold expectedType expectedValue
  rw [valuesAt_append, recordsAt_append, if_neg fun h => hkey h.1, if_neg hkey]
  simp only [exists_mem_append_singleton, hq, false_and, or_false, and_self]

theorem expected_append_way (hparsed : ∀ r ∈ records, r.Parsed) (h : Compatible records record)
    (hq : q ≠ []) (hbegin : q <+: record.key) (hne : q ≠ record.key) :
    expectedType (records ++ [record]) q =
        (if q.length = 3 then .multipleResource else baseType 0 q) ∧
      (q.length ≠ 3 → expectedType records q = baseType 0 q) ∧
      expectedValue (records ++ [record]) q = .zero := by
  have hway := h.way hq hbegin hne
  have hvalue : ¬ ∃ r ∈ records, r.key = q ∧ r.hasValue := by
    intro hv
    obtain ⟨r, hr, hkey, hv⟩ := hv
    exact (hway r hr hkey).2 hv
  have hvalue' : ¬ ∃ r ∈ records ++ [record], r.key = q ∧ r.hasValue := by
    rw [exists_mem_append_singleton]
    exact fun hor => hor.elim hvalue fun hr => hne hr.1.symm
  refine ⟨?_, ?_, ?_⟩
  · rw [expectedType_of_no_value hvalue']
    have hbelow : ∃ r ∈ records ++ [record], q <+: r.key ∧ q ≠ r.key :=
      ⟨record, by simp, hbegin, hne⟩
    simp only [hbelow, and_true]
  · intro hlength
    rw [expectedType_of_no_value hvalue, if_neg fun hthree => hlength hthree.1]
  · unfold expectedValue
    rw [recordsAt_append, if_neg fun hkey => hne hkey.symm]
    cases hlast : (recordsAt records q).getLast? with
    | none => rfl
    | some r =>
      have hmem : r ∈ recordsAt records q := List.mem_of_getLast? hlast
      have hr : r ∈ records ∧ r.key = q := by simpa [recordsAt] using hmem
      have hzero := (hparsed r hr.1).zero (hway r hr.1 hr.2).2
      show r.value.value.plain = .zero
      rw [hzero]
      rfl

theorem expected_append_key (records : List SenmlRecord) (record : SenmlRecord) :
    expectedType (records ++ [record]) record.key =
        (if record.value.type = .undefined then expectedType records record.key
          else record.value.type) ∧
      expectedValue (records ++ [record]) record.key = record.value.value.plain := by
  constructor
  · unfold expectedType
    rw [valuesAt_append]
    by_cases hvalue : record.hasValue
    · rw [if_pos ⟨rfl, hvalue⟩, if_neg hvalue, List.getLast?_concat]
    · rw [if_neg fun hand => hvalue hand.2, if_pos (not_not.1 hvalue)]
      have hbelow : (∃ r ∈ records ++ [record], record.key <+: r.key ∧ record.key ≠ r.key) ↔
          ∃ r ∈ records, record.key <+: r.key ∧ record.key ≠ r.key := by
        rw [exists_mem_append_singleton]
        simp
      simp only [hbelow]
  · unfold expectedValue
    rw [recordsAt_append, if_pos rfl, List.getLast?_concat]

/-- A compatible record is added to a tree that explains the records before it. -/
theorem explains_append (hparsed : ∀ r ∈ records, r.Parsed) (hrecord : record.Parsed)
    (hexplains : Explains records tree) (h : Compatible records record) :
    ∃ tree', convertRecord prvConvertValue tree record = .ok tree' ∧
      Explains (records ++ [record]) tree' ∧ ∀ q, infoAt q tree ≠ none → infoAt q tree' ≠ none := by
  have hlength := record.key_length_le
  obtain ⟨tree', hplace, hunique, hinfo⟩ := place_free hrecord.noChildren record.key_ne_nil 0
    (by omega) record.key_dropLast_ne_max hexplains.unique
    (free_of_compatible hparsed hexplains h)
  rw [← convertRecord_eq_place hrecord] at hplace
  refine ⟨tree', hplace, ⟨hunique, ?_, ?_, ?_⟩, ?_⟩
  · intro q
    rw [hinfo, exists_mem_append_singleton]
    unfold placedInfo
    split
    · next heq => simp [heq, record.key_ne_nil]
    · split
      · next hne hway => simp [hway]
      · next hne hway =>
        rw [hexplains.present]
        exact and_congr_right fun hq => (or_iff_left fun hbegin => hway ⟨hq, hbegin⟩).symm
  · intro q i hi
    rw [hinfo] at hi
    unfold placedInfo at hi
    split at hi
    · next heq =>
      subst heq
      obtain ⟨htype, hvalue⟩ := expected_append_key records record
      rw [htype, hvalue]
      cases hi
      refine Prod.ext ?_ rfl
      show (if record.value.type = .undefined then _ else record.value.type) = _
      by_cases hundefined : record.value.type = .undefined
      · rw [if_pos hundefined, if_pos hundefined]
        dsimp only
        cases hbefore : infoAt record.key tree with
        | some j =>
          rw [hexplains.info _ j hbefore]
          rfl
        | none =>
          have hnone : ¬ ∃ r ∈ records, record.key <+: r.key := by
            intro hr
            exact (hexplains.present _).2 ⟨record.key_ne_nil, hr⟩ hbefore
          rw [expectedType_of_no_value fun hv => by
            obtain ⟨r, hr, hkey, _⟩ := hv
            exact hnone ⟨r, hr, by rw [hkey]⟩, if_neg fun hthree => by
            obtain ⟨_, r, hr, hbegin, _⟩ := hthree
            exact hnone ⟨r, hr, hbegin⟩]
          rfl
      · rw [if_neg hundefined, if_neg hundefined]
    · split at hi
      · next hne hway =>
        obtain ⟨htype, hbase, hvalue⟩ := expected_append_way hparsed h hway.1 hway.2 hne
        have hpos := List.length_pos_of_ne_nil hway.1
        rw [htype, hvalue]
        cases hi
        refine Prod.ext ?_ rfl
        show passType (0 + q.length - 1) _ = _
        unfold passType
        by_cases hthree : q.length = 3
        · rw [if_pos (by omega), if_pos hthree]
        · rw [if_neg (by omega), if_neg hthree]
          dsimp only
          cases hbefore : infoAt q tree with
          | none => rfl
          | some j =>
            rw [hexplains.info q j hbefore]
            exact hbase hthree
      · next hne hway =>
        have hq : q ≠ [] := by
          intro hnil
          rw [hnil] at hi
          cases hi
        obtain ⟨htype, hvalue⟩ := expected_append_other records
          fun hbegin => hway ⟨hq, hbegin⟩
        rw [htype, hvalue]
        exact hexplains.info q i hi
  · intro r hr r' hr' hpath hbegin hne
    rcases List.mem_append.1 hr with hr | hr <;> rcases List.mem_append.1 hr' with hr' | hr'
    · exact hexplains.inner r hr r' hr' hpath hbegin hne
    · rw [List.mem_singleton.1 hr'] at hbegin hne
      exact h.above r hr hpath hbegin hne
    · rw [List.mem_singleton.1 hr] at hpath hbegin hne
      exact absurd (h.below r' hr' hpath hbegin).symm hne
    · rw [List.mem_singleton.1 hr, List.mem_singleton.1 hr'] at hne
      exact absurd rfl hne
  · intro q hq
    rw [hinfo]
    unfold placedInfo
    split
    · simp
    · split
      · simp
      · exact hq

theorem allCompatible_append :
    AllCompatible (records ++ [record]) ↔ AllCompatible records ∧ Compatible records record := by
  constructor
  · intro h
    refine ⟨?_, h records record [] rfl⟩
    intro earlier r later heq
    exact h earlier r (later ++ [record]) (by rw [heq]; simp)
  · intro h earlier r later heq
    rcases List.eq_nil_or_concat later with rfl | ⟨later', last, rfl⟩
    · obtain ⟨rfl, hlast⟩ := List.append_inj' heq rfl
      cases hlast
      exact h.2
    · have heq' : records ++ [record] = (earlier ++ r :: later') ++ [last] := by
        rw [heq]
        simp
      exact h.1 earlier r later' (List.append_inj' heq' rfl).1

theorem nothingLost_append :
    NothingLost (records ++ [record]) ↔
      NothingLost records ∧ ∀ tree tree', buildTree records = .ok tree →
        buildTree (records ++ [record]) = .ok tree' →
          ∀ q, infoAt q tree ≠ none → infoAt q tree' ≠ none := by
  constructor
  · intro h
    refine ⟨?_, h records record [] rfl⟩
    intro earlier r later heq
    exact h earlier r (later ++ [record]) (by rw [heq]; simp)
  · intro h earlier r later heq
    rcases List.eq_nil_or_concat later with rfl | ⟨later', last, rfl⟩
    · obtain ⟨rfl, hlast⟩ := List.append_inj' heq rfl
      cases hlast
      exact h.2
    · have heq' : records ++ [record] = (earlier ++ r :: later') ++ [last] := by
        rw [heq]
        simp
      exact h.1 earlier r later' (List.append_inj' heq' rfl).1

theorem buildTree_append (records : List SenmlRecord) (record : SenmlRecord) :
    buildTree (records ++ [record]) =
      buildTree records >>= fun tree => convertRecord prvConvertValue tree record := by
  unfold buildTree
  rw [List.foldlM_append]
  simp

theorem explains_of_allCompatible (records : List SenmlRecord)
    (hparsed : ∀ r ∈ records, r.Parsed) (h : AllCompatible records) :
    ∃ tree, buildTree records = .ok tree ∧ Explains records tree ∧ NothingLost records := by
  induction records using List.reverseRecOn with
  | nil => exact ⟨[], rfl, explains_nil, fun earlier r later heq => absurd heq (by simp)⟩
  | append_singleton records record ih =>
    have hparsed' : ∀ r ∈ records, r.Parsed := fun r hr => hparsed r (List.mem_append_left _ hr)
    rw [allCompatible_append] at h
    obtain ⟨tree, htree, hexplains, hlost⟩ := ih hparsed' h.1
    obtain ⟨tree', hround, hexplains', hkept⟩ :=
      explains_append hparsed' (hparsed record (by simp)) hexplains h.2
    have hbuild : buildTree (records ++ [record]) = .ok tree' := by
      rw [buildTree_append, htree]
      exact hround
    refine ⟨tree', hbuild, hexplains', nothingLost_append.2 ⟨hlost, ?_⟩⟩
    intro t t' ht ht'
    rw [htree] at ht
    rw [hbuild] at ht'
    cases ht
    cases ht'
    exact hkept

/-- Where the loop reads no other arm, loses nothing and repeats no id, the records were
compatible. -/
theorem allCompatible_of_built (records : List SenmlRecord) (hparsed : ∀ r ∈ records, r.Parsed)
    (hlost : NothingLost records) (htree : buildTree records = .ok tree) :
    AllCompatible records ∧ Explains records tree ∨ ¬ SiblingsUnique tree := by
  induction records using List.reverseRecOn generalizing tree with
  | nil =>
    cases htree
    exact Or.inl ⟨fun earlier r later heq => absurd heq (by simp), explains_nil⟩
  | append_singleton records record ih =>
    have hparsed' : ∀ r ∈ records, r.Parsed := fun r hr => hparsed r (List.mem_append_left _ hr)
    have hrecord := hparsed record (by simp)
    rw [nothingLost_append] at hlost
    obtain ⟨hlost', hkept⟩ := hlost
    cases hbefore : buildTree records with
    | error e =>
      rw [buildTree_append, hbefore] at htree
      cases htree
    | ok before =>
      have hnotLost := hkept before tree hbefore htree
      have hround : place record.info 0 record.key before = .ok tree := by
        rw [buildTree_append, hbefore] at htree
        rw [← convertRecord_eq_place hrecord]
        exact htree
      have hdamaged : Damaged before tree → ¬ SiblingsUnique tree := by
        intro hdamaged
        rcases hdamaged with hnot | ⟨q, hq, hgone⟩
        · exact hnot
        · exact absurd hgone (hnotLost q hq)
      rcases ih hparsed' hlost' hbefore with ⟨hall, hexplains⟩ | hnot
      · by_cases hcompatible : Compatible records record
        · obtain ⟨tree', hround', hexplains', _⟩ :=
            explains_append hparsed' hrecord hexplains hcompatible
          rw [convertRecord_eq_place hrecord, hround] at hround'
          cases hround'
          exact Or.inl ⟨allCompatible_append.2 ⟨hall, hcompatible⟩, hexplains'⟩
        · have hfree : ¬ Free 0 record.key before :=
            fun hfree => hcompatible (compatible_of_free hparsed' hexplains hfree)
          have hlength := record.key_length_le
          rcases place_not_free hrecord.noChildren 0 (by omega) hexplains.unique hfree with
            herror | ⟨tree', hround', hbad⟩
          · rw [hround] at herror
            cases herror
          · rw [hround] at hround'
            cases hround'
            exact Or.inr (hdamaged hbad)
      · exact Or.inr (hdamaged
          (place_keeps_damage hrecord.noChildren record.key_ne_nil hnot hround))

theorem buildTree_error (hparsed : ∀ r ∈ records, r.Parsed) {e : Option Fault}
    (h : buildTree records = .error e) : e = some .wrongArm := by
  induction records using List.reverseRecOn with
  | nil => cases h
  | append_singleton records record ih =>
    have hparsed' : ∀ r ∈ records, r.Parsed := fun r hr => hparsed r (List.mem_append_left _ hr)
    rw [buildTree_append] at h
    cases hbefore : buildTree records with
    | error e' =>
      rw [hbefore] at h
      cases h
      exact ih hparsed' hbefore
    | ok before =>
      rw [hbefore] at h
      have hround : convertRecord prvConvertValue before record = .error e := h
      rw [convertRecord_eq_place (hparsed record (by simp))] at hround
      exact place_error hround

theorem getLast?_filter_append {α : Type} (p : α → Bool) (earlier later : List α) {x : α}
    (hx : p x = true) :
    ((earlier ++ x :: later).filter p).getLast? =
      some (((later.filter p).getLast?).getD x) := by
  rw [List.filter_append, List.filter_cons_of_pos hx, List.getLast?_append, List.getLast?_cons]
  rfl

theorem valuesPresent_iff (hparsed : ∀ r ∈ records, r.Parsed) (hexplains : Explains records tree) :
    ValuesPresent records tree ↔ LastValueKept records := by
  unfold ValuesPresent LastValueKept
  refine forall_congr' fun earlier => forall_congr' fun record => forall_congr' fun later =>
    forall_congr' fun heq => forall_congr' fun hlast => ?_
  have hmem : record ∈ records := by
    rw [heq]
    simp
  obtain ⟨i, hi⟩ := Option.ne_none_iff_exists'.1
    ((hexplains.present record.key).2 ⟨record.key_ne_nil, record, hmem, List.prefix_rfl⟩)
  have hnone : later.filter (fun r => decide (r.key = record.key ∧ r.hasValue)) = [] := by
    rw [List.filter_eq_nil_iff]
    intro r hr hdec
    have hand := of_decide_eq_true hdec
    exact hlast.2 r hr ((SenmlRecord.key_eq_iff r record).1 hand.1) hand.2
  have htype : expectedType records record.key = record.value.type := by
    unfold expectedType valuesAt
    rw [heq, getLast?_filter_append (fun r : SenmlRecord => decide (r.key = record.key ∧ r.hasValue)) _ _
      (decide_eq_true ⟨rfl, hlast.1⟩), hnone]
    rfl
  rw [hi, hexplains.info _ i hi, htype]
  have hvalue : expectedValue records record.key =
      (((later.filter fun r => decide (r.key = record.key)).getLast?).getD record).value.value.plain := by
    unfold expectedValue recordsAt
    rw [heq, getLast?_filter_append (fun r : SenmlRecord => decide (r.key = record.key)) _ _
      (decide_eq_true rfl)]
  rw [hvalue]
  cases hlater : (later.filter fun r => decide (r.key = record.key)).getLast? with
  | none =>
    refine iff_of_true rfl (Or.inr fun r hr hpath => ?_)
    have hnil := List.getLast?_eq_none_iff.1 hlater
    rw [List.filter_eq_nil_iff] at hnil
    exact hnil r hr (decide_eq_true ((SenmlRecord.key_eq_iff r record).2 hpath))
  | some r =>
    have hr : r ∈ later ∧ r.key = record.key := by
      have h := List.mem_of_getLast? hlater
      simpa using h
    have hpath := (SenmlRecord.key_eq_iff r record).1 hr.2
    have hzero : r.value.value = .zero :=
      (hparsed r (by rw [heq]; simp [hr.1])).zero (hlast.2 r hr.1 hpath)
    show some (record.value.type, r.value.value.plain) = _ ↔ _
    rw [hzero]
    simp only [Option.some.injEq, Prod.mk.injEq, true_and]
    constructor
    · intro h
      exact Or.inl h.symm
    · intro h
      rcases h with h | h
      · exact h.symm
      · exact absurd hpath (h r hr.1)

/-- `prv_convertRecord` builds a sound tree exactly if every record is compatible with the
records before it and no last value is taken back by a record without one. -/
theorem prvConvertRecord_sound_iff (records : List SenmlRecord) (hne : records ≠ [])
    (hparsed : ∀ r ∈ records, r.Parsed) :
    TreeSound records ↔ AllCompatible records ∧ LastValueKept records := by
  have hconvert : prvConvertRecord prvConvertValue records = buildTree records := if_neg hne
  unfold TreeSound
  rw [hconvert]
  constructor
  · intro h
    rcases h with herror | ⟨tree, htree, hlost, hunique, hvalues⟩
    · exact absurd (buildTree_error hparsed herror) (by simp)
    · rcases allCompatible_of_built records hparsed hlost htree with ⟨hall, hexplains⟩ | hnot
      · exact ⟨hall, (valuesPresent_iff hparsed hexplains).1 hvalues⟩
      · exact absurd hunique hnot
  · intro h
    obtain ⟨tree, htree, hexplains, hlost⟩ := explains_of_allCompatible records hparsed h.1
    exact Or.inr ⟨tree, htree, hlost, hexplains.unique, (valuesPresent_iff hparsed hexplains).2 h.2⟩

/-- Values for two resources of an instance. -/
def twoResources : List SenmlRecord :=
  [⟨⟨3, 0, 5, lwm2mMaxId⟩, .node .unsignedInteger lwm2mMaxId (.asUnsigned 7), 0⟩,
    ⟨⟨3, 0, 6, lwm2mMaxId⟩, .node .boolean lwm2mMaxId (.asBoolean true), 0⟩]

theorem twoResources_parsed : ∀ r ∈ twoResources, r.Parsed := by
  intro r hr
  rcases List.mem_pair.1 hr with rfl | rfl
  · exact ⟨by decide, by decide, by decide, trivial⟩
  · exact ⟨by decide, by decide, by decide, trivial⟩

theorem twoResources_compatible : AllCompatible twoResources := by
  have hnil : AllCompatible [] := fun earlier r later heq => absurd heq (by simp)
  have hfirst : ∀ r, Compatible [] r := fun r => ⟨by simp, by simp, by simp⟩
  rw [show twoResources = ([] ++ [twoResources[0]]) ++ [twoResources[1]] from rfl,
    allCompatible_append, allCompatible_append]
  refine ⟨⟨hnil, hfirst _⟩, ⟨?_, ?_, ?_⟩⟩
  · intro r hr
    rw [List.mem_singleton.1 hr]
    decide
  · intro r hr
    rw [List.mem_singleton.1 hr]
    decide
  · intro hsame
    obtain ⟨r, hr, hpath⟩ := hsame
    rw [List.mem_singleton.1 hr] at hpath
    exact absurd hpath (by decide)

theorem twoResources_lastValueKept : LastValueKept twoResources := by
  intro earlier r later heq _
  refine Or.inr fun r' hr' => ?_
  have hpaths : (twoResources.map SenmlRecord.path).Nodup := by decide
  rw [heq, List.map_append, List.map_cons, List.nodup_append, List.nodup_cons] at hpaths
  intro hpath
  exact hpaths.2.1.1 (by rw [← hpath]; exact List.mem_map_of_mem hr')

theorem twoResources_sound : TreeSound twoResources :=
  (prvConvertRecord_sound_iff twoResources (by simp [twoResources]) twoResources_parsed).2
    ⟨twoResources_compatible, twoResources_lastValueKept⟩

/-- A value for a resource, and one for an instance of it. -/
def valueThenInstance : List SenmlRecord :=
  [⟨⟨3, 0, 5, lwm2mMaxId⟩, .node .unsignedInteger lwm2mMaxId (.asUnsigned 7), 0⟩,
    ⟨⟨3, 0, 5, 1⟩, .node .unsignedInteger lwm2mMaxId (.asUnsigned 8), 0⟩]

/-- The integer is read as an array of children. -/
theorem valueThenInstance_unsound : ¬ TreeSound valueThenInstance := by
  have hfault : prvConvertRecord prvConvertValue valueThenInstance = .error (some .wrongArm) := rfl
  intro h
  unfold TreeSound at h
  rw [hfault] at h
  rcases h with h | ⟨tree, h, _⟩
  · cases h
  · cases h

end Wakaama
