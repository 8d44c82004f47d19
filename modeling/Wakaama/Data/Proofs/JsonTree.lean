import Wakaama.Data.Json
import Wakaama.Data.Proofs.SenmlRecords
import Wakaama.Misc.Outcome

/-!
# The tree that `json.c` builds

A record of the legacy format ends at a resource or at a resource instance below the base URI, and
always carries a value. Whether the tree holds them all depends on which of the records share a
path or a resource.
-/

namespace Wakaama

section Floats

variable (textToFloat : List UInt8 → Option UInt64)

/-- The type and the value that `prv_convertValue` gives to a node, if it succeeds. -/
def JsonRecord.converted (record : JsonRecord) : Option NodeInfo :=
  (jsonConvertValue textToFloat record (.node .undefined 0 .zero)).map fun data =>
    (data.type, data.value)

def landAs (info : NodeInfo) (data : Lwm2mData) : Lwm2mData := .node info.1 data.id info.2

theorem jsonConvertNumeric_eq (value : List UInt8) (id : UInt16) :
    jsonConvertNumeric textToFloat value id =
      (jsonConvertNumeric textToFloat value 0).map fun data => .node data.type id data.value := by
  unfold jsonConvertNumeric
  split
  · split
    · cases utilsTextToInt value <;> rfl
    · cases utilsTextToUInt value <;> rfl
  · cases textToFloat value <;> rfl

theorem jsonConvertValue_eq (record : JsonRecord) (target : Lwm2mData) :
    jsonConvertValue textToFloat record target =
      (record.converted textToFloat).map fun info => landAs info target := by
  unfold JsonRecord.converted jsonConvertValue landAs
  cases record.type with
  | unset => rfl
  | false => rfl
  | true => rfl
  | float =>
    dsimp only
    rw [jsonConvertNumeric_eq textToFloat record.value target.id,
      jsonConvertNumeric_eq textToFloat record.value (Lwm2mData.node .undefined 0 .zero).id]
    cases jsonConvertNumeric textToFloat record.value 0 <;> rfl
  | string =>
    by_cases hempty : record.value = []
    · simp [hempty, Lwm2mData.type, Lwm2mData.value]
    · simp only [if_neg hempty]
      cases jsonUnescapeString record.value <;> rfl
  | objectLink =>
    dsimp only
    cases utilsTextToObjLink record.value <;> rfl

theorem jsonUnescapeString_ne_nil {text string : List UInt8} (htext : text ≠ [])
    (h : jsonUnescapeString text = some string) : string ≠ [] := by
  rintro rfl
  revert h
  fun_cases jsonUnescapeString text
  all_goals simp [*] at *

inductive Converts (record : JsonRecord) : NodeInfo → Prop
  | boolean (htype : record.type ≠ .string) (value : Bool) :
      Converts record (.boolean, .asBoolean value)
  | integer (htype : record.type ≠ .string) (value : Int64) :
      Converts record (.integer, .asInteger value)
  | unsignedInteger (htype : record.type ≠ .string) (value : UInt64) :
      Converts record (.unsignedInteger, .asUnsigned value)
  | float (htype : record.type ≠ .string) (bits : UInt64) : Converts record (.float, .asFloat bits)
  | string (htype : record.type = .string) {buffer : List UInt8}
      (hempty : buffer = [] ↔ record.value = []) : Converts record (.string, .asBuffer buffer)
  | objectLink (htype : record.type ≠ .string) (objectId instanceId : UInt16) :
      Converts record (.objectLink, .asObjLink objectId instanceId)

theorem converted_converts {record : JsonRecord} {info : NodeInfo}
    (h : record.converted textToFloat = some info) : Converts record info := by
  unfold JsonRecord.converted at h
  obtain ⟨data, hdata, rfl⟩ := Option.map_eq_some_iff.1 h
  unfold jsonConvertValue at hdata
  cases htype : record.type with
  | unset => simp [htype] at hdata
  | false =>
    simp only [htype, Option.some.injEq] at hdata
    rw [← hdata]
    exact .boolean (by simp [htype]) Bool.false
  | true =>
    simp only [htype, Option.some.injEq] at hdata
    rw [← hdata]
    exact .boolean (by simp [htype]) Bool.true
  | float =>
    simp only [htype, jsonConvertNumeric] at hdata
    split at hdata
    · split at hdata
      · obtain ⟨value, -, rfl⟩ := Option.map_eq_some_iff.1 hdata
        exact .integer (by simp [htype]) value
      · obtain ⟨value, -, rfl⟩ := Option.map_eq_some_iff.1 hdata
        exact .unsignedInteger (by simp [htype]) value
    · obtain ⟨bits, -, rfl⟩ := Option.map_eq_some_iff.1 hdata
      exact .float (by simp [htype]) bits
  | string =>
    simp only [htype] at hdata
    by_cases hempty : record.value = []
    · rw [if_pos hempty, Option.some.injEq] at hdata
      rw [← hdata]
      exact .string htype (by simp [hempty])
    · rw [if_neg hempty] at hdata
      obtain ⟨string, hstring, rfl⟩ := Option.map_eq_some_iff.1 hdata
      exact .string htype (iff_of_false (jsonUnescapeString_ne_nil hempty hstring) hempty)
  | objectLink =>
    simp only [htype] at hdata
    obtain ⟨⟨objectId, instanceId⟩, -, rfl⟩ := Option.map_eq_some_iff.1 hdata
    exact .objectLink (by simp [htype]) objectId instanceId

theorem converted_leaf {record : JsonRecord} {info : NodeInfo}
    (h : record.converted textToFloat = some info) :
    info.1 ≠ .undefined ∧ info.1.hasChildren = false ∧ ∀ array, info.2 ≠ .asChildren array := by
  cases converted_converts textToFloat h <;> exact ⟨nofun, rfl, nofun⟩

/-! ## The path of a record -/

/-- The depth of the root: a name leads from there to a resource or to one of its instances. -/
def rootDepth : UriDepth → Nat
  | .none | .object => 0
  | .objectInstance => 1
  | .resource | .resourceInstance => 2

/-- The ids that a round follows. -/
def jsonPath (rootLevel : UriDepth) (record : JsonRecord) : List UInt16 :=
  match resourceSegments rootLevel with
  | 0 => [record.ids.objectId]
  | segments + 1 =>
    record.idList.take (segments + 1) ++
      record.idList[segments + 1]?.toList.filter fun id => id != lwm2mMaxId

theorem jsonRootLevel_ne_none (base : Option Lwm2mUri) : jsonRootLevel base ≠ .none := by
  cases base with
  | none => nofun
  | some uri =>
    cases hinstance : uri.isSetInstance <;> cases hresource : uri.isSetResource <;>
      simp [jsonRootLevel, hinstance, hresource]

def jsonWalk (put : Lwm2mData → Conversion Lwm2mData) (rootLevel : UriDepth)
    (root : List Lwm2mData) (record : JsonRecord) : Conversion (List Lwm2mData) :=
  let segments := resourceSegments rootLevel
  let putInstance (target : Lwm2mData) : Conversion Lwm2mData :=
    match record.idList[segments]? with
    | none => put target
    | some id => if id ≠ lwm2mMaxId then withNewInstance target id put else put target
  withItem root record.ids.objectId (utilsDepthToDatatype rootLevel) fun target =>
    if record.ids.instanceId ≠ lwm2mMaxId then
      jsonDescend putInstance (senmlDecreaseLevel rootLevel)
        ((record.idList.take segments).drop 1) target
    else put target

theorem jsonRound_eq_walk (rootLevel : UriDepth) (root : List Lwm2mData) (record : JsonRecord) :
    jsonRound textToFloat rootLevel root record =
      if depthChecked rootLevel record = false then throw none
      else jsonWalk (fun target => match jsonConvertValue textToFloat record target with
        | none => throw none
        | some data => return data) rootLevel root record := rfl

end Floats

def instanceSegment (id : UInt16) : List UInt16 := if id ≠ lwm2mMaxId then [id] else []

theorem putInstance_eq_reachIn {put : Lwm2mData → Conversion Lwm2mData}
    {land : Lwm2mData → Lwm2mData} (hput : ∀ target, put target = .ok (land target)) (id : UInt16)
    (target : Lwm2mData) :
    (if id ≠ lwm2mMaxId then withNewInstance target id put else put target) =
      reachIn land 2 (instanceSegment id) target := by
  unfold instanceSegment
  by_cases hset : id ≠ lwm2mMaxId
  · rw [if_pos hset, if_pos hset]
    exact withNewInstance_eq_reachIn hput target
  · rw [if_neg hset, if_neg hset]
    exact hput target

theorem filter_segment (id : UInt16) :
    ((some id).toList.filter fun id => id != lwm2mMaxId) = instanceSegment id := by
  unfold instanceSegment
  by_cases hset : id ≠ lwm2mMaxId
  · rw [if_pos hset]
    simp [hset]
  · rw [if_neg hset]
    simp [not_not.1 hset]

theorem jsonPath_object (record : JsonRecord) : jsonPath .object record =
    record.ids.objectId :: record.ids.instanceId :: record.ids.resourceId ::
      instanceSegment record.ids.resourceInstanceId := by
  rw [← filter_segment]
  rfl

theorem jsonPath_objectInstance (record : JsonRecord) : jsonPath .objectInstance record =
    record.ids.objectId :: record.ids.instanceId :: instanceSegment record.ids.resourceId := by
  rw [← filter_segment]
  rfl

theorem jsonPath_resource (record : JsonRecord) : jsonPath .resource record =
    record.ids.objectId :: instanceSegment record.ids.instanceId := by
  rw [← filter_segment]
  rfl

theorem jsonPath_resourceInstance (record : JsonRecord) :
    jsonPath .resourceInstance record = [record.ids.objectId] := rfl

theorem jsonWalk_eq_reach {put : Lwm2mData → Conversion Lwm2mData} {land : Lwm2mData → Lwm2mData}
    (hput : ∀ target, put target = .ok (land target)) {rootLevel : UriDepth}
    (hlevel : rootLevel ≠ .none) {record : JsonRecord}
    (hdepth : depthChecked rootLevel record = true) (root : List Lwm2mData) :
    jsonWalk put rootLevel root record =
      reach land (rootDepth rootLevel) (jsonPath rootLevel record) root := by
  unfold jsonWalk
  cases rootLevel with
  | none => exact absurd rfl hlevel
  | object =>
    have hset : record.ids.objectId ≠ lwm2mMaxId ∧ record.ids.instanceId ≠ lwm2mMaxId ∧
        record.ids.resourceId ≠ lwm2mMaxId := by
      simpa [depthChecked, resourceSegments, JsonRecord.idList] using hdepth
    have htype : levelType 0 record.ids.objectId = utilsDepthToDatatype .object := by
      rw [levelType, if_pos rfl, if_pos hset.1]
      rfl
    rw [jsonPath_object, rootDepth, reach_cons land (by decide), htype]
    apply withItem_congr
    intro target
    rw [if_pos hset.2.1]
    refine withChild_eq_reachIn 0 (by decide) (fun target => ?_) target
    refine withChild_eq_reachIn 1 (by decide) (fun target => ?_) target
    exact putInstance_eq_reachIn hput _ target
  | objectInstance =>
    have hset : record.ids.objectId ≠ lwm2mMaxId ∧ record.ids.instanceId ≠ lwm2mMaxId := by
      have h := hdepth
      simp [depthChecked, resourceSegments, JsonRecord.idList] at h
      exact h.1
    rw [jsonPath_objectInstance, rootDepth, reach_cons land (by decide)]
    apply withItem_congr
    intro target
    rw [if_pos hset.2]
    refine withChild_eq_reachIn 1 (by decide) (fun target => ?_) target
    exact putInstance_eq_reachIn hput _ target
  | resource =>
    rw [jsonPath_resource, rootDepth, reach_cons land (by decide)]
    apply withItem_congr
    intro target
    rw [← putInstance_eq_reachIn hput]
    by_cases hset : record.ids.instanceId ≠ lwm2mMaxId
    · rw [if_pos hset]
      rfl
    · rw [if_neg hset, if_neg hset]
  | resourceInstance =>
    have hset : ¬ record.ids.instanceId ≠ lwm2mMaxId := by
      simpa [depthChecked, resourceSegments, JsonRecord.idList] using hdepth
    rw [jsonPath_resourceInstance, rootDepth, reach_cons land (by decide)]
    apply withItem_congr
    intro target
    rw [if_neg hset]
    exact hput target

/-! ## A record without a value -/

variable {g f : Lwm2mData → Conversion Lwm2mData}

theorem withItem_fails (h : ∀ data, g data = f data >>= fun _ => throw none)
    (array : List Lwm2mData) (id : UInt16) (type : DataType) :
    withItem array id type g = withItem array id type f >>= fun _ => throw none := by
  unfold withItem
  split
  · rename_i data _ _
    rw [h]
    cases f data <;> rfl
  · rw [h]
    cases f (.node type id .zero) <;> rfl

theorem withChild_fails (h : ∀ data, g data = f data >>= fun _ => throw none) (parent : Lwm2mData)
    (id : UInt16) (type : DataType) :
    withChild parent id type g = withChild parent id type f >>= fun _ => throw none := by
  unfold withChild
  split
  · rw [withItem_fails h]
    cases withItem parent.children id type f <;> rfl
  · rfl

theorem withNewInstance_fails (h : ∀ data, g data = f data >>= fun _ => throw none)
    (parent : Lwm2mData) (id : UInt16) :
    withNewInstance parent id g = withNewInstance parent id f >>= fun _ => throw none := by
  unfold withNewInstance
  split
  · rw [h]
    cases f (.node .undefined id .zero) <;> rfl
  · rfl

theorem jsonDescend_fails (h : ∀ data, g data = f data >>= fun _ => throw none) (ids : List UInt16)
    (level : UriDepth) (target : Lwm2mData) :
    jsonDescend g level ids target = jsonDescend f level ids target >>= fun _ => throw none := by
  induction ids generalizing level target with
  | nil => exact h target
  | cons id rest ih => exact withChild_fails (fun data => ih _ data) target id _

theorem jsonWalk_fails (h : ∀ data, g data = f data >>= fun _ => throw none) (rootLevel : UriDepth)
    (root : List Lwm2mData) (record : JsonRecord) :
    jsonWalk g rootLevel root record = jsonWalk f rootLevel root record >>= fun _ => throw none := by
  apply withItem_fails
  intro target
  by_cases hset : record.ids.instanceId ≠ lwm2mMaxId
  · rw [if_pos hset, if_pos hset]
    apply jsonDescend_fails
    intro data
    cases record.idList[resourceSegments rootLevel]? with
    | none => exact h data
    | some id =>
      by_cases hid : id ≠ lwm2mMaxId
      · simp only [if_pos hid]
        exact withNewInstance_fails h data id
      · simp only [if_neg hid]
        exact h data
  · rw [if_neg hset, if_neg hset]
    exact h target

/-! ## Rounds of accepted records -/

section Runs

variable {textToFloat : List UInt8 → Option UInt64} {rootLevel : UriDepth}

/-- The depth of the record is right, and its value can be converted. -/
def Accepted (textToFloat : List UInt8 → Option UInt64) (rootLevel : UriDepth)
    (record : JsonRecord) : Prop :=
  depthChecked rootLevel record = true ∧ record.converted textToFloat ≠ none

variable {record : JsonRecord} {q : List UInt16}

theorem jsonRound_converted (hlevel : rootLevel ≠ .none) {info : NodeInfo}
    (hdepth : depthChecked rootLevel record = true)
    (hinfo : record.converted textToFloat = some info) (root : List Lwm2mData) :
    jsonRound textToFloat rootLevel root record =
      reach (landAs info) (rootDepth rootLevel) (jsonPath rootLevel record) root := by
  have hput : ∀ target, (match jsonConvertValue textToFloat record target with
      | none => throw none
      | some data => return data : Conversion Lwm2mData) = .ok (landAs info target) := by
    intro target
    rw [jsonConvertValue_eq, hinfo]
    rfl
  rw [jsonRound_eq_walk, if_neg (by simp [hdepth]), jsonWalk_eq_reach hput hlevel hdepth]

theorem jsonRound_unconverted (hlevel : rootLevel ≠ .none)
    (hdepth : depthChecked rootLevel record = true) (hinfo : record.converted textToFloat = none)
    (root : List Lwm2mData) :
    jsonRound textToFloat rootLevel root record =
      reach (landAs (.boolean, .zero)) (rootDepth rootLevel) (jsonPath rootLevel record) root >>=
        fun _ => throw none := by
  have hput : ∀ target, (match jsonConvertValue textToFloat record target with
      | none => throw none
      | some data => return data : Conversion Lwm2mData) =
        (.ok (landAs (.boolean, .zero) target) : Conversion Lwm2mData) >>= fun _ => throw none := by
    intro target
    rw [jsonConvertValue_eq, hinfo]
    rfl
  rw [jsonRound_eq_walk, if_neg (by simp [hdepth]), jsonWalk_fails hput,
    jsonWalk_eq_reach (fun _ => rfl) hlevel hdepth]

theorem instanceSegment_length (id : UInt16) :
    (instanceSegment id).length = 0 ∨ (instanceSegment id).length = 1 := by
  unfold instanceSegment
  split
  · exact .inr rfl
  · exact .inl rfl

theorem jsonPath_length (hlevel : rootLevel ≠ .none) (record : JsonRecord) :
    rootDepth rootLevel + (jsonPath rootLevel record).length = 3 ∨
      rootDepth rootLevel + (jsonPath rootLevel record).length = 4 := by
  cases rootLevel with
  | none => exact absurd rfl hlevel
  | object =>
    rw [jsonPath_object, rootDepth]
    have := instanceSegment_length record.ids.resourceInstanceId
    simp only [List.length_cons]
    omega
  | objectInstance =>
    rw [jsonPath_objectInstance, rootDepth]
    have := instanceSegment_length record.ids.resourceId
    simp only [List.length_cons]
    omega
  | resource =>
    rw [jsonPath_resource, rootDepth]
    have := instanceSegment_length record.ids.instanceId
    simp only [List.length_cons]
    omega
  | resourceInstance => exact .inl rfl

theorem jsonPath_ne_nil (rootLevel : UriDepth) (record : JsonRecord) :
    jsonPath rootLevel record ≠ [] := by
  cases rootLevel <;> simp [jsonPath, resourceSegments, JsonRecord.idList]

theorem mem_of_mem_dropLast {ids : List UInt16} {id x : UInt16}
    (h : x ∈ (ids ++ instanceSegment id).dropLast) : x ∈ ids := by
  unfold instanceSegment at h
  split at h
  · rwa [List.dropLast_concat] at h
  · rw [List.append_nil] at h
    exact List.mem_of_mem_dropLast h

theorem jsonPath_dropLast_ne_max (hlevel : rootLevel ≠ .none)
    (hdepth : depthChecked rootLevel record = true) :
    ∀ id ∈ (jsonPath rootLevel record).dropLast, id ≠ lwm2mMaxId := by
  intro id hid
  cases rootLevel with
  | none => exact absurd rfl hlevel
  | object =>
    have hset : record.ids.objectId ≠ lwm2mMaxId ∧ record.ids.instanceId ≠ lwm2mMaxId ∧
        record.ids.resourceId ≠ lwm2mMaxId := by
      simpa [depthChecked, resourceSegments, JsonRecord.idList] using hdepth
    rw [jsonPath_object] at hid
    have hmem : id ∈ [record.ids.objectId, record.ids.instanceId, record.ids.resourceId] :=
      mem_of_mem_dropLast hid
    simp only [List.mem_cons, List.not_mem_nil, or_false] at hmem
    rcases hmem with rfl | rfl | rfl
    · exact hset.1
    · exact hset.2.1
    · exact hset.2.2
  | objectInstance =>
    have hset : (record.ids.objectId ≠ lwm2mMaxId ∧ record.ids.instanceId ≠ lwm2mMaxId) ∧
        record.ids.resourceInstanceId = lwm2mMaxId := by
      simpa [depthChecked, resourceSegments, JsonRecord.idList] using hdepth
    rw [jsonPath_objectInstance] at hid
    have hmem : id ∈ [record.ids.objectId, record.ids.instanceId] := mem_of_mem_dropLast hid
    simp only [List.mem_cons, List.not_mem_nil, or_false] at hmem
    rcases hmem with rfl | rfl
    · exact hset.1.1
    · exact hset.1.2
  | resource =>
    have hset : record.ids.objectId ≠ lwm2mMaxId ∧ record.ids.resourceId = lwm2mMaxId := by
      simpa [depthChecked, resourceSegments, JsonRecord.idList] using hdepth
    rw [jsonPath_resource] at hid
    have hmem : id ∈ [record.ids.objectId] := mem_of_mem_dropLast hid
    rw [List.mem_singleton.1 hmem]
    exact hset.1
  | resourceInstance => exact absurd hid List.not_mem_nil

theorem lands_landAs {info : NodeInfo} (h : ∀ array, info.2 ≠ .asChildren array) :
    Lands (landAs info) := by
  refine ⟨fun _ => rfl, fun data => ?_⟩
  unfold landAs Lwm2mData.children Lwm2mData.value
  split
  · rename_i array heq
    exact absurd heq (h array)
  · rfl

theorem round_of_accepted (hlevel : rootLevel ≠ .none)
    (haccepted : Accepted textToFloat rootLevel record) {root' : List Lwm2mData}
    (hunique : FoundUnique (3 - rootDepth rootLevel) root)
    (h : jsonRound textToFloat rootLevel root record = .ok root') :
    ∃ info, record.converted textToFloat = some info ∧ Lands (landAs info) ∧
      Round (landAs info) (rootDepth rootLevel) (jsonPath rootLevel record) root root' := by
  cases hinfo : record.converted textToFloat with
  | none => exact absurd hinfo haccepted.2
  | some info =>
    rw [jsonRound_converted hlevel haccepted.1 hinfo] at h
    have hlands := lands_landAs (converted_leaf textToFloat hinfo).2.2
    have hlength := jsonPath_length hlevel record
    exact ⟨info, rfl, hlands,
      reach_round hlands (jsonPath_ne_nil rootLevel record) (by omega) hunique h⟩

/-! ## Runs of accepted records -/

/-- The loop of `prv_convertRecord` of `json.c`. -/
def jsonRun (textToFloat : List UInt8 → Option UInt64) (rootLevel : UriDepth)
    (records : List JsonRecord) : Conversion (List Lwm2mData) :=
  records.foldlM (jsonRound textToFloat rootLevel) []

variable {records : List JsonRecord} {root : List Lwm2mData}

theorem jsonRun_append (earlier later : List JsonRecord) :
    jsonRun textToFloat rootLevel (earlier ++ later) =
      jsonRun textToFloat rootLevel earlier >>= fun root =>
        later.foldlM (jsonRound textToFloat rootLevel) root := by
  unfold jsonRun
  rw [List.foldlM_append]

theorem jsonRun_last {earlier : List JsonRecord} :
    jsonRun textToFloat rootLevel (earlier ++ [record]) = .ok root ↔
      ∃ before, jsonRun textToFloat rootLevel earlier = .ok before ∧
        jsonRound textToFloat rootLevel before record = .ok root := by
  rw [jsonRun_append, bind_eq_ok]
  simp

theorem jsonRun_unique (hlevel : rootLevel ≠ .none)
    (haccepted : ∀ r ∈ records, Accepted textToFloat rootLevel r)
    (h : jsonRun textToFloat rootLevel records = .ok root) :
    FoundUnique (3 - rootDepth rootLevel) root := by
  induction records using List.reverseRecOn generalizing root with
  | nil =>
    obtain rfl : [] = root := Except.ok.inj h
    exact foundUnique_nil _
  | append_singleton earlier record ih =>
    obtain ⟨before, hbefore, hround⟩ := jsonRun_last.1 h
    have hunique := ih (fun r hr => haccepted r (List.mem_append_left _ hr)) hbefore
    obtain ⟨info, -, hlands, hround⟩ :=
      round_of_accepted hlevel (haccepted record (by simp)) hunique hround
    exact hround.unique hlands hunique

/-- The first and the last record at a path. -/
def FirstAt (rootLevel : UriDepth) (records : List JsonRecord) (q : List UInt16)
    (record : JsonRecord) : Prop :=
  ∃ earlier later, records = earlier ++ record :: later ∧ jsonPath rootLevel record = q ∧
    ∀ r ∈ earlier, jsonPath rootLevel r ≠ q

def LastAt (rootLevel : UriDepth) (records : List JsonRecord) (q : List UInt16)
    (record : JsonRecord) : Prop :=
  ∃ earlier later, records = earlier ++ record :: later ∧ jsonPath rootLevel record = q ∧
    ∀ r ∈ later, jsonPath rootLevel r ≠ q

/-- The node holds the value of the record. -/
def Holds (textToFloat : List UInt8 → Option UInt64) (data : Lwm2mData) (record : JsonRecord) :
    Prop := record.converted textToFloat = some (data.type, data.value)

theorem exists_lastAt (h : ∃ r ∈ records, jsonPath rootLevel r = q) :
    ∃ r, LastAt rootLevel records q r := by
  obtain ⟨before, r, behind, hsplit, hr, hbehind⟩ := exists_last h
  exact ⟨r, before, behind, hsplit, hr, hbehind⟩

theorem exists_firstAt (h : ∃ r ∈ records, jsonPath rootLevel r = q) :
    ∃ r, FirstAt rootLevel records q r := by
  obtain ⟨before, r, behind, hsplit, hr, hbefore⟩ := exists_first h
  exact ⟨r, before, behind, hsplit, hr, hbefore⟩

theorem lastAt_append {r : JsonRecord} (h : LastAt rootLevel (records ++ [record]) q r) :
    jsonPath rootLevel record = q ∧ r = record ∨
      jsonPath rootLevel record ≠ q ∧ LastAt rootLevel records q r := by
  obtain ⟨earlier, later, hsplit, hpath, hlater⟩ := h
  rcases List.eq_nil_or_concat' later with rfl | ⟨later', r', rfl⟩
  · obtain ⟨-, heq⟩ := List.append_inj' hsplit rfl
    obtain rfl := List.head_eq_of_cons_eq heq
    exact .inl ⟨hpath, rfl⟩
  · rw [← List.cons_append, ← List.append_assoc] at hsplit
    obtain ⟨rfl, heq⟩ := List.append_inj' hsplit rfl
    obtain rfl := List.head_eq_of_cons_eq heq
    exact .inr ⟨hlater record (by simp), earlier, later', rfl, hpath,
      fun m hm => hlater m (by simp [hm])⟩

theorem firstAt_append {r : JsonRecord} (h : FirstAt rootLevel (records ++ [record]) q r) :
    FirstAt rootLevel records q r ∨
      jsonPath rootLevel record = q ∧ r = record ∧ ∀ r ∈ records, jsonPath rootLevel r ≠ q := by
  obtain ⟨earlier, later, hsplit, hpath, hearlier⟩ := h
  rcases List.eq_nil_or_concat' later with rfl | ⟨later', r', rfl⟩
  · obtain ⟨rfl, heq⟩ := List.append_inj' hsplit rfl
    obtain rfl := List.head_eq_of_cons_eq heq
    exact .inr ⟨hpath, rfl, hearlier⟩
  · rw [← List.cons_append, ← List.append_assoc] at hsplit
    obtain ⟨rfl, -⟩ := List.append_inj' hsplit rfl
    exact .inl ⟨earlier, later', rfl, hpath, hearlier⟩

theorem above_found (hlevel : rootLevel ≠ .none)
    (haccepted : ∀ r ∈ records, Accepted textToFloat rootLevel r)
    (h : jsonRun textToFloat rootLevel records = .ok root)
    (hlength : rootDepth rootLevel + q.length < 3) {data : Lwm2mData}
    (hfound : foundAt q root = some data) : data.type.hasChildren = true := by
  induction records using List.reverseRecOn generalizing root data with
  | nil =>
    obtain rfl : [] = root := Except.ok.inj h
    rw [foundAt_nil] at hfound
    nomatch hfound
  | append_singleton earlier record ih =>
    obtain ⟨before, hbefore, hround⟩ := jsonRun_last.1 h
    have hearlier := fun r hr => haccepted r (List.mem_append_left _ hr)
    obtain ⟨info, -, hlands, hround⟩ := round_of_accepted hlevel (haccepted record (by simp))
      (jsonRun_unique hlevel hearlier hbefore) hround
    have hpath := jsonPath_length hlevel record
    have hq : q ≠ [] := by
      rintro rfl
      nomatch hfound
    have hbelow : ¬ jsonPath rootLevel record <+: q := by
      intro hleads
      have := hleads.length_le
      omega
    by_cases habove : q <+: jsonPath rootLevel record
    · obtain ⟨node, hnode, hchildren⟩ := hround.above hq habove fun heq => hbelow (by rw [heq])
      rw [hfound] at hnode
      obtain rfl := Option.some.inj hnode
      exact hchildren
    · rw [(hround.other hlands hbelow).1 habove] at hfound
      exact ih hearlier hbefore hfound

end Runs

end Wakaama
