import Wakaama.Data.Proofs.DataStrip
import Wakaama.Data.WellFormed
import Wakaama.Core.UriPath
import Wakaama.Misc.Keyed

/-!
# The subtree that `senml_convert_records` returns

The walk looks at the first object only, and what it has taken for a resource it goes through
once more when the URI names a resource instance.
-/

namespace Wakaama

/-- A node of the type with its children; a record without a value leaves it without any. -/
def Branch (type : DataType) (P : Lwm2mData → Prop) (data : Lwm2mData) : Prop :=
  Parent type P data ∨ data.type = type ∧ data.value = .zero

/-- A tree of records: its objects are well formed; the other nodes at the root come from records
that name no object. -/
def RecordTree (parsed : List Lwm2mData) : Prop :=
  Siblings (fun root => root.type = .object →
    Branch .object (Branch .objectInstance WellFormedResource) root) parsed

/-- The resource of the URI, or its resource instance. -/
def ResourceAt (uri : Lwm2mUri) (resources subtree : List Lwm2mData) : Prop :=
  ∃ resource ∈ resources, resource.id = uri.resourceId ∧
    if uri.isSetResourceInstance then
      resource.type = .multipleResource ∧
        ∃ value ∈ resource.children, value.id = uri.resourceInstanceId ∧ subtree = [value]
    else subtree = [resource]

/-- What the URI names below an object. -/
def InstanceAt (uri : Lwm2mUri) (instances subtree : List Lwm2mData) : Prop :=
  ∃ data ∈ instances, data.id = uri.instanceId ∧
    if uri.isSetResource then ResourceAt uri data.children subtree else subtree = data.children

/-- A node at the root is the object of the URI. -/
def IsRequested (uri : Lwm2mUri) (root : Lwm2mData) : Prop :=
  root.type = .object ∧ root.id = uri.objectId

/-- The subtree that the URI designates. -/
def SubtreeAt (uri : Lwm2mUri) (parsed subtree : List Lwm2mData) : Prop :=
  subtree ≠ [] ∧ ∃ root ∈ parsed, IsRequested uri root ∧
    if uri.isSetInstance then InstanceAt uri root.children subtree else subtree = root.children

/-- What `senml_convert_records` should do with a tree: it returns the subtree of the URI, and -1
where there is none or the tree has records outside the object. -/
def ExtractRight (uri : Lwm2mUri) (parsed : List Lwm2mData)
    (result : Conversion (List Lwm2mData)) : Prop :=
  ((∀ root ∈ parsed, IsRequested uri root) →
    ∀ subtree, SubtreeAt uri parsed subtree → result = .ok subtree) ∧
  (¬ (∀ root ∈ parsed, IsRequested uri root) ∨ ¬ (∃ subtree, SubtreeAt uri parsed subtree) →
    result = .error none)

/-- The URI names a resource instance of a single resource that has its id. -/
def Mistaken (uri : Lwm2mUri) (root : Lwm2mData) : Prop :=
  uri.isSetResourceInstance = true ∧ uri.resourceInstanceId = uri.resourceId ∧
    ∃ data ∈ root.children, data.id = uri.instanceId ∧
      ∃ resource ∈ data.children, resource.id = uri.resourceId ∧
        resource.type ≠ .multipleResource

/-- Where the first node at the root is the object of the URI, the URI names no resource instance
of a single resource with its id, and no node stands behind the object or nothing in it is
named. -/
def ExtractServed (uri : Lwm2mUri) (parsed : List Lwm2mData) : Prop :=
  ∀ first, parsed.head? = some first → IsRequested uri first →
    ¬ Mistaken uri first ∧
      ((∀ root ∈ parsed, IsRequested uri root) ∨ ¬ ∃ subtree, SubtreeAt uri [first] subtree)

variable {data first : Lwm2mData} {resources rest : List Lwm2mData} {uri : Lwm2mUri}

theorem Siblings.find {P : Lwm2mData → Prop} {array : List Lwm2mData} (h : Siblings P array)
    (hmem : data ∈ array) : array.find? (fun other => other.id == data.id) = some data :=
  lookupKey_of_mem h.1 hmem

theorem Siblings.eq_of_id {P : Lwm2mData → Prop} {array : List Lwm2mData} (h : Siblings P array)
    {other : Lwm2mData} (hdata : data ∈ array) (hother : other ∈ array) (hid : data.id = other.id) :
    data = other := by
  have hfind := h.find hdata
  rw [hid, h.find hother] at hfind
  exact (Option.some.inj hfind).symm

theorem Branch.children {type : DataType} {P : Lwm2mData → Prop} {data : Lwm2mData}
    (h : Branch type P data) : data.type = type ∧ Siblings P data.children := by
  cases h with
  | inl hparent =>
    obtain ⟨htype, array, hvalue, hsiblings⟩ := hparent
    exact ⟨htype, by rwa [Lwm2mData.children, hvalue]⟩
  | inr hempty =>
    refine ⟨hempty.1, ?_⟩
    rw [Lwm2mData.children, hempty.2]
    exact ⟨List.nodup_nil, fun child hmem => absurd hmem List.not_mem_nil⟩

theorem WellFormedResource.children {data : Lwm2mData} (h : WellFormedResource data)
    (htype : data.type = .multipleResource) : Siblings PlainValue data.children := by
  cases h with
  | inl hplain => exact absurd hplain (by rw [PlainValue, htype]; decide)
  | inr hparent => exact (Branch.children (Or.inl hparent)).2

theorem instanceChildren_eq {instanceId : UInt16} {instances : List Lwm2mData}
    (h : Siblings (Branch .objectInstance WellFormedResource) instances) :
    instanceChildren instanceId instances =
      match instances.find? fun data => data.id == instanceId with
      | none => .error none
      | some data => if data.children = [] then .error none else .ok data.children := by
  induction instances with
  | nil => rfl
  | cons data rest ih =>
    have hrest : Siblings (Branch .objectInstance WellFormedResource) rest :=
      ⟨(List.nodup_cons.mp h.1).2, fun child hmem => h.2 child (List.mem_cons_of_mem _ hmem)⟩
    by_cases hid : data.id = instanceId
    · have htype := (h.2 data List.mem_cons_self).children.1
      rw [List.find?_cons_of_pos (by simpa using hid)]
      have harray : childArray data = .ok data.children := by
        rw [childArray, htype]
        exact if_pos (Or.inl rfl)
      simp only [instanceChildren, if_pos hid, harray, bind, Except.bind]
      by_cases hempty : data.children = []
      · have hnone : rest.find? (fun other => other.id == instanceId) = none := by
          rw [List.find?_eq_none]
          intro other hother
          have hne := (List.nodup_cons.mp h.1).1
          rw [hid] at hne
          simp only [beq_iff_eq]
          intro heq
          exact hne (heq ▸ List.mem_map_of_mem hother)
        simp only [if_pos hempty, ih hrest, hnone]
      · simp only [if_neg hempty]
        rfl
    · rw [List.find?_cons_of_neg (by simpa using hid), instanceChildren, if_neg hid, ih hrest]

def resourceLoops (uri : Lwm2mUri) (resources : List Lwm2mData) : Conversion (List Lwm2mData) := do
  let data ← resourceData uri resources
  resourceInstanceData uri data

theorem resourceData_found {resource : Lwm2mData} (hset : uri.isSetResource = true)
    (h : Siblings WellFormedResource resources) (hmem : resource ∈ resources)
    (hid : resource.id = uri.resourceId) :
    resourceData uri resources =
      if resource.type = .multipleResource ∧ uri.isSetResourceInstance then
        if resource.children = [] then .error none else .ok resource.children
      else .ok [resource] := by
  have hfind := h.find hmem
  rw [hid] at hfind
  simp only [resourceData, hset, if_true, hfind]
  rfl

theorem resourceLoops_found {subtree : List Lwm2mData} (hset : uri.isSetResource = true)
    (h : Siblings WellFormedResource resources) (hat : ResourceAt uri resources subtree) :
    resourceLoops uri resources = .ok subtree := by
  obtain ⟨resource, hmem, hid, hat⟩ := hat
  have hdata := resourceData_found hset h hmem hid
  cases hinstance : uri.isSetResourceInstance with
  | false =>
    rw [hinstance] at hat hdata
    simp only [Bool.false_eq_true, and_false, if_false] at hat hdata
    simp only [resourceLoops, hdata, bind, Except.bind, resourceInstanceData, hinstance,
      Bool.false_eq_true, if_false, hat]
    rfl
  | true =>
    rw [hinstance] at hat hdata
    simp only [if_true] at hat
    obtain ⟨htype, value, hvalue, hvalueId, rfl⟩ := hat
    have hsome : resource.children ≠ [] := List.ne_nil_of_mem hvalue
    have hfind := ((h.2 resource hmem).children htype).find hvalue
    rw [hvalueId] at hfind
    simp only [htype, and_self, if_true, if_neg hsome] at hdata
    simp only [resourceLoops, hdata, bind, Except.bind, resourceInstanceData, hinstance, if_true,
      hfind]
    rfl

theorem resourceLoops_mistaken {resource : Lwm2mData} (hset : uri.isSetResource = true)
    (hinstance : uri.isSetResourceInstance = true) (hsame : uri.resourceInstanceId = uri.resourceId)
    (h : Siblings WellFormedResource resources) (hmem : resource ∈ resources)
    (hid : resource.id = uri.resourceId) (htype : resource.type ≠ .multipleResource) :
    resourceLoops uri resources = .ok [resource] := by
  have hdata := resourceData_found hset h hmem hid
  rw [if_neg fun hboth => htype hboth.1] at hdata
  have hfind : [resource].find? (fun target => target.id == uri.resourceInstanceId) =
      some resource := List.find?_cons_of_pos (by simp only [hid, hsame, beq_self_eq_true])
  simp only [resourceLoops, hdata, bind, Except.bind, resourceInstanceData, hinstance, if_true,
    hfind]
  rfl

theorem resourceLoops_none (hset : uri.isSetResource = true)
    (h : Siblings WellFormedResource resources)
    (hnone : ¬ ∃ subtree, ResourceAt uri resources subtree)
    (hmistaken : ¬ (uri.isSetResourceInstance = true ∧ uri.resourceInstanceId = uri.resourceId ∧ ∃ resource ∈ resources, resource.id = uri.resourceId ∧ resource.type ≠ .multipleResource)) :
    resourceLoops uri resources = .error none := by
  cases hfind : resources.find? fun target => target.id == uri.resourceId with
  | none =>
    simp only [resourceLoops, resourceData, hset, if_true, hfind, bind, Except.bind]
    rfl
  | some resource =>
    obtain ⟨hmem, hid⟩ : resource ∈ resources ∧ resource.id = uri.resourceId := lookupKey_some hfind
    have hdata := resourceData_found hset h hmem hid
    cases hinstance : uri.isSetResourceInstance with
    | false =>
      refine absurd ⟨[resource], resource, hmem, hid, ?_⟩ hnone
      simp only [hinstance, Bool.false_eq_true, if_false]
    | true =>
      by_cases htype : resource.type = .multipleResource
      · by_cases hempty : resource.children = []
        · simp only [htype, hinstance, and_self, if_true, if_pos hempty] at hdata
          simp only [resourceLoops, hdata, bind, Except.bind]
        · have hvalue : resource.children.find?
              (fun target => target.id == uri.resourceInstanceId) = none := by
            rw [List.find?_eq_none]
            intro value hvalue hvalueId
            refine hnone ⟨[value], resource, hmem, hid, ?_⟩
            rw [hinstance]
            exact ⟨htype, value, hvalue, by simpa using hvalueId, rfl⟩
          simp only [htype, hinstance, and_self, if_true, if_neg hempty] at hdata
          simp only [resourceLoops, hdata, bind, Except.bind, resourceInstanceData, hinstance,
            if_true, hvalue]
          rfl
      · have hne : uri.resourceInstanceId ≠ uri.resourceId := fun hsame =>
          hmistaken ⟨hinstance, hsame, resource, hmem, hid, htype⟩
        have hvalue : [resource].find? (fun target => target.id == uri.resourceInstanceId) =
            none := by
          rw [List.find?_cons_of_neg (by simpa [hid] using hne.symm), List.find?_nil]
        rw [if_neg fun hboth => htype hboth.1] at hdata
        simp only [resourceLoops, hdata, bind, Except.bind, resourceInstanceData, hinstance,
          if_true, hvalue]
        rfl

theorem requestedData_requested (hclosed : uri.PrefixClosed) (hfirst : IsRequested uri first) :
    requestedData uri (first :: rest) =
      if uri.isSetInstance then
        (instanceChildren uri.instanceId first.children).bind fun resources =>
          if uri.isSetResource then resourceLoops uri resources else .ok resources
      else .ok first.children := by
  unfold requestedData
  simp only [hfirst.1, hfirst.2, ne_eq, not_true_eq_false, if_false]
  by_cases hinstance : uri.isSetInstance = true
  · simp only [if_pos hinstance]
    cases hrun : instanceChildren uri.instanceId first.children with
    | error fault => rfl
    | ok resources =>
      cases hset : uri.isSetResource with
      | true => rfl
      | false =>
        have hdeep : uri.isSetResourceInstance = false := by
          rw [← Bool.not_eq_true]
          intro hdeep
          exact Bool.false_ne_true (hset.symm.trans (hclosed.2.2 hdeep))
        simp only [bind, Except.bind, resourceData, hset, resourceInstanceData, hdeep,
          Bool.false_eq_true, if_false]
        rfl
  · simp only [if_neg hinstance]
    rfl

def extracted (uri : Lwm2mUri) (parsed : List Lwm2mData) : Conversion (List Lwm2mData) := do
  let data ← requestedData uri parsed
  senmlDataStrip data

theorem senmlDataStrip_some {data : List Lwm2mData} (h : data ≠ []) :
    senmlDataStrip data = .ok data := if_neg h

theorem instanceChildren_found {instances : List Lwm2mData}
    (h : Siblings (Branch .objectInstance WellFormedResource) instances) (hmem : data ∈ instances)
    (hsome : data.children ≠ []) : instanceChildren data.id instances = .ok data.children := by
  rw [instanceChildren_eq h, h.find hmem]
  exact if_neg hsome

theorem extracted_found {uri : Lwm2mUri} {first : Lwm2mData} {rest subtree : List Lwm2mData}
    (hclosed : uri.PrefixClosed) (hfirst : IsRequested uri first)
    (htree : Branch .object (Branch .objectInstance WellFormedResource) first)
    (hat : SubtreeAt uri [first] subtree) : extracted uri (first :: rest) = .ok subtree := by
  obtain ⟨hsome, root, hroot, -, hat⟩ := hat
  rw [List.mem_singleton.mp hroot] at hat
  have hstrip := senmlDataStrip_some hsome
  cases hinstance : uri.isSetInstance with
  | false =>
    simp only [hinstance, Bool.false_eq_true, if_false] at hat
    simp only [extracted, requestedData_requested hclosed hfirst, hinstance, Bool.false_eq_true,
      if_false, bind, Except.bind, ← hat, hstrip]
  | true =>
    simp only [hinstance, if_true] at hat
    obtain ⟨data, hmem, hid, hat⟩ := hat
    have hdata := (htree.children.2.2 data hmem).children.2
    cases hset : uri.isSetResource with
    | false =>
      simp only [hset, Bool.false_eq_true, if_false] at hat
      have hrun := instanceChildren_found htree.children.2 hmem (hat ▸ hsome)
      rw [hid] at hrun
      simp only [extracted, requestedData_requested hclosed hfirst, hinstance, if_true, hrun,
        hset, Bool.false_eq_true, if_false, bind, Except.bind, ← hat, hstrip]
    | true =>
      simp only [hset, if_true] at hat
      have hloops := resourceLoops_found hset hdata hat
      obtain ⟨resource, hresource, -⟩ := hat
      have hrun := instanceChildren_found htree.children.2 hmem (List.ne_nil_of_mem hresource)
      rw [hid] at hrun
      simp only [extracted, requestedData_requested hclosed hfirst, hinstance, if_true, hrun,
        hset, bind, Except.bind, hloops, hstrip]

theorem extracted_mistaken {uri : Lwm2mUri} {first : Lwm2mData} {rest : List Lwm2mData}
    (hclosed : uri.PrefixClosed) (hfirst : IsRequested uri first)
    (htree : Branch .object (Branch .objectInstance WellFormedResource) first)
    (hmistaken : Mistaken uri first) :
    ∃ resource, extracted uri (first :: rest) = .ok [resource] := by
  obtain ⟨hdeep, hsame, data, hmem, hid, resource, hresource, hresourceId, htype⟩ := hmistaken
  have hset := hclosed.2.2 hdeep
  have hinstance := hclosed.2.1 hset
  have hdata := (htree.children.2.2 data hmem).children.2
  have hloops := resourceLoops_mistaken hset hdeep hsame hdata hresource hresourceId htype
  have hrun := instanceChildren_found htree.children.2 hmem (List.ne_nil_of_mem hresource)
  rw [hid] at hrun
  refine ⟨resource, ?_⟩
  simp only [extracted, requestedData_requested hclosed hfirst, hinstance, if_true, hrun, hset,
    bind, Except.bind, hloops]
  rfl

theorem extracted_none (hclosed : uri.PrefixClosed) (hfirst : IsRequested uri first)
    (htree : Branch .object (Branch .objectInstance WellFormedResource) first)
    (hnone : ¬ ∃ subtree, SubtreeAt uri [first] subtree) (hmistaken : ¬ Mistaken uri first) :
    extracted uri (first :: rest) = .error none := by
  cases hinstance : uri.isSetInstance with
  | false =>
    by_cases hempty : first.children = []
    · simp only [extracted, requestedData_requested hclosed hfirst, hinstance, Bool.false_eq_true,
        if_false, bind, Except.bind, hempty]
      rfl
    · refine absurd ⟨first.children, hempty, first, List.mem_singleton_self _, hfirst, ?_⟩ hnone
      simp only [hinstance, Bool.false_eq_true, if_false]
  | true =>
    simp only [extracted, requestedData_requested hclosed hfirst, hinstance, if_true]
    rw [instanceChildren_eq htree.children.2]
    cases hfind : first.children.find? fun data => data.id == uri.instanceId with
    | none => rfl
    | some data =>
      obtain ⟨hmem, hid⟩ : data ∈ first.children ∧ data.id = uri.instanceId := lookupKey_some hfind
      by_cases hempty : data.children = []
      · simp only [if_pos hempty]
        rfl
      · simp only [if_neg hempty]
        cases hset : uri.isSetResource with
        | false =>
          refine absurd ⟨data.children, hempty, first, List.mem_singleton_self _, hfirst, ?_⟩ hnone
          simp only [hinstance, if_true]
          exact ⟨data, hmem, hid, by simp only [hset, Bool.false_eq_true, if_false]⟩
        | true =>
          have hdata := (htree.children.2.2 data hmem).children.2
          have hloops : resourceLoops uri data.children = .error none := by
            refine resourceLoops_none hset hdata (fun hat => hnone ?_) fun hmist => hmistaken ?_
            · obtain ⟨subtree, hat⟩ := hat
              have hsome : subtree ≠ [] := by
                obtain ⟨resource, -, -, hat⟩ := hat
                split at hat
                · obtain ⟨-, value, -, -, rfl⟩ := hat
                  exact List.cons_ne_nil _ _
                · rw [hat]
                  exact List.cons_ne_nil _ _
              refine ⟨subtree, hsome, first, List.mem_singleton_self _, hfirst, ?_⟩
              simp only [hinstance, if_true]
              exact ⟨data, hmem, hid, by simpa only [hset, if_true] using hat⟩
            · obtain ⟨hdeep, hsame, hresource⟩ := hmist
              exact ⟨hdeep, hsame, data, hmem, hid, hresource⟩
          simp only [Except.bind, if_true, hloops, bind]

theorem extracted_other {uri : Lwm2mUri} {first : Lwm2mData} {rest : List Lwm2mData}
    (hfirst : ¬ IsRequested uri first) : extracted uri (first :: rest) = .error none := by
  have hdata : requestedData uri (first :: rest) = .error none := by
    unfold requestedData
    by_cases htype : first.type = .object
    · have hid : first.id ≠ uri.objectId := fun hid => hfirst ⟨htype, hid⟩
      simp only [htype, ne_eq, not_true_eq_false, if_false, if_pos hid]
      rfl
    · simp only [ne_eq, if_pos htype]
      rfl
  simp only [extracted, hdata, bind, Except.bind]

theorem Mistaken.no_subtree (hclosed : uri.PrefixClosed)
    (htree : Branch .object (Branch .objectInstance WellFormedResource) first)
    (hmistaken : Mistaken uri first) : ¬ ∃ subtree, SubtreeAt uri [first] subtree := by
  intro h
  obtain ⟨subtree, -, root, hroot, -, hat⟩ := h
  obtain ⟨hdeep, hsame, data, hmem, hid, resource, hresource, hresourceId, htype⟩ := hmistaken
  rw [List.mem_singleton.mp hroot, if_pos (hclosed.2.1 (hclosed.2.2 hdeep))] at hat
  obtain ⟨data', hmem', hid', hat⟩ := hat
  obtain rfl := htree.children.2.eq_of_id hmem' hmem (hid'.trans hid.symm)
  rw [if_pos (hclosed.2.2 hdeep)] at hat
  obtain ⟨resource', hresource', hresourceId', hat⟩ := hat
  obtain rfl := (htree.children.2.2 data' hmem).children.2.eq_of_id hresource' hresource
    (hresourceId'.trans hresourceId.symm)
  rw [if_pos hdeep] at hat
  exact htype hat.1

theorem RecordTree.alone (htree : RecordTree (first :: rest))
    (honly : ∀ root ∈ first :: rest, IsRequested uri root) : rest = [] := by
  cases rest with
  | nil => rfl
  | cons second rest =>
    have hne := (List.nodup_cons.mp htree.1).1
    refine absurd ?_ hne
    rw [(honly first List.mem_cons_self).2,
      ← (honly second (List.mem_cons_of_mem _ List.mem_cons_self)).2]
    exact List.mem_map_of_mem List.mem_cons_self

/-- `senml_convert_records` returns what the URI designates exactly if its walk is not misled. -/
theorem extracted_iff {parsed : List Lwm2mData} (hclosed : uri.PrefixClosed)
    (htree : RecordTree parsed) :
    ExtractRight uri parsed (extracted uri parsed) ↔ ExtractServed uri parsed := by
  cases parsed with
  | nil =>
    refine iff_of_true ⟨fun _ subtree hat => ?_, fun _ => rfl⟩ fun first hfirst => (nomatch hfirst)
    obtain ⟨-, root, hroot, -⟩ := hat
    exact absurd hroot List.not_mem_nil
  | cons first rest =>
    by_cases hfirst : IsRequested uri first
    · have hbranch := htree.2 first List.mem_cons_self hfirst.1
      constructor
      · intro hright other hother _
        obtain rfl : first = other := Option.some.inj hother
        refine ⟨fun hmistaken => ?_, ?_⟩
        · obtain ⟨resource, hrun⟩ :=
            @extracted_mistaken uri first rest hclosed hfirst hbranch hmistaken
          have herror : extracted uri (first :: rest) = .error none := by
            by_cases honly : ∀ root ∈ first :: rest, IsRequested uri root
            · refine hright.2 (Or.inr ?_)
              rw [htree.alone honly]
              exact hmistaken.no_subtree hclosed hbranch
            · exact hright.2 (Or.inl honly)
          rw [hrun] at herror
          cases herror
        · by_contra hcontra
          rw [not_or, not_not] at hcontra
          obtain ⟨hother, subtree, hat⟩ := hcontra
          have hrun := @extracted_found uri first rest subtree hclosed hfirst hbranch hat
          rw [hright.2 (Or.inl hother)] at hrun
          cases hrun
      · intro hserved
        obtain ⟨hmistaken, honly⟩ := hserved first rfl hfirst
        refine ⟨fun hall subtree hat => ?_, fun hnone => ?_⟩
        · obtain rfl := htree.alone hall
          exact extracted_found hclosed hfirst hbranch hat
        · refine extracted_none hclosed hfirst hbranch ?_ hmistaken
          rcases hnone with hstray | hnone
          · rcases honly with hall | hnone
            · exact absurd hall hstray
            · exact hnone
          · rcases honly with hall | hnone'
            · obtain rfl := htree.alone hall
              exact hnone
            · exact hnone'
    · have hrun := @extracted_other uri first rest hfirst
      constructor
      · intro _ other hother hrequested
        obtain rfl : first = other := Option.some.inj hother
        exact absurd hrequested hfirst
      · intro _
        exact ⟨fun hall => absurd (hall first List.mem_cons_self) hfirst, fun _ => hrun⟩

theorem senmlConvertRecords_extracted {convertValue : SenmlRecord → Lwm2mData → Option Lwm2mData}
    {records : List SenmlRecord} {parsed : List Lwm2mData}
    (hparsed : prvConvertRecord convertValue records = .ok parsed)
    (hobject : uri.isSetObject = true) :
    senmlConvertRecords convertValue (some uri) records = extracted uri parsed := by
  simp only [senmlConvertRecords, hparsed, bind, Except.bind, hobject, if_true, extracted]

/-- With enough memory the copy says what `senmlDataStrip` returns. -/
theorem senmlDataStripAt_contents {allocates : Nat → Bool} (hall : ∀ n, allocates n = true)
    (next : Nat) {data : List MemoryData} (hdata : ∀ node ∈ data, Whole node) :
    ∃ strip, senmlDataStripAt allocates next data = .ok strip ∧
      senmlDataStrip (arrayContents data) =
        match strip.result with
        | some result => .ok (arrayContents result)
        | none => .error none := by
  obtain ⟨strip, hrun, -, hiff⟩ := senmlDataStripAt_iff allocates next hdata
  have hright := hiff.mpr fun _ k _ _ => hall k
  refine ⟨strip, hrun, ?_⟩
  cases data with
  | nil =>
    obtain rfl : _ = strip := Except.ok.inj hrun
    rfl
  | cons first rest =>
    have hsome : strip.result ≠ none := by
      intro hnone
      have hreturned := (hright.nothing hnone).1
      simp only [senmlDataStripAt, dataStripWith, List.isEmpty_cons, Bool.false_eq_true, if_false,
        hall next, if_true] at hrun
      cases hitems : stripItems allocates (next + 1) (first :: rest) with
      | error fault =>
        rw [hitems] at hrun
        cases hrun
      | ok items =>
        rw [hitems] at hrun
        obtain rfl := Except.ok.inj hrun
        cases hnone
    obtain ⟨result, hresult⟩ := Option.ne_none_iff_exists'.mp hsome
    simp only [hresult, (hright.kept result hresult).1]
    exact senmlDataStrip_some (List.cons_ne_nil _ _)

/-- The walk returns what the URI designates exactly if the first node at the root does not hide
the others and no single resource is taken for a resource instance; the copy is whole and counted
right exactly if it is not short of memory below the top. -/
theorem subtreeExtraction_iff (convertValue : SenmlRecord → Lwm2mData → Option Lwm2mData)
    {records : List SenmlRecord} {parsed : List Lwm2mData} {uri : Lwm2mUri}
    (hparsed : prvConvertRecord convertValue records = .ok parsed) (htree : RecordTree parsed)
    (hobject : uri.isSetObject = true) (hclosed : uri.PrefixClosed) (allocates : Nat → Bool)
    (next : Nat) {data : List MemoryData} (hdata : ∀ node ∈ data, Whole node) :
    (ExtractRight uri parsed (senmlConvertRecords convertValue (some uri) records) ↔
      ExtractServed uri parsed) ∧
    ∃ strip, senmlDataStripAt allocates next data = .ok strip ∧
      (StripRight data strip ↔ StripServed allocates next data) := by
  rw [senmlConvertRecords_extracted hparsed hobject]
  obtain ⟨strip, hrun, -, hiff⟩ := senmlDataStripAt_iff allocates next hdata
  exact ⟨extracted_iff hclosed htree, strip, hrun, hiff⟩

/-- A record of an integer, and the conversion that stores it. -/
def integerRecord (objectId : UInt16) (value : Int64) : SenmlRecord where
  ids := { objectId, instanceId := 0, resourceId := 0, resourceInstanceId := lwm2mMaxId }
  value := .node .integer 0 (.asInteger value)
  time := 0

def storeRecord (record : SenmlRecord) (target : Lwm2mData) : Option Lwm2mData :=
  some (.node record.value.type target.id record.value.value)

/-- The object that a record of an integer becomes. -/
def integerObject (objectId : UInt16) (value : Int64) : Lwm2mData :=
  .node .object objectId (.asChildren
    [.node .objectInstance 0 (.asChildren [.node .integer 0 (.asInteger value)])])

theorem integerObject_branch (objectId : UInt16) (value : Int64) :
    Branch .object (Branch .objectInstance WellFormedResource) (integerObject objectId value) := by
  refine Or.inl ⟨rfl, _, rfl, List.nodup_singleton _, fun child hchild => ?_⟩
  rw [List.mem_singleton.mp hchild]
  refine Or.inl ⟨rfl, _, rfl, List.nodup_singleton _, fun child hchild => ?_⟩
  rw [List.mem_singleton.mp hchild]
  exact Or.inl rfl

theorem integerObject_tree (objectId : UInt16) (value : Int64) :
    RecordTree [integerObject objectId value] := by
  refine ⟨List.nodup_singleton _, fun child hchild _ => ?_⟩
  rw [List.mem_singleton.mp hchild]
  exact integerObject_branch objectId value

/-- `/3/0`. -/
def deviceUri : Lwm2mUri where
  objectId := 3
  instanceId := 0
  resourceId := lwm2mMaxId
  resourceInstanceId := lwm2mMaxId

/-- A string in memory. -/
def stringInMemory : MemoryData := .node .string 1 (.asBuffer (some (7, [97, 98])))

theorem subtreeExtraction_device :
    (ExtractRight deviceUri [integerObject 3 1]
        (senmlConvertRecords storeRecord (some deviceUri) [integerRecord 3 1]) ↔
      ExtractServed deviceUri [integerObject 3 1]) ∧
    ∃ strip, senmlDataStripAt (fun _ => true) 0 [stringInMemory] = .ok strip ∧
      (StripRight [stringInMemory] strip ↔ StripServed (fun _ => true) 0 [stringInMemory]) :=
  subtreeExtraction_iff storeRecord rfl (integerObject_tree 3 1) (by decide) (by decide)
    (fun _ => true) 0
    (fun node hnode => by
      rw [List.mem_singleton.mp hnode]
      exact .buffer rfl)

/-- With records of a second object the walk returns the first one's instance; without memory for
the array of a node the copy is counted as if it were there. -/
theorem strayObject_kept :
    (prvConvertRecord storeRecord [integerRecord 3 1, integerRecord 1 2] =
        .ok [integerObject 3 1, integerObject 1 2] ∧
      RecordTree [integerObject 3 1, integerObject 1 2] ∧
      ¬ ExtractRight deviceUri [integerObject 3 1, integerObject 1 2]
        (senmlConvertRecords storeRecord (some deviceUri)
          [integerRecord 3 1, integerRecord 1 2])) ∧
    ∃ strip, senmlDataStripAt (fun n => n == 0) 0
        [.node .multipleResource 0 (.asChildren [stringInMemory])] = .ok strip ∧
      strip.returned = 1 ∧ strip.filled = 0 := by
  refine ⟨⟨rfl, ⟨by decide, fun child hchild _ => ?_⟩, fun hright => ?_⟩, _, rfl, rfl, rfl⟩
  · rw [List.mem_cons, List.mem_singleton] at hchild
    rcases hchild with rfl | rfl
    · exact integerObject_branch 3 1
    · exact integerObject_branch 1 2
  · have hstray : ¬ ∀ root ∈ [integerObject 3 1, integerObject 1 2], IsRequested deviceUri root := by
      intro hall
      have hid := (hall (integerObject 1 2) (List.mem_cons_of_mem _ List.mem_cons_self)).2
      exact absurd hid (by decide)
    have herror := hright.2 (Or.inl hstray)
    cases herror

end Wakaama
