import Wakaama.Core.CompositeRead
import Wakaama.Core.Proofs.SortedList
import Wakaama.Data.WellFormed
import Wakaama.Misc.Keyed
import Wakaama.Misc.Run

/-!
# The tree of a composite read

As long as no multiple resource is read as a whole, `object_readCompositeData` builds a tree with
unique ids that holds what each URI reads, and a URI that is read again changes nothing. A multiple
resource that is read into a tree that already has it becomes its own only child.
-/

namespace Wakaama

/-- The child with the id. -/
def childById (id : UInt16) (array : List Lwm2mData) : Option Lwm2mData :=
  lookupKey Lwm2mData.id id array

/-- The resource instance of the URI is there, with the value that was read. -/
def HasResourceInstance (uri : Lwm2mUri) (data array : List Lwm2mData) : Prop :=
  ∃ value, childById uri.resourceInstanceId array = some value ∧
    data = [.node .multipleResource uri.resourceId (.asChildren [value])]

/-- The resource of the URI is there, with what was read. -/
def HasResource (uri : Lwm2mUri) (data array : List Lwm2mData) : Prop :=
  ∃ resource, childById uri.resourceId array = some resource ∧
    if uri.isSetResourceInstance then
      resource.type = .multipleResource ∧
        ∃ values, resource.value = .asChildren values ∧ HasResourceInstance uri data values
    else data = [resource]

/-- The node of a URI is there, with what was read: below it, or as its children. -/
def HasNode (key : Lwm2mUri → UInt16) (deeper : Lwm2mUri → Bool) (type : DataType)
    (Has : Lwm2mUri → List Lwm2mData → List Lwm2mData → Prop) (uri : Lwm2mUri)
    (data array : List Lwm2mData) : Prop :=
  ∃ node, childById (key uri) array = some node ∧ node.type = type ∧
    ∃ children, node.value = .asChildren children ∧
      if deeper uri then Has uri data children else children = data

/-- The instance of the URI is there, with what was read. -/
def HasInstance : Lwm2mUri → List Lwm2mData → List Lwm2mData → Prop :=
  HasNode Lwm2mUri.instanceId Lwm2mUri.isSetResource .objectInstance HasResource

/-- The tree has at the URI what was read. -/
def HasUri (uri : Lwm2mUri) (data tree : List Lwm2mData) : Prop :=
  if uri.isSetObject then
    HasNode Lwm2mUri.objectId Lwm2mUri.isSetInstance .object HasInstance uri data tree
  else ∀ node ∈ data, node ∈ tree

/-- What a composite read should do: it answers with a well-formed tree that has at every URI what
the URI reads, and to append a URI of the list changes nothing. -/
def CompositeRead (objectList : List ReadableObject) (uris : List Lwm2mUri) : Prop :=
  ∃ result tree, objectReadCompositeData objectList uris = .ok (result, tree) ∧
    WellFormedTree tree ∧
    (∀ uri ∈ uris, ∀ data, readPartial objectList uri = (.content205, data) → data ≠ [] →
      HasUri uri data tree) ∧
    ∀ uri ∈ uris, objectReadCompositeData objectList (uris ++ [uri]) = .ok (result, tree)

/-- The reads are stable: what an object reads is what its instances hold, or a part of it. -/
structure StableReads (objectList : List ReadableObject)
    (contents : UInt16 → UInt16 → List Lwm2mData) : Prop where
  wellFormed : ∀ objectId instanceId,
    Siblings WellFormedResource (contents objectId instanceId)
  instances : ∀ object ∈ objectList, Ascending (fun id => id) object.instanceList
  full : ∀ object ∈ objectList, ∀ readFunc ∈ object.readFunc, ∀ instanceId data,
    readFunc instanceId [] = (.content205, data) → data = contents object.objID instanceId
  resource : ∀ object ∈ objectList, ∀ readFunc ∈ object.readFunc, ∀ instanceId resourceId data,
    readFunc instanceId [.node .undefined resourceId .zero] = (.content205, data) →
      ∃ resource ∈ contents object.objID instanceId, resource.id = resourceId ∧ data = [resource]
  resourceInstance : ∀ object ∈ objectList, ∀ readFunc ∈ object.readFunc,
    ∀ instanceId resourceId resourceInstanceId data,
    readFunc instanceId [.node .multipleResource resourceId
      (.asChildren [.node .undefined resourceInstanceId .zero])] = (.content205, data) →
      ∃ resource ∈ contents object.objID instanceId, resource.id = resourceId ∧
        resource.type = .multipleResource ∧ ∃ value ∈ resource.children,
          value.id = resourceInstanceId ∧
          data = [.node .multipleResource resourceId (.asChildren [value])]

/-- The URI names a resource as a whole. -/
def Lwm2mUri.isWholeResource (uri : Lwm2mUri) : Bool :=
  uri.isSetInstance && uri.isSetResource && !uri.isSetResourceInstance

/-- What reads of a URI must not be: a whole object list, or a multiple resource as a whole. -/
def ReadsOnce (objectList : List ReadableObject) (uri : Lwm2mUri) : Prop :=
  ∀ data next, readPartial objectList uri = (.content205, data :: next) →
    uri.isSetObject = true ∧ (uri.isWholeResource = true → data.type ≠ .multipleResource)

/-! ## One level of the merge -/

structure Merged (id : UInt16) (array : List Lwm2mData) (child : Lwm2mData)
    (array' : List Lwm2mData) : Prop where
  nodup : (array'.map Lwm2mData.id).Nodup
  lookup : ∀ key, childById key array' = if key = id then some child else childById key array
  mem : ∀ other ∈ array', other = child ∨ other ∈ array
  same : childById id array = some child → array' = array

theorem mergeChild_merged {id : UInt16} {found : Lwm2mData → Except Fault Lwm2mData}
    {added : Except Fault Lwm2mData} {array : List Lwm2mData} {child : Lwm2mData}
    (hnodup : (array.map Lwm2mData.id).Nodup) (hid : child.id = id)
    (hfound : ∀ old, childById id array = some old → found old = .ok child)
    (hadded : childById id array = none → added = .ok child) :
    ∃ array', mergeChild id found added array = .ok array' ∧ Merged id array child array' := by
  induction array with
  | nil =>
    refine ⟨[child], by simp [mergeChild, hadded rfl, Except.map], by simp, fun key => ?_, ?_, nofun⟩
    · rw [childById, childById, lookupKey_cons, hid]
      by_cases hkey : key = id
      · rw [if_pos hkey, if_pos hkey.symm]
      · rw [if_neg hkey, if_neg (Ne.symm hkey)]
    · exact fun other hother => Or.inl (List.mem_singleton.1 hother)
  | cons first next ih =>
    obtain ⟨hfresh, hrest⟩ := List.nodup_cons.1 hnodup
    have hlookup : ∀ key, childById key (first :: next) =
        if first.id = key then some first else childById key next :=
      fun key => lookupKey_cons _ key first next
    by_cases hfirst : first.id = id
    · have hold := hfound first (by rw [hlookup, if_pos hfirst])
      refine ⟨child :: next, by simp [mergeChild, hfirst, hold, Except.map], ?_, fun key => ?_, ?_,
        fun hsame => ?_⟩
      · simpa [hid, ← hfirst] using hnodup
      · rw [hlookup, childById, lookupKey_cons, hid, hfirst]
        by_cases hkey : key = id
        · rw [if_pos hkey, if_pos hkey.symm]
        · rw [if_neg hkey, if_neg (Ne.symm hkey), if_neg (Ne.symm hkey), childById]
      · intro other hother
        rcases List.mem_cons.1 hother with rfl | hother
        · exact Or.inl rfl
        · exact Or.inr (List.mem_cons_of_mem _ hother)
      · rw [hlookup, if_pos hfirst] at hsame
        rw [Option.some.inj hsame]
    · have hskip : childById id (first :: next) = childById id next := by
        rw [hlookup, if_neg hfirst]
      rw [hskip] at hfound hadded
      obtain ⟨next', hmerge, hmerged⟩ := ih hrest hfound hadded
      refine ⟨first :: next', by simp [mergeChild, hfirst, hmerge, Except.map], ?_, fun key => ?_, ?_,
        fun hsame => ?_⟩
      · rw [List.map_cons, List.nodup_cons]
        refine ⟨fun hmem => ?_, hmerged.nodup⟩
        obtain ⟨other, hother, heq⟩ := List.mem_map.1 hmem
        rcases hmerged.mem other hother with rfl | hold
        · exact hfirst (heq.symm.trans hid)
        · exact hfresh (List.mem_map.2 ⟨other, hold, heq⟩)
      · rw [hlookup, childById, lookupKey_cons]
        by_cases hkey : first.id = key
        · rw [if_pos hkey, if_pos hkey, if_neg fun h => hfirst (hkey.trans h)]
        · rw [if_neg hkey, if_neg hkey]
          exact hmerged.lookup key
      · intro other hother
        rcases List.mem_cons.1 hother with rfl | hother
        · exact Or.inr (by simp)
        · exact (hmerged.mem other hother).imp_right (List.mem_cons_of_mem _)
      · rw [hskip] at hsame
        rw [hmerged.same hsame]

variable {array : List Lwm2mData} {id : UInt16} {child : Lwm2mData}

theorem childById_some (h : childById id array = some child) :
    child ∈ array ∧ child.id = id := lookupKey_some h

theorem childById_of_mem (hnodup : (array.map Lwm2mData.id).Nodup) (hmem : child ∈ array) :
    childById child.id array = some child := by
  cases hfind : childById child.id array with
  | none => exact absurd (List.mem_map.2 ⟨child, hmem, rfl⟩) (lookupKey_eq_none_iff.1 hfind)
  | some other =>
    obtain ⟨hother, hid⟩ := childById_some hfind
    rw [List.inj_on_of_nodup_map hnodup hother hmem hid]

theorem Merged.siblings {array' : List Lwm2mData} {P : Lwm2mData → Prop}
    (h : Merged id array child array') (hall : Siblings P array) (hchild : P child) :
    Siblings P array' := by
  refine ⟨h.nodup, fun other hother => ?_⟩
  rcases h.mem other hother with rfl | hold
  · exact hchild
  · exact hall.2 other hold

theorem Siblings.imp {P Q : Lwm2mData → Prop} (h : Siblings P array)
    (himp : ∀ child, P child → Q child) : Siblings Q array :=
  ⟨h.1, fun child hmem => himp child (h.2 child hmem)⟩

/-- What a merge does at its level: it keeps the shape, leaves what was read in its place, keeps
what other URIs have read, and changes nothing where the same was read already. -/
def MergeSpec (Fits : List Lwm2mData → Prop)
    (Has : Lwm2mUri → List Lwm2mData → List Lwm2mData → Prop)
    (Reads : Lwm2mUri → List Lwm2mData → Prop) (uri : Lwm2mUri) (data : List Lwm2mData)
    (merge : List Lwm2mData → Except Fault (List Lwm2mData)) : Prop :=
  ∀ array, Fits array → ∃ array', merge array = .ok array' ∧ Fits array' ∧ Has uri data array' ∧
    (∀ other read, Reads other read → Has other read array → Has other read array') ∧
    (Has uri data array → array' = array)

/-- The step into a node: its children are merged further down, or are what was read. -/
def fillNode (deeper : Bool) (data : List Lwm2mData)
    (merge : List Lwm2mData → Except Fault (List Lwm2mData)) (node : Lwm2mData) :
    Except Fault Lwm2mData :=
  if deeper then enterChildren node merge else .ok (node.setChildren data)

theorem setChildren_self {node : Lwm2mData} (h : node.value = .asChildren array) :
    node.setChildren array = node := by
  cases node with
  | node type id value =>
    obtain rfl : value = .asChildren array := h
    rfl

section

variable {key : Lwm2mUri → UInt16} {deeper : Lwm2mUri → Bool} {type : DataType}
variable {Fits : UInt16 → List Lwm2mData → Prop}
variable {Has : Lwm2mUri → List Lwm2mData → List Lwm2mData → Prop}
variable {Reads : Lwm2mUri → List Lwm2mData → Prop}
variable {ReadsBelow : UInt16 → Lwm2mUri → List Lwm2mData → Prop}
variable {whole : UInt16 → List Lwm2mData}
variable {uri : Lwm2mUri} {data : List Lwm2mData}
variable {merge : List Lwm2mData → Except Fault (List Lwm2mData)}

/-- What belongs to a level: a URI that ends there reads the whole of it, which has what the URIs
further down read. -/
structure LevelReads (key : Lwm2mUri → UInt16) (deeper : Lwm2mUri → Bool)
    (Fits : UInt16 → List Lwm2mData → Prop)
    (Has : Lwm2mUri → List Lwm2mData → List Lwm2mData → Prop)
    (Reads : Lwm2mUri → List Lwm2mData → Prop)
    (ReadsBelow : UInt16 → Lwm2mUri → List Lwm2mData → Prop)
    (whole : UInt16 → List Lwm2mData) : Prop where
  below : ∀ uri data, Reads uri data → deeper uri = true → ReadsBelow (key uri) uri data
  ends : ∀ uri data, Reads uri data → deeper uri = false → data = whole (key uri)
  has : ∀ id uri data, ReadsBelow id uri data → Has uri data (whole id)
  fits : ∀ id, Fits id (whole id)
  nil : ∀ id, Fits id []

theorem fillNode_spec (hlevel : LevelReads key deeper Fits Has Reads ReadsBelow whole)
    (hreads : Reads uri data)
    (hmerge : deeper uri = true →
      MergeSpec (Fits (key uri)) Has (ReadsBelow (key uri)) uri data merge)
    {node : Lwm2mData} {array : List Lwm2mData} (hchildren : childrenOf node = .ok array)
    (hfits : Fits (key uri) array) :
    ∃ array', fillNode (deeper uri) data merge node = .ok (node.setChildren array') ∧
      Fits (key uri) array' ∧ (if deeper uri then Has uri data array' else array' = data) ∧
      (∀ other read, Reads other read → key other = key uri →
        (if deeper other then Has other read array else array = read) →
          if deeper other then Has other read array' else array' = read) ∧
      ((if deeper uri then Has uri data array else array = data) → array' = array) := by
  cases hdeeper : deeper uri with
  | true =>
    obtain ⟨array', hok, hfits', hhas, hkeeps, hsame⟩ := hmerge hdeeper array hfits
    refine ⟨array', ?_, hfits', by simpa using hhas, fun other read hother hkey h => ?_,
      by simpa using hsame⟩
    · simp [fillNode, enterChildren, hchildren, Except.bind, hok, Except.map]
    · cases hend : deeper other with
      | true =>
        simp only [hend, if_true] at h ⊢
        exact hkeeps other read (hkey ▸ hlevel.below other read hother hend) h
      | false =>
        simp only [hend, Bool.false_eq_true, if_false] at h ⊢
        have hwhole : array = whole (key uri) :=
          h.trans ((hlevel.ends other read hother hend).trans (congrArg whole hkey))
        have hold : Has uri data array := by
          rw [hwhole]
          exact hlevel.has _ uri data (hlevel.below uri data hreads hdeeper)
        exact (hsame hold).trans h
  | false =>
    have hdata := hlevel.ends uri data hreads hdeeper
    refine ⟨data, by simp [fillNode], hdata ▸ hlevel.fits _, by simp,
      fun other read hother hkey h => ?_, by simpa using Eq.symm⟩
    cases hend : deeper other with
    | true =>
      simp only [if_true]
      rw [hdata]
      exact hlevel.has _ other read (hkey ▸ hlevel.below other read hother hend)
    | false =>
      simp only [Bool.false_eq_true, if_false]
      exact hdata.trans ((congrArg whole hkey).symm.trans (hlevel.ends other read hother hend).symm)

theorem mergeNode_spec (hlevel : LevelReads key deeper Fits Has Reads ReadsBelow whole)
    (hreads : Reads uri data)
    (hmerge : deeper uri = true →
      MergeSpec (Fits (key uri)) Has (ReadsBelow (key uri)) uri data merge) :
    MergeSpec
      (Siblings fun node => node.type = type ∧
        ∃ children, node.value = .asChildren children ∧ Fits node.id children)
      (HasNode key deeper type Has) Reads uri data
      (mergeChild (key uri) (fillNode (deeper uri) data merge)
        (fillNode (deeper uri) data merge (.node type (key uri) .zero))) := by
  intro array hfits
  -- the node that is there, or a new one without children
  obtain ⟨base, old, htype, hid, hchildren, hold, hbase⟩ : ∃ (base : Lwm2mData) (old : List Lwm2mData),
      base.type = type ∧ base.id = key uri ∧ childrenOf base = .ok old ∧ Fits (key uri) old ∧
        (childById (key uri) array = some base ∧ base.value = .asChildren old ∨
          childById (key uri) array = none ∧ base = .node type (key uri) .zero) := by
    cases hfind : childById (key uri) array with
    | none => exact ⟨.node type (key uri) .zero, [], rfl, rfl, rfl, hlevel.nil _, Or.inr ⟨rfl, rfl⟩⟩
    | some node =>
      obtain ⟨hmem, hid⟩ := childById_some hfind
      obtain ⟨htype, children, hvalue, hnode⟩ := hfits.2 node hmem
      refine ⟨node, children, htype, hid, ?_, hid ▸ hnode, Or.inl ⟨rfl, hvalue⟩⟩
      rw [childrenOf, hvalue]
  obtain ⟨children, hfill, hnew, hhas, hkeeps, hsame⟩ :=
    fillNode_spec hlevel hreads hmerge hchildren hold
  obtain ⟨array', hok, hmerged⟩ := @mergeChild_merged (key uri)
    (fillNode (deeper uri) data merge)
    (fillNode (deeper uri) data merge (.node type (key uri) .zero)) array (base.setChildren children)
    hfits.1 hid
    (fun other hother => by
      rcases hbase with ⟨hfind, -⟩ | ⟨hfind, -⟩
      · rw [← Option.some.inj (hfind.symm.trans hother)]
        exact hfill
      · cases hfind.symm.trans hother)
    (fun hnone => by
      rcases hbase with ⟨hfind, -⟩ | ⟨-, rfl⟩
      · cases hfind.symm.trans hnone
      · exact hfill)
  refine ⟨array', hok, hmerged.siblings hfits ⟨htype, children, rfl, ?_⟩, ?_, ?_, ?_⟩
  · exact (show (base.setChildren children).id = key uri from hid) ▸ hnew
  · exact ⟨base.setChildren children, by rw [hmerged.lookup, if_pos rfl], htype, children, rfl, hhas⟩
  · rintro other read hother ⟨node, hfind, hnode, below, hvalue, hread⟩
    by_cases hkey : key other = key uri
    · rcases hbase with ⟨hfind', hvalue'⟩ | ⟨hfind', -⟩
      · obtain rfl := Option.some.inj (hfind'.symm.trans (hkey ▸ hfind))
        obtain rfl : below = old := by
          have := hvalue.symm.trans hvalue'
          injection this
        exact ⟨base.setChildren children, by rw [hmerged.lookup, if_pos hkey], htype, children, rfl,
          hkeeps other read hother hkey hread⟩
      · cases hfind'.symm.trans (hkey ▸ hfind)
    · exact ⟨node, by rw [hmerged.lookup, if_neg hkey]; exact hfind, hnode, below, hvalue, hread⟩
  · rintro ⟨node, hfind, hnode, below, hvalue, hread⟩
    rcases hbase with ⟨hfind', hvalue'⟩ | ⟨hfind', -⟩
    · obtain rfl := Option.some.inj (hfind'.symm.trans hfind)
      obtain rfl : below = old := by
        have := hvalue.symm.trans hvalue'
        injection this
      refine hmerged.same ?_
      rw [hsame hread, setChildren_self hvalue]
      exact hfind
    · cases hfind'.symm.trans hfind

end

/-! ## The resources of an instance -/

/-- What a URI reads of the resources of an instance: one of them, which is not multiple, or one
value of a multiple one. -/
inductive ReadsResource (whole : List Lwm2mData) (uri : Lwm2mUri) : List Lwm2mData → Prop
  | resource (hend : uri.isSetResourceInstance = false) {resource : Lwm2mData}
      (hmem : resource ∈ whole) (hid : resource.id = uri.resourceId)
      (hsingle : resource.type ≠ .multipleResource) : ReadsResource whole uri [resource]
  | resourceInstance (hdeeper : uri.isSetResourceInstance = true) {resource value : Lwm2mData}
      (hmem : resource ∈ whole) (hid : resource.id = uri.resourceId)
      (hmultiple : resource.type = .multipleResource) (hvalue : value ∈ resource.children)
      (hvid : value.id = uri.resourceInstanceId) :
      ReadsResource whole uri [.node .multipleResource uri.resourceId (.asChildren [value])]

/-- A resource in the tree: one of the instance, or some of the values of a multiple one. -/
def FitsResource (whole : List Lwm2mData) (data : Lwm2mData) : Prop :=
  WellFormedResource data ∧ ∃ resource ∈ whole, resource.id = data.id ∧
    (data = resource ∨ resource.type = .multipleResource ∧ data.type = .multipleResource ∧
      ∃ values, data.value = .asChildren values ∧ Siblings (fun value => value ∈ resource.children) values)

theorem wellFormed_multiple {resource : Lwm2mData} (h : WellFormedResource resource)
    (hmultiple : resource.type = .multipleResource) :
    resource.value = .asChildren resource.children ∧ Siblings PlainValue resource.children := by
  rcases h with hplain | ⟨-, array, hvalue, hall⟩
  · rw [PlainValue, hmultiple] at hplain
    cases hplain
  · have hchildren : resource.children = array := by rw [Lwm2mData.children, hvalue]
    exact ⟨hchildren ▸ hvalue, hchildren ▸ hall⟩

section

variable {whole : List Lwm2mData} {uri : Lwm2mUri} {data : List Lwm2mData}

variable {resource node : Lwm2mData}

theorem FitsResource.single (hwhole : (whole.map Lwm2mData.id).Nodup) (h : FitsResource whole node)
    (hmem : resource ∈ whole) (hid : resource.id = node.id)
    (hsingle : resource.type ≠ .multipleResource) : node = resource := by
  obtain ⟨-, source, hsource, hsid, hcase⟩ := h
  obtain rfl := List.inj_on_of_nodup_map hwhole hsource hmem (hsid.trans hid.symm)
  rcases hcase with rfl | ⟨hmultiple, -⟩
  · rfl
  · exact absurd hmultiple hsingle

theorem FitsResource.multiple (hwhole : Siblings WellFormedResource whole)
    (h : FitsResource whole node) (hmem : resource ∈ whole) (hid : resource.id = node.id)
    (hmultiple : resource.type = .multipleResource) :
    node.type = .multipleResource ∧ ∃ values, node.value = .asChildren values ∧
      Siblings (fun value => value ∈ resource.children) values := by
  obtain ⟨-, source, hsource, hsid, hcase⟩ := h
  obtain rfl := List.inj_on_of_nodup_map hwhole.1 hsource hmem (hsid.trans hid.symm)
  rcases hcase with rfl | ⟨-, hnode⟩
  · obtain ⟨hvalue, hall⟩ := wellFormed_multiple (hwhole.2 node hmem) hmultiple
    exact ⟨hmultiple, _, hvalue, hall.1, fun _ hvalue => hvalue⟩
  · exact hnode

theorem fitsResource_values (hwhole : Siblings WellFormedResource whole) (hmem : resource ∈ whole)
    (hid : resource.id = node.id) (hmultiple : resource.type = .multipleResource)
    (hnode : node.type = .multipleResource) {values : List Lwm2mData}
    (hvalue : node.value = .asChildren values)
    (hall : Siblings (fun value => value ∈ resource.children) values) :
    FitsResource whole node := by
  have hplain := (wellFormed_multiple (hwhole.2 resource hmem) hmultiple).2
  exact ⟨Or.inr ⟨hnode, values, hvalue, hall.imp hplain.2⟩, resource, hmem, hid,
    Or.inr ⟨hmultiple, hnode, values, hvalue, hall⟩⟩

theorem fitsResource_whole (hwhole : Siblings WellFormedResource whole) :
    Siblings (FitsResource whole) whole :=
  ⟨hwhole.1, fun resource hmem => ⟨hwhole.2 resource hmem, resource, hmem, rfl, Or.inl rfl⟩⟩

theorem ReadsResource.has_whole (hwhole : Siblings WellFormedResource whole)
    (h : ReadsResource whole uri data) : HasResource uri data whole := by
  cases h with
  | resource hend hmem hid _ =>
    exact ⟨_, hid ▸ childById_of_mem hwhole.1 hmem, by simp [hend]⟩
  | @resourceInstance hdeeper resource value hmem hid hmultiple hvalue hvid =>
    obtain ⟨hchildren, hall⟩ := wellFormed_multiple (hwhole.2 resource hmem) hmultiple
    refine ⟨resource, hid ▸ childById_of_mem hwhole.1 hmem, ?_⟩
    rw [if_pos hdeeper]
    exact ⟨hmultiple, _, hchildren, value, hvid ▸ childById_of_mem hall.1 hvalue, rfl⟩

/-- What `mergeResource` makes of the resource that it has found. -/
def findResource (uri : Lwm2mUri) (partialData : Lwm2mData) (next : List Lwm2mData)
    (resource : Lwm2mData) : Except Fault Lwm2mData :=
  if uri.isSetResourceInstance then enterChildren resource (mergeResourceInstance uri partialData)
  else if resource.type = .multipleResource then .ok (resource.setChildren (partialData :: next))
  else .ok partialData

theorem mergeResource_single (hwhole : Siblings WellFormedResource whole)
    (hend : uri.isSetResourceInstance = false) (hmem : resource ∈ whole)
    (hid : resource.id = uri.resourceId) (hsingle : resource.type ≠ .multipleResource) :
    MergeSpec (Siblings (FitsResource whole)) HasResource (ReadsResource whole) uri [resource]
      (mergeResource uri resource []) := by
  intro array hfits
  have hold : ∀ old, childById uri.resourceId array = some old → old = resource := by
    intro old hfind
    obtain ⟨hin, hoid⟩ := childById_some hfind
    exact (hfits.2 old hin).single hwhole.1 hmem (hid.trans hoid.symm) hsingle
  obtain ⟨array', hok, hmerged⟩ := @mergeChild_merged uri.resourceId
    (findResource uri resource []) (.ok resource) array resource hfits.1 hid
    (fun old hfind => by
      obtain rfl := hold old hfind
      rw [findResource, if_neg (by simp [hend]), if_neg hsingle])
    (fun _ => rfl)
  refine ⟨array', hok, hmerged.siblings hfits
    ⟨hwhole.2 resource hmem, resource, hmem, rfl, Or.inl rfl⟩, ?_, ?_, ?_⟩
  · exact ⟨resource, by rw [hmerged.lookup, if_pos rfl], by simp [hend]⟩
  · rintro other read - ⟨node, hfind, hread⟩
    by_cases hkey : other.resourceId = uri.resourceId
    · obtain rfl := hold node (hkey ▸ hfind)
      exact ⟨node, by rw [hmerged.lookup, if_pos hkey], hread⟩
    · exact ⟨node, by rw [hmerged.lookup, if_neg hkey]; exact hfind, hread⟩
  · rintro ⟨node, hfind, -⟩
    exact hmerged.same (hold node hfind ▸ hfind)

theorem mergeResource_instance (hwhole : Siblings WellFormedResource whole)
    (hdeeper : uri.isSetResourceInstance = true) {value : Lwm2mData} (hmem : resource ∈ whole)
    (hid : resource.id = uri.resourceId) (hmultiple : resource.type = .multipleResource)
    (hvalue : value ∈ resource.children) (hvid : value.id = uri.resourceInstanceId) :
    MergeSpec (Siblings (FitsResource whole)) HasResource (ReadsResource whole) uri
      [.node .multipleResource uri.resourceId (.asChildren [value])]
      (mergeResource uri (.node .multipleResource uri.resourceId (.asChildren [value])) []) := by
  intro array hfits
  have hvalues := (wellFormed_multiple (hwhole.2 resource hmem) hmultiple).2.1
  -- the values that are there already
  have hold : ∀ old, childById uri.resourceId array = some old → ∃ values values',
      old.type = .multipleResource ∧ old.value = .asChildren values ∧
        findResource uri (.node .multipleResource uri.resourceId (.asChildren [value])) [] old =
          .ok (old.setChildren values') ∧
        Merged uri.resourceInstanceId values value values' ∧
        Siblings (fun value => value ∈ resource.children) values := by
    intro old hfind
    obtain ⟨hin, hoid⟩ := childById_some hfind
    obtain ⟨htype, values, hvalue', hall⟩ :=
      (hfits.2 old hin).multiple hwhole hmem (hid.trans hoid.symm) hmultiple
    obtain ⟨values', hok, hmerged⟩ := @mergeChild_merged uri.resourceInstanceId
      (fun _ => .ok value) (.ok value) values value hall.1 hvid (fun _ _ => rfl) (fun _ => rfl)
    refine ⟨values, values', htype, hvalue', ?_, hmerged, hall⟩
    rw [findResource, if_pos hdeeper, enterChildren, childrenOf, hvalue']
    have hmerge : mergeResourceInstance uri
        (.node .multipleResource uri.resourceId (.asChildren [value])) values = .ok values' := hok
    simp [Except.bind, hmerge, Except.map]
  cases hfind : childById uri.resourceId array with
  | none =>
    obtain ⟨array', hok, hmerged⟩ := @mergeChild_merged uri.resourceId
      (findResource uri (.node .multipleResource uri.resourceId (.asChildren [value])) [])
      (.ok (.node .multipleResource uri.resourceId (.asChildren [value]))) array
      (.node .multipleResource uri.resourceId (.asChildren [value])) hfits.1 rfl
      (fun old hsome => by cases hfind.symm.trans hsome) (fun _ => rfl)
    refine ⟨array', hok, hmerged.siblings hfits ?_, ?_, ?_, ?_⟩
    · exact fitsResource_values hwhole hmem hid hmultiple rfl rfl
        ⟨by simp, fun other hother => List.mem_singleton.1 hother ▸ hvalue⟩
    · refine ⟨_, by rw [hmerged.lookup, if_pos rfl], ?_⟩
      rw [if_pos hdeeper]
      refine ⟨rfl, [value], rfl, value, ?_, rfl⟩
      exact hvid ▸ childById_of_mem (by simp) (by simp)
    · rintro other read - ⟨node, hsome, hread⟩
      have hkey : other.resourceId ≠ uri.resourceId := fun hkey => by
        cases hfind.symm.trans (hkey ▸ hsome)
      exact ⟨node, by rw [hmerged.lookup, if_neg hkey]; exact hsome, hread⟩
    · rintro ⟨node, hsome, -⟩
      cases hfind.symm.trans hsome
  | some old =>
    obtain ⟨values, values', htype, hold, hfill, hvmerged, hall⟩ := hold old hfind
    have hoid := (childById_some hfind).2
    obtain ⟨array', hok, hmerged⟩ := @mergeChild_merged uri.resourceId
      (findResource uri (.node .multipleResource uri.resourceId (.asChildren [value])) [])
      (.ok (.node .multipleResource uri.resourceId (.asChildren [value]))) array
      (old.setChildren values') hfits.1 hoid
      (fun other hsome => Option.some.inj (hfind.symm.trans hsome) ▸ hfill)
      (fun hnone => by cases hfind.symm.trans hnone)
    refine ⟨array', hok, hmerged.siblings hfits ?_, ?_, ?_, ?_⟩
    · exact fitsResource_values hwhole hmem (hid.trans hoid.symm) hmultiple htype rfl
        (hvmerged.siblings hall hvalue)
    · refine ⟨old.setChildren values', by rw [hmerged.lookup, if_pos rfl], ?_⟩
      rw [if_pos hdeeper]
      exact ⟨htype, values', rfl, value, by rw [hvmerged.lookup, if_pos rfl], rfl⟩
    · rintro other read hother ⟨node, hsome, hread⟩
      by_cases hkey : other.resourceId = uri.resourceId
      · obtain rfl := Option.some.inj (hfind.symm.trans (hkey ▸ hsome))
        refine ⟨old.setChildren values', by rw [hmerged.lookup, if_pos hkey], ?_⟩
        cases hother with
        | resource hend hmem' _ hsingle =>
          simp only [hend, Bool.false_eq_true, if_false, List.cons.injEq, and_true] at hread
          exact absurd htype (hread ▸ hsingle)
        | @resourceInstance hdeeper' resource' value' hmem' hid' hmultiple' hvalue' hvid' =>
          rw [if_pos hdeeper'] at hread ⊢
          obtain ⟨-, below, hbelow, found, hfound, hread⟩ := hread
          obtain rfl : below = values := by
            have := hbelow.symm.trans hold
            injection this
          refine ⟨htype, values', rfl, found, ?_, hread⟩
          rw [hvmerged.lookup]
          by_cases hvkey : other.resourceInstanceId = uri.resourceInstanceId
          · obtain ⟨hin, hfid⟩ := childById_some hfound
            rw [if_pos hvkey, List.inj_on_of_nodup_map hvalues hvalue (hall.2 found hin)
              (hvid.trans (hvkey.symm.trans hfid.symm))]
          · rw [if_neg hvkey]
            exact hfound
      · exact ⟨node, by rw [hmerged.lookup, if_neg hkey]; exact hsome, hread⟩
    · rintro ⟨node, hsome, hread⟩
      obtain rfl := Option.some.inj (hfind.symm.trans hsome)
      rw [if_pos hdeeper] at hread
      obtain ⟨-, below, hbelow, found, hfound, hread⟩ := hread
      obtain rfl : below = values := by
        have := hbelow.symm.trans hold
        injection this
      obtain rfl : value = found := by simpa using hread
      refine hmerged.same ?_
      rw [hvmerged.same hfound, setChildren_self hold]
      exact hfind

theorem mergeResource_spec (hwhole : Siblings WellFormedResource whole) {first : Lwm2mData}
    {next : List Lwm2mData} (h : ReadsResource whole uri (first :: next)) :
    MergeSpec (Siblings (FitsResource whole)) HasResource (ReadsResource whole) uri (first :: next)
      (mergeResource uri first next) := by
  cases h with
  | resource hend hmem hid hsingle => exact mergeResource_single hwhole hend hmem hid hsingle
  | resourceInstance hdeeper hmem hid hmultiple hvalue hvid =>
    exact mergeResource_instance hwhole hdeeper hmem hid hmultiple hvalue hvid

end

/-! ## The instances and the objects -/

def instancesOf (objectList : List ReadableObject) (objectId : UInt16) : List UInt16 :=
  match lwm2mListFind ReadableObject.objID objectId objectList with
  | some object => object.instanceList
  | none => []

def wholeObject (objectList : List ReadableObject) (contents : UInt16 → UInt16 → List Lwm2mData)
    (objectId : UInt16) : List Lwm2mData :=
  (instancesOf objectList objectId).map fun instanceId =>
    .node .objectInstance instanceId (.asChildren (contents objectId instanceId))

def ReadsInstance (objectList : List ReadableObject)
    (contents : UInt16 → UInt16 → List Lwm2mData) (objectId : UInt16) (uri : Lwm2mUri)
    (data : List Lwm2mData) : Prop :=
  uri.instanceId ∈ instancesOf objectList objectId ∧
    if uri.isSetResource then ReadsResource (contents objectId uri.instanceId) uri data
    else data = contents objectId uri.instanceId

def ReadsObject (objectList : List ReadableObject) (contents : UInt16 → UInt16 → List Lwm2mData)
    (uri : Lwm2mUri) (data : List Lwm2mData) : Prop :=
  if uri.isSetInstance then ReadsInstance objectList contents uri.objectId uri data
  else data = wholeObject objectList contents uri.objectId

def FitsInstance (contents : UInt16 → List Lwm2mData) (node : Lwm2mData) : Prop :=
  node.type = .objectInstance ∧ ∃ children, node.value = .asChildren children ∧
    Siblings (FitsResource (contents node.id)) children

def FitsObject (contents : UInt16 → UInt16 → List Lwm2mData) (node : Lwm2mData) : Prop :=
  node.type = .object ∧ ∃ children, node.value = .asChildren children ∧
    Siblings (FitsInstance (contents node.id)) children

theorem fitsObject_wellFormed {contents : UInt16 → UInt16 → List Lwm2mData}
    {tree : List Lwm2mData} (h : Siblings (FitsObject contents) tree) : WellFormedTree tree := by
  refine h.imp fun object hobject => ?_
  obtain ⟨htype, instances, hvalue, hinstances⟩ := hobject
  refine ⟨htype, instances, hvalue, hinstances.imp fun node hnode => ?_⟩
  obtain ⟨htype, resources, hvalue, hresources⟩ := hnode
  exact ⟨htype, resources, hvalue, hresources.imp fun _ hresource => hresource.1⟩

section

variable {objectList : List ReadableObject} {contents : UInt16 → UInt16 → List Lwm2mData}

theorem StableReads.find (hstable : StableReads objectList contents) (objectId : UInt16) :
    Ascending (fun id => id) (instancesOf objectList objectId) := by
  unfold instancesOf
  split
  · next object hfind =>
    exact hstable.instances object (lwm2mListFind_mem hfind)
  · exact ascending_nil

theorem StableReads.instanceLevel (hstable : StableReads objectList contents) (objectId : UInt16) :
    LevelReads Lwm2mUri.instanceId Lwm2mUri.isSetResource
      (fun id => Siblings (FitsResource (contents objectId id))) HasResource
      (ReadsInstance objectList contents objectId) (fun id => ReadsResource (contents objectId id))
      (contents objectId) where
  below uri data h hdeeper := by
    have := h.2
    rwa [if_pos hdeeper] at this
  ends uri data h hend := by
    have := h.2
    rwa [if_neg (by simp [hend])] at this
  has id uri data h := h.has_whole (hstable.wellFormed objectId id)
  fits id := fitsResource_whole (hstable.wellFormed objectId id)
  nil id := ⟨List.nodup_nil, nofun⟩

theorem wholeObject_siblings (hstable : StableReads objectList contents) (objectId : UInt16) :
    Siblings (FitsInstance (contents objectId)) (wholeObject objectList contents objectId) := by
  constructor
  · have hids : (wholeObject objectList contents objectId).map Lwm2mData.id =
        instancesOf objectList objectId := by
      simp [wholeObject, Function.comp_def, Lwm2mData.id]
    rw [hids]
    exact List.Pairwise.imp (fun {a b} (hlt : a < b) (heq : a = b) => uint16_lt_irrefl b (heq ▸ hlt))
      (hstable.find objectId)
  · intro node hmem
    obtain ⟨instanceId, -, rfl⟩ := List.mem_map.1 hmem
    exact ⟨rfl, _, rfl, fitsResource_whole (hstable.wellFormed objectId instanceId)⟩

variable {uri : Lwm2mUri}

theorem ReadsInstance.has_whole (hstable : StableReads objectList contents) {objectId : UInt16}
    {data : List Lwm2mData} (h : ReadsInstance objectList contents objectId uri data) :
    HasInstance uri data (wholeObject objectList contents objectId) := by
  obtain ⟨hmem, hread⟩ := h
  refine ⟨.node .objectInstance uri.instanceId (.asChildren (contents objectId uri.instanceId)), ?_,
    rfl, contents objectId uri.instanceId, rfl, ?_⟩
  · exact childById_of_mem (wholeObject_siblings hstable objectId).1
      (List.mem_map.2 ⟨uri.instanceId, hmem, rfl⟩)
  · split at hread
    · next hdeeper =>
      rw [if_pos hdeeper]
      exact hread.has_whole (hstable.wellFormed objectId uri.instanceId)
    · next hend =>
      rw [if_neg hend]
      exact hread.symm

theorem StableReads.objectLevel (hstable : StableReads objectList contents) :
    LevelReads Lwm2mUri.objectId Lwm2mUri.isSetInstance
      (fun id => Siblings (FitsInstance (contents id))) HasInstance
      (ReadsObject objectList contents) (ReadsInstance objectList contents)
      (wholeObject objectList contents) where
  below uri data h hdeeper := by rwa [ReadsObject, if_pos hdeeper] at h
  ends uri data h hend := by rwa [ReadsObject, if_neg (by simp [hend])] at h
  has id uri data h := h.has_whole hstable
  fits := wholeObject_siblings hstable
  nil id := ⟨List.nodup_nil, nofun⟩

theorem mergeObject_spec (hstable : StableReads objectList contents) {first : Lwm2mData}
    {next : List Lwm2mData} (h : ReadsObject objectList contents uri (first :: next)) :
    MergeSpec (Siblings (FitsObject contents))
      (HasNode Lwm2mUri.objectId Lwm2mUri.isSetInstance .object HasInstance)
      (ReadsObject objectList contents) uri (first :: next) (mergeObject uri first next) := by
  have hlevel := hstable.objectLevel
  refine mergeNode_spec hlevel h fun hinstance => ?_
  have hbelow := hlevel.below uri _ h hinstance
  have hlevel' := hstable.instanceLevel uri.objectId
  refine mergeNode_spec hlevel' hbelow fun hresource => ?_
  exact mergeResource_spec (hstable.wellFormed uri.objectId uri.instanceId)
    (hlevel'.below uri _ hbelow hresource)

theorem readInstances_whole
    {readFunc : UInt16 → List Lwm2mData → CoapCode × List Lwm2mData} {ids : List UInt16}
    {whole : UInt16 → List Lwm2mData}
    (hfull : ∀ id data, readFunc id [] = (.content205, data) → data = whole id)
    {data : List Lwm2mData} (h : readInstances readFunc ids = (.content205, data)) :
    data = ids.map fun id => .node .objectInstance id (.asChildren (whole id)) := by
  induction ids generalizing data with
  | nil =>
    cases h
    rfl
  | cons id ids ih =>
    unfold readInstances at h
    split at h
    · next array hread =>
      cases hrest : readInstances readFunc ids with
      | mk result rest =>
        rw [hrest] at h
        obtain ⟨hresult, hdata⟩ := Prod.mk.inj h
        rw [← hdata, ih (hrest.trans (congrArg (·, rest) hresult)), hfull id array hread]
        rfl
    · next result _ hfailed _ =>
      exact absurd (Prod.mk.inj h).1 (hfailed)

theorem readPartial_reads (hstable : StableReads objectList contents) {first : Lwm2mData}
    {next : List Lwm2mData} (h : readPartial objectList uri = (.content205, first :: next))
    (hsingle : uri.isWholeResource = true → first.type ≠ .multipleResource) :
    ReadsObject objectList contents uri (first :: next) := by
  have hdata : objectReadData objectList uri = (.content205, first :: next) := by
    unfold readPartial at h
    split at h
    · cases h
    · exact h
  unfold objectReadData at hdata
  cases hfind : lwm2mListFind ReadableObject.objID uri.objectId objectList with
  | none => simp [hfind] at hdata
  | some target =>
    have hmem := lwm2mListFind_mem hfind
    have hid := lwm2mListFind_id hfind
    have hinstances : instancesOf objectList uri.objectId = target.instanceList := by
      simp [instancesOf, hfind]
    simp only [hfind] at hdata
    cases hread : target.readFunc with
    | none => simp [hread] at hdata
    | some readFunc =>
      simp only [hread] at hdata
      have hanswer : ∀ {answer : CoapCode × List Lwm2mData},
          (answer.1, if answer.1 = .content205 then answer.2 else []) =
            (.content205, first :: next) → answer = (.content205, first :: next) := by
        intro answer heq
        obtain ⟨hresult, hvalue⟩ := Prod.mk.inj heq
        rw [if_pos hresult] at hvalue
        exact Prod.ext hresult hvalue
      split at hdata
      · cases hdata
      · next hthere =>
        have hdata := hanswer hdata
        cases hinstance : uri.isSetInstance with
        | false =>
          rw [if_neg (by simp [hinstance])] at hdata
          rw [ReadsObject, if_neg (by simp [hinstance]), wholeObject, hinstances]
          exact readInstances_whole (fun id array => hid ▸ hstable.full target hmem readFunc hread id array)
            hdata
        | true =>
          rw [if_pos hinstance] at hdata
          rw [ReadsObject, if_pos hinstance]
          refine ⟨?_, ?_⟩
          · rw [hinstances]
            cases hnode : lwm2mListFind (fun id => id) uri.instanceId target.instanceList with
            | none => simp [hinstance, hnode] at hthere
            | some node => exact lwm2mListFind_id hnode ▸ lwm2mListFind_mem hnode
          · cases hresource : uri.isSetResource with
            | false =>
              rw [if_neg Bool.false_ne_true, ← hid]
              refine hstable.full target hmem readFunc hread uri.instanceId _ ?_
              simpa [readRequest, hresource] using hdata
            | true =>
              rw [if_pos rfl, ← hid]
              cases hvalue : uri.isSetResourceInstance with
              | false =>
                obtain ⟨resource, hin, hrid, heq⟩ := hstable.resource target hmem readFunc hread
                  uri.instanceId uri.resourceId (first :: next)
                  (by simpa [readRequest, hresource, hvalue] using hdata)
                obtain ⟨rfl, rfl⟩ := List.cons.inj heq
                exact .resource hvalue hin hrid
                  (hsingle (by simp [Lwm2mUri.isWholeResource, hinstance, hresource, hvalue]))
              | true =>
                obtain ⟨resource, hin, hrid, hmultiple, value, hvin, hvid, heq⟩ :=
                  hstable.resourceInstance target hmem readFunc hread uri.instanceId uri.resourceId
                    uri.resourceInstanceId (first :: next)
                    (by simpa [readRequest, hresource, hvalue] using hdata)
                rw [heq]
                exact .resourceInstance hvalue hin hrid hmultiple hvin hvid

end

/-! ## The rounds -/

/-- What holds behind the rounds for some URIs: the tree fits, it has what was read, and a URI that
was not read has had its say in the result. -/
structure RoundsDone (objectList : List ReadableObject)
    (contents : UInt16 → UInt16 → List Lwm2mData) (uris : List Lwm2mUri)
    (so : CoapCode × List Lwm2mData) : Prop where
  fits : Siblings (FitsObject contents) so.2
  has : ∀ uri ∈ uris, ∀ first next, readPartial objectList uri = (.content205, first :: next) →
    HasUri uri (first :: next) so.2
  answered : ∀ uri ∈ uris, so.1 = .content205 →
    (readPartial objectList uri).1 = .notFound404 ∨ (readPartial objectList uri).1 = .content205

section

variable {objectList : List ReadableObject} {contents : UInt16 → UInt16 → List Lwm2mData}
variable {uris : List Lwm2mUri} {uri : Lwm2mUri} {so : CoapCode × List Lwm2mData}

theorem readCompositeRound_read {result : CoapCode} {data next : List Lwm2mData} {first : Lwm2mData}
    (hread : readPartial objectList uri = (.content205, first :: next)) :
    readCompositeRound objectList result data uri =
      if uri.isSetObject then (mergeObject uri first next data).map fun data => (result, data)
      else .ok (result, data ++ first :: next) := by
  rw [readCompositeRound, hread]

theorem readCompositeRound_unread {result : CoapCode} {data : List Lwm2mData}
    (hread : ∀ first next, readPartial objectList uri ≠ (.content205, first :: next)) :
    readCompositeRound objectList result data uri =
      .ok (if result = .content205 ∧ (readPartial objectList uri).1 ≠ .notFound404 then
        (readPartial objectList uri).1 else result, data) := by
  unfold readCompositeRound
  split
  · next first next heq => exact absurd heq (hread first next)
  · next heq => rw [heq]

theorem readCompositeRound_done (hstable : StableReads objectList contents)
    (hall : ∀ other ∈ uris, ReadsOnce objectList other) (honce : ReadsOnce objectList uri)
    (h : RoundsDone objectList contents uris so) :
    ∃ so', readCompositeRound objectList so.1 so.2 uri = .ok so' ∧
      RoundsDone objectList contents (uris ++ [uri]) so' := by
  by_cases hread : ∃ first next, readPartial objectList uri = (.content205, first :: next)
  · obtain ⟨first, next, hread⟩ := hread
    obtain ⟨hobject, hsingle⟩ := honce first next hread
    have hreads := readPartial_reads hstable hread hsingle
    obtain ⟨data, hok, hfits, hhas, hkeeps, -⟩ := mergeObject_spec hstable hreads so.2 h.fits
    refine ⟨(so.1, data), ?_, hfits, fun other hother first' next' hread' => ?_,
      fun other hother hresult => ?_⟩
    · rw [readCompositeRound_read hread, if_pos hobject, hok]
      rfl
    · rcases List.mem_append.1 hother with hold | hnew
      · obtain ⟨hobject', hsingle'⟩ := hall other hold first' next' hread'
        have hbefore := h.has other hold first' next' hread'
        rw [HasUri, if_pos hobject'] at hbefore ⊢
        exact hkeeps other _ (readPartial_reads hstable hread' hsingle') hbefore
      · obtain rfl := List.mem_singleton.1 hnew
        obtain ⟨rfl, rfl⟩ : first = first' ∧ next = next' := by simpa [hread] using hread'
        rw [HasUri, if_pos hobject]
        exact hhas
    · rcases List.mem_append.1 hother with hold | hnew
      · exact h.answered other hold hresult
      · obtain rfl := List.mem_singleton.1 hnew
        exact Or.inr (congrArg Prod.fst hread)
  · have hunread : ∀ first next, readPartial objectList uri ≠ (.content205, first :: next) :=
      fun first next heq => hread ⟨first, next, heq⟩
    refine ⟨_, readCompositeRound_unread hunread, h.fits, fun other hother first' next' hread' => ?_,
      fun other hother hresult => ?_⟩
    · rcases List.mem_append.1 hother with hold | hnew
      · exact h.has other hold first' next' hread'
      · obtain rfl := List.mem_singleton.1 hnew
        exact absurd hread' (hunread first' next')
    · by_cases hset : so.1 = .content205 ∧ (readPartial objectList uri).1 ≠ .notFound404
      · simp only [if_pos hset] at hresult
        rcases List.mem_append.1 hother with hold | hnew
        · exact h.answered other hold hset.1
        · obtain rfl := List.mem_singleton.1 hnew
          exact Or.inr hresult
      · simp only [if_neg hset] at hresult
        rcases List.mem_append.1 hother with hold | hnew
        · exact h.answered other hold hresult
        · obtain rfl := List.mem_singleton.1 hnew
          exact Or.inl (not_not.1 fun hne => hset ⟨hresult, hne⟩)

theorem RoundsDone.settled (hstable : StableReads objectList contents)
    (h : RoundsDone objectList contents uris so) (hmem : uri ∈ uris)
    (honce : ReadsOnce objectList uri) : readCompositeRound objectList so.1 so.2 uri = .ok so := by
  by_cases hread : ∃ first next, readPartial objectList uri = (.content205, first :: next)
  · obtain ⟨first, next, hread⟩ := hread
    obtain ⟨hobject, hsingle⟩ := honce first next hread
    have hreads := readPartial_reads hstable hread hsingle
    obtain ⟨data, hok, -, -, -, hsame⟩ := mergeObject_spec hstable hreads so.2 h.fits
    have hhas := h.has uri hmem first next hread
    rw [HasUri, if_pos hobject] at hhas
    rw [readCompositeRound_read hread, if_pos hobject, hok, hsame hhas]
    rfl
  · rw [readCompositeRound_unread fun first next heq => hread ⟨first, next, heq⟩]
    split
    · next hset =>
      obtain hres : (readPartial objectList uri).1 = .content205 :=
        (h.answered uri hmem hset.1).resolve_left hset.2
      rw [hres, ← hset.1]
    · rfl

theorem readCompositeLoop_done (hstable : StableReads objectList contents) {past : List Lwm2mUri}
    (hpast : ∀ other ∈ past, ReadsOnce objectList other)
    (hall : ∀ other ∈ uris, ReadsOnce objectList other)
    (h : RoundsDone objectList contents past so) :
    ∃ so', readCompositeLoop objectList uris so = .ok so' ∧
      RoundsDone objectList contents (past ++ uris) so' := by
  induction uris generalizing past so with
  | nil => exact ⟨so, rfl, by simpa using h⟩
  | cons uri uris ih =>
    obtain ⟨so', hround, hdone⟩ := readCompositeRound_done hstable hpast (hall uri (by simp)) h
    obtain ⟨final, hloop, hfinal⟩ := ih
      (fun other hother => by
        rcases List.mem_append.1 hother with hold | hnew
        · exact hpast other hold
        · exact List.mem_singleton.1 hnew ▸ hall uri (by simp))
      (fun other hother => hall other (List.mem_cons_of_mem _ hother)) hdone
    refine ⟨final, ?_, by simpa using hfinal⟩
    rw [readCompositeLoop, hround]
    exact hloop

theorem readCompositeLoop_append (uris : List Lwm2mUri) (uri : Lwm2mUri)
    (so : CoapCode × List Lwm2mData) :
    readCompositeLoop objectList (uris ++ [uri]) so =
      (readCompositeLoop objectList uris so).bind fun so =>
        readCompositeRound objectList so.1 so.2 uri := by
  induction uris generalizing so with
  | nil =>
    cases hround : readCompositeRound objectList so.1 so.2 uri <;>
      simp [readCompositeLoop, Except.bind, hround]
  | cons first uris ih =>
    cases hround : readCompositeRound objectList so.1 so.2 first with
    | error fault => simp [readCompositeLoop, Except.bind, hround]
    | ok so' => simpa [readCompositeLoop, Except.bind, hround] using ih so'

theorem compositeRead_of_readsOnce (hstable : StableReads objectList contents)
    (hall : ∀ uri ∈ uris, ReadsOnce objectList uri) : CompositeRead objectList uris := by
  have hstart : RoundsDone objectList contents [] (.content205, []) :=
    ⟨⟨List.nodup_nil, fun _ hmem => absurd hmem List.not_mem_nil⟩,
      fun _ hmem => absurd hmem List.not_mem_nil, fun _ hmem => absurd hmem List.not_mem_nil⟩
  obtain ⟨so, hloop, hdone⟩ := readCompositeLoop_done hstable
    (fun _ hmem => absurd hmem List.not_mem_nil) hall hstart
  rw [List.nil_append] at hdone
  obtain ⟨result, hok⟩ : ∃ result, objectReadCompositeData objectList uris = .ok (result, so.2) := by
    rw [objectReadCompositeData, hloop]
    exact ⟨_, rfl⟩
  refine ⟨result, so.2, hok, fitsObject_wellFormed hdone.fits, fun uri hmem data hread hdata => ?_,
    fun uri hmem => ?_⟩
  · cases data with
    | nil => exact absurd rfl hdata
    | cons first next => exact hdone.has uri hmem first next hread
  · have hsettled := hdone.settled hstable hmem (hall uri hmem)
    rw [← hok, objectReadCompositeData, objectReadCompositeData, readCompositeLoop_append, hloop]
    simp only [Except.bind, hsettled]

end

/-! ## A multiple resource that is read again -/

theorem mergeChild_fixed {found : Lwm2mData → Except Fault Lwm2mData}
    {added : Except Fault Lwm2mData} (hfind : childById id array = some child)
    (h : mergeChild id found added array = .ok array) : found child = .ok child := by
  induction array with
  | nil => cases hfind
  | cons first next ih =>
    rw [childById, lookupKey_cons] at hfind
    unfold mergeChild at h
    split at h
    · next hid =>
      rw [if_pos hid] at hfind
      obtain rfl := Option.some.inj hfind
      obtain ⟨changed, hfound, heq⟩ := exceptMap_inv h
      rw [hfound, (List.cons.inj heq).1]
    · next hid =>
      rw [if_neg hid] at hfind
      obtain ⟨next', hrest, heq⟩ := exceptMap_inv h
      exact ih hfind (by rw [hrest, (List.cons.inj heq).2])

theorem fillNode_fixed {data : List Lwm2mData}
    {merge : List Lwm2mData → Except Fault (List Lwm2mData)} {node : Lwm2mData}
    (hvalue : node.value = .asChildren array) (h : fillNode true data merge node = .ok node) :
    merge array = .ok array := by
  rw [fillNode, if_pos rfl, enterChildren] at h
  obtain ⟨array', hchildren, h⟩ := exceptBind_inv h
  obtain rfl : array = array' := by
    rw [childrenOf, hvalue] at hchildren
    exact Except.ok.inj hchildren
  obtain ⟨changed, hmerge, heq⟩ := exceptMap_inv h
  have hsame : changed = array := by
    have := (congrArg Lwm2mData.value heq).trans hvalue
    injection this
  exact hsame ▸ hmerge

theorem setChildren_ne (data : Lwm2mData) : data.setChildren [data] ≠ data := by
  intro h
  have := congrArg sizeOf h
  simp only [Lwm2mData.setChildren, Lwm2mData.node.sizeOf_spec, DataValue.asChildren.sizeOf_spec,
    List.cons.sizeOf_spec] at this
  omega

section

variable {objectList : List ReadableObject}

theorem mergeObject_whole_changes {uri : Lwm2mUri} {data : Lwm2mData} {next tree : List Lwm2mData}
    (hobject : uri.isSetObject = true) (hwhole : uri.isWholeResource = true)
    (hmultiple : data.type = .multipleResource) (hhas : HasUri uri (data :: next) tree) :
    mergeObject uri data next tree ≠ .ok tree := by
  intro hsame
  simp only [Lwm2mUri.isWholeResource, Bool.and_eq_true, Bool.not_eq_true'] at hwhole
  obtain ⟨⟨hinstance, hresource⟩, hend⟩ := hwhole
  rw [HasUri, if_pos hobject] at hhas
  obtain ⟨object, hobject, -, instances, hinstances, hhas⟩ := hhas
  rw [if_pos hinstance] at hhas
  obtain ⟨node, hnode, -, resources, hresources, hhas⟩ := hhas
  rw [if_pos hresource] at hhas
  obtain ⟨resource, hfind, hhas⟩ := hhas
  rw [if_neg (by simp [hend])] at hhas
  obtain ⟨rfl, rfl⟩ := List.cons.inj hhas
  have h1 : fillNode uri.isSetInstance [data] (mergeInstance uri data []) object = .ok object :=
    mergeChild_fixed hobject hsame
  rw [hinstance] at h1
  have h2 : fillNode uri.isSetResource [data] (mergeResource uri data []) node = .ok node :=
    mergeChild_fixed hnode (fillNode_fixed hinstances h1)
  rw [hresource] at h2
  have h3 : findResource uri data [] data = .ok data :=
    mergeChild_fixed hfind (fillNode_fixed hresources h2)
  rw [findResource, if_neg (by simp [hend]), if_pos hmultiple] at h3
  exact setChildren_ne data (Except.ok.inj h3)

theorem readsOnce_of_compositeRead {uris : List Lwm2mUri} (h : CompositeRead objectList uris)
    {uri : Lwm2mUri} (hmem : uri ∈ uris) : ReadsOnce objectList uri := by
  obtain ⟨result, tree, hok, -, hhas, hagain⟩ := h
  intro data next hread
  obtain ⟨so, hloop, hso⟩ := exceptMap_inv hok
  obtain rfl : so.2 = tree := congrArg Prod.snd hso
  have hround : ∃ so', readCompositeRound objectList so.1 so.2 uri = .ok so' ∧ so'.2 = so.2 := by
    have := hagain uri hmem
    rw [objectReadCompositeData, readCompositeLoop_append, hloop] at this
    obtain ⟨so', hround, hso'⟩ := exceptMap_inv this
    have hsnd := congrArg Prod.snd hso'
    exact ⟨so', hround, hsnd⟩
  obtain ⟨so', hround, hsame⟩ := hround
  rw [readCompositeRound_read hread] at hround
  cases hobject : uri.isSetObject with
  | false =>
    rw [if_neg (by simp [hobject])] at hround
    rw [← Except.ok.inj hround] at hsame
    simp at hsame
  | true =>
    refine ⟨rfl, fun hwhole hmultiple => ?_⟩
    rw [if_pos hobject] at hround
    obtain ⟨tree, hmerge, hso'⟩ := exceptMap_inv hround
    obtain rfl : tree = so.2 := (congrArg Prod.snd hso').trans hsame
    exact mergeObject_whole_changes hobject hwhole hmultiple
      (hhas uri hmem _ hread (List.cons_ne_nil _ _)) hmerge

/-- Where the reads are stable, a composite read does what it should exactly when no URI of the list
reads a multiple resource as a whole, or the list of objects. -/
theorem compositeRead_iff {contents : UInt16 → UInt16 → List Lwm2mData}
    (hstable : StableReads objectList contents) (uris : List Lwm2mUri) :
    CompositeRead objectList uris ↔ ∀ uri ∈ uris, ReadsOnce objectList uri :=
  ⟨fun h _ hmem => readsOnce_of_compositeRead h hmem, compositeRead_of_readsOnce hstable⟩

end

/-! ## Objects that read what they hold -/

/-- A read callback that looks the resources up. -/
def readContents (contents : UInt16 → List Lwm2mData) (instanceId : UInt16) :
    List Lwm2mData → CoapCode × List Lwm2mData
  | [] => (.content205, contents instanceId)
  | [.node .undefined resourceId _] =>
    match childById resourceId (contents instanceId) with
    | some resource => (.content205, [resource])
    | none => (.notFound404, [])
  | [.node .multipleResource resourceId (.asChildren [value])] =>
    match childById resourceId (contents instanceId) with
    | some resource =>
      if resource.type = .multipleResource then
        match childById value.id resource.children with
        | some value => (.content205, [.node .multipleResource resourceId (.asChildren [value])])
        | none => (.notFound404, [])
      else (.notFound404, [])
    | none => (.notFound404, [])
  | _ => (.badRequest400, [])

theorem readContents_stable {objectList : List ReadableObject}
    {contents : UInt16 → UInt16 → List Lwm2mData}
    (hwell : ∀ objectId instanceId, Siblings WellFormedResource (contents objectId instanceId))
    (hinstances : ∀ object ∈ objectList, Ascending (fun id => id) object.instanceList)
    (hread : ∀ object ∈ objectList, object.readFunc = some (readContents (contents object.objID))) :
    StableReads objectList contents := by
  have hcallback : ∀ object ∈ objectList, ∀ readFunc ∈ object.readFunc,
      readFunc = readContents (contents object.objID) := fun object hmem readFunc hsome =>
    (Option.some.inj ((hread object hmem).symm.trans hsome)).symm
  refine ⟨hwell, hinstances, fun object hmem readFunc hsome instanceId data h => ?_,
    fun object hmem readFunc hsome instanceId resourceId data h => ?_,
    fun object hmem readFunc hsome instanceId resourceId resourceInstanceId data h => ?_⟩
  · rw [hcallback object hmem readFunc hsome] at h
    exact (Prod.mk.inj h).2.symm
  · rw [hcallback object hmem readFunc hsome] at h
    cases hfind : childById resourceId (contents object.objID instanceId) with
    | none => simp [readContents, hfind] at h
    | some resource =>
      obtain ⟨hin, hid⟩ := childById_some hfind
      simp only [readContents, hfind] at h
      exact ⟨resource, hin, hid, (Prod.mk.inj h).2.symm⟩
  · rw [hcallback object hmem readFunc hsome] at h
    cases hfind : childById resourceId (contents object.objID instanceId) with
    | none => simp [readContents, hfind] at h
    | some resource =>
      obtain ⟨hin, hid⟩ := childById_some hfind
      simp only [readContents, hfind, Lwm2mData.id] at h
      split at h
      · next hmultiple =>
        cases hvalue : childById resourceInstanceId resource.children with
        | none => simp [hvalue] at h
        | some value =>
          obtain ⟨hvin, hvid⟩ := childById_some hvalue
          simp only [hvalue] at h
          exact ⟨resource, hin, hid, hmultiple, value, hvin, hvid, (Prod.mk.inj h).2.symm⟩
      · cases h

/-- The manufacturer, and two power sources. -/
def deviceResources : List Lwm2mData :=
  [.node .string 0 (.asBuffer [0x41]),
    .node .multipleResource 6
      (.asChildren [.node .integer 0 (.asInteger 1), .node .integer 1 (.asInteger 5)])]

/-- The Device object with its instance. -/
def deviceObjects : List ReadableObject :=
  [⟨3, [0], some (readContents fun _ => deviceResources)⟩]

theorem deviceObjects_stable : StableReads deviceObjects fun _ _ => deviceResources := by
  refine readContents_stable (fun _ _ => ⟨by decide, ?_⟩) ?_ ?_
  · intro resource hmem
    simp only [deviceResources, List.mem_cons, List.not_mem_nil, or_false] at hmem
    rcases hmem with rfl | rfl
    · exact Or.inl rfl
    · refine Or.inr ⟨rfl, _, rfl, by decide, fun value hmem => ?_⟩
      simp only [List.mem_cons, List.not_mem_nil, or_false] at hmem
      rcases hmem with rfl | rfl <;> rfl
  · intro object hmem
    obtain rfl := List.mem_singleton.1 hmem
    exact List.pairwise_singleton _ _
  · intro object hmem
    obtain rfl := List.mem_singleton.1 hmem
    rfl

/-- One power source, the instance, and the manufacturer. -/
theorem deviceInstance_compositeRead :
    CompositeRead deviceObjects
      [⟨3, 0, 6, 1⟩, ⟨3, 0, lwm2mMaxId, lwm2mMaxId⟩, ⟨3, 0, 0, lwm2mMaxId⟩] := by
  refine (compositeRead_iff deviceObjects_stable _).2 fun uri hmem => ?_
  simp only [List.mem_cons, List.not_mem_nil, or_false] at hmem
  rcases hmem with rfl | rfl | rfl
  · exact fun _ _ _ => ⟨rfl, fun hwhole => absurd hwhole (by decide)⟩
  · exact fun _ _ _ => ⟨rfl, fun hwhole => absurd hwhole (by decide)⟩
  · intro data next hread
    obtain ⟨-, heq⟩ := Prod.mk.inj hread
    refine ⟨rfl, fun _ => ?_⟩
    rw [← (List.cons.inj heq).1]
    nofun

/-- The power sources are read twice: the second time the resource becomes its own child. -/
theorem powerSourcesTwice_nested :
    ¬ CompositeRead deviceObjects [⟨3, 0, 6, lwm2mMaxId⟩, ⟨3, 0, 6, lwm2mMaxId⟩] := by
  rintro ⟨result, tree, hok, htree, -, -⟩
  have hread : objectReadCompositeData deviceObjects
      [⟨3, 0, 6, lwm2mMaxId⟩, ⟨3, 0, 6, lwm2mMaxId⟩] =
        .ok (.content205, [.node .object 3 (.asChildren [.node .objectInstance 0 (.asChildren
          [.node .multipleResource 6 (.asChildren [.node .multipleResource 6 (.asChildren
            [.node .integer 0 (.asInteger 1), .node .integer 1 (.asInteger 5)])])])])]) := rfl
  obtain ⟨-, rfl⟩ := Prod.mk.inj (Except.ok.inj (hread.symm.trans hok))
  obtain ⟨-, instances, hinstances, -, hall⟩ := htree.2 _ List.mem_cons_self
  injection hinstances with hinstances
  subst hinstances
  obtain ⟨-, resources, hresources, -, hall⟩ := hall _ List.mem_cons_self
  injection hresources with hresources
  subst hresources
  rcases hall _ List.mem_cons_self with hplain | ⟨-, values, hvalues, -, hall⟩
  · cases hplain
  · injection hvalues with hvalues
    subst hvalues
    cases hall _ List.mem_cons_self

end Wakaama
