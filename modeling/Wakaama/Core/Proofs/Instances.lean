import Wakaama.Core.Proofs.SortedList
import Wakaama.Core.ServerList

/-!
# What the client sees of an instance

An instance is present or not, and the client looks at it through the read callback: at the
Bootstrap-Server and Short Server ID resources of a Security instance and at the Short Server ID
of a Server instance. A callback that is given the id of one instance is expected to leave the
others as they are.
-/

namespace Wakaama

variable {Node : Type} {ident : Node → UInt16}

theorem lwm2mListFind_setInstances (context : ClientContext Node) (objectId key : UInt16)
    (nodes : List Node) :
    (context.setInstances objectId nodes).findObject key =
      (context.findObject key).map fun object =>
        if object.objID = objectId then { object with instanceList := nodes } else object := by
  simp only [ClientContext.findObject, ClientContext.setInstances]
  induction context.objectList with
  | nil => rfl
  | cons object objects ih =>
    have hid : (if object.objID = objectId then { object with instanceList := nodes }
        else object).objID = object.objID := by split <;> rfl
    simp only [List.map_cons, lwm2mListFind, hid, ih]
    split
    · rfl
    · split <;> rfl

/-- What `decode` makes of a resource of an instance, `none` where it cannot be read. -/
def readDecoded {α : Type} (decode : Lwm2mData → Option α) (object : Lwm2mObject Node)
    (instanceId resourceId : UInt16) : Option α :=
  match objectReadResource object instanceId resourceId with
  | .ok data => data.bind decode
  | .error _ => none

/-- A Short Server ID as it is read. -/
def readShortId (object : Lwm2mObject Node) (instanceId resourceId : UInt16) : Option Int :=
  (readDecoded lwm2mDataDecodeInt object instanceId resourceId).map Int64.toInt

/-- The Bootstrap-Server flag and the Short Server ID of an instance that is present. -/
def shownAt (ident : Node → UInt16) (object : Lwm2mObject Node) (id : UInt16) :
    Option (Option Bool × Option Int) :=
  if id ∈ object.instanceList.map ident then
    some (if object.objID = lwm2mSecurityObjectId then
      (readDecoded lwm2mDataDecodeBool object id lwm2mSecurityBootstrapId,
        readShortId object id lwm2mSecurityShortServerId)
    else (none, readShortId object id lwm2mServerShortIdId))
  else none

/-- The same of an instance of one of the client's objects. -/
def instanceAt (ident : Node → UInt16) (context : ClientContext Node) (objectId id : UInt16) :
    Option (Option Bool × Option Int) :=
  (context.findObject objectId).bind fun object => shownAt ident object id

/-- The object with another instance list. -/
def Lwm2mObject.withInstances (object : Lwm2mObject Node) (instanceList : List Node) :
    Lwm2mObject Node :=
  { object with instanceList }

/-- The instance is present in both lists or in none, and reads the same. -/
structure SameInstance (ident : Node → UInt16) (object : Lwm2mObject Node)
    (nodes nodes' : List Node) (id : UInt16) : Prop where
  present : id ∈ nodes'.map ident ↔ id ∈ nodes.map ident
  read : ∀ read ∈ object.readFunc, ∀ ids, read id ids nodes' = read id ids nodes

/-- The lists differ at most in one instance, and the new one is in order. -/
structure TouchesOne (ident : Node → UInt16) (object : Lwm2mObject Node) (id : UInt16)
    (nodes nodes' : List Node) : Prop where
  ascending : Ascending ident nodes'
  others : ∀ other, other ≠ id → SameInstance ident object nodes nodes' other

/-- Each callback of the object touches the instance it is given and no other. -/
structure LocalCallbacks (ident : Node → UInt16) (object : Lwm2mObject Node) : Prop where
  write : ∀ write ∈ object.writeFunc, ∀ id data type nodes, Ascending ident nodes →
    TouchesOne ident object id nodes (write id data type nodes).1
  create : ∀ create ∈ object.createFunc, ∀ id data nodes, Ascending ident nodes →
    id ∉ nodes.map ident → TouchesOne ident object id nodes (create id data nodes).1
  delete : ∀ delete ∈ object.deleteFunc, ∀ id nodes, Ascending ident nodes →
    TouchesOne ident object id nodes (delete id nodes).1

variable {object : Lwm2mObject Node} {nodes : List Node} {context : ClientContext Node}
  {objectId : UInt16}

theorem LocalCallbacks.withInstances (h : LocalCallbacks ident object) (nodes : List Node) :
    LocalCallbacks ident (object.withInstances nodes) :=
  ⟨fun write hwrite id data type nodes hasc =>
      let t := h.write write hwrite id data type nodes hasc
      ⟨t.ascending, fun other hother => ⟨(t.others other hother).present, (t.others other hother).read⟩⟩,
    fun create hcreate id data nodes hasc hfresh =>
      let t := h.create create hcreate id data nodes hasc hfresh
      ⟨t.ascending, fun other hother => ⟨(t.others other hother).present, (t.others other hother).read⟩⟩,
    fun delete hdelete id nodes hasc =>
      let t := h.delete delete hdelete id nodes hasc
      ⟨t.ascending, fun other hother => ⟨(t.others other hother).present, (t.others other hother).read⟩⟩⟩

theorem objectReadResource_same {nodes' : List Node} {id : UInt16}
    (h : SameInstance ident object nodes nodes' id) (resourceId : UInt16) :
    objectReadResource (object.withInstances nodes') id resourceId =
      objectReadResource (object.withInstances nodes) id resourceId := by
  simp only [objectReadResource, Lwm2mObject.withInstances]
  cases hread : object.readFunc with
  | none => rfl
  | some read =>
    have hsame : read id [resourceId] nodes' = read id [resourceId] nodes :=
      h.read read hread [resourceId]
    simp only [hsame]
    rfl

theorem shownAt_same {nodes' : List Node} {id : UInt16}
    (h : SameInstance ident object nodes nodes' id) :
    shownAt ident (object.withInstances nodes') id = shownAt ident (object.withInstances nodes) id := by
  have hpresent : id ∈ (object.withInstances nodes').instanceList.map ident ↔
      id ∈ (object.withInstances nodes).instanceList.map ident := h.present
  simp only [shownAt, readShortId, readDecoded, objectReadResource_same h, hpresent]
  rfl

theorem findObject_id (h : context.findObject objectId = some object) : object.objID = objectId :=
  lwm2mListFind_id h

theorem instanceAt_setInstances (hfind : context.findObject objectId = some object)
    (nodes : List Node) (key id : UInt16) :
    instanceAt ident (context.setInstances objectId nodes) key id =
      if key = objectId then shownAt ident (object.withInstances nodes) id
      else instanceAt ident context key id := by
  have hid := findObject_id hfind
  by_cases hkey : key = objectId
  · subst hkey
    simp [instanceAt, lwm2mListFind_setInstances, hfind, hid, Lwm2mObject.withInstances]
  · simp only [instanceAt, lwm2mListFind_setInstances, if_neg hkey]
    cases hother : context.findObject key with
    | none => rfl
    | some other =>
      have hne : other.objID ≠ objectId := findObject_id hother ▸ hkey
      simp [hne]

/-- The client's objects are in order, each with its instances in order and with callbacks that
touch one instance. -/
structure ObjectsReady (ident : Node → UInt16) (context : ClientContext Node) : Prop where
  ascending : Ascending Lwm2mObject.objID context.objectList
  instances : ∀ object ∈ context.objectList, Ascending ident object.instanceList
  callbacks : ∀ object ∈ context.objectList, LocalCallbacks ident object

theorem setInstances_ids (context : ClientContext Node) (objectId : UInt16) (nodes : List Node) :
    (context.setInstances objectId nodes).objectList.map Lwm2mObject.objID =
      context.objectList.map Lwm2mObject.objID := by
  simp only [ClientContext.setInstances, List.map_map]
  refine List.map_congr_left fun object _ => ?_
  simp only [Function.comp_apply]
  split <;> rfl

theorem setInstances_setInstances (context : ClientContext Node) (objectId : UInt16)
    (nodes nodes' : List Node) :
    (context.setInstances objectId nodes).setInstances objectId nodes' =
      context.setInstances objectId nodes' := by
  simp only [ClientContext.setInstances, List.map_map]
  congr 1
  refine List.map_congr_left fun object _ => ?_
  simp only [Function.comp_apply]
  by_cases hid : object.objID = objectId <;> simp [hid]

theorem ObjectsReady.find (h : ObjectsReady ident context)
    (hfind : context.findObject objectId = some object) : object ∈ context.objectList :=
  ((lwm2mListFind_eq_some_iff h.ascending).mp hfind).1

theorem ObjectsReady.setInstances (h : ObjectsReady ident context) (objectId : UInt16)
    (hnodes : Ascending ident nodes) :
    ObjectsReady ident (context.setInstances objectId nodes) := by
  refine ⟨?_, ?_, ?_⟩
  · have hasc := h.ascending
    rw [Ascending, ← List.pairwise_map, ← setInstances_ids context objectId nodes,
      List.pairwise_map] at hasc
    exact hasc
  · intro object hmem
    simp only [ClientContext.setInstances, List.mem_map] at hmem
    obtain ⟨before, hbefore, rfl⟩ := hmem
    by_cases hid : before.objID = objectId
    · simpa only [hid, if_true] using hnodes
    · simpa only [hid, if_false] using h.instances before hbefore
  · intro object hmem
    simp only [ClientContext.setInstances, List.mem_map] at hmem
    obtain ⟨before, hbefore, rfl⟩ := hmem
    change LocalCallbacks ident
      (if before.objID = objectId then before.withInstances nodes else before)
    split
    · exact (h.callbacks before hbefore).withInstances nodes
    · exact h.callbacks before hbefore

end Wakaama
