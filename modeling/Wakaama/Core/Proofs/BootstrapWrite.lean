import Wakaama.Core.Bootstrap
import Wakaama.Core.Proofs.Instances

/-!
# What an object-level Bootstrap-Write stores

`object_createInstance` does not pass the id of the item to the application but the smallest
unused one, so an instance that the payload creates can land under another id. Seen from the
instances an application keeps, a payload answered 2.04 is a list of writes, each to an id
that depends on the ids present when its turn comes; what is stored is what was sent exactly
when those ids come out right.
-/

namespace Wakaama

variable {Node : Type} {ident : Node → UInt16} {resources : Node → List Lwm2mData}

/-- The resources an instance list holds under an id. -/
def storedUnder (ident : Node → UInt16) (resources : Node → List Lwm2mData) (nodes : List Node)
    (key : UInt16) : Option (List Lwm2mData) :=
  (lwm2mListFind ident key nodes).map resources

/-- The resources the client holds under `/objectId/instanceId`. -/
def heldAt (ident : Node → UInt16) (resources : Node → List Lwm2mData)
    (context : ClientContext Node) (objectId instanceId : UInt16) : Option (List Lwm2mData) :=
  (context.findObject objectId).bind fun object =>
    storedUnder ident resources object.instanceList instanceId

/-- The ids of an object's instances, in ascending order. -/
def instanceIds (ident : Node → UInt16) (context : ClientContext Node) (objectId : UInt16) :
    List UInt16 :=
  match context.findObject objectId with
  | none => []
  | some object => object.instanceList.map ident

/-- The callbacks create or replace the instance with the id they are given, and that one
only. -/
structure StoresInstances (ident : Node → UInt16) (resources : Node → List Lwm2mData)
    (object : Lwm2mObject Node) : Prop where
  create : ∀ create ∈ object.createFunc, ∀ key data nodes after result,
    Ascending ident nodes → create key data nodes = (after, result) →
    result = .created201 ∨ result = .changed204 →
    Ascending ident after ∧ ∀ other, storedUnder ident resources after other =
      if other = key then some data else storedUnder ident resources nodes other
  write : ∀ write ∈ object.writeFunc, ∀ key data nodes after result,
    Ascending ident nodes → write key data .replaceInstance nodes = (after, result) →
    result = .changed204 →
    Ascending ident after ∧ ∀ other, storedUnder ident resources after other =
      if other = key then some data else storedUnder ident resources nodes other

/-- The last item of the payload with the id. -/
def lastSent (items : List Lwm2mData) (key : UInt16) : Option Lwm2mData :=
  items.reverse.find? fun data => data.id == key

/-- What `after` holds is what was sent, the last item of an id counting, and what `before`
held under every other id. -/
def SentOver (items : List Lwm2mData) (before after : UInt16 → Option (List Lwm2mData)) : Prop :=
  ∀ key, after key =
    match lastSent items key with
    | some data => some data.children
    | none => before key

/-- The client holds the payload's items under their ids and the same as before everywhere
else. -/
def PayloadStored (ident : Node → UInt16) (resources : Node → List Lwm2mData)
    (objectId : UInt16) (items : List Lwm2mData) (before after : ClientContext Node) : Prop :=
  SentOver items (heldAt ident resources before objectId) (heldAt ident resources after objectId) ∧
    ∀ other, other ≠ objectId →
      heldAt ident resources after other = heldAt ident resources before other

/-- The id under which an item is stored, the ids in `present` being in use. -/
def landingId (present : List UInt16) (id : UInt16) : UInt16 :=
  if id ∈ present then id else lwm2mListNewId (fun key => key) present

/-- The ids in use after an item. -/
def presentAfter (present : List UInt16) (id : UInt16) : List UInt16 :=
  if id ∈ present then present
  else lwm2mListAdd (fun key => key) present (lwm2mListNewId (fun key => key) present)

/-- Walking the items, the id of each one is in use, or it is the smallest unused one, or both
it and the smallest unused one are written again by later items. -/
def ItemsLand (present : List UInt16) : List UInt16 → Prop
  | [] => True
  | id :: ids =>
    (id ∈ present ∨ id = lwm2mListNewId (fun key => key) present ∨
        id ∈ ids ∧ lwm2mListNewId (fun key => key) present ∈ ids) ∧
      ItemsLand (presentAfter present id) ids

instance ItemsLand.decidable : ∀ present ids, Decidable (ItemsLand present ids)
  | _, [] => isTrue trivial
  | present, id :: ids =>
    have := ItemsLand.decidable (presentAfter present id) ids
    inferInstanceAs (Decidable (_ ∧ _))

/-- The items carry different ids, or those with different ids carry different resources. -/
def ItemsDiffer (items : List Lwm2mData) : Prop :=
  (items.map Lwm2mData.id).Nodup ∨
    ∀ a ∈ items, ∀ b ∈ items, a.id ≠ b.id → a.children ≠ b.children

def placed (present : List UInt16) (held : UInt16 → Option (List Lwm2mData)) :
    List Lwm2mData → UInt16 → Option (List Lwm2mData)
  | [] => held
  | data :: items =>
    placed (presentAfter present data.id)
      (Function.update held (landingId present data.id) (some data.children)) items

/-! ## The last item of an id -/

theorem lastSent_cons (data : Lwm2mData) (items : List Lwm2mData) (key : UInt16) :
    lastSent (data :: items) key =
      (lastSent items key).or (if data.id = key then some data else none) := by
  by_cases hkey : data.id = key <;> simp [lastSent, List.find?_append, hkey]

variable {key id objectId : UInt16} {items data : List Lwm2mData}
  {after : UInt16 → Option (List Lwm2mData)} {context context' : ClientContext Node}

theorem lastSent_eq_none_iff : lastSent items key = none ↔ key ∉ items.map Lwm2mData.id := by
  simp [lastSent, List.find?_eq_none]

theorem sentOver_cons {data : Lwm2mData} :
    SentOver (data :: items) held after ↔
      SentOver items (Function.update held data.id (some data.children)) after := by
  refine forall_congr' fun key => ?_
  rw [lastSent_cons]
  cases hlast : lastSent items key with
  | some last => simp
  | none =>
    by_cases hkey : data.id = key
    · simp [hkey]
    · simp [hkey, Function.update_of_ne (Ne.symm hkey)]

theorem sentOver_congr {held' : UInt16 → Option (List Lwm2mData)}
    (h : ∀ key, key ∉ items.map Lwm2mData.id → held key = held' key) :
    SentOver items held after ↔ SentOver items held' after := by
  refine forall_congr' fun key => ?_
  cases hlast : lastSent items key with
  | some last => simp
  | none => simp [h key (lastSent_eq_none_iff.mp hlast)]

theorem sentOver_isSome (h : SentOver items held after) (hkey : key ∈ items.map Lwm2mData.id) :
    after key ≠ none := by
  rw [h key]
  cases hlast : lastSent items key with
  | some last => simp
  | none => exact absurd hkey (lastSent_eq_none_iff.mp hlast)

/-! ## Writes to the ids that come out -/

/-- `present` lists the ids under which something is held. -/
structure Lists (present : List UInt16) (held : UInt16 → Option (List Lwm2mData)) : Prop where
  ascending : Ascending (fun key => key) present
  mem_iff : ∀ key, key ∈ present ↔ held key ≠ none

variable {present : List UInt16} {held : UInt16 → Option (List Lwm2mData)}

theorem Lists.newId_notMem (h : Lists present held) (hid : id ∉ present) :
    lwm2mListNewId (fun key => key) present ∉ present := by
  intro hmem
  exact lwm2mListNewId_fresh h.ascending ⟨id, fun b hb hEq => hid (hEq ▸ hb)⟩ _ hmem rfl

theorem mem_presentAfter :
    key ∈ presentAfter present id ↔ key ∈ present ∨ key = landingId present id := by
  by_cases hid : id ∈ present
  · simp only [presentAfter, landingId, if_pos hid]
    exact ⟨Or.inl, fun h => h.elim (fun h => h) fun h => h ▸ hid⟩
  · simp only [presentAfter, landingId, if_neg hid, (lwm2mListAdd_perm _ _).mem_iff,
      List.mem_cons]
    exact or_comm

theorem Lists.presentAfter (h : Lists present held) (id : UInt16) (data : List Lwm2mData) :
    Lists (presentAfter present id) (Function.update held (landingId present id) (some data)) where
  ascending := by
    by_cases hid : id ∈ present
    · simpa only [Wakaama.presentAfter, if_pos hid] using h.ascending
    · simp only [Wakaama.presentAfter, if_neg hid]
      exact lwm2mListAdd_ascending h.ascending fun b hb hEq => h.newId_notMem hid (hEq ▸ hb)
  mem_iff key := by
    rw [mem_presentAfter]
    by_cases hkey : key = landingId present id
    · subst hkey
      simp
    · simp [hkey, h.mem_iff key]

theorem placed_sentOver (h : Lists present held)
    (hland : ItemsLand present (items.map Lwm2mData.id)) :
    SentOver items held (placed present held items) := by
  induction items generalizing present held with
  | nil => exact fun key => rfl
  | cons data items ih =>
    obtain ⟨hhead, hrest⟩ := hland
    have hstored := ih (h.presentAfter data.id data.children) hrest
    by_cases hown : landingId present data.id = data.id
    · rw [hown] at hstored
      simpa only [placed, hown] using sentOver_cons.mpr hstored
    · -- the item went elsewhere, and both ids are written again
      have hid : data.id ∉ present := fun hid => hown (if_pos hid)
      have hnew : landingId present data.id = lwm2mListNewId (fun key => key) present :=
        if_neg hid
      rcases hhead with hmem | heq | ⟨hagain, hnewAgain⟩
      · exact absurd hmem hid
      · exact absurd (hnew.trans heq.symm) hown
      · refine sentOver_cons.mpr ((sentOver_congr fun key hkey => ?_).mp hstored)
        have h1 : key ≠ data.id := fun heq => hkey (heq ▸ hagain)
        have h2 : key ≠ landingId present data.id := fun heq => hkey (heq ▸ hnew ▸ hnewAgain)
        simp [Function.update_of_ne h1, Function.update_of_ne h2]

theorem placed_ne (hheld : held key ≠ some data) (hitems : ∀ item ∈ items, item.children ≠ data) :
    placed present held items key ≠ some data := by
  induction items generalizing present held with
  | nil => exact hheld
  | cons item items ih =>
    refine ih ?_ fun other hother => hitems other (List.mem_cons_of_mem _ hother)
    by_cases hkey : key = landingId present item.id
    · subst hkey
      simpa using hitems item (by simp)
    · simpa [Function.update_of_ne hkey] using hheld

theorem placed_isSome (hheld : held key ≠ none) : placed present held items key ≠ none := by
  induction items generalizing present held with
  | nil => exact hheld
  | cons item items ih =>
    refine ih ?_
    by_cases hkey : key = landingId present item.id
    · subst hkey
      simp
    · simpa [Function.update_of_ne hkey] using hheld

theorem itemsLand_of_nodup (h : Lists present held) (hnodup : (items.map Lwm2mData.id).Nodup)
    (hall : ∀ item ∈ items, placed present held items item.id ≠ none) :
    ItemsLand present (items.map Lwm2mData.id) ∧
      ∀ key, key ∉ items.map Lwm2mData.id → placed present held items key = held key := by
  induction items generalizing present held with
  | nil => exact ⟨trivial, fun _ _ => rfl⟩
  | cons data items ih =>
    obtain ⟨hfirst, hrest⟩ := List.nodup_cons.mp hnodup
    obtain ⟨hland, hkeep⟩ := ih (h.presentAfter data.id data.children) hrest
      fun item hitem => hall item (List.mem_cons_of_mem _ hitem)
    have hown : landingId present data.id = data.id := by
      by_contra hne
      have hsome := hall data (by simp)
      simp only [placed, hkeep data.id hfirst, Function.update_of_ne (Ne.symm hne)] at hsome
      exact hne (if_pos ((h.mem_iff data.id).mpr hsome))
    refine ⟨⟨?_, hland⟩, fun key hkey => ?_⟩
    · by_cases hid : data.id ∈ present
      · exact Or.inl hid
      · exact Or.inr (Or.inl (hown.symm.trans (if_neg hid)))
    · simp only [List.map_cons, List.mem_cons, not_or] at hkey
      rw [placed, hkeep key hkey.2, hown, Function.update_of_ne hkey.1]

theorem itemsLand_of_sentOver (h : Lists present held) (hdiffer : ItemsDiffer items)
    (hstored : SentOver items held (placed present held items)) :
    ItemsLand present (items.map Lwm2mData.id) := by
  rcases hdiffer with hnodup | hdiffer
  · exact (itemsLand_of_nodup h hnodup fun item hitem =>
      sentOver_isSome hstored (List.mem_map_of_mem hitem)).1
  · induction items generalizing present held with
    | nil => trivial
    | cons data items ih =>
      have hlists := h.presentAfter data.id data.children
      have hrest : ∀ a ∈ items, ∀ b ∈ items, a.id ≠ b.id → a.children ≠ b.children :=
        fun a ha b hb => hdiffer a (List.mem_cons_of_mem _ ha) b (List.mem_cons_of_mem _ hb)
      by_cases hown : landingId present data.id = data.id
      · have hhead : data.id ∈ present ∨ data.id = lwm2mListNewId (fun key => key) present := by
          by_cases hid : data.id ∈ present
          · exact Or.inl hid
          · exact Or.inr (hown.symm.trans (if_neg hid))
        refine ⟨hhead.imp_right Or.inl, ih hlists ?_ hrest⟩
        rw [sentOver_cons] at hstored
        simpa only [placed, hown] using hstored
      · have hid : data.id ∉ present := fun hid => hown (if_pos hid)
        have hnew : landingId present data.id = lwm2mListNewId (fun key => key) present :=
          if_neg hid
        have hfresh : landingId present data.id ∉ present := hnew ▸ h.newId_notMem hid
        have hnone : ∀ key, key ∉ present → held key = none := fun key hkey =>
          not_not.mp fun hsome => hkey ((h.mem_iff key).mpr hsome)
        -- the id it got is in use from now on, so the payload must have named it
        have hnewAgain : landingId present data.id ∈ items.map Lwm2mData.id := by
          by_contra habsent
          have hlast := hstored (landingId present data.id)
          rw [lastSent_cons, lastSent_eq_none_iff.mpr habsent, if_neg (Ne.symm hown)] at hlast
          have hsome : Function.update held (landingId present data.id) (some data.children)
              (landingId present data.id) ≠ none := by simp
          exact placed_isSome hsome (hlast.trans (hnone _ hfresh))
        -- nobody else carries the item's resources, so its id must be sent again
        have hagain : data.id ∈ items.map Lwm2mData.id := by
          by_contra habsent
          have hlast := hstored data.id
          rw [lastSent_cons, lastSent_eq_none_iff.mpr habsent, if_pos rfl] at hlast
          have hheld : Function.update held (landingId present data.id) (some data.children)
              data.id ≠ some data.children := by
            simp [Function.update_of_ne (Ne.symm hown), hnone _ hid]
          have hothers : ∀ item ∈ items, item.children ≠ data.children := fun item hitem =>
            hdiffer item (List.mem_cons_of_mem _ hitem) data (by simp)
              fun hEqId => habsent (hEqId ▸ List.mem_map_of_mem hitem)
          exact placed_ne hheld hothers hlast
        refine ⟨Or.inr (Or.inr ⟨hagain, hnew ▸ hnewAgain⟩), ih hlists ?_ hrest⟩
        refine (sentOver_congr fun key hkey => ?_).mp (sentOver_cons.mp hstored)
        have h1 : key ≠ data.id := fun heq => hkey (heq ▸ hagain)
        have h2 : key ≠ landingId present data.id := fun heq => hkey (heq ▸ hnewAgain)
        simp [Function.update_of_ne h1, Function.update_of_ne h2]

/-! ## From the application's instances to the writes -/

theorem storedUnder_ne_none_iff {nodes : List Node} (hasc : Ascending ident nodes) :
    storedUnder ident resources nodes key ≠ none ↔ key ∈ nodes.map ident := by
  rw [storedUnder, ne_eq, Option.map_eq_none_iff, lwm2mListFind_eq_none_iff hasc]
  simp

theorem newIdFrom_map (nodes : List Node) (candidate : UInt16) :
    newIdFrom (fun key => key) candidate (nodes.map ident) = newIdFrom ident candidate nodes := by
  induction nodes generalizing candidate with
  | nil => rfl
  | cons node nodes ih => simp [newIdFrom, ih]

theorem ascending_ext {ids ids' : List UInt16} (h : Ascending (fun key => key) ids)
    (h' : Ascending (fun key => key) ids') (hmem : ∀ key, key ∈ ids ↔ key ∈ ids') :
    ids = ids' := by
  have hne : ∀ {a b : UInt16}, a < b → a ≠ b := by
    rintro a _ hlt rfl
    exact uint16_lt_irrefl a hlt
  have hperm : ids.Perm ids' :=
    (List.perm_ext_iff_of_nodup (h.imp hne) (h'.imp hne)).mpr hmem
  exact hperm.eq_of_pairwise (fun a b _ _ hab hba => absurd (UInt16.lt_trans hab hba) (uint16_lt_irrefl a)) h h'

theorem prvTagServer_objectList (context : ClientContext Node) (id : UInt16) :
    (prvTagServer context id).objectList = context.objectList := by
  simp only [prvTagServer]
  split
  · rfl
  · split <;> rfl

/-- The object's instances are in order and its callbacks do what they are for. -/
def ObjectReady (ident : Node → UInt16) (resources : Node → List Lwm2mData)
    (context : ClientContext Node) (objectId : UInt16) : Prop :=
  ∀ object ∈ context.findObject objectId,
    Ascending ident object.instanceList ∧ StoresInstances ident resources object

theorem heldAt_congr (h : context.objectList = context'.objectList) :
    heldAt ident resources context = heldAt ident resources context' := by
  funext objectId instanceId
  simp only [heldAt, ClientContext.findObject, h]

theorem ObjectReady.congr (hready : ObjectReady ident resources context objectId)
    (h : context.objectList = context'.objectList) :
    ObjectReady ident resources context' objectId := by
  simpa only [ObjectReady, ClientContext.findObject, h] using hready

theorem ObjectReady.lists (h : ObjectReady ident resources context objectId) :
    Lists (instanceIds ident context objectId) (heldAt ident resources context objectId) := by
  cases hfind : context.findObject objectId with
  | none => exact ⟨by simp [instanceIds, hfind, ascending_nil], by simp [instanceIds, heldAt, hfind]⟩
  | some object =>
    have hasc := (h object hfind).1
    refine ⟨?_, fun key => ?_⟩
    · simpa [instanceIds, hfind, Ascending, List.pairwise_map] using hasc
    · simp only [instanceIds, heldAt, hfind, Option.bind_some]
      exact (storedUnder_ne_none_iff hasc).symm

theorem setInstances_stored {object : Lwm2mObject Node} {nodes : List Node}
    (hready : ObjectReady ident resources context objectId)
    (hfind : context.findObject objectId = some object) (hasc : Ascending ident nodes)
    (hstored : ∀ other, storedUnder ident resources nodes other = if other = key then some data else storedUnder ident resources object.instanceList other) :
    ObjectReady ident resources (context.setInstances objectId nodes) objectId ∧
      heldAt ident resources (context.setInstances objectId nodes) objectId =
        Function.update (heldAt ident resources context objectId) key (some data) ∧
      ∀ other, other ≠ objectId → heldAt ident resources (context.setInstances objectId nodes) other =
        heldAt ident resources context other := by
  have hid : object.objID = objectId := lwm2mListFind_id hfind
  have hfind' : (context.setInstances objectId nodes).findObject objectId =
      some { object with instanceList := nodes } := by
    simp [lwm2mListFind_setInstances, hfind, hid]
  refine ⟨?_, ?_, fun other hother => ?_⟩
  · intro after hafter
    obtain rfl : { object with instanceList := nodes } = after := by
      simpa [hfind'] using hafter
    exact ⟨hasc, (hready object hfind).2.create, (hready object hfind).2.write⟩
  · funext other
    simp only [heldAt, hfind', hfind, Option.bind_some, hstored other, Function.update_apply]
  · funext instanceId
    simp only [heldAt, lwm2mListFind_setInstances]
    cases hfindOther : context.findObject other with
    | none => rfl
    | some object' =>
      have hne : object'.objID ≠ objectId := by rwa [lwm2mListFind_id hfindOther]
      simp [hne]

theorem bootstrapPutInstance_stored {data : Lwm2mData}
    (hready : ObjectReady ident resources context objectId)
    (h : bootstrapPutInstance ident objectId data context = (context', .changed204)) :
    ObjectReady ident resources context' objectId ∧
      heldAt ident resources context' objectId =
        Function.update (heldAt ident resources context objectId)
          (landingId (instanceIds ident context objectId) data.id) (some data.children) ∧
      ∀ other, other ≠ objectId →
        heldAt ident resources context' other = heldAt ident resources context other := by
  cases hfind : context.findObject objectId with
  | none => simp [bootstrapPutInstance, objectIsInstanceNew, objectCreateInstance, hfind] at h
  | some object =>
    obtain ⟨hasc, hcallbacks⟩ := hready object hfind
    have hids : instanceIds ident context objectId = object.instanceList.map ident := by
      simp [instanceIds, hfind]
    have hnew : objectIsInstanceNew ident context objectId data.id = true ↔
        data.id ∉ instanceIds ident context objectId := by
      simp [objectIsInstanceNew, hfind, hids, lwm2mListFind_eq_none_iff hasc]
    by_cases hid : data.id ∈ instanceIds ident context objectId
    · -- the instance exists and is replaced
      have hold : objectIsInstanceNew ident context objectId data.id = false := by
        simpa using fun h => hnew.mp h hid
      rw [landingId, if_pos hid]
      cases hwrite : object.writeFunc with
      | none => simp [bootstrapPutInstance, hold, objectWriteInstance, hfind, hwrite] at h
      | some write =>
        cases hcall : write data.id data.children .replaceInstance object.instanceList with
        | mk nodes result =>
          simp only [bootstrapPutInstance, hold, objectWriteInstance, hfind, hwrite, hcall,
            Bool.false_eq_true, if_false, Prod.mk.injEq] at h
          obtain ⟨hcontext, rfl⟩ := h
          obtain ⟨hasc', hstored⟩ := hcallbacks.write write (by simp [hwrite]) data.id
            data.children _ nodes _ hasc hcall rfl
          have hsame : (context.setInstances objectId nodes).objectList =
              context'.objectList := by
            rw [← hcontext]
            split
            · exact (prvTagServer_objectList _ _).symm
            · rfl
          obtain ⟨hready', hheld, hothers⟩ := setInstances_stored hready hfind hasc' hstored
          exact ⟨hready'.congr hsame, by rw [← heldAt_congr hsame, hheld], fun other hother => by
            rw [← heldAt_congr hsame, hothers other hother]⟩
    · -- the instance is new and is created under the id that the list chooses
      have hnew := hnew.mpr hid
      rw [landingId, if_neg hid]
      cases hcreate : object.createFunc with
      | none => simp [bootstrapPutInstance, hnew, objectCreateInstance, hfind, hcreate] at h
      | some create =>
        have hkey : lwm2mListNewId ident object.instanceList =
            lwm2mListNewId (fun key => key) (instanceIds ident context objectId) := by
          rw [hids, lwm2mListNewId, lwm2mListNewId, newIdFrom_map]
        cases hcall : create (lwm2mListNewId ident object.instanceList) data.children
            object.instanceList with
        | mk nodes result =>
          simp only [bootstrapPutInstance, hnew, objectCreateInstance, hfind, hcreate, hcall,
            if_true, Prod.mk.injEq] at h
          obtain ⟨rfl, hresult⟩ := h
          have hok : result = .created201 ∨ result = .changed204 := by
            by_cases hc : result = .created201
            · exact Or.inl hc
            · exact Or.inr (by simpa [hc] using hresult)
          obtain ⟨hasc', hstored⟩ := hcallbacks.create create (by simp [hcreate]) _
            data.children _ nodes _ hasc hcall hok
          rw [hkey] at hstored
          exact setInstances_stored hready hfind hasc' hstored

theorem instanceIds_presentAfter (hready : ObjectReady ident resources context objectId)
    (hready' : ObjectReady ident resources context' objectId)
    (hheld : heldAt ident resources context' objectId = Function.update (heldAt ident resources context objectId) (landingId (instanceIds ident context objectId) id) (some data)) :
    instanceIds ident context' objectId =
      presentAfter (instanceIds ident context objectId) id := by
  have hafter := hready.lists.presentAfter id data
  refine ascending_ext hready'.lists.ascending hafter.ascending fun key => ?_
  rw [hready'.lists.mem_iff, hafter.mem_iff, hheld]

theorem bootstrapPutItems_placed (hinstances : ∀ data ∈ items, data.type = .objectInstance) :
    ∀ {context context' : ClientContext Node} {result : CoapCode},
      ObjectReady ident resources context objectId →
      bootstrapPutItems ident objectId items result context = (context', .changed204) →
      heldAt ident resources context' objectId =
          placed (instanceIds ident context objectId)
            (heldAt ident resources context objectId) items ∧
        ∀ other, other ≠ objectId →
          heldAt ident resources context' other = heldAt ident resources context other := by
  induction items with
  | nil =>
    intro context context' result _ h
    simp only [bootstrapPutItems, Prod.mk.injEq] at h
    obtain ⟨rfl, -⟩ := h
    exact ⟨rfl, fun _ _ => rfl⟩
  | cons data items ih =>
    intro context context' result hready h
    cases hput : bootstrapPutInstance ident objectId data context with
    | mk next answer =>
      simp only [bootstrapPutItems, hinstances data (by simp), if_true, hput] at h
      by_cases hanswer : answer = .changed204
      · subst hanswer
        simp only [ne_eq, not_true_eq_false, if_false] at h
        obtain ⟨hready', hheld, hothers⟩ := bootstrapPutInstance_stored hready hput
        obtain ⟨hplaced, hothers'⟩ :=
          ih (fun d hd => hinstances d (List.mem_cons_of_mem _ hd)) hready' h
        rw [instanceIds_presentAfter hready hready' hheld, hheld] at hplaced
        exact ⟨hplaced, fun other hother => (hothers' other hother).trans (hothers other hother)⟩
      · simp [hanswer] at h

theorem bootstrapHandleCommandPutObject_inv {now : Int} {parse : List UInt8 → Int × List Lwm2mData}
    {payload : List UInt8} {server : Lwm2mServer}
    (h : bootstrapHandleCommandPutObject ident now objectId parse payload server context = (context', .changed204)) :
    ∃ started after : ClientContext Node, started.objectList = context.objectList ∧
      after.objectList = context'.objectList ∧
      bootstrapPutObject ident objectId parse payload started = (after, .changed204) := by
  simp only [bootstrapHandleCommandPutObject] at h
  split at h
  · rename_i hne
    have hchecked : (prvCheckServerStatus now server).2 = .changed204 := (Prod.mk.inj h).2
    unfold prvCheckServerStatus at hchecked
    split at hchecked <;> simp at hchecked
  · cases hput : bootstrapPutObject ident objectId parse payload { context with
        bootstrapServerList := replaceServer (prvCheckServerStatus now server).1
          context.bootstrapServerList } with
    | mk after result =>
      rw [hput] at h
      have hobjects : after.objectList = context'.objectList := by
        split at h <;> rw [← (Prod.mk.inj h).1]
      have hresult : result = .changed204 := by
        split at h <;> exact (Prod.mk.inj h).2
      subst hresult
      exact ⟨_, after, by rfl, hobjects, hput⟩

/-- An object-level Bootstrap-Write answered 2.04 has stored what was sent as soon as the ids
come out right, and, of items that differ, only then. -/
theorem bootstrapWrite_stored_iff {now : Int} {objectId : UInt16}
    {parse : List UInt8 → Int × List Lwm2mData} {payload : List UInt8} {server : Lwm2mServer}
    {context context' : ClientContext Node} {items : List Lwm2mData}
    (hready : ObjectReady ident resources context objectId)
    (hparse : parse payload = ((items.length : Int), items)) (hitems : items ≠ [])
    (hinstances : ∀ data ∈ items, data.type = .objectInstance)
    (hanswer : bootstrapHandleCommandPutObject ident now objectId parse payload server context =
      (context', .changed204)) :
    (ItemsLand (instanceIds ident context objectId) (items.map Lwm2mData.id) →
      PayloadStored ident resources objectId items context context') ∧
    (ItemsDiffer items → PayloadStored ident resources objectId items context context' →
      ItemsLand (instanceIds ident context objectId) (items.map Lwm2mData.id)) := by
  obtain ⟨started, after, hstarted, hafter, hput⟩ := bootstrapHandleCommandPutObject_inv hanswer
  have hsize : ¬ ((items.length : Int) = 0) := by simpa using hitems
  by_cases hpayload : payload = []
  · simp [bootstrapPutObject, hpayload] at hput
  simp only [bootstrapPutObject, if_neg hpayload, hparse, if_neg hsize, Int.toNat_natCast,
    List.take_length] at hput
  obtain ⟨hplaced, hothers⟩ :=
    bootstrapPutItems_placed hinstances (hready.congr hstarted.symm) hput
  have hids : instanceIds ident started objectId = instanceIds ident context objectId := by
    simp only [instanceIds, ClientContext.findObject, hstarted]
  rw [heldAt_congr hafter, heldAt_congr hstarted, hids] at hplaced
  rw [heldAt_congr hafter, heldAt_congr hstarted] at hothers
  constructor
  · intro hland
    exact ⟨hplaced ▸ placed_sentOver hready.lists hland, hothers⟩
  · intro hdiffer hstored
    exact itemsLand_of_sentOver hready.lists hdiffer (hplaced ▸ hstored.1)

/-! ## One application -/

/-- An application that keeps the resources of each instance as they come, and every callback
of which succeeds. -/
def plainObject (objID : UInt16) (instanceList : List (UInt16 × List Lwm2mData)) :
    Lwm2mObject (UInt16 × List Lwm2mData) where
  objID := objID
  versionMajor := 1
  versionMinor := 0
  instanceList := instanceList
  writeFunc := some fun key data _ nodes =>
    (lwm2mListAdd Prod.fst (lwm2mListRemove Prod.fst key nodes).1 (key, data), .changed204)
  createFunc := some fun key data nodes =>
    (lwm2mListAdd Prod.fst (lwm2mListRemove Prod.fst key nodes).1 (key, data), .created201)

theorem storedUnder_plain {nodes : List (UInt16 × List Lwm2mData)}
    (hasc : Ascending Prod.fst nodes) (key : UInt16) (data : List Lwm2mData) (other : UInt16) :
    storedUnder Prod.fst Prod.snd
        (lwm2mListAdd Prod.fst (lwm2mListRemove Prod.fst key nodes).1 (key, data)) other =
      if other = key then some data else storedUnder Prod.fst Prod.snd nodes other := by
  rw [storedUnder, (lwm2mListAdd_remove hasc (key, data)).2 other]
  split <;> rfl

theorem plainObject_storesInstances (objID : UInt16)
    (instanceList : List (UInt16 × List Lwm2mData)) :
    StoresInstances Prod.fst Prod.snd (plainObject objID instanceList) where
  create := by
    rintro _ ⟨⟩ key data nodes after result hasc hcall -
    obtain ⟨rfl, -⟩ := Prod.mk.inj hcall
    exact ⟨(lwm2mListAdd_remove hasc (key, data)).1, storedUnder_plain hasc key data⟩
  write := by
    rintro _ ⟨⟩ key data nodes after result hasc hcall -
    obtain ⟨rfl, -⟩ := Prod.mk.inj hcall
    exact ⟨(lwm2mListAdd_remove hasc (key, data)).1, storedUnder_plain hasc key data⟩

/-- A client in the middle of a bootstrap, whose only object is a plain one. -/
def plainClient (objID : UInt16) (instanceList : List (UInt16 × List Lwm2mData)) :
    ClientContext (UInt16 × List Lwm2mData) where
  state := .bootstrapping
  bootstrapServerList := []
  serverList := []
  objectList := [plainObject objID instanceList]

theorem plainClient_ready {objID : UInt16} {instanceList : List (UInt16 × List Lwm2mData)}
    (hasc : Ascending Prod.fst instanceList) :
    ObjectReady Prod.fst Prod.snd (plainClient objID instanceList) objID := by
  intro object hobject
  obtain rfl : plainObject objID instanceList = object := by
    simpa [plainClient, ClientContext.findObject, lwm2mListFind, plainObject] using hobject
  exact ⟨hasc, plainObject_storesInstances objID instanceList⟩

/-- The items of the payloads below: an object instance with one integer resource. -/
def instanceItem (id : UInt16) (value : Int64) : Lwm2mData :=
  .node .objectInstance id (.asChildren [.node .integer 0 (.asInteger value)])

/-- The bootstrap server the payloads come from. -/
def bootstrapServer : Lwm2mServer where
  secObjInstID := 0
  shortID := 0
  lifetime := 0
  registration := 0
  sessionH := some 1
  status := .bsPending
  dirty := false

/-- Instance 1 replaced and instance 0 created, in an object that has instance 1. -/
theorem bootstrapWrite_two_items :
    let items := [instanceItem 1 7, instanceItem 0 5]
    let out := bootstrapHandleCommandPutObject Prod.fst 100 3 (fun _ => (2, items)) [0]
      bootstrapServer (plainClient 3 [(1, [])])
    out.2 = .changed204 ∧
      PayloadStored Prod.fst Prod.snd 3 items (plainClient 3 [(1, [])]) out.1 := by
  intro items out
  have hanswer : bootstrapHandleCommandPutObject Prod.fst 100 3 (fun _ => (2, items)) [0]
      bootstrapServer (plainClient 3 [(1, [])]) = (out.1, .changed204) := rfl
  have hready : ObjectReady Prod.fst Prod.snd (plainClient 3 [(1, [])]) 3 :=
    plainClient_ready (ascending_cons.mpr ⟨by simp, ascending_nil⟩)
  refine ⟨rfl, (bootstrapWrite_stored_iff hready rfl (by simp [items]) ?_ hanswer).1 ?_⟩
  · simp [items, instanceItem, Lwm2mData.type]
  · decide

/-- Instance 5 sent to an object without instances: the answer is 2.04, the object has no
instance 5. -/
theorem bootstrapWrite_other_id :
    let items := [instanceItem 5 7]
    let out := bootstrapHandleCommandPutObject Prod.fst 100 3 (fun _ => (1, items)) [0]
      bootstrapServer (plainClient 3 [])
    ObjectReady Prod.fst Prod.snd (plainClient 3 []) 3 ∧ out.2 = .changed204 ∧
      heldAt Prod.fst Prod.snd out.1 3 5 = none ∧
      ¬ PayloadStored Prod.fst Prod.snd 3 items (plainClient 3 []) out.1 := by
  have hnone : heldAt Prod.fst Prod.snd (bootstrapHandleCommandPutObject Prod.fst 100 3
      (fun _ => (1, [instanceItem 5 7])) [0] bootstrapServer (plainClient 3 [])).1 3 5 = none := by
    rfl
  refine ⟨plainClient_ready ascending_nil, rfl, hnone, fun hstored => ?_⟩
  exact sentOver_isSome hstored.1 (by decide) hnone

end Wakaama
