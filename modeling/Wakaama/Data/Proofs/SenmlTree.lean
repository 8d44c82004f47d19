import Mathlib
import Wakaama.Data.SenmlCommon

/-!
# Placing a record in a data tree

The tree that `prv_convertRecord` builds is seen through its paths: what is found by following
ids from the root. `place` is one round of its loop as a recursion over the path of a record.
-/

namespace Wakaama

/-- What a leaf of the tree reads as: all-zero unions read alike in every arm. -/
def DataValue.plain {α : Type} : DataValue α → DataValue α
  | .zero => .zero
  | .asChildren _ => .zero
  | .asBoolean value => if value = false then .zero else .asBoolean value
  | .asInteger value => if value = 0 then .zero else .asInteger value
  | .asUnsigned value => if value = 0 then .zero else .asUnsigned value
  | .asFloat bits => if bits = 0 then .zero else .asFloat bits
  | .asBuffer buffer => if buffer = [] then .zero else .asBuffer buffer
  | .asObjLink objectId instanceId =>
    if objectId = 0 ∧ instanceId = 0 then .zero else .asObjLink objectId instanceId

/-- The type of a node and its value. -/
abbrev NodeInfo : Type := DataType × DataValue Lwm2mData

def Lwm2mData.info (data : Lwm2mData) : NodeInfo := (data.type, data.value.plain)

/-- The item of an array with an id. -/
def itemAt (array : List Lwm2mData) (id : UInt16) : Option Lwm2mData :=
  array.find? fun data => data.id == id

/-- The node at a path. -/
def infoAt : List UInt16 → List Lwm2mData → Option NodeInfo
  | [], _ => none
  | id :: rest, array =>
    match itemAt array id with
    | none => none
    | some data => if rest = [] then some data.info else infoAt rest data.children

mutual

def UniqueBelow : Lwm2mData → Prop
  | .node _ _ value => UniqueInside value

def UniqueInside : DataValue Lwm2mData → Prop
  | .asChildren array => SiblingsUnique array
  | _ => True

/-- Sibling ids are unique at every level. -/
def SiblingsUnique : List Lwm2mData → Prop
  | [] => True
  | data :: rest => (∀ other ∈ rest, other.id ≠ data.id) ∧ UniqueBelow data ∧ SiblingsUnique rest

end

theorem uniqueBelow_iff (data : Lwm2mData) : UniqueBelow data ↔ SiblingsUnique data.children := by
  cases data with
  | node type id value =>
    rw [UniqueBelow]
    cases value <;> simp [UniqueInside, Lwm2mData.children, Lwm2mData.value, SiblingsUnique]

theorem siblingsUnique_iff (array : List Lwm2mData) :
    SiblingsUnique array ↔
      (array.map Lwm2mData.id).Nodup ∧ ∀ data ∈ array, SiblingsUnique data.children := by
  induction array with
  | nil => simp [SiblingsUnique]
  | cons data rest ih =>
    rw [SiblingsUnique, uniqueBelow_iff, ih, List.map_cons, List.nodup_cons, List.forall_mem_cons]
    have hids : (∀ other ∈ rest, other.id ≠ data.id) ↔ data.id ∉ rest.map Lwm2mData.id := by
      simp
    rw [hids]
    tauto

@[simp] theorem itemAt_nil (id : UInt16) : itemAt [] id = none := rfl

variable {array before after array' : List Lwm2mData} {id : UInt16} {data new : Lwm2mData}
  {rest path : List UInt16} {record : NodeInfo} {depth : Nat}

theorem itemAt_eq_none : itemAt array id = none ↔ ∀ data ∈ array, data.id ≠ id := by
  simp [itemAt]

theorem itemAt_some (h : itemAt array id = some data) : data ∈ array ∧ data.id = id :=
  ⟨List.mem_of_find?_eq_some h, by simpa using List.find?_some h⟩

theorem itemAt_middle (hnodup : ((before ++ data :: after).map Lwm2mData.id).Nodup) (id : UInt16) :
    itemAt (before ++ data :: after) id =
      if id = data.id then some data else itemAt (before ++ after) id := by
  have hbefore : ∀ x ∈ before, x.id ≠ data.id := by
    rw [List.map_append, List.map_cons] at hnodup
    intro x hx heq
    exact List.disjoint_of_nodup_append hnodup (List.mem_map_of_mem hx) (by simp [heq])
  unfold itemAt
  rw [List.find?_append, List.find?_append, List.find?_cons]
  by_cases hid : id = data.id
  · have hnone : before.find? (fun x => x.id == id) = none := by
      rw [List.find?_eq_none]
      intro x hx
      simpa [hid] using hbefore x hx
    rw [hnone]
    simp [hid]
  · have hne : (data.id == id) = false := by simpa using fun h => hid h.symm
    simp [hne, hid]

theorem itemAt_append_singleton (array : List Lwm2mData) (data : Lwm2mData) (id : UInt16) :
    itemAt (array ++ [data]) id =
      (itemAt array id).or (if id = data.id then some data else none) := by
  unfold itemAt
  rw [List.find?_append]
  congr 1
  by_cases h : id = data.id
  · simp [h]
  · have hne : (data.id == id) = false := by simpa using fun heq => h heq.symm
    simp [hne, h]

theorem withItem_cases (array : List Lwm2mData) (id : UInt16) (type : DataType)
    (f : Lwm2mData → Conversion Lwm2mData) :
    (∃ before data after, array = before ++ data :: after ∧ data.type ≠ .undefined ∧
      data.id = id ∧
      withItem array id type f = (f data).map fun data => before ++ data :: after) ∨
    ((∀ data ∈ array, data.type = .undefined ∨ data.id ≠ id) ∧
      withItem array id type f = (f (.node type id .zero)).map fun data => array ++ [data]) := by
  unfold withItem
  cases hsplit : splitFirst (fun data => data.type != .undefined && data.id == id) array with
  | some found =>
    obtain ⟨before, data, after⟩ := found
    have hfound := splitFirst_some hsplit
    refine Or.inl ⟨before, data, after, hfound.1, ?_, ?_, rfl⟩
    · have h := hfound.2.1
      simp at h
      exact h.1
    · have h := hfound.2.1
      simp at h
      exact h.2
  | none =>
    refine Or.inr ⟨?_, rfl⟩
    intro data hdata
    have h := splitFirst_none hsplit data hdata
    simp at h
    by_cases htype : data.type = .undefined
    · exact Or.inl htype
    · exact Or.inr (h htype)

def levelType (depth : Nat) (id : UInt16) : DataType :=
  if depth = 0 then if id ≠ lwm2mMaxId then .object else .undefined
  else if depth = 1 then .objectInstance
  else .undefined

/-- The types that a record on its way to a deeper node passes at a depth. -/
def Opens (depth : Nat) (type : DataType) : Prop :=
  type.hasChildren ∨ depth = 2 ∧ type = .undefined

instance (depth : Nat) (type : DataType) : Decidable (Opens depth type) :=
  inferInstanceAs (Decidable (_ ∨ _))

def passType (depth : Nat) (type : DataType) : DataType :=
  if depth = 2 then .multipleResource else type

def landOn (record : NodeInfo) (data : Lwm2mData) : Lwm2mData :=
  .node (if record.1 = .undefined then data.type else record.1) data.id record.2

/-- One round of the loop of `prv_convertRecord`, for a record with a path. -/
def place (record : NodeInfo) : Nat → List UInt16 → List Lwm2mData → Conversion (List Lwm2mData)
  | _, [], array => return array
  | depth, id :: rest, array =>
    if depth = 3 then return array ++ [landOn record (.node .undefined id .zero)]
    else
      withItem array id (levelType depth id) fun data =>
        if rest = [] then return landOn record data
        else if Opens depth data.type then do
          let children ← place record (depth + 1) rest data.children
          return .node (passType depth data.type) data.id (.asChildren children)
        else throw (some .wrongArm)

def baseType : Nat → List UInt16 → DataType
  | _, [] => .undefined
  | depth, id :: rest => if rest = [] then levelType depth id else baseType (depth + 1) rest

/-- The path of a record is free: it leads through nodes that may have children, and ends where
there is nothing, or at a leaf that can be found again. -/
def Free : Nat → List UInt16 → List Lwm2mData → Prop
  | _, [], _ => True
  | depth, id :: rest, array =>
    ∀ data, itemAt array id = some data →
      depth < 3 ∧ data.type ≠ .undefined ∧
        if rest = [] then data.children = []
        else data.type.hasChildren ∧ Free (depth + 1) rest data.children

def placedInfo (record : NodeInfo) (depth : Nat) (path : List UInt16)
    (before : List UInt16 → Option NodeInfo) (q : List UInt16) : Option NodeInfo :=
  if q = path then
    some (if record.1 = .undefined then (before q).elim (baseType depth q) Prod.fst else record.1,
      record.2.plain)
  else if q ≠ [] ∧ q <+: path then
    some (passType (depth + q.length - 1) ((before q).elim (baseType depth q) Prod.fst), .zero)
  else before q

theorem infoAt_cons (id : UInt16) (rest : List UInt16) (array : List Lwm2mData) :
    infoAt (id :: rest) array =
      match itemAt array id with
      | none => none
      | some data => if rest = [] then some data.info else infoAt rest data.children := rfl

theorem infoAt_of_some (h : itemAt array id = some data) (hrest : rest ≠ []) :
    infoAt (id :: rest) array = infoAt rest data.children := by
  rw [infoAt_cons, h]
  exact if_neg hrest

theorem infoAt_nil (q : List UInt16) : infoAt q [] = none := by
  cases q with
  | nil => rfl
  | cons id rest => rw [infoAt_cons, itemAt_nil]

@[simp] theorem landOn_children (hrecord : ∀ array, record.2 ≠ .asChildren array)
    (data : Lwm2mData) : (landOn record data).children = [] := by
  unfold landOn Lwm2mData.children Lwm2mData.value
  cases hvalue : record.2 with
  | asChildren array => exact absurd hvalue (hrecord array)
  | _ => rfl

/-- The arrays before and after a round: one item has been replaced or appended. -/
structure Replaced (array array' : List Lwm2mData) (id : UInt16) (new : Lwm2mData) : Prop where
  at_id : itemAt array' id = some new
  at_other : ∀ j, j ≠ id → itemAt array' j = itemAt array j
  nodup : (array'.map Lwm2mData.id).Nodup
  mem : ∀ data ∈ array', data = new ∨ data ∈ array

theorem replaced_middle (hnodup : ((before ++ data :: after).map Lwm2mData.id).Nodup)
    (hid : new.id = data.id) :
    Replaced (before ++ data :: after) (before ++ new :: after) data.id new := by
  have hnodup' : ((before ++ new :: after).map Lwm2mData.id).Nodup := by
    simpa [hid] using hnodup
  refine ⟨?_, ?_, hnodup', ?_⟩
  · rw [itemAt_middle hnodup', if_pos hid.symm]
  · intro j hj
    rw [itemAt_middle hnodup', itemAt_middle hnodup, if_neg (by rwa [hid]), if_neg hj]
  · intro x hx
    simp only [List.mem_append, List.mem_cons] at hx ⊢
    tauto

theorem replaced_append (hnodup : (array.map Lwm2mData.id).Nodup)
    (hnone : itemAt array new.id = none) : Replaced array (array ++ [new]) new.id new := by
  refine ⟨?_, ?_, ?_, ?_⟩
  · rw [itemAt_append_singleton, hnone]
    simp
  · intro j hj
    rw [itemAt_append_singleton, if_neg hj, Option.or_none]
  · rw [List.map_append, List.nodup_append]
    refine ⟨hnodup, by simp, ?_⟩
    intro x hx y hy heq
    rcases List.mem_map.1 hx with ⟨data, hdata, rfl⟩
    have hy' : y = new.id := by simpa using hy
    exact itemAt_eq_none.1 hnone data hdata (heq.trans hy')
  · intro x hx
    simp only [List.mem_append, List.mem_singleton] at hx
    tauto

theorem Replaced.unique (h : Replaced array array' id new) (hunique : SiblingsUnique array)
    (hnew : SiblingsUnique new.children) : SiblingsUnique array' := by
  rw [siblingsUnique_iff] at hunique ⊢
  refine ⟨h.nodup, ?_⟩
  intro data hdata
  rcases h.mem data hdata with rfl | hold
  · exact hnew
  · exact hunique.2 data hold

theorem Replaced.infoAt (h : Replaced array array' id new) (j : UInt16) (rest : List UInt16) :
    infoAt (j :: rest) array' =
      if j = id then if rest = [] then some new.info else infoAt rest new.children
      else infoAt (j :: rest) array := by
  rw [infoAt_cons, infoAt_cons]
  by_cases hj : j = id
  · rw [if_pos hj, hj, h.at_id]
  · rw [if_neg hj, h.at_other j hj]

theorem withItem_replaced (type : DataType) (f : Lwm2mData → Conversion Lwm2mData)
    (hnodup : (array.map Lwm2mData.id).Nodup)
    (hfound : ∀ data, itemAt array id = some data → data.type ≠ .undefined) :
    ∃ data wrap, data.id = id ∧
      (itemAt array id = some data ∨ itemAt array id = none ∧ data = .node type id .zero) ∧
      withItem array id type f = (f data).map wrap ∧
      ∀ new : Lwm2mData, new.id = id → Replaced array (wrap new) id new := by
  rcases withItem_cases array id type f with
    ⟨before, data, after, rfl, htype, rfl, hwith⟩ | ⟨hnone, hwith⟩
  · refine ⟨data, fun new => before ++ new :: after, rfl, Or.inl ?_, hwith, ?_⟩
    · rw [itemAt_middle hnodup, if_pos rfl]
    · intro new hnew
      exact replaced_middle hnodup hnew
  · have hitem : itemAt array id = none := by
      cases hitem : itemAt array id with
      | none => rfl
      | some data =>
        have hmem := itemAt_some hitem
        rcases hnone data hmem.1 with htype | hid
        · exact absurd htype (hfound data hitem)
        · exact absurd hmem.2 hid
    refine ⟨.node type id .zero, fun new => array ++ [new], rfl, Or.inr ⟨hitem, rfl⟩, hwith, ?_⟩
    intro new hnew
    rw [← hnew] at hitem ⊢
    exact replaced_append hnodup hitem

theorem opens_levelType (hdepth : depth < 3) (hid : id ≠ lwm2mMaxId) :
    Opens depth (levelType depth id) := by
  unfold Opens levelType
  match depth, hdepth with
  | 0, _ => exact Or.inl (by simp [hid, DataType.hasChildren])
  | 1, _ => exact Or.inl rfl
  | 2, _ => exact Or.inr ⟨rfl, rfl⟩

theorem infoAt_below {type : DataType}
    (hdata : itemAt array id = some data ∨ itemAt array id = none ∧ data = .node type id .zero)
    {q : List UInt16} (hq : q ≠ []) : infoAt (id :: q) array = infoAt q data.children := by
  rcases hdata with hitem | ⟨hitem, rfl⟩
  · exact infoAt_of_some hitem hq
  · rw [infoAt_cons, hitem]
    exact (infoAt_nil q).symm

theorem infoAt_self
    (hdata : itemAt array id = some data ∨ itemAt array id = none ∧ data = .node (levelType depth id) id .zero) :
    (infoAt [id] array).elim (baseType depth [id]) Prod.fst = data.type := by
  rw [infoAt_cons]
  rcases hdata with hitem | ⟨hitem, rfl⟩
  · rw [hitem]
    rfl
  · rw [hitem]
    rfl

theorem children_unique {type : DataType} (hunique : SiblingsUnique array)
    (hdata : itemAt array id = some data ∨ itemAt array id = none ∧ data = .node type id .zero) :
    SiblingsUnique data.children := by
  rcases hdata with hitem | ⟨_, rfl⟩
  · exact ((siblingsUnique_iff array).1 hunique).2 data (itemAt_some hitem).1
  · exact trivial

theorem placedInfo_land (hrecord : ∀ array, record.2 ≠ .asChildren array)
    (hdata : itemAt array id = some data ∨ itemAt array id = none ∧ data = .node (levelType depth id) id .zero)
    (hchildren : data.children = []) (hreplaced : Replaced array array' id (landOn record data))
    (q : List UInt16) :
    infoAt q array' = placedInfo record depth [id] (fun q => infoAt q array) q := by
  cases q with
  | nil => simp [placedInfo, infoAt]
  | cons j rest =>
    rw [hreplaced.infoAt]
    by_cases hj : j = id
    · subst hj
      rw [if_pos rfl, landOn_children hrecord]
      by_cases hrest : rest = []
      · subst hrest
        have hself := infoAt_self hdata
        unfold placedInfo
        rw [if_pos rfl, if_pos rfl, hself]
        rfl
      · have hbelow := infoAt_below hdata hrest
        unfold placedInfo
        rw [if_neg hrest, if_neg (by simpa using hrest), if_neg (by simpa using hrest)]
        show infoAt rest [] = infoAt (j :: rest) array
        rw [hbelow, hchildren]
    · unfold placedInfo
      rw [if_neg hj, if_neg (by simp [hj]), if_neg (by simp [hj])]

theorem placedInfo_pass {children : List Lwm2mData} (hrest : rest ≠ [])
    (hdata : itemAt array id = some data ∨ itemAt array id = none ∧ data = .node (levelType depth id) id .zero)
    (hreplaced : Replaced array array' id (.node (passType depth data.type) id (.asChildren children)))
    (hinfo : ∀ q, infoAt q children = placedInfo record (depth + 1) rest (fun q => infoAt q data.children) q)
    (q : List UInt16) :
    infoAt q array' = placedInfo record depth (id :: rest) (fun q => infoAt q array) q := by
  cases q with
  | nil => simp [placedInfo, infoAt]
  | cons j tail =>
    rw [hreplaced.infoAt]
    by_cases hj : j = id
    · subst hj
      rw [if_pos rfl]
      by_cases htail : tail = []
      · subst htail
        have hself := infoAt_self hdata
        unfold placedInfo
        rw [if_pos rfl, if_neg (by simpa using hrest), if_pos (by simp), hself]
        rfl
      · have hbelow := infoAt_below hdata htail
        have hbase : baseType depth (j :: tail) = baseType (depth + 1) tail := by
          rw [baseType, if_neg htail]
        have hlength : depth + (j :: tail).length - 1 = depth + 1 + tail.length - 1 := by
          rw [List.length_cons]
          omega
        rw [if_neg htail, show (Lwm2mData.node _ j (.asChildren children)).children = children from rfl,
          hinfo]
        unfold placedInfo
        simp only [hbelow, hbase, hlength, List.cons.injEq, true_and, List.cons_prefix_cons, htail,
          ne_eq, not_false_eq_true, reduceCtorEq]
    · unfold placedInfo
      rw [if_neg hj, if_neg (by simp [hj]), if_neg (by simp [hj])]

/-- A record with a free path is placed, sibling ids stay unique, and the tree changes on the
path alone. -/
theorem place_free (hrecord : ∀ array, record.2 ≠ .asChildren array) (hpath : path ≠ [])
    (depth : Nat) (hdepth : depth + path.length ≤ 4) (hmax : ∀ id ∈ path.dropLast, id ≠ lwm2mMaxId)
    (hunique : SiblingsUnique array) (hfree : Free depth path array) :
    ∃ array', place record depth path array = .ok array' ∧ SiblingsUnique array' ∧
      ∀ q, infoAt q array' = placedInfo record depth path (fun q => infoAt q array) q := by
  induction path generalizing depth array with
  | nil => exact absurd rfl hpath
  | cons id rest ih =>
    have hnodup := ((siblingsUnique_iff array).1 hunique).1
    rw [List.length_cons] at hdepth
    rw [place]
    by_cases h3 : depth = 3
    · have hnil : rest = [] := List.length_eq_zero_iff.1 (by omega)
      have hitem : itemAt array id = none := by
        cases hitem : itemAt array id with
        | none => rfl
        | some data => exact absurd (hfree data hitem).1 (by omega)
      have hnew : (landOn record (.node (levelType depth id) id .zero)).id = id := rfl
      have hreplaced := replaced_append hnodup (hnew.symm ▸ hitem)
      rw [hnew] at hreplaced
      subst h3 hnil
      rw [if_pos rfl]
      refine ⟨_, rfl, hreplaced.unique hunique ?_, ?_⟩
      · rw [landOn_children hrecord]
        trivial
      · exact placedInfo_land hrecord (Or.inr ⟨hitem, rfl⟩) rfl hreplaced
    · rw [if_neg h3]
      obtain ⟨data, wrap, hid, hdata, hwith, hreplace⟩ := withItem_replaced (levelType depth id)
        (fun data => if rest = [] then return landOn record data
          else if Opens depth data.type then do
            let children ← place record (depth + 1) rest data.children
            return .node (passType depth data.type) data.id (.asChildren children)
          else throw (some .wrongArm)) hnodup fun data hitem => (hfree data hitem).2.1
      rw [hwith]
      by_cases hrest : rest = []
      · subst hrest
        have hreplaced := hreplace (landOn record data) hid
        have hchildren : data.children = [] := by
          rcases hdata with hitem | ⟨_, rfl⟩
          · simpa using (hfree data hitem).2.2
          · rfl
        refine ⟨wrap (landOn record data), rfl, hreplaced.unique hunique ?_, ?_⟩
        · rw [landOn_children hrecord]
          trivial
        · exact placedInfo_land hrecord hdata hchildren hreplaced
      · have hidmax : id ≠ lwm2mMaxId := hmax id (by
          rw [List.dropLast_cons_of_ne_nil hrest]
          exact List.mem_cons_self)
        have hopens : Opens depth data.type := by
          rcases hdata with hitem | ⟨_, rfl⟩
          · have h := (hfree data hitem).2.2
            rw [if_neg hrest] at h
            exact Or.inl h.1
          · exact opens_levelType (by
              have := List.length_pos_of_ne_nil hrest
              omega) hidmax
        have hfree' : Free (depth + 1) rest data.children := by
          rcases hdata with hitem | ⟨_, rfl⟩
          · have h := (hfree data hitem).2.2
            rw [if_neg hrest] at h
            exact h.2
          · cases rest with
            | nil => trivial
            | cons j tail => exact fun data hitem => absurd hitem (by simp [Lwm2mData.children, Lwm2mData.value])
        obtain ⟨children, hplace, hchildren, hinfo⟩ := ih hrest (depth + 1) (by omega)
          (fun j hj => hmax j (by
            rw [List.dropLast_cons_of_ne_nil hrest]
            exact List.mem_cons_of_mem _ hj)) (children_unique hunique hdata) hfree'
        have hreplaced := hreplace (.node (passType depth data.type) id (.asChildren children)) rfl
        refine ⟨_, ?_, hreplaced.unique hunique hchildren,
          placedInfo_pass hrest hdata hreplaced hinfo⟩
        rw [if_neg hrest, if_pos hopens, hplace, hid]
        rfl

/-- A round that leaves two siblings with one id, or loses a path. -/
def Damaged (array array' : List Lwm2mData) : Prop :=
  ¬ SiblingsUnique array' ∨ ∃ q, infoAt q array ≠ none ∧ infoAt q array' = none

theorem damaged_nil (h : array ≠ []) : Damaged array [] := by
  cases array with
  | nil => exact absurd rfl h
  | cons data rest =>
    refine Or.inr ⟨[data.id], ?_, infoAt_nil _⟩
    rw [infoAt_cons]
    simp [itemAt]

theorem damaged_middle (hnodup : ((before ++ data :: after).map Lwm2mData.id).Nodup)
    (hid : new.id = data.id) (hdamaged : Damaged data.children new.children) :
    Damaged (before ++ data :: after) (before ++ new :: after) := by
  have hreplaced := replaced_middle hnodup hid
  rcases hdamaged with hnew | ⟨q, hq, hlost⟩
  · refine Or.inl fun hunique => hnew ?_
    exact ((siblingsUnique_iff _).1 hunique).2 new (by simp)
  · have hne : q ≠ [] := by
      intro h
      exact hq (by rw [h]; rfl)
    refine Or.inr ⟨data.id :: q, ?_, ?_⟩
    · rwa [infoAt_of_some (by rw [itemAt_middle hnodup, if_pos rfl]) hne]
    · rwa [hreplaced.infoAt, if_pos rfl, if_neg hne]

theorem not_unique_append (hdata : data ∈ array) (hid : data.id = new.id) :
    ¬ SiblingsUnique (array ++ [new]) := by
  intro hunique
  have hnodup := ((siblingsUnique_iff _).1 hunique).1
  rw [List.map_append, List.nodup_append] at hnodup
  exact hnodup.2.2 data.id (List.mem_map_of_mem hdata) new.id (by simp) hid

/-- What `place` makes of a node has its id. -/
def placeIn (record : NodeInfo) (depth : Nat) (rest : List UInt16) (data : Lwm2mData) :
    Conversion Lwm2mData :=
  if rest = [] then return landOn record data
  else if Opens depth data.type then do
    let children ← place record (depth + 1) rest data.children
    return .node (passType depth data.type) data.id (.asChildren children)
  else throw (some .wrongArm)

theorem place_cons (record : NodeInfo) (depth : Nat) (id : UInt16) (rest : List UInt16)
    (array : List Lwm2mData) :
    place record depth (id :: rest) array =
      if depth = 3 then .ok (array ++ [landOn record (.node .undefined id .zero)])
      else withItem array id (levelType depth id) (placeIn record depth rest) := by
  rw [place]
  rfl

theorem placeIn_ok (h : placeIn record depth rest data = .ok new) :
    new.id = data.id ∧ (rest = [] ∧ new = landOn record data ∨
      rest ≠ [] ∧ place record (depth + 1) rest data.children = .ok new.children) := by
  unfold placeIn at h
  by_cases hrest : rest = []
  · rw [if_pos hrest] at h
    cases h
    exact ⟨rfl, Or.inl ⟨hrest, rfl⟩⟩
  · rw [if_neg hrest] at h
    by_cases hopens : Opens depth data.type
    · rw [if_pos hopens] at h
      cases hplace : place record (depth + 1) rest data.children with
      | error e =>
        rw [hplace] at h
        cases h
      | ok children =>
        rw [hplace] at h
        cases h
        exact ⟨rfl, Or.inr ⟨hrest, rfl⟩⟩
    · rw [if_neg hopens] at h
      cases h

theorem place_error {e : Option Fault} (h : place record depth path array = .error e) :
    e = some .wrongArm := by
  induction path generalizing depth array with
  | nil => cases h
  | cons id rest ih =>
    have hin : ∀ data, placeIn record depth rest data = .error e → e = some .wrongArm := by
      intro data hdata
      unfold placeIn at hdata
      by_cases hrest : rest = []
      · rw [if_pos hrest] at hdata
        cases hdata
      · rw [if_neg hrest] at hdata
        by_cases hopens : Opens depth data.type
        · rw [if_pos hopens] at hdata
          cases hplace : place record (depth + 1) rest data.children with
          | error e' =>
            rw [hplace] at hdata
            cases hdata
            exact ih hplace
          | ok children =>
            rw [hplace] at hdata
            cases hdata
        · rw [if_neg hopens] at hdata
          cases hdata
          rfl
    rw [place_cons] at h
    by_cases h3 : depth = 3
    · rw [if_pos h3] at h
      cases h
    · rw [if_neg h3] at h
      rcases withItem_cases array id (levelType depth id) (placeIn record depth rest) with
        ⟨before, data, after, _, _, _, hwith⟩ | ⟨_, hwith⟩
      · rw [hwith] at h
        cases hdata : placeIn record depth rest data with
        | error e' =>
          rw [hdata] at h
          cases h
          exact hin data hdata
        | ok new =>
          rw [hdata] at h
          cases h
      · rw [hwith] at h
        cases hdata : placeIn record depth rest (.node (levelType depth id) id .zero) with
        | error e' =>
          rw [hdata] at h
          cases h
          exact hin _ hdata
        | ok new =>
          rw [hdata] at h
          cases h

theorem place_keeps_damage (hrecord : ∀ array, record.2 ≠ .asChildren array) (hpath : path ≠ [])
    (hnot : ¬ SiblingsUnique array) (h : place record depth path array = .ok array') :
    Damaged array array' := by
  induction path generalizing depth array array' with
  | nil => exact absurd rfl hpath
  | cons id rest ih =>
    rw [place_cons] at h
    by_cases h3 : depth = 3
    · rw [if_pos h3] at h
      cases h
      refine Or.inl fun hunique => hnot ?_
      rw [siblingsUnique_iff, List.map_append, List.nodup_append] at hunique
      exact (siblingsUnique_iff array).2
        ⟨hunique.1.1, fun data hdata => hunique.2 data (List.mem_append_left _ hdata)⟩
    · rw [if_neg h3] at h
      rcases withItem_cases array id (levelType depth id) (placeIn record depth rest) with
        ⟨before, data, after, rfl, _, _, hwith⟩ | ⟨_, hwith⟩
      · rw [hwith] at h
        cases hdata : placeIn record depth rest data with
        | error e =>
          rw [hdata] at h
          cases h
        | ok new =>
          rw [hdata] at h
          cases h
          obtain ⟨hid, hnew⟩ := placeIn_ok hdata
          by_cases hnodup : ((before ++ data :: after).map Lwm2mData.id).Nodup
          · by_cases hbelow : SiblingsUnique data.children
            · refine Or.inl fun hunique => hnot ?_
              rw [siblingsUnique_iff] at hunique ⊢
              refine ⟨hnodup, fun x hx => ?_⟩
              rcases List.mem_append.1 hx with hx | hx
              · exact hunique.2 x (List.mem_append_left _ hx)
              · rcases List.mem_cons.1 hx with rfl | hx
                · exact hbelow
                · exact hunique.2 x (List.mem_append_right _ (List.mem_cons_of_mem _ hx))
            · apply damaged_middle hnodup hid
              rcases hnew with ⟨_, rfl⟩ | ⟨hrest, hplace⟩
              · rw [landOn_children hrecord]
                exact damaged_nil fun hnil => hbelow (by rw [hnil]; trivial)
              · exact ih hrest hbelow hplace
          · refine Or.inl fun hunique => hnodup ?_
            have hnodup' := ((siblingsUnique_iff _).1 hunique).1
            simpa [hid] using hnodup'
      · rw [hwith] at h
        cases hdata : placeIn record depth rest (.node (levelType depth id) id .zero) with
        | error e =>
          rw [hdata] at h
          cases h
        | ok new =>
          rw [hdata] at h
          cases h
          refine Or.inl fun hunique => hnot ?_
          rw [siblingsUnique_iff, List.map_append, List.nodup_append] at hunique
          exact (siblingsUnique_iff array).2
            ⟨hunique.1.1, fun data hdata => hunique.2 data (List.mem_append_left _ hdata)⟩

/-- A path that is not free makes the round read another arm of a union, repeat an id or lose
a path. -/
theorem place_not_free (hrecord : ∀ array, record.2 ≠ .asChildren array) (depth : Nat)
    (hdepth : depth + path.length ≤ 4) (hunique : SiblingsUnique array)
    (hfree : ¬ Free depth path array) :
    place record depth path array = .error (some .wrongArm) ∨
      ∃ array', place record depth path array = .ok array' ∧ Damaged array array' := by
  induction path generalizing depth array with
  | nil => exact absurd trivial hfree
  | cons id rest ih =>
    have hnodup := ((siblingsUnique_iff array).1 hunique).1
    rw [List.length_cons] at hdepth
    obtain ⟨data, hitem, hbad⟩ : ∃ data, itemAt array id = some data ∧
        ¬ (depth < 3 ∧ data.type ≠ .undefined ∧
          if rest = [] then data.children = []
          else data.type.hasChildren ∧ Free (depth + 1) rest data.children) := by
      simpa [Free] using hfree
    have hmem := itemAt_some hitem
    rw [place_cons]
    by_cases h3 : depth = 3
    · rw [if_pos h3]
      exact Or.inr ⟨_, rfl, Or.inl (not_unique_append hmem.1 hmem.2)⟩
    · rw [if_neg h3]
      rcases withItem_cases array id (levelType depth id) (placeIn record depth rest) with
        ⟨before, data', after, rfl, htype, hid, hwith⟩ | ⟨hnone, hwith⟩
      · have heq : data' = data := by
          rw [itemAt_middle hnodup, if_pos hid.symm] at hitem
          exact Option.some.inj hitem
        subst heq
        rw [hwith]
        by_cases hrest : rest = []
        · have hchildren : data'.children ≠ [] := by
            intro hnil
            exact hbad ⟨by omega, htype, by rw [if_pos hrest]; exact hnil⟩
          unfold placeIn
          rw [if_pos hrest]
          refine Or.inr ⟨_, rfl, damaged_middle hnodup rfl ?_⟩
          rw [landOn_children hrecord]
          exact damaged_nil hchildren
        · by_cases hopens : Opens depth data'.type
          · have hchildren : data'.type.hasChildren := hopens.resolve_right fun h => htype h.2
            have hbelow : ¬ Free (depth + 1) rest data'.children := by
              intro h
              exact hbad ⟨by omega, htype, by rw [if_neg hrest]; exact ⟨hchildren, h⟩⟩
            have huniqueBelow := ((siblingsUnique_iff _).1 hunique).2 data' hmem.1
            unfold placeIn
            rw [if_neg hrest, if_pos hopens]
            rcases ih (depth + 1) (by omega) huniqueBelow hbelow with hplace | ⟨children, hplace, hdamaged⟩
            · rw [hplace]
              exact Or.inl rfl
            · rw [hplace]
              exact Or.inr ⟨_, rfl, damaged_middle hnodup rfl hdamaged⟩
          · unfold placeIn
            rw [if_neg hrest, if_neg hopens]
            exact Or.inl rfl
      · rw [hwith]
        cases hnew : placeIn record depth rest (.node (levelType depth id) id .zero) with
        | error e =>
          have hplace : place record depth (id :: rest) array = .error e := by
            rw [place_cons, if_neg h3, hwith, hnew]
            rfl
          rw [place_error hplace]
          exact Or.inl rfl
        | ok new =>
          exact Or.inr ⟨_, rfl, Or.inl
            (not_unique_append hmem.1 (hmem.2.trans (placeIn_ok hnew).1.symm))⟩

theorem children_eq_nil_iff : data.children = [] ↔ ∀ id, infoAt [id] data.children = none := by
  constructor
  · intro h id
    rw [h]
    exact infoAt_nil [id]
  · intro h
    cases hchildren : data.children with
    | nil => rfl
    | cons child rest =>
      have hnone := h child.id
      rw [hchildren, infoAt_cons] at hnone
      simp [itemAt] at hnone

/-- A path is free if the nodes on the way may have children and its end is a leaf that is
found again. -/
theorem free_iff (hpath : path ≠ []) (depth : Nat) (hdepth : depth + path.length ≤ 4)
    (array : List Lwm2mData) :
    Free depth path array ↔
      (∀ q i, q ≠ [] → q <+: path → q ≠ path → infoAt q array = some i → i.1.hasChildren) ∧
      ∀ i, infoAt path array = some i →
        depth + path.length < 4 ∧ i.1 ≠ .undefined ∧ ∀ id, infoAt (path ++ [id]) array = none := by
  induction path generalizing depth array with
  | nil => exact absurd rfl hpath
  | cons id rest ih =>
    rw [List.length_cons] at hdepth ⊢
    cases hitem : itemAt array id with
    | none =>
      have hnone : ∀ q, infoAt (id :: q) array = none := by
        intro q
        rw [infoAt_cons, hitem]
      refine iff_of_true (fun data h => absurd (hitem.symm.trans h) (by simp)) ⟨?_, ?_⟩
      · intro q i hq hbegin _ hi
        rcases List.prefix_cons_iff.1 hbegin with rfl | ⟨tail, rfl, _⟩
        · exact absurd rfl hq
        · rw [hnone] at hi
          cases hi
      · intro i hi
        rw [hnone] at hi
        cases hi
    | some data =>
      have hfree : Free depth (id :: rest) array ↔ depth < 3 ∧ data.type ≠ .undefined ∧
          if rest = [] then data.children = []
          else data.type.hasChildren ∧ Free (depth + 1) rest data.children := by
        simp [Free, hitem]
      have hself : infoAt [id] array = some data.info := by
        rw [infoAt_cons, hitem]
        rfl
      rw [hfree]
      by_cases hrest : rest = []
      · subst hrest
        rw [if_pos rfl, children_eq_nil_iff]
        have hbelow : ∀ j, infoAt ([id] ++ [j]) array = infoAt [j] data.children :=
          fun j => infoAt_of_some hitem (List.cons_ne_nil j [])
        simp only [hbelow]
        constructor
        · intro h
          refine ⟨?_, ?_⟩
          · intro q i hq hbegin hne _
            rcases List.prefix_cons_iff.1 hbegin with rfl | ⟨tail, rfl, htail⟩
            · exact absurd rfl hq
            · exact absurd (by rw [List.prefix_nil.1 htail]) hne
          · intro i hi
            rw [hself] at hi
            cases hi
            exact ⟨by simpa using Nat.add_lt_add_right h.1 1, h.2⟩
        · intro h
          have hend := h.2 data.info hself
          exact ⟨by simp at hend; omega, hend.2⟩
      · have hbelow : ∀ q, q ≠ [] → infoAt (id :: q) array = infoAt q data.children :=
          fun q hq => infoAt_of_some hitem hq
        have hlength := List.length_pos_of_ne_nil hrest
        rw [if_neg hrest, ih hrest (depth + 1) (by omega), hbelow rest hrest]
        constructor
        · intro h
          obtain ⟨_, _, hchildren, hway, hend⟩ := h
          refine ⟨?_, ?_⟩
          · intro q i hq hbegin hne hi
            rcases List.prefix_cons_iff.1 hbegin with rfl | ⟨tail, rfl, htail⟩
            · exact absurd rfl hq
            · by_cases hnil : tail = []
              · subst hnil
                rw [hself] at hi
                cases hi
                exact hchildren
              · rw [hbelow tail hnil] at hi
                exact hway tail i hnil htail (fun heq => hne (by rw [heq])) hi
          · intro i hi
            obtain ⟨hlt, htype, hnone⟩ := hend i hi
            refine ⟨by omega, htype, fun j => ?_⟩
            rw [List.cons_append, hbelow _ (by simp)]
            exact hnone j
        · intro h
          have hchildren := h.1 [id] data.info (by simp) (by simp)
            (by simpa using fun heq => hrest heq) hself
          refine ⟨by omega, ?_, hchildren, ?_, ?_⟩
          · intro htype
            have hchildren' : data.type.hasChildren = true := hchildren
            rw [htype] at hchildren'
            cases hchildren'
          · intro q i hq hbegin hne hi
            exact h.1 (id :: q) i (by simp) (List.cons_prefix_cons.2 ⟨rfl, hbegin⟩)
              (fun heq => hne (List.cons.inj heq).2) (by rw [hbelow q hq]; exact hi)
          · intro i hi
            obtain ⟨hlt, htype, hnone⟩ := h.2 i hi
            refine ⟨by omega, htype, fun j => ?_⟩
            rw [← hbelow _ (by simp)]
            exact hnone j

end Wakaama
