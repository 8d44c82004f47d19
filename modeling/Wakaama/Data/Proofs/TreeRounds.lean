import Wakaama.Data.Proofs.SenmlTree

/-!
# The rounds of the tree builders

The builders of the JSON and the SenML formats lead a record along its path in the same way, and
differ in what they make of the node at the end of it. `reach` is a round with that as a parameter,
`Round` says what it does, and the tree is seen through the searches of the builders.
-/

namespace Wakaama

/-- A path that leads to another one. -/
def Above (upper lower : List UInt16) : Prop := upper <+: lower ∧ upper ≠ lower

instance (upper lower : List UInt16) : Decidable (Above upper lower) :=
  inferInstanceAs (Decidable (_ ∧ _))

theorem Above.length_lt {upper lower : List UInt16} (h : Above upper lower) :
    upper.length < lower.length := by
  rcases Nat.lt_or_ge upper.length lower.length with hlt | hge
  · exact hlt
  · exact absurd (h.1.eq_of_length_le hge) h.2

theorem Above.trans {q r s : List UInt16} (h : Above q r) (h' : Above r s) : Above q s := by
  refine ⟨h.1.trans h'.1, ?_⟩
  rintro rfl
  have := h.length_lt
  have := h'.length_lt
  omega

theorem exists_last {α : Type} {p : α → Prop} {xs : List α} (h : ∃ x ∈ xs, p x) :
    ∃ before x behind, xs = before ++ x :: behind ∧ p x ∧ ∀ y ∈ behind, ¬ p y := by
  induction xs using List.reverseRecOn with
  | nil =>
    obtain ⟨x, hx, -⟩ := h
    exact absurd hx List.not_mem_nil
  | append_singleton xs last ih =>
    by_cases hlast : p last
    · exact ⟨xs, last, [], rfl, hlast, by simp⟩
    · obtain ⟨x, hx, hp⟩ := h
      have hmem : x ∈ xs := by
        rcases List.mem_append.1 hx with hx | hx
        · exact hx
        · rw [List.mem_singleton.1 hx] at hp
          exact absurd hp hlast
      obtain ⟨before, y, behind, rfl, hy, hbehind⟩ := ih ⟨x, hmem, hp⟩
      refine ⟨before, y, behind ++ [last], by simp, hy, fun z hz => ?_⟩
      rcases List.mem_append.1 hz with hz | hz
      · exact hbehind z hz
      · rw [List.mem_singleton.1 hz]
        exact hlast

theorem exists_first {α : Type} {p : α → Prop} {xs : List α} (h : ∃ x ∈ xs, p x) :
    ∃ before x behind, xs = before ++ x :: behind ∧ p x ∧ ∀ y ∈ before, ¬ p y := by
  induction xs with
  | nil =>
    obtain ⟨x, hx, -⟩ := h
    exact absurd hx List.not_mem_nil
  | cons first xs ih =>
    by_cases hfirst : p first
    · exact ⟨[], first, xs, rfl, hfirst, by simp⟩
    · obtain ⟨x, hx, hp⟩ := h
      have hmem : x ∈ xs := by
        rcases List.mem_cons.1 hx with rfl | hx
        · exact absurd hp hfirst
        · exact hx
      obtain ⟨before, y, behind, rfl, hy, hbefore⟩ := ih ⟨x, hmem, hp⟩
      refine ⟨first :: before, y, behind, rfl, hy, fun z hz => ?_⟩
      rcases List.mem_cons.1 hz with rfl | hz
      · exact hfirst
      · exact hbefore z hz

/-- What `senml_findDataItem` and `json_findDataItem` look for. -/
def findable (id : UInt16) (data : Lwm2mData) : Bool := data.type != .undefined && data.id == id

def foundItem (array : List Lwm2mData) (id : UInt16) : Option Lwm2mData :=
  array.find? (findable id)

/-- The node that the searches along a path lead to. -/
def foundAt : List UInt16 → List Lwm2mData → Option Lwm2mData
  | [], _ => none
  | id :: rest, array =>
    match foundItem array id with
    | none => none
    | some data => if rest = [] then some data else foundAt rest data.children

def ghost (id : UInt16) (data : Lwm2mData) : Bool := data.type == .undefined && data.id == id

def ghostsAt : List UInt16 → List Lwm2mData → Nat
  | [], _ => 0
  | id :: rest, array =>
    if rest = [] then array.countP (ghost id)
    else
      match foundItem array id with
      | none => 0
      | some data => ghostsAt rest data.children

def FindUnique (array : List Lwm2mData) : Prop :=
  ((array.filter fun data => data.type != .undefined).map Lwm2mData.id).Nodup

def FoundUnique : Nat → List Lwm2mData → Prop
  | 0, _ => True
  | levels + 1, array =>
    FindUnique array ∧ ∀ data ∈ array, FoundUnique levels data.children

theorem foundUnique_nil (levels : Nat) : FoundUnique levels [] := by
  cases levels with
  | zero => trivial
  | succ levels => exact ⟨List.nodup_nil, fun data hdata => absurd hdata List.not_mem_nil⟩

variable {data new : Lwm2mData} {id : UInt16} {array before after array' : List Lwm2mData}
  {rest : List UInt16} {depth : Nat}

theorem findable_iff : findable id data = true ↔ data.type ≠ .undefined ∧ data.id = id := by
  simp [findable]

theorem foundItem_some (h : foundItem array id = some data) :
    data ∈ array ∧ data.type ≠ .undefined ∧ data.id = id :=
  ⟨List.mem_of_find?_eq_some h, findable_iff.1 (List.find?_some h)⟩

theorem foundAt_nil (q : List UInt16) : foundAt q [] = none := by
  cases q with
  | nil => rfl
  | cons id rest => rfl

theorem ghostsAt_nil (q : List UInt16) : ghostsAt q [] = 0 := by
  cases q with
  | nil => rfl
  | cons id rest =>
    unfold ghostsAt
    split <;> rfl

theorem foundAt_cons (h : foundItem array id = some data) (hrest : rest ≠ []) :
    foundAt (id :: rest) array = foundAt rest data.children := by
  rw [foundAt, h]
  exact if_neg hrest

theorem foundAt_single (id : UInt16) (array : List Lwm2mData) :
    foundAt [id] array = foundItem array id := by
  rw [foundAt]
  cases foundItem array id <;> rfl

theorem foundAt_of_none (h : foundItem array id = none) (rest : List UInt16) :
    foundAt (id :: rest) array = none := by
  rw [foundAt, h]

theorem ghostsAt_cons (hrest : rest ≠ []) :
    ghostsAt (id :: rest) array =
      match foundItem array id with
      | none => 0
      | some data => ghostsAt rest data.children := by
  rw [ghostsAt, if_neg hrest]

theorem foundAt_typed {q : List UInt16} (h : foundAt q array = some data) :
    data.type ≠ .undefined := by
  induction q generalizing array with
  | nil => nomatch h
  | cons id rest ih =>
    cases hitem : foundItem array id with
    | none =>
      rw [foundAt_of_none hitem] at h
      nomatch h
    | some item =>
      by_cases hrest : rest = []
      · subst hrest
        rw [foundAt_single, hitem] at h
        obtain rfl := Option.some.inj h
        exact (foundItem_some hitem).2.1
      · rw [foundAt_cons hitem hrest] at h
        exact ih h

/-! ## An item replaced or appended -/

/-- The arrays before and after a round: the item that is found, if any, makes room for `new`. -/
structure Exchanged (array array' : List Lwm2mData) (id : UInt16) (new : Lwm2mData) : Prop where
  at_id : foundItem array' id = if new.type = .undefined then none else some new
  at_other : ∀ j, j ≠ id → foundItem array' j = foundItem array j
  ghosts : ∀ j, array'.countP (ghost j) =
    array.countP (ghost j) + if j = id ∧ new.type = .undefined then 1 else 0
  unique : FindUnique array'
  mem : ∀ data ∈ array', data = new ∨ data ∈ array

def Target (depth : Nat) (id : UInt16) (array : List Lwm2mData) (data : Lwm2mData) : Prop :=
  foundItem array id = some data ∨
    foundItem array id = none ∧ data = .node (levelType depth id) id .zero

theorem Target.id_eq (h : Target depth id array data) : data.id = id := by
  rcases h with hfound | ⟨-, rfl⟩
  · exact (foundItem_some hfound).2.2
  · rfl

theorem findUnique_middle (htype : data.type ≠ .undefined)
    (h : FindUnique (before ++ data :: after)) :
    (∀ x ∈ before ++ after, findable data.id x = false) ∧ FindUnique (before ++ after) := by
  have hfilter : ((before ++ data :: after).filter fun x => x.type != .undefined) =
      (before.filter fun x => x.type != .undefined) ++
        data :: after.filter fun x => x.type != .undefined := by
    rw [List.filter_append, List.filter_cons, if_pos (by simpa using htype)]
  unfold FindUnique at h ⊢
  rw [hfilter, List.map_append, List.map_cons, List.nodup_middle, ← List.map_append,
    ← List.filter_append, List.nodup_cons] at h
  refine ⟨fun x hx => ?_, h.2⟩
  apply Bool.eq_false_iff.mpr
  intro hfindable
  obtain ⟨hxtype, hid⟩ := findable_iff.1 hfindable
  exact h.1 (List.mem_map.2 ⟨x, List.mem_filter.2 ⟨hx, by simpa using hxtype⟩, hid⟩)

theorem find?_none (h : ∀ x ∈ array, findable id x = false) : foundItem array id = none := by
  apply List.find?_eq_none.2
  intro x hx
  simp [h x hx]

theorem foundItem_middle (hothers : ∀ x ∈ before ++ after, findable new.id x = false) (j : UInt16) :
    foundItem (before ++ new :: after) j =
      if j = new.id then if new.type = .undefined then none else some new
      else foundItem (before ++ after) j := by
  unfold foundItem
  rw [List.find?_append, List.find?_cons]
  by_cases hj : j = new.id
  · rw [if_pos hj, hj]
    have hbefore : before.find? (findable new.id) = none :=
      find?_none fun x hx => hothers x (List.mem_append_left _ hx)
    have hafter : after.find? (findable new.id) = none :=
      find?_none fun x hx => hothers x (List.mem_append_right _ hx)
    by_cases htype : new.type = .undefined
    · simp [hbefore, hafter, findable, htype]
    · have hnew : findable new.id new = true := findable_iff.2 ⟨htype, rfl⟩
      simp [hbefore, hnew, htype]
  · have hnot : findable j new = false := by
      simp only [findable, Bool.and_eq_false_iff]
      exact .inr (by simpa using fun h => hj h.symm)
    rw [if_neg hj, hnot, List.find?_append]

theorem findUnique_insert (hothers : ∀ x ∈ before ++ after, findable new.id x = false)
    (h : FindUnique (before ++ after)) : FindUnique (before ++ new :: after) := by
  by_cases htype : new.type = .undefined
  · unfold FindUnique at h ⊢
    rw [List.filter_append, List.filter_cons, if_neg (by simp [htype]), ← List.filter_append]
    exact h
  · unfold FindUnique at h ⊢
    rw [List.filter_append, List.filter_cons, if_pos (by simpa using htype), List.map_append,
      List.map_cons, List.nodup_middle, ← List.map_append, ← List.filter_append, List.nodup_cons]
    refine ⟨fun hmem => ?_, h⟩
    obtain ⟨x, hx, hid⟩ := List.mem_map.1 hmem
    obtain ⟨hmem, hxtype⟩ := List.mem_filter.1 hx
    have hfindable := findable_iff.2 ⟨by simpa using hxtype, hid⟩
    rw [hothers x hmem] at hfindable
    nomatch hfindable

theorem exchanged_replace (htype : data.type ≠ .undefined)
    (hunique : FindUnique (before ++ data :: after)) (hid : new.id = data.id) :
    Exchanged (before ++ data :: after) (before ++ new :: after) data.id new := by
  obtain ⟨hothers, hrest⟩ := findUnique_middle htype hunique
  have hothers' : ∀ x ∈ before ++ after, findable new.id x = false := by rwa [hid]
  refine ⟨?_, fun j hj => ?_, fun j => ?_, findUnique_insert hothers' hrest, fun x hx => ?_⟩
  · rw [← hid, foundItem_middle hothers', if_pos rfl]
  · rw [foundItem_middle hothers', foundItem_middle hothers, if_neg (by rwa [hid]), if_neg hj]
  · have hdata : ghost j data = false := by simp [ghost, htype]
    simp only [List.countP_append, List.countP_cons, hdata]
    by_cases hnew : j = data.id ∧ new.type = .undefined
    · have hghost : ghost j new = true := by simp [ghost, hnew, hid]
      simp only [hghost, if_pos hnew]
      simp
      omega
    · have hghost : ghost j new = false := by
        simp only [ghost, Bool.and_eq_false_iff]
        by_cases hundefined : new.type = .undefined
        · exact .inr (by simpa [hid] using fun h => hnew ⟨h.symm, hundefined⟩)
        · exact .inl (by simpa using hundefined)
      simp only [hghost, if_neg hnew]
      simp
  · simp only [List.mem_append, List.mem_cons] at hx ⊢
    rcases hx with hx | rfl | hx
    · exact .inr (.inl hx)
    · exact .inl rfl
    · exact .inr (.inr (.inr hx))

theorem exchanged_append (hunique : FindUnique array)
    (hnone : ∀ x ∈ array, findable new.id x = false) :
    Exchanged array (array ++ [new]) new.id new := by
  have hothers : ∀ x ∈ array ++ [], findable new.id x = false := by rwa [List.append_nil]
  refine ⟨?_, fun j hj => ?_, fun j => ?_, ?_, fun x hx => ?_⟩
  · rw [foundItem_middle hothers, if_pos rfl]
  · rw [foundItem_middle hothers, if_neg hj, List.append_nil]
  · rw [List.countP_append, List.countP_singleton]
    by_cases hnew : j = new.id ∧ new.type = .undefined
    · have hghost : ghost j new = true := by simp [ghost, hnew]
      rw [if_pos hnew, if_pos hghost]
    · have hghost : ¬ ghost j new = true := fun h => hnew (by
        simp only [ghost, Bool.and_eq_true, beq_iff_eq] at h
        exact ⟨h.2.symm, h.1⟩)
      rw [if_neg hnew, if_neg hghost]
  · apply findUnique_insert hothers
    rwa [List.append_nil]
  · rcases List.mem_append.1 hx with hx | hx
    · exact .inr hx
    · exact .inl (List.mem_singleton.1 hx)

theorem withItem_exchanged (hunique : FindUnique array) (depth : Nat) (id : UInt16)
    (f : Lwm2mData → Conversion Lwm2mData) :
    ∃ data wrap, Target depth id array data ∧
      withItem array id (levelType depth id) f = (f data).map wrap ∧
      ∀ new : Lwm2mData, new.id = id → Exchanged array (wrap new) id new := by
  rcases withItem_cases array id (levelType depth id) f with
    ⟨before, data, after, rfl, htype, rfl, hwith⟩ | ⟨hnone, hwith⟩
  · refine ⟨data, fun new => before ++ new :: after, .inl ?_, hwith, fun new hnew => ?_⟩
    · rw [foundItem_middle (findUnique_middle htype hunique).1, if_pos rfl, if_neg htype]
    · exact exchanged_replace htype hunique hnew
  · have hfindable : ∀ x ∈ array, findable id x = false := by
      intro x hx
      simp only [findable, Bool.and_eq_false_iff]
      rcases hnone x hx with htype | hid
      · exact .inl (by simp [htype])
      · exact .inr (by simpa using hid)
    refine ⟨.node (levelType depth id) id .zero, fun new => array ++ [new],
      .inr ⟨find?_none hfindable, rfl⟩, hwith, fun new hnew => ?_⟩
    subst hnew
    exact exchanged_append hunique hfindable

/-! ## Rounds -/

def reach (land : Lwm2mData → Lwm2mData) :
    Nat → List UInt16 → List Lwm2mData → Conversion (List Lwm2mData)
  | _, [], array => return array
  | depth, id :: rest, array =>
    if depth = 3 then return array ++ [land (.node .undefined id .zero)]
    else
      withItem array id (levelType depth id) fun data =>
        if rest = [] then return land data
        else if Opens depth data.type then do
          let children ← reach land (depth + 1) rest data.children
          return .node (passType depth data.type) data.id (.asChildren children)
        else throw (some .wrongArm)

inductive Round (land : Lwm2mData → Lwm2mData) :
    Nat → List UInt16 → List Lwm2mData → List Lwm2mData → Prop
  | appended {id : UInt16} {array : List Lwm2mData} :
      Round land 3 [id] array (array ++ [land (.node .undefined id .zero)])
  | landed {depth : Nat} {id : UInt16} {array array' : List Lwm2mData} {data : Lwm2mData}
      (hdepth : depth < 3) (hdata : Target depth id array data)
      (hex : Exchanged array array' id (land data)) : Round land depth [id] array array'
  | passed {depth : Nat} {id : UInt16} {rest : List UInt16}
      {array array' children : List Lwm2mData} {data : Lwm2mData} (hdepth : depth < 3)
      (hrest : rest ≠ []) (hdata : Target depth id array data) (hopens : Opens depth data.type)
      (hex : Exchanged array array' id
        (.node (passType depth data.type) id (.asChildren children)))
      (hbelow : Round land (depth + 1) rest data.children children) :
      Round land depth (id :: rest) array array'

/-- What a builder makes of the node at the end of a path: it keeps the id and has no children. -/
structure Lands (land : Lwm2mData → Lwm2mData) : Prop where
  id : ∀ data, (land data).id = data.id
  children : ∀ data, (land data).children = []

theorem place_eq_reach (record : NodeInfo) (path : List UInt16) (depth : Nat)
    (array : List Lwm2mData) :
    place record depth path array = reach (landOn record) depth path array := by
  induction path generalizing depth array with
  | nil => rfl
  | cons id rest ih =>
    rw [place, reach]
    simp only [ih]

theorem target_children_unique {levels : Nat} (hunique : FoundUnique (levels + 1) array)
    (h : Target depth id array data) : FoundUnique levels data.children := by
  rcases h with hfound | ⟨-, rfl⟩
  · exact hunique.2 data (foundItem_some hfound).1
  · exact foundUnique_nil levels

def reachIn (land : Lwm2mData → Lwm2mData) (depth : Nat) (rest : List UInt16) (data : Lwm2mData) :
    Conversion Lwm2mData :=
  if rest = [] then .ok (land data)
  else if Opens depth data.type then
    (reach land (depth + 1) rest data.children).map fun children =>
      .node (passType depth data.type) data.id (.asChildren children)
  else .error (some .wrongArm)

theorem reach_cons (land : Lwm2mData → Lwm2mData) (hdepth : depth ≠ 3) (id : UInt16)
    (rest : List UInt16) (array : List Lwm2mData) :
    reach land depth (id :: rest) array =
      withItem array id (levelType depth id) (reachIn land depth rest) := by
  rw [reach, if_neg hdepth]
  rfl

theorem reach_round {land : Lwm2mData → Lwm2mData} (hland : Lands land) {path : List UInt16}
    (hpath : path ≠ []) (hdepth : depth + path.length ≤ 4) (hunique : FoundUnique (3 - depth) array)
    (h : reach land depth path array = .ok array') : Round land depth path array array' := by
  induction path generalizing depth array array' with
  | nil => exact absurd rfl hpath
  | cons id rest ih =>
    rw [List.length_cons] at hdepth
    by_cases h3 : depth = 3
    · obtain rfl : rest = [] := List.length_eq_zero_iff.1 (by omega)
      subst h3
      obtain rfl : array ++ [land (.node .undefined id .zero)] = array' := Except.ok.inj h
      exact .appended
    · have hlevels : 3 - depth = (3 - (depth + 1)) + 1 := by omega
      rw [hlevels] at hunique
      rw [reach_cons land h3] at h
      obtain ⟨data, wrap, hdata, hwith, hex⟩ := withItem_exchanged hunique.1 depth id
        (reachIn land depth rest)
      rw [hwith, reachIn] at h
      by_cases hrest : rest = []
      · subst hrest
        rw [if_pos rfl] at h
        obtain rfl := Except.ok.inj h
        exact .landed (by omega) hdata (hex _ ((hland.id data).trans hdata.id_eq))
      · rw [if_neg hrest] at h
        by_cases hopens : Opens depth data.type
        · rw [if_pos hopens] at h
          cases hreach : reach land (depth + 1) rest data.children with
          | error e =>
            rw [hreach] at h
            nomatch h
          | ok children =>
            rw [hreach] at h
            obtain rfl := Except.ok.inj h
            rw [hdata.id_eq]
            exact .passed (by omega) hrest hdata hopens (hex _ rfl)
              (ih hrest (by omega) (target_children_unique hunique hdata) hreach)
        · rw [if_neg hopens] at h
          nomatch h

theorem Round.unique {land : Lwm2mData → Lwm2mData} (hland : Lands land) {path : List UInt16}
    (h : Round land depth path array array') (hunique : FoundUnique (3 - depth) array) :
    FoundUnique (3 - depth) array' := by
  have hstep : ∀ {depth : Nat} {id : UInt16} {array array' : List Lwm2mData} {new : Lwm2mData},
      depth < 3 → Exchanged array array' id new → FoundUnique (3 - (depth + 1)) new.children →
      FoundUnique (3 - depth) array → FoundUnique (3 - depth) array' := by
    intro depth id array array' new hdepth hex hnew hunique
    have hlevels : 3 - depth = (3 - (depth + 1)) + 1 := by omega
    rw [hlevels] at hunique ⊢
    refine ⟨hex.unique, fun data hdata => ?_⟩
    rcases hex.mem data hdata with rfl | hold
    · exact hnew
    · exact hunique.2 data hold
  induction h with
  | appended => trivial
  | landed hdepth hdata hex =>
    apply hstep hdepth hex _ hunique
    rw [hland.children]
    exact foundUnique_nil _
  | @passed depth _ _ _ _ _ _ hdepth _ hdata _ hex _ ih =>
    apply hstep hdepth hex _ hunique
    have hlevels : 3 - depth = (3 - (depth + 1)) + 1 := by omega
    rw [hlevels] at hunique
    exact ih (target_children_unique hunique hdata)

theorem Exchanged.foundAt_below (hex : Exchanged array array' id new)
    (htype : new.type ≠ .undefined) (hrest : rest ≠ []) :
    foundAt (id :: rest) array' = foundAt rest new.children := by
  have hitem := hex.at_id
  rw [if_neg htype] at hitem
  exact foundAt_cons hitem hrest

theorem Exchanged.foundAt_none (hex : Exchanged array array' id new) (hchildren : new.children = [])
    (hrest : rest ≠ []) : foundAt (id :: rest) array' = none := by
  by_cases htype : new.type = .undefined
  · have hitem := hex.at_id
    rw [if_pos htype] at hitem
    exact foundAt_of_none hitem rest
  · rw [hex.foundAt_below htype hrest, hchildren, foundAt_nil]

theorem Exchanged.foundAt_other (hex : Exchanged array array' id new) {j : UInt16} (hj : j ≠ id)
    (rest : List UInt16) : foundAt (j :: rest) array' = foundAt (j :: rest) array := by
  rw [foundAt, foundAt, hex.at_other j hj]

theorem Exchanged.ghostsAt_other (hex : Exchanged array array' id new) {j : UInt16} (hj : j ≠ id)
    (rest : List UInt16) : ghostsAt (j :: rest) array' = ghostsAt (j :: rest) array := by
  rw [ghostsAt, ghostsAt]
  by_cases hrest : rest = []
  · rw [if_pos hrest, if_pos hrest, hex.ghosts, if_neg fun h => hj h.1]
    rfl
  · rw [if_neg hrest, if_neg hrest, hex.at_other j hj]

theorem passType_typed {type : DataType} (h : Opens depth type) :
    (passType depth type).hasChildren = true := by
  unfold passType
  by_cases h2 : depth = 2
  · rw [if_pos h2]
    rfl
  · rw [if_neg h2]
    exact h.resolve_right fun h => h2 h.1

theorem hasChildren_typed {type : DataType} (h : type.hasChildren = true) : type ≠ .undefined := by
  rintro rfl
  nomatch h

theorem Exchanged.passed {array array' children : List Lwm2mData} {id : UInt16} {depth : Nat}
    {type : DataType} (hopens : Opens depth type)
    (hex : Exchanged array array' id (.node (passType depth type) id (.asChildren children))) :
    foundItem array' id = some (.node (passType depth type) id (.asChildren children)) := by
  rw [hex.at_id]
  exact if_neg (hasChildren_typed (passType_typed hopens))

theorem Target.foundAt_cons (h : Target depth id array data) (hrest : rest ≠ []) :
    foundAt (id :: rest) array = foundAt rest data.children := by
  rcases h with hfound | ⟨hnone, rfl⟩
  · exact Wakaama.foundAt_cons hfound hrest
  · rw [foundAt_of_none hnone]
    exact (foundAt_nil rest).symm

theorem Target.ghostsAt_cons (h : Target depth id array data) (hrest : rest ≠ []) :
    ghostsAt (id :: rest) array = ghostsAt rest data.children := by
  rw [Wakaama.ghostsAt_cons hrest]
  rcases h with hfound | ⟨hnone, rfl⟩
  · rw [hfound]
  · rw [hnone]
    exact (ghostsAt_nil rest).symm

/-! ## What a round does to what is found -/

section Rounds

variable {land : Lwm2mData → Lwm2mData} {depth : Nat} {path : List UInt16}
  {array array' : List Lwm2mData}

/-- The node at the end of the path: one that is found, or a new one. -/
def EndsAt (depth : Nat) (path : List UInt16) (array : List Lwm2mData) (data : Lwm2mData) : Prop :=
  depth + path.length < 4 ∧ foundAt path array = some data ∨
    (depth + path.length < 4 → foundAt path array = none) ∧
      ∃ id, data = .node (baseType depth path) id .zero

theorem endsAt_cons {id : UInt16} {rest : List UInt16} (hrest : rest ≠ []) {data new : Lwm2mData}
    (hdata : Target depth id array data) (h : EndsAt (depth + 1) rest data.children new) :
    EndsAt depth (id :: rest) array new := by
  have hlength : depth + (id :: rest).length = depth + 1 + rest.length := by
    rw [List.length_cons]
    omega
  have hbase : baseType depth (id :: rest) = baseType (depth + 1) rest := if_neg hrest
  unfold EndsAt
  rw [hlength, hdata.foundAt_cons hrest, hbase]
  exact h

theorem Round.at_path (hland : Lands land) (h : Round land depth path array array') :
    ∃ data, EndsAt depth path array data ∧
      (depth + path.length < 4 →
        foundAt path array' = if (land data).type = .undefined then none else some (land data)) ∧
      ghostsAt path array' =
        ghostsAt path array + if (land data).type = .undefined then 1 else 0 := by
  induction h with
  | @appended id array =>
    refine ⟨.node .undefined id .zero, .inr ⟨fun h => absurd h (by simp), id, rfl⟩,
      fun h => absurd h (by simp), ?_⟩
    have hid : (land (.node .undefined id .zero)).id = id := hland.id _
    simp only [ghostsAt, if_true, List.countP_append, List.countP_singleton, ghost, hid]
    simp
  | @landed depth id array array' data hdepth hdata hex =>
    refine ⟨data, ?_, fun _ => ?_, ?_⟩
    · rcases hdata with hfound | ⟨hnone, rfl⟩
      · exact .inl ⟨Nat.succ_lt_succ hdepth, by rw [foundAt_single, hfound]⟩
      · exact .inr ⟨fun _ => by rw [foundAt_single, hnone], id, rfl⟩
    · rw [foundAt_single, hex.at_id]
    · rw [ghostsAt, if_pos rfl, ghostsAt, if_pos rfl, hex.ghosts]
      simp
  | @passed depth id rest array array' children data hdepth hrest hdata hopens hex hbelow ih =>
    obtain ⟨new, hends, hfound, hghosts⟩ := ih
    refine ⟨new, endsAt_cons hrest hdata hends, fun hlength => ?_, ?_⟩
    · rw [foundAt_cons (hex.passed hopens) hrest]
      exact hfound (by rw [List.length_cons] at hlength; omega)
    · rw [ghostsAt_cons hrest, hex.passed hopens, hdata.ghostsAt_cons hrest]
      exact hghosts

theorem Round.at_instance (hland : Lands land) (h : Round land depth path array array')
    (hlength : depth + path.length = 4) :
    ∃ id, foundAt path array' = (foundAt path array).or
      (if (land (.node .undefined id .zero)).type = .undefined then none
        else some (land (.node .undefined id .zero))) := by
  induction h with
  | @appended id array =>
    refine ⟨id, ?_⟩
    have hid : (land (.node .undefined id .zero)).id = id := hland.id _
    rw [foundAt_single, foundAt_single, foundItem, foundItem, List.find?_append]
    congr 1
    by_cases htype : (land (.node .undefined id .zero)).type = .undefined
    · have hnot : findable id (land (.node .undefined id .zero)) = false := by
        simp [findable, htype]
      rw [if_pos htype]
      simp [hnot]
    · have hfound : findable id (land (.node .undefined id .zero)) = true :=
        findable_iff.2 ⟨htype, hid⟩
      rw [if_neg htype]
      simp [hfound]
  | landed hdepth =>
    rw [List.length_singleton] at hlength
    omega
  | @passed depth id rest array array' children data hdepth hrest hdata hopens hex hbelow ih =>
    obtain ⟨id', hfound⟩ := ih (by rw [List.length_cons] at hlength; omega)
    refine ⟨id', ?_⟩
    rw [foundAt_cons (hex.passed hopens) hrest, hdata.foundAt_cons hrest]
    exact hfound

variable {q : List UInt16}

theorem Round.under (hland : Lands land) (h : Round land depth path array array') (hq : path <+: q)
    (hne : q ≠ path) (hdepth : depth + q.length ≤ 4) :
    foundAt q array' = none ∧ ghostsAt q array' = 0 := by
  induction h generalizing q with
  | @appended id array =>
    obtain ⟨rest, rfl⟩ := hq
    have hrest : rest ≠ [] := fun h => hne (by rw [h, List.append_nil])
    have := List.length_pos_of_ne_nil hrest
    simp at hdepth
    omega
  | @landed depth id array array' data _ hdata hex =>
    obtain ⟨rest, rfl⟩ := hq
    have hrest : rest ≠ [] := fun h => hne (by rw [h, List.append_nil])
    rw [List.singleton_append]
    refine ⟨hex.foundAt_none (hland.children data) hrest, ?_⟩
    rw [ghostsAt_cons hrest, hex.at_id]
    by_cases htype : (land data).type = .undefined
    · rw [if_pos htype]
    · rw [if_neg htype]
      change ghostsAt rest (land data).children = 0
      rw [hland.children, ghostsAt_nil]
  | @passed depth id rest array array' children data hd hrest hdata hopens hex hbelow ih =>
    obtain ⟨tail, rfl⟩ := hq
    rw [List.cons_append] at hne hdepth ⊢
    have htail : rest ++ tail ≠ [] := by simp [hrest]
    obtain ⟨hfound, hghosts⟩ := ih (List.prefix_append rest tail) (fun h => hne (by rw [h]))
      (by rw [List.length_cons] at hdepth; omega)
    refine ⟨?_, ?_⟩
    · rw [foundAt_cons (hex.passed hopens) htail]
      exact hfound
    · rw [ghostsAt_cons htail, hex.passed hopens]
      exact hghosts

theorem Round.above (h : Round land depth path array array') (hq : q ≠ []) (hleads : q <+: path)
    (hne : q ≠ path) : ∃ data, foundAt q array' = some data ∧ data.type.hasChildren = true := by
  induction h generalizing q with
  | appended =>
    rcases List.prefix_cons_iff.1 hleads with rfl | ⟨tail, rfl, htail⟩
    · exact absurd rfl hq
    · exact absurd (by rw [List.prefix_nil.1 htail]) hne
  | landed =>
    rcases List.prefix_cons_iff.1 hleads with rfl | ⟨tail, rfl, htail⟩
    · exact absurd rfl hq
    · exact absurd (by rw [List.prefix_nil.1 htail]) hne
  | @passed depth id rest array array' children data hdepth hrest hdata hopens hex hbelow ih =>
    rcases List.prefix_cons_iff.1 hleads with rfl | ⟨tail, rfl, htail⟩
    · exact absurd rfl hq
    · by_cases hnil : tail = []
      · subst hnil
        refine ⟨.node (passType depth data.type) id (.asChildren children), ?_,
          passType_typed hopens⟩
        rw [foundAt_single, hex.passed hopens]
      · rw [foundAt_cons (hex.passed hopens) hnil]
        exact ih hnil htail fun h => hne (by rw [h])

theorem Round.other (hland : Lands land) (h : Round land depth path array array')
    {q : List UInt16} (hbelow : ¬ path <+: q) :
    (¬ q <+: path → foundAt q array' = foundAt q array) ∧ ghostsAt q array' = ghostsAt q array := by
  induction h generalizing q with
  | @appended id array =>
    cases q with
    | nil => exact ⟨fun h => absurd List.nil_prefix h, rfl⟩
    | cons j rest =>
      have hj : j ≠ id := by
        rintro rfl
        exact hbelow (by simp)
      have hid : (land (.node .undefined id .zero)).id = id := hland.id _
      have hitem : foundItem (array ++ [land (.node .undefined id .zero)]) j =
          foundItem array j := by
        have hnot : findable j (land (.node .undefined id .zero)) = false := by
          simp only [findable, hid, Bool.and_eq_false_iff]
          exact .inr (by simpa using fun h => hj h.symm)
        unfold foundItem
        rw [List.find?_append]
        simp [hnot]
      refine ⟨fun _ => by rw [foundAt, foundAt, hitem], ?_⟩
      rw [ghostsAt, ghostsAt]
      by_cases hrest : rest = []
      · have hnot : ghost j (land (.node .undefined id .zero)) = false := by
          simp only [ghost, hid, Bool.and_eq_false_iff]
          exact .inr (by simpa using fun h => hj h.symm)
        rw [if_pos hrest, if_pos hrest, List.countP_append, List.countP_singleton]
        simp [hnot]
      · rw [if_neg hrest, if_neg hrest, hitem]
  | @landed depth id array array' data hdepth hdata hex =>
    cases q with
    | nil => exact ⟨fun h => absurd List.nil_prefix h, rfl⟩
    | cons j rest =>
      have hj : j ≠ id := by
        rintro rfl
        exact hbelow (by simp)
      exact ⟨fun _ => hex.foundAt_other hj rest, hex.ghostsAt_other hj rest⟩
  | @passed depth id rest array array' children data hdepth hrest hdata hopens hex hround ih =>
    cases q with
    | nil => exact ⟨fun h => absurd List.nil_prefix h, rfl⟩
    | cons j tail =>
      by_cases hj : j = id
      · subst hj
        have htype := hasChildren_typed (passType_typed hopens)
        have htail : ¬ rest <+: tail := fun h => hbelow (List.cons_prefix_cons.2 ⟨rfl, h⟩)
        obtain ⟨hfound, hghosts⟩ := ih htail
        by_cases hnil : tail = []
        · subst hnil
          refine ⟨fun h => absurd (by simp) h, ?_⟩
          rw [ghostsAt, if_pos rfl, ghostsAt, if_pos rfl, hex.ghosts, if_neg fun h => htype h.2]
          rfl
        · refine ⟨fun h => ?_, ?_⟩
          · rw [foundAt_cons (hex.passed hopens) hnil, hdata.foundAt_cons hnil]
            exact hfound fun hleads => h (List.cons_prefix_cons.2 ⟨rfl, hleads⟩)
          · rw [ghostsAt_cons hnil, hex.passed hopens, hdata.ghostsAt_cons hnil]
            exact hghosts
      · exact ⟨fun _ => hex.foundAt_other hj tail, hex.ghostsAt_other hj tail⟩

theorem reach_blocked (hq : q ≠ []) (hleads : q <+: path) (hne : q ≠ path)
    (hdepth : depth + path.length ≤ 4) (hunique : FoundUnique (3 - depth) array) {data : Lwm2mData}
    (hfound : foundAt q array = some data) (hvalue : data.type.hasChildren = false) :
    reach land depth path array = .error (some .wrongArm) := by
  induction path generalizing depth array q with
  | nil => exact absurd (List.prefix_nil.1 hleads) hq
  | cons id rest ih =>
    rw [List.length_cons] at hdepth
    rcases List.prefix_cons_iff.1 hleads with rfl | ⟨tail, rfl, htail⟩
    · exact absurd rfl hq
    · have hrest : rest ≠ [] := by
        rintro rfl
        exact hne (by rw [List.prefix_nil.1 htail])
      have := List.length_pos_of_ne_nil hrest
      have h3 : depth ≠ 3 := by omega
      have hlevels : 3 - depth = (3 - (depth + 1)) + 1 := by omega
      rw [hlevels] at hunique
      rw [reach_cons land h3]
      obtain ⟨item, wrap, hdata, hwith, -⟩ := withItem_exchanged hunique.1 depth id
        (reachIn land depth rest)
      rw [hwith, reachIn, if_neg hrest]
      by_cases hnil : tail = []
      · subst hnil
        rw [foundAt_single] at hfound
        have hitem : item = data := by
          rcases hdata with h | ⟨h, -⟩
          · exact Option.some.inj (h.symm.trans hfound)
          · rw [hfound] at h
            nomatch h
        have hopens : ¬ Opens depth item.type := by
          rw [hitem]
          rintro (hopens | ⟨-, hopens⟩)
          · rw [hvalue] at hopens
            nomatch hopens
          · exact (foundItem_some hfound).2.1 hopens
        rw [if_neg hopens]
        rfl
      · rw [hdata.foundAt_cons hnil] at hfound
        by_cases hopens : Opens depth item.type
        · rw [if_pos hopens, ih hnil htail (fun h => hne (by rw [h])) (by omega)
            (target_children_unique hunique hdata) hfound]
          rfl
        · rw [if_neg hopens]
          rfl

theorem reach_error (hdepth : depth + path.length ≤ 4) (hunique : FoundUnique (3 - depth) array)
    (hmax : ∀ id ∈ path.dropLast, id ≠ lwm2mMaxId) {e : Option Fault}
    (h : reach land depth path array = .error e) :
    e = some .wrongArm ∧ ∃ q data, q ≠ [] ∧ q <+: path ∧ q ≠ path ∧
      foundAt q array = some data ∧ data.type.hasChildren = false := by
  induction path generalizing depth array with
  | nil => nomatch h
  | cons id rest ih =>
    rw [List.length_cons] at hdepth
    by_cases h3 : depth = 3
    · rw [reach, if_pos h3] at h
      nomatch h
    · have hlevels : 3 - depth = (3 - (depth + 1)) + 1 := by omega
      rw [hlevels] at hunique
      rw [reach_cons land h3] at h
      obtain ⟨data, wrap, hdata, hwith, -⟩ := withItem_exchanged hunique.1 depth id
        (reachIn land depth rest)
      rw [hwith, reachIn] at h
      by_cases hrest : rest = []
      · rw [if_pos hrest] at h
        nomatch h
      · rw [if_neg hrest] at h
        have hdrop : (id :: rest).dropLast = id :: rest.dropLast := List.dropLast_cons_of_ne_nil hrest
        have hid : id ≠ lwm2mMaxId := hmax id (by rw [hdrop]; exact List.mem_cons_self)
        by_cases hopens : Opens depth data.type
        · rw [if_pos hopens] at h
          cases hreach : reach land (depth + 1) rest data.children with
          | ok children =>
            rw [hreach] at h
            nomatch h
          | error e' =>
            rw [hreach] at h
            obtain rfl := Except.error.inj h
            obtain ⟨he, q, value, hq, hleads, hne, hfound, hvalue⟩ := ih (by omega)
              (target_children_unique hunique hdata)
              (fun j hj => hmax j (by rw [hdrop]; exact List.mem_cons_of_mem _ hj)) hreach
            refine ⟨he, id :: q, value, by simp, List.cons_prefix_cons.2 ⟨rfl, hleads⟩,
              fun h => hne (List.cons.inj h).2, ?_, hvalue⟩
            rw [hdata.foundAt_cons hq, hfound]
        · rw [if_neg hopens] at h
          obtain rfl := Except.error.inj h
          refine ⟨rfl, [id], data, by simp, by simp, by simpa using fun h => hrest h, ?_, ?_⟩
          · rw [foundAt_single]
            rcases hdata with hfound | ⟨-, rfl⟩
            · exact hfound
            · exact absurd (opens_levelType (by omega) hid) hopens
          · exact Bool.eq_false_iff.mpr fun h => hopens (.inl h)

end Rounds

end Wakaama
