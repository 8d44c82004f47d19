import Wakaama.Data.Proofs.SenmlBuilders

/-!
# When the two SenML tree builders agree

What two builders have put below a node does not matter where a record that is still to come ends
at the node. `Agree` is equality of trees but for such nodes; the rounds of both builders keep it.
-/

namespace Wakaama

/-- The trees are the same, except below the nodes of which `ends` says that they are dropped. The
path leads to the arrays, which have a number of levels. -/
def Agree (ends : List UInt16 → Prop) : Nat → List UInt16 → List Lwm2mData → List Lwm2mData → Prop
  | 0, _, xs, ys => xs = ys
  | levels + 1, path, xs, ys =>
    List.Forall₂ (fun x y => x = y ∨ x.id = y.id ∧ x.type = y.type ∧ x.type ≠ .undefined ∧
      (ends (path ++ [x.id]) ∨ x.value = .asChildren x.children ∧ y.value = .asChildren y.children ∧
        Agree ends levels (path ++ [x.id]) x.children y.children)) xs ys

def AgreeAt (ends : List UInt16 → Prop) (levels : Nat) (path : List UInt16) (x y : Lwm2mData) :
    Prop :=
  x = y ∨ x.id = y.id ∧ x.type = y.type ∧ x.type ≠ .undefined ∧
    (ends (path ++ [x.id]) ∨ x.value = .asChildren x.children ∧ y.value = .asChildren y.children ∧
      Agree ends levels (path ++ [x.id]) x.children y.children)

section Agreement

variable {ends ends' : List UInt16 → Prop} {levels : Nat} {path : List UInt16}
  {xs ys : List Lwm2mData}

theorem agree_succ : Agree ends (levels + 1) path xs ys ↔
    List.Forall₂ (AgreeAt ends levels path) xs ys := Iff.rfl

variable {x : Lwm2mData} {id : UInt16} {depth : Nat} {landC landJ : Lwm2mData → Lwm2mData}

theorem AgreeAt.same {y : Lwm2mData} (h : AgreeAt ends levels path x y) :
    x.id = y.id ∧ x.type = y.type := by
  rcases h with rfl | ⟨hid, htype, -⟩
  · exact ⟨rfl, rfl⟩
  · exact ⟨hid, htype⟩

theorem agree_refl (levels : Nat) (path : List UInt16) (xs : List Lwm2mData) :
    Agree ends levels path xs xs := by
  cases levels with
  | zero => rfl
  | succ levels => exact List.forall₂_same.2 fun x _ => .inl rfl

theorem Agree.mono (h : Agree ends levels path xs ys)
    (hends : ∀ q, path <+: q → q ≠ path → ends q → ends' q) : Agree ends' levels path xs ys := by
  induction levels generalizing path xs ys with
  | zero => exact h
  | succ levels ih =>
    refine List.Forall₂.imp (fun x y hxy => ?_) h
    rcases hxy with rfl | ⟨hid, htype, htyped, hbelow⟩
    · exact .inl rfl
    · refine .inr ⟨hid, htype, htyped, ?_⟩
      rcases hbelow with hends' | ⟨hx, hy, hbelow⟩
      · exact .inl (hends _ (List.prefix_append _ _) (by simp) hends')
      · refine .inr ⟨hx, hy, ih hbelow fun q hq _ => ?_⟩
        refine hends q ((List.prefix_append path [x.id]).trans hq) ?_
        rintro rfl
        have := hq.length_le
        simp at this

theorem Agree.eq (h : Agree ends levels path xs ys) (hends : ∀ q, ¬ ends q) : xs = ys := by
  induction levels generalizing path xs ys with
  | zero => exact h
  | succ levels ih =>
    have hsame : List.Forall₂ (fun x y => x = y) xs ys := by
      refine List.Forall₂.imp (fun x y hxy => ?_) h
      rcases hxy with rfl | ⟨hid, htype, -, hbelow⟩
      · rfl
      · rcases hbelow with hends' | ⟨hx, hy, hbelow⟩
        · exact absurd hends' (hends _)
        · have hchildren := ih hbelow
          cases x with
          | node type id value =>
            cases y with
            | node type' id' value' =>
              obtain rfl : id = id' := hid
              obtain rfl : type = type' := htype
              have hvalue : value = .asChildren _ := hx
              have hvalue' : value' = .asChildren _ := hy
              rw [hvalue, hvalue', hchildren]
    exact List.forall₂_eq_eq_eq ▸ hsame

theorem splitFirst_agree (h : List.Forall₂ (AgreeAt ends levels path) xs ys) (id : UInt16) :
    (∃ before x after before' y after', xs = before ++ x :: after ∧ ys = before' ++ y :: after' ∧
      List.Forall₂ (AgreeAt ends levels path) before before' ∧ AgreeAt ends levels path x y ∧
      List.Forall₂ (AgreeAt ends levels path) after after' ∧ findable id x = true ∧
      splitFirst (findable id) xs = some (before, x, after) ∧
      splitFirst (findable id) ys = some (before', y, after')) ∨
    ((∀ x ∈ xs, findable id x = false) ∧ splitFirst (findable id) xs = none ∧
      splitFirst (findable id) ys = none) := by
  induction h with
  | nil => exact .inr ⟨fun x hx => absurd hx List.not_mem_nil, rfl, rfl⟩
  | @cons x y xs ys hxy hrest ih =>
    obtain ⟨hid, htype⟩ := hxy.same
    have hsame : findable id x = findable id y := by rw [findable, findable, hid, htype]
    by_cases hx : findable id x = true
    · refine .inl ⟨[], x, xs, [], y, ys, rfl, rfl, .nil, hxy, hrest, hx, ?_, ?_⟩
      · rw [splitFirst, if_pos hx]
      · rw [splitFirst, if_pos (hsame ▸ hx)]
    · have hy : ¬ findable id y = true := hsame ▸ hx
      rcases ih with ⟨before, z, after, before', z', after', rfl, rfl, hbefore, hz, hafter, hfound,
          hsplit, hsplit'⟩ | ⟨hnone, hsplit, hsplit'⟩
      · refine .inl ⟨x :: before, z, after, y :: before', z', after', rfl, rfl,
          .cons hxy hbefore, hz, hafter, hfound, ?_, ?_⟩
        · rw [splitFirst, if_neg hx, hsplit]
          rfl
        · rw [splitFirst, if_neg hy, hsplit']
          rfl
      · refine .inr ⟨fun w hw => ?_, ?_, ?_⟩
        · rcases List.mem_cons.1 hw with rfl | hw
          · exact Bool.eq_false_iff.2 hx
          · exact hnone w hw
        · rw [splitFirst, if_neg hx, hsplit]
          rfl
        · rw [splitFirst, if_neg hy, hsplit']
          rfl

theorem withItem_found {array before after : List Lwm2mData} {data : Lwm2mData}
    (h : splitFirst (findable id) array = some (before, data, after)) (type : DataType)
    (f : Lwm2mData → Conversion Lwm2mData) :
    withItem array id type f = (f data).map fun data => before ++ data :: after := by
  unfold withItem
  rw [show (fun data : Lwm2mData => data.type != .undefined && data.id == id) = findable id from rfl,
    h]
  rfl

theorem withItem_notFound {array : List Lwm2mData} (h : splitFirst (findable id) array = none)
    (type : DataType) (f : Lwm2mData → Conversion Lwm2mData) :
    withItem array id type f = (f (.node type id .zero)).map fun data => array ++ [data] := by
  unfold withItem
  rw [show (fun data : Lwm2mData => data.type != .undefined && data.id == id) = findable id from rfl,
    h]
  rfl

theorem map_eq_ok {α β : Type} {x : Conversion α} {f : α → β} {b : β} (h : x.map f = .ok b) :
    ∃ a, x = .ok a ∧ f a = b := by
  cases x with
  | error e => nomatch h
  | ok a => exact ⟨a, rfl, Except.ok.inj h⟩

theorem agree_others {rest : List UInt16} (hends : ∀ q, ends q → ends' q ∨ q = path ++ id :: rest)
    (hothers : ∀ x ∈ xs, findable id x = false)
    (h : List.Forall₂ (AgreeAt ends levels path) xs ys) :
    List.Forall₂ (AgreeAt ends' levels path) xs ys := by
  have hboth := (List.forall₂_and_left (p := fun x => findable id x = false) xs ys).2 ⟨hothers, h⟩
  refine List.Forall₂.imp (fun x y hxy => ?_) hboth
  obtain ⟨hnot, hxy⟩ := hxy
  rcases hxy with rfl | ⟨hid, htype, htyped, hbelow⟩
  · exact .inl rfl
  · have hne : x.id ≠ id := by
      rintro rfl
      rw [findable_iff.2 ⟨htyped, rfl⟩] at hnot
      nomatch hnot
    refine .inr ⟨hid, htype, htyped, ?_⟩
    rcases hbelow with hdropped | ⟨hx, hy, hbelow⟩
    · rcases hends _ hdropped with hdropped | heq
      · exact .inl hdropped
      · exact absurd (List.cons.inj (List.append_cancel_left heq)).1 hne
    · refine .inr ⟨hx, hy, hbelow.mono fun q hq _ hdropped => ?_⟩
      rcases hends q hdropped with hdropped | rfl
      · exact hdropped
      · have hleads := List.prefix_append_right_inj path |>.1 hq
        exact absurd (List.cons_prefix_cons.1 hleads).1 hne

/-- When a round of two builders keeps the agreement: they make the same of every node, or of the
new node at the end of the path, or the node at the end is dropped later. -/
def SameEnd (landC landJ : Lwm2mData → Lwm2mData) (ends : List UInt16 → Prop) (depth : Nat)
    (path route : List UInt16) (xs : List Lwm2mData) : Prop :=
  (∀ x y : Lwm2mData, x.id = y.id → landC x = landJ y) ∨
    (∃ s, s ≠ [] ∧ Above s route ∧ ends (path ++ s)) ∨
    (depth + route.length < 4 → foundAt route xs = none) ∧
      ∀ id, landC (.node (baseType depth route) id .zero) =
        landJ (.node (baseType depth route) id .zero)

theorem SameEnd.single (h : SameEnd landC landJ ends depth path [id] xs) {y : Lwm2mData}
    (hid : x.id = y.id)
    (hnew : (depth + 1 < 4 → foundAt [id] xs = none) → ∃ id', x = .node (levelType depth id) id' .zero ∧ y = x) :
    landC x = landJ y := by
  rcases h with h | ⟨s, hs, habove, -⟩ | ⟨hnone, hsame⟩
  · exact h x y hid
  · have hlt := habove.length_lt
    have hpos := List.length_pos_of_ne_nil hs
    rw [List.length_singleton] at hlt
    omega
  · obtain ⟨id', rfl, rfl⟩ := hnew hnone
    exact hsame id'

theorem SameEnd.below {rest : List UInt16} (hrest : rest ≠ [])
    (h : SameEnd landC landJ ends depth path (id :: rest) xs) (hkept : ¬ ends (path ++ [id]))
    (hx : Target depth id xs x) :
    SameEnd landC landJ ends (depth + 1) (path ++ [id]) rest x.children := by
  rcases h with h | ⟨s, hs, habove, hdropped⟩ | ⟨hnone, hsame⟩
  · exact .inl h
  · obtain ⟨hleads, hne⟩ := habove
    rcases List.prefix_cons_iff.1 hleads with rfl | ⟨tail, rfl, htail⟩
    · exact absurd rfl hs
    · by_cases hnil : tail = []
      · subst hnil
        exact absurd hdropped hkept
      · refine .inr (.inl ⟨tail, hnil, ⟨htail, fun heq => hne (by rw [heq])⟩, ?_⟩)
        rwa [List.append_assoc, List.singleton_append]
  · refine .inr (.inr ⟨fun hlength => ?_, fun id' => ?_⟩)
    · rw [← hx.foundAt_cons hrest]
      exact hnone (by rw [List.length_cons]; omega)
    · have hbase : baseType depth (id :: rest) = baseType (depth + 1) rest := if_neg hrest
      rw [← hbase]
      exact hsame id'

theorem agree_reach {route : List UInt16} (hroute : route ≠ []) (hdepth : depth + route.length ≤ 4)
    {xs' ys' : List Lwm2mData} (hunique : FoundUnique (3 - depth) xs)
    (hends : ∀ q, ends q → ends' q ∨ q = path ++ route)
    (hsame : SameEnd landC landJ ends' depth path route xs) (h : Agree ends (3 - depth) path xs ys)
    (hreachC : reach landC depth route xs = .ok xs')
    (hreachJ : reach landJ depth route ys = .ok ys') : Agree ends' (3 - depth) path xs' ys' := by
  induction route generalizing depth path xs ys xs' ys' with
  | nil => exact absurd rfl hroute
  | cons id rest ih =>
    rw [List.length_cons] at hdepth
    by_cases h3 : depth = 3
    · obtain rfl : rest = [] := List.length_eq_zero_iff.1 (by omega)
      subst h3
      obtain rfl : xs = ys := h
      obtain rfl := Except.ok.inj hreachC
      obtain rfl := Except.ok.inj hreachJ
      have hnew := hsame.single (x := .node .undefined id .zero) (y := .node .undefined id .zero) rfl
        fun _ => ⟨id, rfl, rfl⟩
      change xs ++ [_] = xs ++ [_]
      rw [hnew]
    · obtain ⟨levels, hlevels⟩ : ∃ levels, 3 - (depth + 1) = levels := ⟨_, rfl⟩
      have hsucc : 3 - depth = levels + 1 := by omega
      rw [hsucc] at hunique h ⊢
      rw [reach_cons landC h3] at hreachC
      rw [reach_cons landJ h3] at hreachJ
      -- what both builders make of the nodes at which they go on
      have hin : ∀ {x y x' y'}, Target depth id xs x → AgreeAt ends levels path x y →
          (rest = [] → (depth + 1 < 4 → foundAt [id] xs = none) →
            ∃ id', x = .node (levelType depth id) id' .zero ∧ y = x) →
          reachIn landC depth rest x = .ok x' → reachIn landJ depth rest y = .ok y' →
          AgreeAt ends' levels path x' y' := by
        intro x y x' y' hx hxy hnew hx' hy'
        obtain ⟨hid, htype⟩ := hxy.same
        rw [reachIn] at hx' hy'
        by_cases hrest : rest = []
        · subst hrest
          rw [if_pos rfl] at hx' hy'
          obtain rfl := Except.ok.inj hx'
          obtain rfl := Except.ok.inj hy'
          exact .inl (hsame.single hid (hnew rfl))
        · rw [if_neg hrest] at hx' hy'
          rw [← htype, ← hid] at hy'
          by_cases hopens : Opens depth x.type
          · rw [if_pos hopens] at hx' hy'
            obtain ⟨children, hchildren, rfl⟩ := map_eq_ok hx'
            obtain ⟨children', hchildren', rfl⟩ := map_eq_ok hy'
            refine .inr ⟨rfl, rfl, hasChildren_typed (passType_typed hopens), ?_⟩
            rw [show (Lwm2mData.node _ x.id (.asChildren children)).id = id from hx.id_eq]
            by_cases hdropped : ends' (path ++ [id])
            · exact .inl hdropped
            · have hbelow : Agree ends levels (path ++ [id]) x.children y.children := by
                rcases hxy with rfl | ⟨-, -, -, hdrop | ⟨-, -, hbelow⟩⟩
                · exact agree_refl levels _ _
                · rw [hx.id_eq] at hdrop
                  rcases hends _ hdrop with hdrop | heq
                  · exact absurd hdrop hdropped
                  · exact absurd (List.cons.inj (List.append_cancel_left heq)).2.symm hrest
                · rwa [hx.id_eq] at hbelow
              refine .inr ⟨rfl, rfl, ?_⟩
              have hunique' : FoundUnique (3 - (depth + 1)) x.children := by
                rw [hlevels]
                exact target_children_unique hunique hx
              have hends' : ∀ q, ends q → ends' q ∨ q = path ++ [id] ++ rest := by
                simpa using hends
              rw [← hlevels] at hbelow ⊢
              exact ih hrest (by omega) hunique' hends' (hsame.below hrest hdropped hx) hbelow
                hchildren hchildren'
          · rw [if_neg hopens] at hx'
            cases hx'
      rcases splitFirst_agree (agree_succ.1 h) id with
        ⟨before, x, after, before', y, after', rfl, rfl, hbefore, hxy, hafter, hfound, hsplit,
          hsplit'⟩ | ⟨hnone, hsplit, hsplit'⟩
      · rw [withItem_found hsplit] at hreachC
        rw [withItem_found hsplit'] at hreachJ
        obtain ⟨x', hx', rfl⟩ := map_eq_ok hreachC
        obtain ⟨y', hy', rfl⟩ := map_eq_ok hreachJ
        obtain ⟨htyped, rfl⟩ := findable_iff.1 hfound
        have hothers := (findUnique_middle htyped hunique.1).1
        have hitem : foundItem (before ++ x :: after) x.id = some x := by
          rw [foundItem_middle hothers, if_pos rfl, if_neg htyped]
        have hnew := hin (.inl hitem) hxy (fun _ hnone => by
          rw [foundAt_single, hitem] at hnone
          cases hnone (by omega)) hx' hy'
        have hbefore' := agree_others hends (fun z hz => hothers z (List.mem_append_left _ hz)) hbefore
        have hafter' := agree_others hends (fun z hz => hothers z (List.mem_append_right _ hz)) hafter
        exact agree_succ.2 (List.rel_append hbefore' (.cons hnew hafter'))
      · rw [withItem_notFound hsplit] at hreachC
        rw [withItem_notFound hsplit'] at hreachJ
        obtain ⟨x', hx', rfl⟩ := map_eq_ok hreachC
        obtain ⟨y', hy', rfl⟩ := map_eq_ok hreachJ
        have hnew := hin (.inr ⟨find?_none hnone, rfl⟩) (.inl rfl) (fun _ _ => ⟨id, rfl, rfl⟩) hx' hy'
        exact agree_succ.2 (List.rel_append (agree_others hends hnone h) (.cons hnew .nil))

end Agreement

/-! ## Runs -/

/-- Some of the records that are still to come ends at the path. -/
def EndsIn (later : List SenmlRecord) (q : List UInt16) : Prop := ∃ r ∈ later, r.key = q

theorem Unnoticed.baseType {earlier : List SenmlRecord} {record : SenmlRecord}
    (h : Unnoticed earlier record) : baseType 0 record.key = .undefined := by
  rcases baseType_cases (SenmlRecord.key_ne_nil record) with ⟨hshort, hne, -⟩ | ⟨-, hbase⟩
  · have hkey : record.path ≠ [] → record.key.length = record.path.length := fun hnil => by
      rw [SenmlRecord.key_of_path_ne_nil hnil]
    rcases h with h4 | ⟨h3 | hnil, -⟩
    · rw [hkey (fun h => by simp [h] at h4)] at hshort
      omega
    · rw [hkey (fun h => by simp [h] at h3)] at hshort
      omega
    · exact absurd (SenmlRecord.key_of_path_eq_nil hnil) hne
  · exact hbase

theorem sameEnd_of_unnoticed {earlier later : List SenmlRecord} {record : SenmlRecord}
    {cbor : List Lwm2mData}
    (hvalueless : ¬ record.hasValue →
      (∃ r ∈ later, Above r.key record.key) ∨ Unnoticed earlier record)
    (hnew : Unnoticed earlier record → record.path.length ≠ 4 → ¬ record.hasValue →
      foundAt record.key cbor = none) :
    SameEnd (landCbor record) (landJson record) (EndsIn later) 0 [] record.key cbor := by
  by_cases hvalue : record.hasValue
  · refine .inl fun x y hid => ?_
    unfold landCbor landJson landOn
    rw [if_neg (show ¬ record.info.1 = .undefined from hvalue), hid]
    rfl
  · rcases hvalueless hvalue with ⟨r, hr, habove⟩ | hunnoticed
    · exact .inr (.inl ⟨r.key, SenmlRecord.key_ne_nil r, habove, r, hr, rfl⟩)
    · refine .inr (.inr ⟨fun hlength => hnew hunnoticed (fun h4 => ?_) hvalue, fun id => ?_⟩)
      · have hkey : record.key = record.path :=
          SenmlRecord.key_of_path_ne_nil (by rintro h; simp [h] at h4)
        rw [hkey, h4] at hlength
        omega
      · have hbase := hunnoticed.baseType
        unfold landCbor landJson landOn
        rw [hbase, if_pos (show record.info.1 = .undefined from not_not.1 hvalue)]
        change Lwm2mData.node .undefined id record.value.value = _
        rw [show record.value.type = .undefined from not_not.1 hvalue]
        rfl

theorem agree_run {later : List SenmlRecord} (earlier : List SenmlRecord)
    (hparsed : ∀ r ∈ earlier ++ later, r.Parsed) (hvalueless : ValuelessUnnoticed (earlier ++ later))
    {cbor json cbor' json' : List Lwm2mData} (hearlier : builtBy landCbor [] earlier = .ok cbor)
    (hcbor : builtBy landCbor cbor later = .ok cbor') (hjson : builtBy landJson json later = .ok json')
    (h : Agree (EndsIn later) 3 [] cbor json) : cbor' = json' := by
  induction later generalizing earlier cbor json with
  | nil =>
    obtain rfl : cbor = cbor' := Except.ok.inj hcbor
    obtain rfl : json = json' := Except.ok.inj hjson
    exact h.eq fun q ⟨r, hr, _⟩ => List.not_mem_nil hr
  | cons record later ih =>
    obtain ⟨cbor₁, hreachCbor, hcbor⟩ := builtBy_cons.1 hcbor
    obtain ⟨json₁, hreachJson, hjson⟩ := builtBy_cons.1 hjson
    have hbefore : ∀ r ∈ earlier, r.Parsed := fun r hr => hparsed r (by simp [hr])
    have hkeyLength := SenmlRecord.key_length_le record
    have hunique := builtBy_unique landing_cbor hbefore (foundUnique_nil 3) hearlier
    have hsame : SameEnd (landCbor record) (landJson record) (EndsIn later) 0 [] record.key cbor := by
      refine sameEnd_of_unnoticed (hvalueless earlier record later rfl)
        fun hunnoticed h4 hvalue => ?_
      have hbase := hunnoticed.baseType
      rcases hunnoticed with h4' | ⟨hdeep, hfresh⟩
      · exact absurd h4' h4
      · by_contra hfound
        obtain ⟨r, hr, ⟨hkey, hhas | htyped⟩ | habove⟩ := record_found landing_cbor hbefore hearlier
          (key_length_of_ne h4) hfound
        · exact (hfresh r hr).1 ⟨hkey, hhas⟩
        · exact htyped hbase
        · exact (hfresh r hr).2 habove
    have hends : ∀ q, EndsIn (record :: later) q → EndsIn later q ∨ q = [] ++ record.key := by
      rintro q ⟨r, hr, rfl⟩
      rcases List.mem_cons.1 hr with rfl | hr
      · exact .inr rfl
      · exact .inl ⟨r, hr, rfl⟩
    have hsplit : earlier ++ record :: later = earlier ++ [record] ++ later := by simp
    refine ih (earlier ++ [record]) (by rwa [← hsplit]) (by rwa [← hsplit])
      (builtBy_last.2 ⟨cbor, hearlier, hreachCbor⟩) hcbor hjson ?_
    exact agree_reach (SenmlRecord.key_ne_nil record) (by omega) hunique hends hsame h hreachCbor
      hreachJson

/-- Both builders fail, or both return the same tree. -/
def BuildersAgree (json cbor : List SenmlRecord) : Prop :=
  senmlJsonConvertRecord json = .error none ∧
      prvConvertRecord prvConvertValue cbor = .error none ∨
    ∃ tree, senmlJsonConvertRecord json = .ok tree ∧ prvConvertRecord prvConvertValue cbor = .ok tree

theorem sameRecords_parsed {json cbor : List SenmlRecord} (h : List.Forall₂ SameRecord json cbor) :
    ∀ r ∈ cbor, r.Parsed := by
  induction h with
  | nil => exact fun r hr => absurd hr List.not_mem_nil
  | cons hrecord _ ih =>
    intro r hr
    rcases List.mem_cons.1 hr with rfl | hr
    · exact hrecord.parsed
    · exact ih r hr

/-- The tree builders of SenML-JSON and SenML-CBOR agree on an array of records exactly if no record
is led through a value, and every record without a value goes unnoticed or is dropped later. -/
theorem treeBuilders_agree_iff (json cbor : List SenmlRecord)
    (hsame : List.Forall₂ SameRecord json cbor) :
    BuildersAgree json cbor ↔ NoneThroughValue cbor ∧ ValuelessUnnoticed cbor := by
  have hparsed := sameRecords_parsed hsame
  by_cases hempty : cbor = []
  · subst hempty
    obtain rfl := List.forall₂_nil_right_iff.1 hsame
    refine iff_of_true (.inl ⟨rfl, rfl⟩) ⟨fun earlier record later h => ?_, fun earlier record later h => ?_⟩
    · simp at h
    · simp at h
  · have hjson : json ≠ [] := by
      rintro rfl
      exact hempty (List.forall₂_nil_left_iff.1 hsame)
    have hjsonRun : senmlJsonConvertRecord json = builtBy landJson [] cbor := by
      rw [senmlJsonConvertRecord, if_neg hjson, jsonRounds_eq_builtBy hsame]
    have hcborRun : prvConvertRecord prvConvertValue cbor = builtBy landCbor [] cbor := by
      rw [prvConvertRecord, if_neg hempty]
      exact buildTree_eq_builtBy hparsed
    unfold BuildersAgree
    rw [hjsonRun, hcborRun]
    constructor
    · rintro (⟨-, hfails⟩ | ⟨tree, hjsonTree, hcborTree⟩)
      · rw [← buildTree_eq_builtBy hparsed] at hfails
        nomatch buildTree_error hparsed hfails
      · exact ⟨noneThroughValue_of_built hparsed hcborTree,
          valuelessUnnoticed_of_same hparsed hcborTree hjsonTree⟩
    · rintro ⟨hnone, hvalueless⟩
      obtain ⟨cborTree, hcborTree⟩ := builtBy_ok landing_cbor hparsed hnone
      obtain ⟨jsonTree, hjsonTree⟩ := builtBy_ok landing_json hparsed hnone
      have heq : cborTree = jsonTree := agree_run [] hparsed hvalueless rfl hcborTree
        hjsonTree (agree_refl 3 [] [])
      exact .inr ⟨cborTree, by rw [hjsonTree, heq], hcborTree⟩

theorem pair_split {α : Type} {a b x : α} {earlier later : List α}
    (h : [a, b] = earlier ++ x :: later) :
    earlier = [] ∧ x = a ∧ later = [b] ∨ earlier = [a] ∧ x = b ∧ later = [] := by
  match earlier, h with
  | [], h =>
    obtain ⟨rfl, rfl⟩ := List.cons.inj h
    exact .inl ⟨rfl, rfl, rfl⟩
  | [_], h =>
    simp only [List.cons_append, List.nil_append, List.cons.injEq] at h
    obtain ⟨rfl, rfl, rfl⟩ := h
    exact .inr ⟨rfl, rfl, rfl⟩
  | _ :: _ :: rest, h =>
    have hlength := congrArg List.length h
    simp at hlength

/-- A quote in a string, which SenML-JSON escapes, and a resource without a value. -/
def escapedQuote : List SenmlRecord :=
  [⟨⟨3, 0, 0, lwm2mMaxId⟩, .node .string lwm2mMaxId (.asBuffer [104, 92, 34]), 0⟩,
    ⟨⟨3, 0, 9, lwm2mMaxId⟩, .node .undefined lwm2mMaxId .zero, 0⟩]

def plainQuote : List SenmlRecord :=
  [⟨⟨3, 0, 0, lwm2mMaxId⟩, .node .string lwm2mMaxId (.asBuffer [104, 34]), 0⟩,
    ⟨⟨3, 0, 9, lwm2mMaxId⟩, .node .undefined lwm2mMaxId .zero, 0⟩]

theorem escapedQuote_same : List.Forall₂ SameRecord escapedQuote plainQuote := by
  refine .cons ⟨rfl, ⟨by decide, by decide, by decide, trivial⟩, by decide, rfl, fun _ => rfl,
    fun h => absurd rfl h⟩ (.cons ⟨rfl, ⟨by decide, by decide, by decide, trivial⟩, by decide, rfl,
      (nomatch ·), fun _ => rfl⟩ .nil)

theorem plainQuote_noneThroughValue : NoneThroughValue plainQuote := by
  intro earlier record later hsplit before r behind hearlier hvalue habove
  rcases pair_split hsplit with ⟨rfl, rfl, rfl⟩ | ⟨rfl, rfl, rfl⟩
  · simp at hearlier
  · obtain ⟨rfl, hr⟩ := List.cons_eq_append_iff.1 hearlier |>.resolve_right (by simp)
    obtain ⟨rfl, rfl⟩ := List.cons.inj hr
    exact absurd habove (by decide)

theorem plainQuote_valuelessUnnoticed : ValuelessUnnoticed plainQuote := by
  intro earlier record later hsplit hvalue
  rcases pair_split hsplit with ⟨rfl, rfl, rfl⟩ | ⟨rfl, rfl, rfl⟩
  · exact absurd (by decide) hvalue
  · refine .inr (.inr ⟨.inl (by decide), fun r hr => ?_⟩)
    rw [List.mem_singleton.1 hr]
    decide

theorem escapedQuote_agree : BuildersAgree escapedQuote plainQuote :=
  (treeBuilders_agree_iff escapedQuote plainQuote escapedQuote_same).2
    ⟨plainQuote_noneThroughValue, plainQuote_valuelessUnnoticed⟩

/-- A record that names an object and has no value. -/
def objectAlone : List SenmlRecord :=
  [⟨⟨3, lwm2mMaxId, lwm2mMaxId, lwm2mMaxId⟩, .node .undefined lwm2mMaxId .zero, 0⟩]

/-- One builder gives an object without instances, the other a node without a type. -/
theorem objectAlone_disagree :
    List.Forall₂ SameRecord objectAlone objectAlone ∧ ¬ BuildersAgree objectAlone objectAlone := by
  refine ⟨.cons ⟨rfl, ⟨by decide, by decide, by decide, trivial⟩, by decide, rfl,
    (nomatch ·), fun _ => rfl⟩ .nil, ?_⟩
  have hjson : senmlJsonConvertRecord objectAlone = .ok [.node .undefined 3 .zero] := rfl
  have hcbor : prvConvertRecord prvConvertValue objectAlone = .ok [.node .object 3 .zero] := rfl
  rintro (⟨h, -⟩ | ⟨tree, h, h'⟩)
  · rw [hjson] at h
    nomatch h
  · rw [hjson] at h
    rw [hcbor] at h'
    obtain rfl := Except.ok.inj h
    nomatch Except.ok.inj h'

end Wakaama
