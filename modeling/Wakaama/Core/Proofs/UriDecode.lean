import Wakaama.Core.Proofs.StringToUri
import Wakaama.Misc.Run

/-!
# The paths that are decoded

`uri_decode` accepts the paths of requests and reads their ids, but for a few kinds of paths that it
accepts although they are none, or reads behind the end of.
-/

namespace Wakaama

/-! ## Segments -/

/-- The data of a segment is all there. -/
def MultiOption.Whole (option : MultiOption) : Prop := option.len.toNat ≤ option.data.length

variable {option first : MultiOption} {id : UInt16} {segment : List UInt8}
  {uriPath : List MultiOption} {allowed : Bool} {ids : List UInt16} {room : Nat}
  {segments : List (List UInt8)} {altPath : Option (List UInt8)}

theorem MultiOption.Whole.text_length (h : option.Whole) : option.text.length = option.len.toNat :=
  List.length_take_of_le h

theorem MultiOption.Whole.len_eq_zero (h : option.Whole) : option.len = 0 ↔ option.text = [] := by
  rw [← List.length_eq_zero_iff, h.text_length, ← UInt8.toNat_inj]
  rfl

theorem MultiOption.Whole.isSegment_iff (h : option.Whole) (segment : List UInt8) :
    option.isSegment segment = true ↔ option.text = segment := by
  unfold MultiOption.isSegment
  rw [Bool.and_eq_true, beq_iff_eq, beq_iff_eq, ← h.text_length]
  exact ⟨And.right, fun htext => ⟨congrArg List.length htext, htext⟩⟩

theorem uriGetNumber_iff (htext : option.text ≠ []) :
    uriGetNumber option = some id ↔ ReadsAs option.text id := by
  unfold uriGetNumber ReadsAs
  rw [Option.map_eq_some_iff]
  constructor
  · rintro ⟨⟨read, rest⟩, hread, rfl⟩
    obtain ⟨numeral, hnumeral, hsplit, hrest, hid, hvalue⟩ := (parseId_iff htext).1 hread
    exact ⟨numeral, rest, hsplit, hnumeral, hrest, hid, hvalue⟩
  · rintro ⟨numeral, rest, hsplit, hnumeral, hrest, hid, hvalue⟩
    exact ⟨(id, rest), (parseId_iff htext).2 ⟨numeral, hnumeral, hsplit, hrest, hid, hvalue⟩, rfl⟩

theorem ReadsAs.ne_maxId (h : ReadsAs segment id) : id ≠ lwm2mMaxId := by
  obtain ⟨numeral, rest, -, -, -, hid, rfl⟩ := h
  intro hmax
  have hvalue := congrArg UInt16.toNat hmax
  rw [Nat.toUInt16_eq, UInt16.toNat_ofNat'] at hvalue
  have hconst : lwm2mMaxId.toNat = 65535 := rfl
  omega

theorem ReadsAs.ne_nil (h : ReadsAs segment id) : segment ≠ [] := by
  obtain ⟨numeral, rest, rfl, hnumeral, -, -, -⟩ := h
  exact List.append_ne_nil_of_left_ne_nil hnumeral.nonempty rest

theorem ReadsAs.value (h : ReadsAs segment id) (hid : IsId segment) :
    id.toNat = numeralValue segment := by
  obtain ⟨numeral, rest, rfl, -, hrest, -, rfl⟩ := h
  have hend : rest = [] := by
    rcases hrest with hend | hslash
    · exact hend
    · obtain ⟨tail, rfl⟩ := List.head?_eq_some_iff.1 hslash
      exact absurd rfl (isDigit_ne_slash (hid.1.digits 47 (by simp)))
  subst hend
  have hsmall := hid.2
  rw [List.append_nil] at hsmall ⊢
  rw [Nat.toUInt16_eq, UInt16.toNat_ofNat']
  omega

/-! ## Ids -/

/-- The reads of `uri_decode` from the object on, with room for some more segments; `allowed` says
that the segment before is set. -/
def decodeIds : Nat → Bool → List MultiOption → Option (List UInt16)
  | _, _, [] => some []
  | 0, _, _ :: _ => none
  | room + 1, allowed, option :: uriPath =>
    if option.len = 0 then (decodeIds room false uriPath).map (lwm2mMaxId :: ·)
    else if allowed = false then none
    else do
      let id ← uriGetNumber option
      let ids ← decodeIds room true uriPath
      return id :: ids

/-- What the segments are read as: nothing where they are empty, and nothing behind that. -/
inductive DecodesAs : Nat → Bool → List (List UInt8) → List UInt16 → Prop where
  | nil (room : Nat) (allowed : Bool) : DecodesAs room allowed [] []
  | empty {room : Nat} {allowed : Bool} {segments : List (List UInt8)} {ids : List UInt16}
    (hnext : DecodesAs room false segments ids) :
    DecodesAs (room + 1) allowed ([] :: segments) (lwm2mMaxId :: ids)
  | id {room : Nat} {segment : List UInt8} {segments : List (List UInt8)} {id : UInt16}
    {ids : List UInt16} (hid : ReadsAs segment id) (hnext : DecodesAs room true segments ids) :
    DecodesAs (room + 1) true (segment :: segments) (id :: ids)

theorem decodeIds_iff (hwhole : ∀ option ∈ uriPath, option.Whole) :
    decodeIds room allowed uriPath = some ids ↔
      DecodesAs room allowed (uriPath.map MultiOption.text) ids := by
  induction uriPath generalizing room allowed ids with
  | nil =>
    constructor
    · intro h
      cases room <;> cases h <;> exact .nil _ _
    · intro h
      cases h
      cases room <;> rfl
  | cons option uriPath ih =>
    have hlen := (hwhole option List.mem_cons_self).len_eq_zero
    have hrest := fun other hother => hwhole other (List.mem_cons_of_mem option hother)
    cases room with
    | zero =>
      constructor
      · intro h
        nomatch h
      · intro h
        nomatch h
    | succ room =>
      rw [decodeIds, List.map_cons]
      by_cases hempty : option.text = []
      · rw [if_pos (hlen.2 hempty), hempty, Option.map_eq_some_iff]
        constructor
        · rintro ⟨next, hnext, rfl⟩
          exact .empty ((ih hrest).1 hnext)
        · intro h
          cases h with
          | empty hnext => exact ⟨_, (ih hrest).2 hnext, rfl⟩
          | id hid hnext => exact absurd rfl hid.ne_nil
      · rw [if_neg (fun h => hempty (hlen.1 h))]
        cases allowed with
        | false =>
          constructor
          · intro h
            nomatch h
          · intro h
            generalize htext : option.text = text at h
            cases h
            exact absurd htext hempty
        | true =>
          simp only [Bool.true_eq_false, if_false, Option.bind_eq_bind, Option.pure_def,
            Option.bind_eq_some_iff]
          constructor
          · rintro ⟨id, hid, next, hnext, heq⟩
            cases heq
            exact .id ((uriGetNumber_iff hempty).1 hid) ((ih hrest).1 hnext)
          · intro h
            generalize htext : option.text = text at h
            cases h with
            | empty hnext => exact absurd htext hempty
            | id hid hnext =>
              rw [← htext] at hid
              exact ⟨_, (uriGetNumber_iff hempty).2 hid, _, (ih hrest).2 hnext, rfl⟩

theorem uriGetNumber_ne_maxId (h : uriGetNumber option = some id) : id ≠ lwm2mMaxId := by
  rintro rfl
  obtain ⟨⟨read, rest⟩, hread, rfl⟩ := Option.map_eq_some_iff.1 h
  unfold parseId at hread
  split at hread
  · cases hread
  · split at hread
    · cases hread
    · rename_i readNum rest' hloop
      split at hread
      · cases hread
      · rename_i hrange
        have hid := congrArg UInt16.toNat (Prod.mk.inj (Option.some.inj hread)).1
        rw [Nat.toUInt16_eq, UInt16.toNat_ofNat'] at hid
        have hconst : lwm2mMaxId.toNat = 65535 := rfl
        omega

theorem uriDecodeIds_eq (hfirst : first.len ≠ 0) (uriPath : List MultiOption) :
    uriDecodeIds (first :: uriPath) = (decodeIds 4 true (first :: uriPath)).map uriFromIds := by
  unfold uriDecodeIds
  rw [decodeIds, if_neg hfirst]
  simp only [Bool.true_eq_false, if_false, Option.bind_eq_bind, Option.pure_def]
  cases hobject : uriGetNumber first with
  | none => rfl
  | some objectId =>
    simp only [Option.bind_some]
    cases uriPath with
    | nil => rfl
    | cons objectInstance uriPath =>
      by_cases hinstanceLen : objectInstance.len = 0
      · cases uriPath with
        | nil => simp [hinstanceLen, decodeIds, uriFromIds, Lwm2mUri.reset]
        | cons resource uriPath =>
          by_cases hresourceLen : resource.len = 0
          · cases uriPath with
            | nil => simp [hinstanceLen, hresourceLen, decodeIds, uriFromIds, Lwm2mUri.reset]
            | cons last uriPath =>
              by_cases hlastLen : last.len = 0 <;> cases uriPath <;>
                simp [hinstanceLen, hresourceLen, hlastLen, decodeIds, uriFromIds, Lwm2mUri.reset,
                  Lwm2mUri.isSetResource]
          · cases uriPath <;>
              simp [hinstanceLen, hresourceLen, decodeIds, Lwm2mUri.reset, Lwm2mUri.isSetInstance]
      · cases hinstance : uriGetNumber objectInstance with
        | none => cases uriPath <;> simp [hinstanceLen, hinstance, decodeIds]
        | some instanceId =>
          have hinstanceId := uriGetNumber_ne_maxId hinstance
          cases uriPath with
          | nil =>
            simp [hinstanceLen, hinstance, decodeIds, uriFromIds, Lwm2mUri.reset]
          | cons resource uriPath =>
            by_cases hresourceLen : resource.len = 0
            · cases uriPath with
              | nil =>
                simp [hinstanceLen, hinstance, hresourceLen, decodeIds, uriFromIds, Lwm2mUri.reset]
              | cons last uriPath =>
                by_cases hlastLen : last.len = 0 <;> cases uriPath <;>
                  simp [hinstanceLen, hinstance, hresourceLen, hlastLen, decodeIds, uriFromIds,
                    Lwm2mUri.reset, Lwm2mUri.isSetResource]
            · cases hresource : uriGetNumber resource with
              | none =>
                cases uriPath <;> simp [hinstanceLen, hinstance, hresourceLen, hresource, decodeIds]
              | some resourceId =>
                have hresourceId := uriGetNumber_ne_maxId hresource
                cases uriPath with
                | nil =>
                  simp [hinstanceLen, hinstance, hresourceLen, hresource, decodeIds, uriFromIds,
                    Lwm2mUri.reset, Lwm2mUri.isSetInstance, hinstanceId]
                | cons last uriPath =>
                  by_cases hlastLen : last.len = 0
                  · cases uriPath <;>
                      simp [hinstanceLen, hinstance, hresourceLen, hresource, hlastLen, decodeIds,
                        uriFromIds, Lwm2mUri.reset, Lwm2mUri.isSetInstance, hinstanceId]
                  · cases hlast : uriGetNumber last <;> cases uriPath <;>
                      simp [hinstanceLen, hinstance, hresourceLen, hresource, hlastLen, hlast,
                        decodeIds, uriFromIds, Lwm2mUri.reset, Lwm2mUri.isSetInstance,
                        Lwm2mUri.isSetResource, hinstanceId, hresourceId]

/-! ## What the ids are -/

theorem DecodesAs.get (h : DecodesAs room allowed segments ids) :
    ∀ (i : Nat) (id : UInt16), ids.getD i lwm2mMaxId = id → id ≠ lwm2mMaxId →
      ∃ segment, segments[i]? = some segment ∧ ReadsAs segment id := by
  induction h with
  | nil room allowed =>
    intro i id hget hset
    exact absurd hget.symm hset
  | empty hnext ih =>
    intro i id hget hset
    cases i with
    | zero => exact absurd hget.symm hset
    | succ i => exact ih i id hget hset
  | id hid hnext ih =>
    intro i id hget hset
    cases i with
    | zero =>
      obtain rfl : _ = id := hget
      exact ⟨_, rfl, hid⟩
    | succ i => exact ih i id hget hset

theorem DecodesAs.unset (h : DecodesAs room false segments ids) :
    ∀ i, ids.getD i lwm2mMaxId = lwm2mMaxId := by
  generalize hallowed : false = allowed at h
  induction h with
  | nil room allowed => exact fun _ => rfl
  | empty hnext ih =>
    intro i
    cases i with
    | zero => rfl
    | succ i => exact ih rfl i
  | id hid hnext ih => nomatch hallowed

theorem DecodesAs.closed (h : DecodesAs room allowed segments ids) :
    ∀ i, ids.getD i lwm2mMaxId = lwm2mMaxId → ids.getD (i + 1) lwm2mMaxId = lwm2mMaxId := by
  induction h with
  | nil room allowed => exact fun _ _ => rfl
  | empty hnext ih =>
    intro i hunset
    cases i with
    | zero => exact hnext.unset 0
    | succ i => exact ih i hunset
  | id hid hnext ih =>
    intro i hunset
    cases i with
    | zero => exact absurd hunset hid.ne_maxId
    | succ i => exact ih i hunset

theorem uriFromIds_closed
    (h : ∀ i, ids.getD i lwm2mMaxId = lwm2mMaxId → ids.getD (i + 1) lwm2mMaxId = lwm2mMaxId) :
    (uriFromIds ids).PrefixClosed := by
  simp only [Lwm2mUri.PrefixClosed, Lwm2mUri.isSetObject, Lwm2mUri.isSetInstance,
    Lwm2mUri.isSetResource, Lwm2mUri.isSetResourceInstance, uriFromIds, bne_iff_ne, ne_eq]
  exact ⟨fun hset hunset => hset (h 0 hunset), fun hset hunset => hset (h 1 hunset),
    fun hset hunset => hset (h 2 hunset)⟩

theorem uriFromIds_get {i : Nat} (h : (uriFromIds ids).ids[i]? = some id) :
    ids.getD i lwm2mMaxId = id := by
  match i, h with
  | 0, h => exact Option.some.inj h
  | 1, h => exact Option.some.inj h
  | 2, h => exact Option.some.inj h
  | 3, h => exact Option.some.inj h

/-- Segments are decoded if there is room for them, they are taken for ids or are empty, and only
the last of them are empty. -/
theorem decodesAs_exists (hlength : segments.length ≤ room)
    (hids : ∀ segment ∈ segments, segment = [] ∨ ∃ id, ReadsAs segment id)
    (hpairwise : segments.Pairwise fun segment next => segment = [] → next = [])
    (hallowed : allowed = false → ∀ segment ∈ segments, segment = []) :
    ∃ ids, DecodesAs room allowed segments ids := by
  induction segments generalizing room allowed with
  | nil => exact ⟨[], .nil room allowed⟩
  | cons segment segments ih =>
    obtain ⟨hfirst, htail⟩ := List.pairwise_cons.1 hpairwise
    have hrest := fun other hother => hids other (List.mem_cons_of_mem segment hother)
    cases room with
    | zero => simp at hlength
    | succ room =>
      have hroom : segments.length ≤ room := by simpa using hlength
      rcases hids segment List.mem_cons_self with rfl | ⟨id, hid⟩
      · have hempty := fun (_ : false = false) other hother => hfirst other hother rfl
        obtain ⟨ids, hnext⟩ := ih hroom hrest htail hempty
        exact ⟨_, .empty hnext⟩
      · cases allowed with
        | false => exact absurd (hallowed rfl segment List.mem_cons_self) hid.ne_nil
        | true =>
          have hfree : true = false → ∀ segment ∈ segments, segment = [] := nofun
          obtain ⟨ids, hnext⟩ := ih hroom hrest htail hfree
          exact ⟨_, .id hid hnext⟩

theorem DecodesAs.loose (h : DecodesAs room allowed segments ids) :
    segments.length ≤ room ∧ (∀ segment ∈ segments, segment = [] ∨ ∃ id, ReadsAs segment id) ∧
      (segments.Pairwise fun segment next => segment = [] → next = []) ∧
      (allowed = false → ∀ segment ∈ segments, segment = []) := by
  induction h with
  | nil room allowed =>
    exact ⟨Nat.zero_le _, List.forall_mem_nil _, .nil, fun _ => List.forall_mem_nil _⟩
  | empty hnext ih =>
    obtain ⟨hlength, hids, hpairwise, hempty⟩ := ih
    refine ⟨Nat.succ_le_succ hlength, List.forall_mem_cons.2 ⟨.inl rfl, hids⟩,
      List.pairwise_cons.2 ⟨fun other hother _ => hempty rfl other hother, hpairwise⟩, fun _ => ?_⟩
    exact List.forall_mem_cons.2 ⟨rfl, hempty rfl⟩
  | id hid hnext ih =>
    obtain ⟨hlength, hids, hpairwise, -⟩ := ih
    exact ⟨Nat.succ_le_succ hlength, List.forall_mem_cons.2 ⟨.inr ⟨_, hid⟩, hids⟩,
      List.pairwise_cons.2 ⟨fun _ _ hempty => absurd hempty hid.ne_nil, hpairwise⟩,
      fun h => nomatch h⟩

/-! ## Behind the alternate path -/

/-- What `uri_decode` makes of the segments behind the alternate path. -/
structure DmDecoded (segments : List (List UInt8)) (out : RequestType × Lwm2mUri) : Prop where
  known : out.1 ≠ .unknown ↔ LooseIds segments
  reset : out.1 = .unknown → out.2 = .reset
  type : out.1 ≠ .registration
  closed : out.2.PrefixClosed
  ids : ∀ (i : Nat) (id : UInt16), out.2.ids[i]? = some id → id ≠ lwm2mMaxId →
    ∃ segment, segments[i]? = some segment ∧ ReadsAs segment id

theorem reset_ids {i : Nat} (h : Lwm2mUri.reset.ids[i]? = some id) : id = lwm2mMaxId := by
  have hmem := List.mem_of_getElem? h
  simp only [Lwm2mUri.ids, Lwm2mUri.reset, List.mem_cons, List.not_mem_nil, or_false, or_self]
    at hmem
  exact hmem

theorem reset_closed : Lwm2mUri.reset.PrefixClosed := by decide

theorem uriDecodeDm_spec (hwhole : ∀ option ∈ uriPath, option.Whole) (code : UInt8) :
    DmDecoded (uriPath.map MultiOption.text) (uriDecodeDm uriPath code) := by
  have hreset : ∀ {segments : List (List UInt8)}, LooseIds segments → DmDecoded segments
      (if code = coapDelete then RequestType.deleteAll else .dm, .reset) := by
    intro segments hloose
    refine ⟨⟨fun _ => hloose, fun _ => ?_⟩, fun _ => rfl, ?_, reset_closed,
      fun i id hget hset => absurd (reset_ids hget) hset⟩
    · split <;> nofun
    · split <;> nofun
  cases uriPath with
  | nil => exact hreset (.inr ⟨Nat.zero_le _, List.forall_mem_nil _, .nil⟩)
  | cons first uriPath =>
    have hlen := (hwhole first List.mem_cons_self).len_eq_zero
    unfold uriDecodeDm
    by_cases hempty : first.text = []
    · have hzero : first.len = 0 := hlen.2 hempty
      simp only [List.head?_cons, Option.all_some, hzero, beq_self_eq_true, if_true]
      exact hreset (.inl (by simp [hempty]))
    · have hzero : first.len ≠ 0 := fun h => hempty (hlen.1 h)
      simp only [List.head?_cons, Option.all_some, beq_iff_eq, hzero, if_false,
        uriDecodeIds_eq hzero]
      cases hdecode : decodeIds 4 true (first :: uriPath) with
      | none =>
        simp only [Option.map_none]
        refine ⟨⟨fun h => absurd rfl h, fun hloose => ?_⟩, fun _ => rfl, nofun, reset_closed,
          fun i id hget hset => absurd (reset_ids hget) hset⟩
        rcases hloose with hhead | ⟨hlength, hids, hpairwise⟩
        · exact absurd (Option.some.inj hhead) hempty
        · have hfree : true = false →
              ∀ segment ∈ (first :: uriPath).map MultiOption.text, segment = [] := nofun
          obtain ⟨ids, hids⟩ := decodesAs_exists hlength hids hpairwise hfree
          exact nomatch hdecode.symm.trans ((decodeIds_iff hwhole).2 hids)
      | some ids =>
        simp only [Option.map_some]
        have hids := (decodeIds_iff hwhole).1 hdecode
        obtain ⟨hlength, hloose, hpairwise, -⟩ := hids.loose
        exact ⟨⟨fun _ => .inr ⟨hlength, hloose, hpairwise⟩, fun _ => nofun⟩, nofun, nofun,
          uriFromIds_closed hids.closed,
          fun i id hget hset => hids.get i id (uriFromIds_get hget) hset⟩

/-! ## The alternate path -/

theorem altPathMatches_true (data altPath : List UInt8) :
    altPathMatches data altPath = .ok true ↔ data <+: altPath := by
  induction data generalizing altPath with
  | nil => exact iff_of_true rfl List.nil_prefix
  | cons byte data ih =>
    cases altPath with
    | nil => simp [altPathMatches]
    | cons expected altPath =>
      rw [altPathMatches, List.cons_prefix_cons]
      by_cases hbyte : byte = expected
      · simp [hbyte, ih]
      · simp [hbyte]

theorem altPathMatches_error (data altPath : List UInt8) :
    (∃ fault, altPathMatches data altPath = .error fault) ↔ altPath <+: data ∧ altPath ≠ data := by
  induction data generalizing altPath with
  | nil =>
    refine iff_of_false (fun ⟨fault, h⟩ => nomatch h) fun ⟨hstarts, hne⟩ => ?_
    exact hne (List.prefix_nil.1 hstarts)
  | cons byte data ih =>
    cases altPath with
    | nil => exact iff_of_true ⟨_, rfl⟩ ⟨List.nil_prefix, nofun⟩
    | cons expected altPath =>
      rw [altPathMatches, List.cons_prefix_cons]
      by_cases hbyte : byte = expected
      · simp [hbyte, ih]
      · simp [hbyte, Ne.symm hbyte]

theorem prefix_terminated {data altPath : List UInt8} (hnul : 0 ∉ data) :
    data <+: (altPath ++ [0]).drop 1 ↔ data <+: altPath.drop 1 := by
  cases altPath with
  | nil => rfl
  | cons first altPath =>
    rw [List.cons_append, List.drop_one, List.drop_one, List.tail_cons, List.tail_cons,
      List.prefix_concat_iff]
    refine ⟨fun h => h.resolve_left fun heq => ?_, .inr⟩
    exact hnul (heq ▸ List.mem_append_right altPath List.mem_cons_self)

/-! ## The path -/

theorem uriDecodeAltPathRead_none (uriPath : List MultiOption) (code : UInt8) :
    uriDecodeAltPathRead none uriPath code = .ok (uriDecodeDm uriPath code) := by
  cases uriPath <;> rfl

theorem not_reserved_iff : isReserved segment = false ↔
    segment ≠ uriRegistrationSegment ∧ segment ≠ uriBootstrapSegment ∧
      segment ≠ uriSendSegment := by
  simp [isReserved]

theorem uriDecodeRead_notReserved (hfirst : first.Whole) (hreserved : isReserved first.text = false)
    (uriPath : List MultiOption) (code : UInt8) :
    uriDecodeRead altPath (first :: uriPath) code =
      uriDecodeAltPathRead altPath (first :: uriPath) code := by
  obtain ⟨hregistration, hbootstrap, hsend⟩ := not_reserved_iff.1 hreserved
  unfold uriDecodeRead
  dsimp only
  rw [if_neg (fun h => hregistration ((hfirst.isSegment_iff _).1 h)),
    if_neg (fun h => hbootstrap ((hfirst.isSegment_iff _).1 h)),
    if_neg (fun h => hsend ((hfirst.isSegment_iff _).1 h))]

theorem uriDecodeRead_none (hwhole : ∀ option ∈ uriPath, option.Whole)
    (hreserved : (uriPath.map MultiOption.text).head?.all fun first => !isReserved first)
    (code : UInt8) : uriDecodeRead none uriPath code = .ok (uriDecodeDm uriPath code) := by
  cases uriPath with
  | nil => rfl
  | cons first uriPath =>
    have hfirst : isReserved first.text = false := by simpa using hreserved
    rw [uriDecodeRead_notReserved (hwhole first List.mem_cons_self) hfirst,
      uriDecodeAltPathRead_none]

/-- A path whose first segment has no NUL in it is decoded as by `uriDecode`, where nothing else is
read. -/
theorem uriDecodeRead_ok {code : UInt8} {out : RequestType × Lwm2mUri}
    (hnul : ∀ first ∈ uriPath.head?, 0 ∉ first.text)
    (h : uriDecodeRead altPath uriPath code = .ok out) : uriDecode altPath uriPath code = out := by
  have haltPath : ∀ {out : RequestType × Lwm2mUri},
      uriDecodeAltPathRead altPath uriPath code = .ok out →
        uriDecodeAltPath altPath uriPath code = out := by
    intro out h
    cases altPath with
    | none =>
      rw [uriDecodeAltPathRead_none] at h
      exact Except.ok.inj h
    | some path =>
      cases uriPath with
      | nil => exact Except.ok.inj h
      | cons first uriPath =>
        have hsame : first.text <+: (path ++ [0]).drop 1 ↔ first.text <+: path.drop 1 :=
          prefix_terminated (hnul first rfl)
        obtain ⟨found, hmatches, rfl⟩ := exceptMap_inv h
        have hfound : first.text.isPrefixOf (path.drop 1) = found := by
          cases found with
          | true => exact List.isPrefixOf_iff_prefix.2 (hsame.1 ((altPathMatches_true _ _).1 hmatches))
          | false =>
            refine Bool.eq_false_iff.2 fun hyes => ?_
            have hyes := (altPathMatches_true _ _).2 (hsame.2 (List.isPrefixOf_iff_prefix.1 hyes))
            cases hyes.symm.trans hmatches
        simp only [uriDecodeAltPath, hfound]
  unfold uriDecodeRead at h
  unfold uriDecode
  cases uriPath with
  | nil => exact haltPath h
  | cons first uriPath =>
    dsimp only at h ⊢
    split at h
    · rename_i hregistration
      rw [if_pos hregistration]
      cases uriPath with
      | nil => exact Except.ok.inj h
      | cons object uriPath =>
        dsimp only at h ⊢
        split at h
        · cases h
        · cases hread : uriGetNumber object <;> rw [hread] at h <;> exact Except.ok.inj h
    · rename_i hregistration
      rw [if_neg hregistration]
      split at h
      · rename_i hbootstrap
        rw [if_pos hbootstrap]
        exact Except.ok.inj h
      · rename_i hbootstrap
        rw [if_neg hbootstrap]
        split at h
        · rename_i hsend
          rw [if_pos hsend]
          exact Except.ok.inj h
        · rename_i hsend
          rw [if_neg hsend]
          exact haltPath h

theorem RequestPath.location_isId (h : RequestPath altPath [uriRegistrationSegment, segment])
    (hne : segment ≠ []) : IsId segment := by
  generalize hpath : [uriRegistrationSegment, segment] = path at h
  cases h with
  | registration => nomatch hpath
  | location hid =>
    cases hpath
    exact hid
  | bootstrap => nomatch hpath
  | send => nomatch hpath
  | @ids segments hlength hids =>
    have hmem : segment ∈ segments := by
      cases altPath with
      | none =>
        obtain rfl : [uriRegistrationSegment, segment] = segments := hpath
        simp
      | some path =>
        obtain rfl : [segment] = segments := List.tail_eq_of_cons_eq hpath
        simp
    exact (hids segment hmem).resolve_left hne

theorem RequestPath.ids_isId (h : RequestPath altPath segments)
    (hreserved : segments.head?.all fun first => !isReserved first) :
    ∀ segment ∈ segments.drop altPath.toList.length, segment ≠ [] → IsId segment := by
  intro segment hmem hne
  cases h with
  | registration => nomatch hreserved
  | location hid => nomatch hreserved
  | bootstrap => nomatch hreserved
  | send => nomatch hreserved
  | ids hlength hids =>
    rw [List.drop_left' (List.length_map _)] at hmem
    exact (hids segment hmem).resolve_left hne

theorem decodedRight_unknown (altPath : Option (List UInt8)) (segments : List (List UInt8)) :
    DecodedRight altPath segments (.unknown, .reset) where
  listed h := absurd rfl h
  reset _ := rfl
  closed := reset_closed
  ids _ _ hget hset := absurd (reset_ids hget) hset

theorem decodedRight_reset (type : RequestType) (h : RequestPath altPath segments) :
    DecodedRight altPath segments (type, .reset) where
  listed _ := h
  reset _ := rfl
  closed := reset_closed
  ids _ _ hget hset := absurd (reset_ids hget) hset

theorem DmDecoded.right {out : RequestType × Lwm2mUri}
    (h : DmDecoded (segments.drop altPath.toList.length) out)
    (hreserved : segments.head?.all fun first => !isReserved first)
    (hpath : LooseIds (segments.drop altPath.toList.length) → RequestPath altPath segments) :
    DecodedRight altPath segments out := by
  by_cases hknown : out.1 = .unknown
  · obtain ⟨type, uri⟩ := out
    obtain rfl : type = .unknown := hknown
    obtain rfl := h.reset rfl
    exact decodedRight_unknown altPath segments
  · have hrequest := hpath (h.known.1 hknown)
    refine ⟨fun _ => hrequest, fun htype => absurd htype hknown, h.closed,
      fun i id hget hset => ?_⟩
    obtain ⟨segment, hsegment, hread⟩ := h.ids i id hget hset
    have hid := hrequest.ids_isId hreserved segment (List.mem_of_getElem? hsegment) hread.ne_nil
    rw [idSegments, if_neg h.type]
    exact ⟨segment, hsegment, hid, hread.value hid⟩

theorem uriDecodeRead_registration {object : MultiOption} (hfirst : first.Whole)
    (hregistration : first.text = uriRegistrationSegment) (uriPath : List MultiOption)
    (code : UInt8) :
    uriDecodeRead altPath (first :: object :: uriPath) code =
      if object.len = 0 then .error .outOfBounds
      else
        match uriGetNumber object with
        | none => .ok (.unknown, .reset)
        | some objectId =>
          .ok (if uriPath = [] then (.registration, { Lwm2mUri.reset with objectId })
            else (.unknown, .reset)) := by
  unfold uriDecodeRead
  exact if_pos ((hfirst.isSegment_iff _).2 hregistration)

theorem uriDecodeRight_of_not_misread (hwhole : ∀ option ∈ uriPath, option.Whole) (code : UInt8)
    (h : ¬ MisreadPath altPath (uriPath.map MultiOption.text)) :
    UriDecodeRight altPath uriPath code := by
  cases uriPath with
  | nil =>
    cases altPath with
    | none =>
      have hroot : RequestPath none ([] ++ []) := .ids (Nat.zero_le _) nofun
      exact ⟨_, rfl, decodedRight_reset _ hroot⟩
    | some path => exact ⟨_, rfl, decodedRight_unknown _ _⟩
  | cons first uriPath =>
    have hfirst := hwhole first List.mem_cons_self
    have hrest := fun other hother => hwhole other (List.mem_cons_of_mem first hother)
    by_cases hregistration : first.text = uriRegistrationSegment
    · cases uriPath with
      | nil =>
        refine ⟨(.registration, .reset), ?_, ?_⟩
        · unfold uriDecodeRead
          dsimp only
          rw [if_pos ((hfirst.isSegment_iff _).2 hregistration)]
        · rw [List.map_singleton, hregistration]
          exact decodedRight_reset _ .registration
      | cons object uriPath =>
        have hobject := (hrest object List.mem_cons_self).len_eq_zero
        unfold UriDecodeRight
        simp only [List.map_cons, hregistration] at h ⊢
        by_cases hempty : object.text = []
        · rw [hempty] at h
          exact absurd (.emptyLocation _) h
        · rw [uriDecodeRead_registration hfirst hregistration,
            if_neg fun hzero => hempty (hobject.1 hzero)]
          cases hread : uriGetNumber object with
          | none => exact ⟨_, rfl, decodedRight_unknown _ _⟩
          | some objectId =>
            cases uriPath with
            | cons other uriPath => exact ⟨_, rfl, decodedRight_unknown _ _⟩
            | nil =>
              have hlocation := (uriGetNumber_iff hempty).1 hread
              have hpath : RequestPath altPath [uriRegistrationSegment, object.text] := by
                by_contra hother
                exact h (.looseLocation ⟨_, hlocation⟩ hother)
              have hid := hpath.location_isId hempty
              refine ⟨(.registration, { Lwm2mUri.reset with objectId }), rfl, fun _ => hpath,
                nofun, ⟨nofun, nofun, nofun⟩, fun i id hget hset => ?_⟩
              match i, hget with
              | 0, hget =>
                obtain rfl : objectId = id := Option.some.inj hget
                exact ⟨object.text, rfl, hid, hlocation.value hid⟩
              | 1, hget => exact absurd (Option.some.inj hget).symm hset
              | 2, hget => exact absurd (Option.some.inj hget).symm hset
              | 3, hget => exact absurd (Option.some.inj hget).symm hset
    · by_cases hbootstrap : first.text = uriBootstrapSegment
      · have hdecoded : uriDecodeRead altPath (first :: uriPath) code =
            .ok (if uriPath = [] then (.bootstrap, .reset) else (.unknown, .reset)) := by
          unfold uriDecodeRead
          dsimp only
          rw [if_neg (fun h => hregistration ((hfirst.isSegment_iff _).1 h)),
            if_pos ((hfirst.isSegment_iff _).2 hbootstrap)]
        refine ⟨_, hdecoded, ?_⟩
        cases uriPath with
        | nil =>
          rw [List.map_singleton, hbootstrap]
          exact decodedRight_reset _ .bootstrap
        | cons other uriPath => exact decodedRight_unknown _ _
      · by_cases hsend : first.text = uriSendSegment
        · have hdecoded : uriDecodeRead altPath (first :: uriPath) code =
              .ok (if uriPath = [] then (.send, .reset) else (.unknown, .reset)) := by
            unfold uriDecodeRead
            dsimp only
            rw [if_neg (fun h => hregistration ((hfirst.isSegment_iff _).1 h)),
              if_neg (fun h => hbootstrap ((hfirst.isSegment_iff _).1 h)),
              if_pos ((hfirst.isSegment_iff _).2 hsend)]
          refine ⟨_, hdecoded, ?_⟩
          cases uriPath with
          | nil =>
            rw [List.map_singleton, hsend]
            exact decodedRight_reset _ .send
          | cons other uriPath => exact decodedRight_unknown _ _
        · have hreserved := not_reserved_iff.2 ⟨hregistration, hbootstrap, hsend⟩
          have hhead : ((first :: uriPath).map MultiOption.text).head?.all
              fun first => !isReserved first := by simp [hreserved]
          cases altPath with
          | none =>
            have hspec : DmDecoded (((first :: uriPath).map MultiOption.text).drop
                (none : Option (List UInt8)).toList.length)
                (uriDecodeDm (first :: uriPath) code) := uriDecodeDm_spec hwhole code
            refine ⟨_, uriDecodeRead_none hwhole hhead code, hspec.right hhead fun hids => ?_⟩
            by_contra hother
            exact h (.looseIds rfl hhead hids hother)
          | some path =>
            unfold UriDecodeRight
            rw [uriDecodeRead_notReserved hfirst hreserved]
            simp only [uriDecodeAltPathRead]
            cases hmatches : altPathMatches first.text ((path ++ [0]).drop 1) with
            | error fault =>
              obtain ⟨hlonger, hne⟩ := (altPathMatches_error _ _).1 ⟨fault, hmatches⟩
              exact absurd (.behindAltPath _ rfl hreserved hlonger hne) h
            | ok found =>
              cases found with
              | false => exact ⟨_, rfl, decodedRight_unknown _ _⟩
              | true =>
                refine ⟨_, rfl, ?_⟩
                refine DmDecoded.right (uriDecodeDm_spec hrest code) hhead fun hids => ?_
                by_contra hother
                exact h (.looseAltPath rfl hreserved ((altPathMatches_true _ _).1 hmatches) hids
                  hother)

theorem not_uriDecodeRight (hwhole : ∀ option ∈ uriPath, option.Whole) (code : UInt8)
    (h : MisreadPath altPath (uriPath.map MultiOption.text)) :
    ¬ UriDecodeRight altPath uriPath code := by
  rintro ⟨out, hdecoded, hright⟩
  generalize hsegments : uriPath.map MultiOption.text = segments at h
  cases h with
  | emptyLocation rest =>
    obtain ⟨first, uriPath, rfl, hfirst, htail⟩ := List.map_eq_cons_iff.1 hsegments
    obtain ⟨object, uriPath, rfl, hobject, -⟩ := List.map_eq_cons_iff.1 htail
    have hwholeObject := hwhole object (List.mem_cons_of_mem _ List.mem_cons_self)
    rw [uriDecodeRead_registration (hwhole first List.mem_cons_self) hfirst,
      if_pos (hwholeObject.len_eq_zero.2 hobject)] at hdecoded
    nomatch hdecoded
  | behindAltPath rest haltPath hreserved hlonger hne =>
    obtain ⟨first, uriPath, rfl, rfl, -⟩ := List.map_eq_cons_iff.1 hsegments
    subst haltPath
    rw [uriDecodeRead_notReserved (hwhole first List.mem_cons_self) hreserved] at hdecoded
    obtain ⟨fault, hmatches⟩ := (altPathMatches_error _ _).2 ⟨hlonger, hne⟩
    simp only [uriDecodeAltPathRead, hmatches] at hdecoded
    nomatch hdecoded
  | looseLocation hlocation hother =>
    obtain ⟨first, uriPath, rfl, hfirst, htail⟩ := List.map_eq_cons_iff.1 hsegments
    obtain ⟨object, uriPath, rfl, rfl, hnil⟩ := List.map_eq_cons_iff.1 htail
    obtain rfl := List.map_eq_nil_iff.1 hnil
    obtain ⟨id, hread⟩ := hlocation
    have hwholeObject := hwhole object (List.mem_cons_of_mem _ List.mem_cons_self)
    rw [uriDecodeRead_registration (hwhole first List.mem_cons_self) hfirst,
      if_neg (fun hzero => hread.ne_nil (hwholeObject.len_eq_zero.1 hzero)),
      (uriGetNumber_iff hread.ne_nil).2 hread] at hdecoded
    cases hdecoded
    rw [hsegments] at hright
    exact hother (hright.listed nofun)
  | looseIds haltPath hreserved hids hother =>
    subst haltPath hsegments
    rw [uriDecodeRead_none hwhole hreserved] at hdecoded
    cases hdecoded
    exact hother (hright.listed ((uriDecodeDm_spec hwhole code).known.2 hids))
  | looseAltPath haltPath hreserved hstarts hids hother =>
    obtain ⟨first, uriPath, rfl, rfl, rfl⟩ := List.map_eq_cons_iff.1 hsegments
    subst haltPath
    have hrest := fun other hother => hwhole other (List.mem_cons_of_mem first hother)
    rw [uriDecodeRead_notReserved (hwhole first List.mem_cons_self) hreserved] at hdecoded
    simp only [uriDecodeAltPathRead, (altPathMatches_true _ _).2 hstarts] at hdecoded
    cases hdecoded
    exact hother (hright.listed ((uriDecodeDm_spec hrest code).known.2 hids))

/-- `uri_decode` accepts exactly the paths of requests and reads nothing but them and the alternate
path, unless the path is one of those it gets wrong. -/
theorem uriDecode_iff (altPath : Option (List UInt8)) (uriPath : List MultiOption)
    (hwhole : ∀ option ∈ uriPath, option.Whole) (code : UInt8) :
    UriDecodeRight altPath uriPath code ↔ ¬ MisreadPath altPath (uriPath.map MultiOption.text) :=
  ⟨fun hright hmisread => not_uriDecodeRight hwhole code hmisread hright,
    uriDecodeRight_of_not_misread hwhole code⟩

/-- The segments of `/3/0`. -/
theorem deviceInstance_right :
    UriDecodeRight none [coapUriPathSegment [51], coapUriPathSegment [48]] coapGet := by
  have hwhole : ∀ option ∈ [coapUriPathSegment [51], coapUriPathSegment [48]], option.Whole := by
    intro option hmem
    simp only [List.mem_cons, List.not_mem_nil, or_false] at hmem
    rcases hmem with rfl | rfl <;> exact Nat.le_refl 1
  have hthree : IsId [51] := ⟨⟨nofun, by decide +kernel⟩, by decide⟩
  have hzero : IsId [48] := ⟨⟨nofun, by decide +kernel⟩, by decide⟩
  have hpath : RequestPath none [[51], [48]] := by
    show RequestPath none ([] ++ [[51], [48]])
    refine .ids (by decide) fun segment hmem => ?_
    simp only [List.mem_cons, List.not_mem_nil, or_false] at hmem
    rcases hmem with rfl | rfl
    · exact .inr hthree
    · exact .inr hzero
  refine (uriDecode_iff none _ hwhole coapGet).2 fun hmisread => ?_
  change MisreadPath none [[51], [48]] at hmisread
  generalize hsegments : [[51], [48]] = segments at hmisread hpath
  cases hmisread with
  | behindAltPath rest haltPath => nomatch haltPath
  | looseIds haltPath hreserved hids hother => exact hother hpath
  | looseAltPath haltPath => nomatch haltPath

/-- With the alternate path `/lwm2m` an empty segment is taken for it. -/
theorem emptyAltPath_accepted :
    ¬ UriDecodeRight (some [47, 108, 119, 109, 50, 109])
      [coapUriPathSegment [], coapUriPathSegment [51]] coapGet := by
  have hwhole : ∀ option ∈ [coapUriPathSegment [], coapUriPathSegment [51]], option.Whole := by
    intro option hmem
    simp only [List.mem_cons, List.not_mem_nil, or_false] at hmem
    rcases hmem with rfl | rfl
    · exact Nat.le_refl 0
    · exact Nat.le_refl 1
  have hthree : ReadsAs [51] 3 := ⟨[51], [], rfl, ⟨nofun, by decide +kernel⟩, .inl rfl, by decide, by decide⟩
  have hids : LooseIds [[51]] := by
    refine .inr ⟨by decide, fun segment hmem => .inr ⟨3, ?_⟩, List.pairwise_singleton _ _⟩
    rwa [List.mem_singleton.1 hmem]
  refine not_uriDecodeRight hwhole coapGet ?_
  refine .looseAltPath rfl (by decide) (List.nil_prefix) hids fun hlisted => ?_
  nomatch hlisted

end Wakaama
