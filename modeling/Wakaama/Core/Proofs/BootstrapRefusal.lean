import Mathlib.Tactic.ByContra
import Wakaama.Core.Bootstrap
import Wakaama.Data.Tlv

/-!
# Bootstrap-Writes that are refused

The loop over the items of an object-level Bootstrap-Write has one result. An item that is no
instance sets it to 4.00, the next instance sets it anew: what is answered is decided by the last
item, or by the first instance that the application does not take.
-/

namespace Wakaama

variable {Node Format : Type}

/-- The application takes every instance of the items, one after the other; the other items are
passed over. -/
inductive InstancesTaken (ident : Node → UInt16) (objectId : UInt16) :
    List Lwm2mData → ClientContext Node → ClientContext Node → Prop where
  | nil (context : ClientContext Node) : InstancesTaken ident objectId [] context context
  | instance {data : Lwm2mData} {items : List Lwm2mData} {context context' : ClientContext Node}
    (htype : data.type = .objectInstance)
    (htaken : (bootstrapPutInstance ident objectId data context).2 = .changed204)
    (hnext : InstancesTaken ident objectId items
      (bootstrapPutInstance ident objectId data context).1 context') :
    InstancesTaken ident objectId (data :: items) context context'
  | other {data : Lwm2mData} {items : List Lwm2mData} {context context' : ClientContext Node}
    (htype : data.type ≠ .objectInstance)
    (hnext : InstancesTaken ident objectId items context context') :
    InstancesTaken ident objectId (data :: items) context context'

/-- An instance is refused with an error, all instances before it being taken. -/
def InstanceRefused (ident : Node → UInt16) (objectId : UInt16) (items : List Lwm2mData)
    (context : ClientContext Node) : Prop :=
  ∃ taken data rest context', items = taken ++ data :: rest ∧
    InstancesTaken ident objectId taken context context' ∧ data.type = .objectInstance ∧
    (bootstrapPutInstance ident objectId data context').2.isError = true

/-- All instances are taken, and the last item is none. -/
def OtherItemLast (ident : Node → UInt16) (objectId : UInt16) (items : List Lwm2mData)
    (context : ClientContext Node) : Prop :=
  (∃ context', InstancesTaken ident objectId items context context') ∧
    ∃ last ∈ items.getLast?, last.type ≠ .objectInstance

section

variable {ident : Node → UInt16} {objectId : UInt16} {data : Lwm2mData} {items : List Lwm2mData}
  {context : ClientContext Node}

theorem instanceRefused_cons :
    InstanceRefused ident objectId (data :: items) context ↔
      data.type = .objectInstance ∧
          (bootstrapPutInstance ident objectId data context).2.isError = true ∨
        data.type = .objectInstance ∧
          (bootstrapPutInstance ident objectId data context).2 = .changed204 ∧
          InstanceRefused ident objectId items
            (bootstrapPutInstance ident objectId data context).1 ∨
        data.type ≠ .objectInstance ∧ InstanceRefused ident objectId items context := by
  constructor
  · rintro ⟨taken, refused, rest, context', hitems, htaken, htype, herror⟩
    cases htaken with
    | nil =>
      obtain ⟨rfl, -⟩ := List.cons.inj hitems
      exact .inl ⟨htype, herror⟩
    | «instance» hfirst hresult hnext =>
      obtain ⟨rfl, rfl⟩ := List.cons.inj hitems
      exact .inr (.inl ⟨hfirst, hresult, _, refused, rest, context', rfl, hnext, htype, herror⟩)
    | other hfirst hnext =>
      obtain ⟨rfl, rfl⟩ := List.cons.inj hitems
      exact .inr (.inr ⟨hfirst, _, refused, rest, context', rfl, hnext, htype, herror⟩)
  · rintro (⟨htype, herror⟩ | ⟨hfirst, hresult, hrefused⟩ | ⟨hfirst, hrefused⟩)
    · exact ⟨[], data, items, context, rfl, .nil context, htype, herror⟩
    · obtain ⟨taken, refused, rest, context', rfl, htaken, htype, herror⟩ := hrefused
      exact ⟨data :: taken, refused, rest, context', rfl, .instance hfirst hresult htaken, htype,
        herror⟩
    · obtain ⟨taken, refused, rest, context', rfl, htaken, htype, herror⟩ := hrefused
      exact ⟨data :: taken, refused, rest, context', rfl, .other hfirst htaken, htype, herror⟩

theorem instancesTaken_instance (htype : data.type = .objectInstance) :
    (∃ context', InstancesTaken ident objectId (data :: items) context context') ↔
      (bootstrapPutInstance ident objectId data context).2 = .changed204 ∧
        ∃ context', InstancesTaken ident objectId items
          (bootstrapPutInstance ident objectId data context).1 context' := by
  constructor
  · rintro ⟨context', htaken⟩
    cases htaken with
    | «instance» _ hresult hnext => exact ⟨hresult, context', hnext⟩
    | other hother hnext => exact absurd htype hother
  · rintro ⟨hresult, context', hnext⟩
    exact ⟨context', .instance htype hresult hnext⟩

theorem instancesTaken_other (htype : data.type ≠ .objectInstance) :
    (∃ context', InstancesTaken ident objectId (data :: items) context context') ↔
      ∃ context', InstancesTaken ident objectId items context context' := by
  constructor
  · rintro ⟨context', htaken⟩
    cases htaken with
    | «instance» hinstance hresult hnext => exact absurd hinstance htype
    | other _ hnext => exact ⟨context', hnext⟩
  · rintro ⟨context', hnext⟩
    exact ⟨context', .other htype hnext⟩

end

theorem bootstrapPutItems_isError (ident : Node → UInt16) (objectId : UInt16)
    (items : List Lwm2mData) (result : CoapCode) (context : ClientContext Node)
    (hitems : items ≠ []) :
    (bootstrapPutItems ident objectId items result context).2.isError = true ↔
      InstanceRefused ident objectId items context ∨ OtherItemLast ident objectId items context := by
  induction items generalizing result context with
  | nil => exact absurd rfl hitems
  | cons data items ih =>
    rw [bootstrapPutItems, instanceRefused_cons, OtherItemLast]
    by_cases htype : data.type = .objectInstance
    · simp only [htype, if_true, true_and, ne_eq, not_true_eq_false, false_and, or_false,
        instancesTaken_instance htype]
      by_cases hresult : (bootstrapPutInstance ident objectId data context).2 = .changed204
      · have htaken : CoapCode.changed204.isError = false := rfl
        simp only [hresult, not_true_eq_false, if_false, htaken, Bool.false_eq_true, false_or,
          true_and]
        cases items with
        | nil =>
          refine iff_of_false nofun ?_
          rintro (⟨taken, refused, rest, context', hnil, -⟩ | ⟨-, last, hlast, hother⟩)
          · simp at hnil
          · exact hother (Option.some.inj hlast ▸ htype)
        | cons next items =>
          rw [ih _ _ (List.cons_ne_nil next items), OtherItemLast, List.getLast?_cons_cons]
      · simp only [hresult, not_false_eq_true, if_true, false_and, or_false]
    · simp only [htype, if_false, false_and, ne_eq, not_false_eq_true, true_and, false_or,
        instancesTaken_other htype]
      cases items with
      | nil =>
        refine iff_of_true rfl (.inr ⟨⟨context, .nil context⟩, data, rfl, htype⟩)
      | cons next items =>
        rw [ih _ _ (List.cons_ne_nil next items), OtherItemLast, List.getLast?_cons_cons]

/-- The payload of a Bootstrap-Write that is to be refused: it cannot be parsed, or one of the items
is no instance. -/
def MalformedWrite (size : Int) (items : List Lwm2mData) : Prop :=
  size ≤ 0 ∨ ∃ data ∈ items.take size.toNat, data.type ≠ .objectInstance

theorem bootstrapHandleCommand_result {ident : Node → UInt16} {now : Int}
    {parse : Lwm2mUri → List UInt8 → Format → Int × List Lwm2mData} {uri : Lwm2mUri}
    {format : Format} {payload : List UInt8} {server : Lwm2mServer} {context : ClientContext Node}
    (huri : uri.isSetInstance = false)
    (haccepted : (prvCheckServerStatus now server).2 = .noError) :
    ∃ context', bootstrapHandleCommand ident now parse .put uri format payload server context =
      .ok (context', (bootstrapPutObject ident uri.objectId
        (fun payload => parse uri payload format) payload (checkedContext now server context)).2) := by
  unfold bootstrapHandleCommand
  simp only [haccepted, huri, ne_eq, not_true_eq_false, if_false, Bool.false_eq_true, Except.map]
  split
  · exact ⟨_, rfl⟩
  · exact ⟨_, rfl⟩

/-- A malformed Bootstrap-Write to an object is answered with an error exactly if it is empty, or
the parser answers 0, or an instance is refused with an error, or the last item is no instance. -/
theorem bootstrapHandleCommand_refuses_iff (ident : Node → UInt16) (now : Int)
    (parse : Lwm2mUri → List UInt8 → Format → Int × List Lwm2mData) (uri : Lwm2mUri)
    (format : Format) (payload : List UInt8) (server : Lwm2mServer) (context : ClientContext Node)
    (size : Int) (items : List Lwm2mData) (huri : uri.isSetInstance = false)
    (haccepted : (prvCheckServerStatus now server).2 = .noError)
    (hparse : parse uri payload format = (size, items)) (hmalformed : MalformedWrite size items) :
    (∃ context' result,
        bootstrapHandleCommand ident now parse .put uri format payload server context =
          .ok (context', result) ∧ result.isError = true) ↔
      payload = [] ∨ size = 0 ∨ 0 < size ∧
        (InstanceRefused ident uri.objectId (items.take size.toNat)
            (checkedContext now server context) ∨
          OtherItemLast ident uri.objectId (items.take size.toNat)
            (checkedContext now server context)) := by
  obtain ⟨after, hresult⟩ : ∃ after,
      bootstrapHandleCommand ident now parse .put uri format payload server context =
        .ok (after, (bootstrapPutObject ident uri.objectId
          (fun payload => parse uri payload format) payload
          (checkedContext now server context)).2) :=
    bootstrapHandleCommand_result huri haccepted
  have hanswer : (∃ context' result,
      bootstrapHandleCommand ident now parse .put uri format payload server context =
        .ok (context', result) ∧ result.isError = true) ↔
      (bootstrapPutObject ident uri.objectId (fun payload => parse uri payload format) payload
        (checkedContext now server context)).2.isError = true := by
    rw [hresult]
    constructor
    · rintro ⟨context', result, heq, herror⟩
      cases heq
      exact herror
    · exact fun herror => ⟨_, _, rfl, herror⟩
  rw [hanswer, bootstrapPutObject]
  by_cases hempty : payload = []
  · exact iff_of_true (by rw [if_pos hempty]; rfl) (.inl hempty)
  · simp only [hempty, if_false, hparse, false_or]
    by_cases hzero : size = 0
    · exact iff_of_true (by rw [if_pos hzero]; rfl) (.inl hzero)
    · simp only [hzero, if_false, false_or]
      rcases hmalformed with hnegative | ⟨data, hmem, -⟩
      · -- a negative size passes for an empty list, and the result of the status check is left
        have hnone : size.toNat = 0 := by omega
        refine iff_of_false ?_ fun h => absurd h.1 (by omega)
        rw [hnone, List.take_zero, bootstrapPutItems]
        nofun
      · have hpositive : 0 < size := by
          by_contra hle
          have hnone : size.toNat = 0 := by omega
          rw [hnone, List.take_zero] at hmem
          nomatch hmem
        rw [bootstrapPutItems_isError ident uri.objectId _ _ _ (List.ne_nil_of_mem hmem)]
        exact (and_iff_right hpositive).symm

/-- The bootstrap server of the client below. -/
def pendingBootstrapServer : Lwm2mServer := ⟨0, 0, 300, 0, some 7, .bsPending, false, 0xFFFF, 0⟩

/-- A client with an object whose instances are their identifiers; it takes every new one. -/
def eagerClient : ClientContext UInt16 where
  state := .bootstrapRequired
  bootstrapServerList := [pendingBootstrapServer]
  serverList := []
  objectList := [{
    objID := 1024
    versionMajor := 1
    versionMinor := 0
    instanceList := []
    writeFunc := none
    createFunc := some fun id _ nodes => (lwm2mListAdd (fun node => node) nodes id, .created201) }]

/-- `lwm2m_data_parse` for the format TLV. -/
def tlvDataParse (_ : Lwm2mUri) (payload : List UInt8) (_ : Unit) : Int × List Lwm2mData :=
  ((tlvParse payload).length, tlvParse payload)

/-- Resource 5, then instance 0 with resource 0. -/
def resourceBeforeInstance : List UInt8 := [0xC1, 5, 7, 0x03, 0, 0xC1, 0, 1]

/-- The same items in the other order. -/
def resourceBehindInstance : List UInt8 := [0x03, 0, 0xC1, 0, 1, 0xC1, 5, 7]

/-- What the client answers to a Bootstrap-Write to its object. -/
def eagerAnswer (payload : List UInt8) : Except Fault (ClientContext UInt16 × CoapCode) :=
  bootstrapHandleCommand (fun node => node) 0 tlvDataParse .put
    ⟨1024, lwm2mMaxId, lwm2mMaxId, lwm2mMaxId⟩ () payload pendingBootstrapServer eagerClient

/-- A resource is no instance, but the instance behind it makes the answer 2.04. -/
theorem resourceBeforeInstance_accepted :
    (∃ data ∈ tlvParse resourceBeforeInstance, data.type ≠ .objectInstance) ∧
      (eagerAnswer resourceBeforeInstance).map Prod.snd = .ok .changed204 := by
  have hparsed : tlvParse resourceBeforeInstance =
      [.node .opaqueBytes 5 (.asBuffer [7]),
        .node .objectInstance 0 (.asChildren [.node .opaqueBytes 0 (.asBuffer [1])])] := rfl
  refine ⟨⟨.node .opaqueBytes 5 (.asBuffer [7]), ?_, nofun⟩, rfl⟩
  rw [hparsed]
  exact List.mem_cons_self

/-- In the other order the write is refused. -/
theorem resourceBehindInstance_refused : ∃ context' result,
    eagerAnswer resourceBehindInstance = .ok (context', result) ∧ result.isError = true :=
  (bootstrapHandleCommand_refuses_iff (fun node => node) 0 tlvDataParse
    ⟨1024, lwm2mMaxId, lwm2mMaxId, lwm2mMaxId⟩ () resourceBehindInstance pendingBootstrapServer
    eagerClient 2 (tlvParse resourceBehindInstance) rfl rfl rfl
    (.inr ⟨.node .opaqueBytes 5 (.asBuffer [7]), .tail _ (.head _), nofun⟩)).2
    (.inr (.inr ⟨by decide, .inr ⟨⟨_, .instance rfl rfl (.other nofun (.nil _))⟩,
      .node .opaqueBytes 5 (.asBuffer [7]), rfl, nofun⟩⟩))

end Wakaama
