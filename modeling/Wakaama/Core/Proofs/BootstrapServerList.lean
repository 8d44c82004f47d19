import Wakaama.Core.Proofs.BootstrapCommands

/-!
# The server lists over a bootstrap

A command marks entries dirty only when it answers success, and only commands on the Security
object do so at all. Where every command either marks what it changes or leaves alone the
instances that the other entries refer to, a refresh that returns 0 leaves lists that match the
objects.
-/

namespace Wakaama

variable {Node Format : Type} {ident : Node → UInt16}

/-- A call of the client: a request from a bootstrap server at some time, or the refresh that
`lwm2m_step` makes when the bootstrap is finished. -/
inductive BootstrapCall (Format : Type) where
  | request (now : Int) (fromSessionH : Nat) (request : BootstrapRequest Format)
  | refresh

/-- The answer to a request, or whether the refresh returned 0. -/
inductive BootstrapReply where
  | answered (code : CoapCode)
  | refreshed (success : Bool)
  deriving DecidableEq

/-- One call. -/
def refreshingStep (ident : Node → UInt16)
    (parse : Lwm2mUri → List UInt8 → Format → Int × List Lwm2mData) (context : ClientContext Node) :
    BootstrapCall Format → Except Fault (ClientContext Node × BootstrapReply)
  | .request now fromSessionH request =>
    (handleBootstrapRequest ident parse now fromSessionH request context).map fun out =>
      (out.1, .answered out.2)
  | .refresh =>
    (prvRefreshServerList ident context).map fun out => (out.1, .refreshed out.2)

/-- A request of the bootstrap server whose Security instance is `own` changes no instance that
an untagged entry refers to, or answers the success that has the entry tagged. -/
def RequestSafe (ident : Node → UInt16)
    (parse : Lwm2mUri → List UInt8 → Format → Int × List Lwm2mData) (context : ClientContext Node)
    (own : UInt16) : BootstrapRequest Format → Prop
  | .command .put uri format payload =>
    let items := (parse uri payload format).2.take (parse uri payload format).1.toNat
    if uri.isSetInstance then
      WriteSafe ident context uri.objectId uri.instanceId (objectWriteData uri items)
        (objectWriteType uri false)
    else
      ∀ data ∈ items, data.type = .objectInstance →
        WriteSafe ident context uri.objectId data.id data.children .replaceInstance
  | .command .delete uri _ _ =>
    if uri.isSetResource then True
    else if uri.isSetInstance then DeleteSafe ident context uri.objectId uri.instanceId
    else if uri.objectId = lwm2mSecurityObjectId then SecurityDeleteSafe ident context own
    else ∀ id, DeleteKeeps ident context uri.objectId id
  | .deleteAll => DeleteAllSafe ident context own
  | .finish => True

/-- The condition on a call: a request that the client carries out is safe, and a refresh can
read the Short Server ID of every Server instance. -/
def CallTracked (ident : Node → UInt16)
    (parse : Lwm2mUri → List UInt8 → Format → Int × List Lwm2mData) (context : ClientContext Node) :
    BootstrapCall Format → Prop
  | .request now fromSessionH request =>
    ∀ server ∈ utilsFindBootstrapServer context fromSessionH,
      (prvCheckServerStatus now server).2 = .noError →
      RequestSafe ident parse context server.secObjInstID request
  | .refresh => ServerIdsReadable ident context

variable {context : ClientContext Node}
  {parse : Lwm2mUri → List UInt8 → Format → Int × List Lwm2mData}
  {out : ClientContext Node × CoapCode}

theorem RequestSafe.mono {context' : ClientContext Node} {own : UInt16}
    {request : BootstrapRequest Format} (h : RequestSafe ident parse context own request)
    (hadv : Advances ident context context') (hobjects : context'.objectList = context.objectList) :
    RequestSafe ident parse context' own request := by
  have hmax : NoMaxInstance ident context → NoMaxInstance ident context' := fun hmax => by
    rw [NoMaxInstance, instanceAt_congr ident hobjects]
    exact hmax
  cases request with
  | finish => trivial
  | deleteAll =>
    obtain ⟨hnomax, hcan⟩ := h
    exact ⟨hmax hnomax, hcan.imp (fun hall => hall.mono hadv) fun hkeeps =>
      ⟨fun id hid => (hkeeps.1 id hid).mono hadv, fun id => (hkeeps.2 id).mono hadv⟩⟩
  | command method uri format payload =>
    cases method with
    | put =>
      cases hset : uri.isSetInstance with
      | true =>
        simp only [RequestSafe, hset, if_true] at h ⊢
        exact h.mono hadv
      | false =>
        simp only [RequestSafe, hset, Bool.false_eq_true, if_false] at h ⊢
        exact fun data hdata htype => (h data hdata htype).mono hadv
    | delete =>
      cases hresource : uri.isSetResource with
      | true => simp only [RequestSafe, hresource, if_true]
      | false =>
        simp only [RequestSafe, hresource, Bool.false_eq_true, if_false] at h ⊢
        cases hset : uri.isSetInstance with
        | true =>
          simp only [hset, if_true] at h ⊢
          exact h.mono hadv
        | false =>
          simp only [hset, Bool.false_eq_true, if_false] at h ⊢
          by_cases hsecurity : uri.objectId = lwm2mSecurityObjectId
          · rw [if_pos hsecurity] at h ⊢
            exact ⟨hmax h.1, h.2.imp (fun hall => hall.mono hadv) fun hkeeps id hid =>
              (hkeeps id hid).mono hadv⟩
          · rw [if_neg hsecurity] at h ⊢
            exact fun id => (h id).mono hadv

theorem prvCheckServerStatus_keeps (now : Int) (server : Lwm2mServer) :
    (prvCheckServerStatus now server).1.secObjInstID = server.secObjInstID ∧
      (prvCheckServerStatus now server).1.shortID = server.shortID ∧
      (prvCheckServerStatus now server).1.servObjInstID = server.servObjInstID ∧
      (prvCheckServerStatus now server).1.dirty = server.dirty := by
  unfold prvCheckServerStatus
  split <;> exact ⟨rfl, rfl, rfl, rfl⟩

theorem EntriesTracked.checked (h : EntriesTracked ident context) {server : Lwm2mServer}
    (hmem : server ∈ context.bootstrapServerList) (now : Int) :
    Advances ident context { context with
      bootstrapServerList :=
        replaceServer (prvCheckServerStatus now server).1 context.bootstrapServerList } := by
  obtain ⟨hid, hshort, hserv, hdirty⟩ := prvCheckServerStatus_keeps now server
  exact h.withServers (retagged_replaceServer h.bootstrapAscending hmem hid hshort hserv
    fun hc => hdirty ▸ hc) (Retagged.refl _)

theorem bootstrapDelete_advances {own : UInt16} {uri : Lwm2mUri} {format : Format}
    {payload : List UInt8} (h : EntriesTracked ident context)
    (hsafe : RequestSafe ident parse context own (.command .delete uri format payload))
    (hdelete : bootstrapDelete ident own uri context = .ok out) : Advances ident context out.1 := by
  simp only [RequestSafe] at hsafe
  simp only [bootstrapDelete] at hdelete
  split at hdelete
  · cases hdelete
    exact Advances.refl h
  · rename_i hresource
    rw [if_neg hresource] at hsafe
    split at hdelete
    · rename_i hall
      have hset : uri.isSetInstance = false := by simpa using hall.2
      simp only [hset, Bool.false_eq_true, if_false, if_pos hall.1] at hsafe
      exact deleteSecurityObjects_advances h hsafe hdelete
    · rename_i hsome
      obtain ⟨deleted, hone, rfl⟩ := exceptMap_inv hdelete
      cases hset : uri.isSetInstance with
      | true =>
        simp only [hset, if_true] at hsafe
        exact objectDelete_instance h hset hsafe hone
      | false =>
        have hother : ¬ uri.objectId = lwm2mSecurityObjectId :=
          fun hEq => hsome ⟨hEq, by simp [hset]⟩
        simp only [hset, Bool.false_eq_true, if_false, if_neg hother] at hsafe
        simp only [hother, false_and, if_false]
        exact objectDelete_all h hset hsafe hone

theorem bootstrapHandleCommand_advances {now : Int} {method : BootstrapMethod} {uri : Lwm2mUri}
    {format : Format} {payload : List UInt8} {server : Lwm2mServer}
    (h : EntriesTracked ident context) (hmem : server ∈ context.bootstrapServerList)
    (hsafe : (prvCheckServerStatus now server).2 = .noError → RequestSafe ident parse context server.secObjInstID (.command method uri format payload))
    (hcommand : bootstrapHandleCommand ident now parse method uri format payload server context = .ok out) :
    Advances ident context out.1 := by
  have hchecked := h.checked hmem now
  have hown := (prvCheckServerStatus_keeps now server).1
  simp only [bootstrapHandleCommand] at hcommand
  split at hcommand
  · cases hcommand
    exact hchecked
  · rename_i hcode
    have hsafe' := (hsafe (not_not.mp hcode)).mono hchecked rfl
    obtain ⟨done, hdone, rfl⟩ := exceptMap_inv hcommand
    have hadv : Advances ident context done.1 := by
      refine hchecked.trans ?_
      cases method with
      | put =>
        simp only [RequestSafe] at hsafe'
        simp only at hdone
        split at hdone
        · rename_i hset
          rw [if_pos hset] at hsafe'
          exact bootstrapPutInstanceUri_advances hchecked.tracked hset hsafe' hdone
        · rename_i hset
          rw [if_neg hset] at hsafe'
          cases hdone
          exact bootstrapPutObject_advances hchecked.tracked hsafe'
      | delete =>
        rw [hown] at hdone
        exact bootstrapDelete_advances hchecked.tracked hsafe' hdone
    split
    · exact (hadv.trans (hadv.tracked.setBootstrapStatus _ _)).withState .bootstrapping
    · exact hadv

theorem handleBootstrapRequest_advances {now : Int} {fromSessionH : Nat}
    {request : BootstrapRequest Format} (h : EntriesTracked ident context)
    (hsafe : CallTracked ident parse context (.request now fromSessionH request))
    (hrequest : handleBootstrapRequest ident parse now fromSessionH request context = .ok out) :
    Advances ident context out.1 := by
  simp only [handleBootstrapRequest] at hrequest
  split at hrequest
  · cases hrequest
    exact Advances.refl h
  · rename_i server hfound
    have hmem := List.mem_of_find?_eq_some hfound
    have hown := (prvCheckServerStatus_keeps now server).1
    cases request with
    | command method uri format payload =>
      exact bootstrapHandleCommand_advances h hmem (hsafe server hfound) hrequest
    | deleteAll =>
      have hchecked := h.checked hmem now
      simp only [bootstrapHandleDeleteAll] at hrequest
      split at hrequest
      · cases hrequest
        exact hchecked
      · rename_i hcode
        have hsafe' := (hsafe server hfound (not_not.mp hcode)).mono hchecked rfl
        rw [hown] at hrequest
        exact hchecked.trans (deleteAllObjects_advances hchecked.tracked hsafe' hrequest)
    | finish =>
      simp only [bootstrapHandleFinish] at hrequest
      split at hrequest
      · cases hrequest
        exact Advances.refl h
      · obtain ⟨checked, hcheck, rfl⟩ := exceptMap_inv hrequest
        have hsame : checked.1 = context := objectGetServers_checkOnly hcheck
        split
        · rw [hsame]
          exact h.setBootstrapStatus _ _
        · rw [hsame]
          exact Advances.refl h

/-- The lists match the objects after a refresh that returned 0. -/
def MatchesAfterRefresh (ident : Node → UInt16) (past : List (BootstrapCall Format × BootstrapReply))
    (context : ClientContext Node) : Prop :=
  past.getLast? = some (.refresh, .refreshed true) → ServerListMatches ident context

/-- What the run keeps: the entries are tracked, and the lists match after a refresh. -/
def TrackedAfter (ident : Node → UInt16) (past : List (BootstrapCall Format × BootstrapReply))
    (context : ClientContext Node) : Prop :=
  EntriesTracked ident context ∧ MatchesAfterRefresh ident past context

theorem refreshingStep_tracked (past : List (BootstrapCall Format × BootstrapReply))
    (context : ClientContext Node) (call : BootstrapCall Format) (context' : ClientContext Node)
    (reply : BootstrapReply) (h : TrackedAfter ident past context)
    (hcond : CallTracked ident parse context call)
    (hstep : refreshingStep ident parse context call = .ok (context', reply)) :
    TrackedAfter ident (past ++ [(call, reply)]) context' := by
  cases call with
  | request now fromSessionH request =>
    obtain ⟨out, hrequest, heq⟩ := exceptMap_inv hstep
    obtain ⟨rfl, rfl⟩ := Prod.mk.inj heq
    refine ⟨(handleBootstrapRequest_advances h.1 hcond hrequest).tracked, fun hlast => ?_⟩
    simp at hlast
  | refresh =>
    obtain ⟨out, hrefresh, heq⟩ := exceptMap_inv hstep
    obtain ⟨rfl, rfl⟩ := Prod.mk.inj heq
    obtain ⟨htracked', hmatches⟩ := prvRefreshServerList_matches h.1 hcond hrefresh
    refine ⟨htracked', fun hlast => hmatches ?_⟩
    simpa using hlast

/-- An instance of a Security or a Server object that is kept as it comes. -/
structure PlainInstance where
  id : UInt16
  isBootstrap : Bool
  shortId : Int64

/-- A resource of such an instance. -/
def plainResource (objID : UInt16) (node : PlainInstance) (resource : UInt16) : Lwm2mData :=
  if objID = lwm2mSecurityObjectId then
    if resource = lwm2mSecurityBootstrapId then .node .boolean resource (.asBoolean node.isBootstrap)
    else if resource = lwm2mSecurityShortServerId then
      .node .integer resource (.asInteger node.shortId)
    else .node .integer resource (.asInteger 0)
  else if resource = lwm2mServerShortIdId then .node .integer resource (.asInteger node.shortId)
  else if resource = lwm2mServerBindingId then .node .string resource (.asBuffer [85])
  else .node .integer resource (.asInteger 300)

/-- An object that keeps its instances in a list; the instances in `refused` cannot be
deleted. -/
def plainServers (objID : UInt16) (refused : List UInt16) (instanceList : List PlainInstance) :
    Lwm2mObject PlainInstance where
  objID := objID
  versionMajor := 1
  versionMinor := 0
  instanceList := instanceList
  writeFunc := none
  createFunc := some fun id data nodes =>
    (lwm2mListAdd PlainInstance.id nodes ⟨id, false, (data.headD lwm2mDataNew).asInteger⟩,
      .created201)
  readFunc := some fun id resources nodes =>
    match lwm2mListFind PlainInstance.id id nodes with
    | none => (.notFound404, [])
    | some node => (.content205, resources.map (plainResource objID node))
  deleteFunc := some fun id nodes =>
    if id ∈ refused then (nodes, .internalServerError500)
    else
      match lwm2mListRemove PlainInstance.id id nodes with
      | (_, none) => (nodes, .notFound404)
      | (next, some _) => (next, .deleted202)

theorem plainServers_touches {objID : UInt16} {refused : List UInt16}
    {instanceList nodes nodes' : List PlainInstance} {id : UInt16}
    (hasc : Ascending PlainInstance.id nodes) (hasc' : Ascending PlainInstance.id nodes')
    (hmem : ∀ node : PlainInstance, node.id ≠ id → (node ∈ nodes' ↔ node ∈ nodes)) :
    TouchesOne PlainInstance.id (plainServers objID refused instanceList) id nodes nodes' := by
  refine ⟨hasc', fun other hother => ⟨?_, ?_⟩⟩
  · simp only [List.mem_map]
    constructor
    · rintro ⟨node, hnode, rfl⟩
      exact ⟨node, (hmem node hother).mp hnode, rfl⟩
    · rintro ⟨node, hnode, rfl⟩
      exact ⟨node, (hmem node hother).mpr hnode, rfl⟩
  · have hfind : lwm2mListFind PlainInstance.id other nodes' =
        lwm2mListFind PlainInstance.id other nodes := by
      refine Option.ext fun node => ?_
      rw [lwm2mListFind_eq_some_iff hasc', lwm2mListFind_eq_some_iff hasc]
      refine and_congr_left fun hid => hmem node ?_
      exact hid ▸ hother
    rintro _ ⟨⟩ resources
    simp only [hfind]

theorem plainServers_local (objID : UInt16) (refused : List UInt16)
    (instanceList : List PlainInstance) :
    LocalCallbacks PlainInstance.id (plainServers objID refused instanceList) := by
  refine ⟨by rintro _ ⟨⟩, ?_, ?_⟩
  · rintro _ ⟨⟩ id data nodes hasc hfresh
    have hne : ∀ node ∈ nodes, node.id ≠ id := fun node hnode hid =>
      hfresh (List.mem_map.mpr ⟨node, hnode, hid⟩)
    refine plainServers_touches hasc (lwm2mListAdd_ascending hasc hne) fun node hnode => ?_
    rw [(lwm2mListAdd_perm _ _).mem_iff, List.mem_cons]
    constructor
    · rintro (rfl | h)
      · exact absurd rfl hnode
      · exact h
    · exact Or.inr
  · rintro _ ⟨⟩ id nodes hasc
    simp only
    split
    · exact TouchesOne.refl _ _ hasc
    · rw [lwm2mListRemove_eq hasc]
      split
      · exact TouchesOne.refl _ _ hasc
      · rename_i next node heq
        obtain ⟨rfl, -⟩ := Prod.mk.inj heq
        refine plainServers_touches hasc (hasc.filter _) fun node hnode => ?_
        simp [hnode]

/-- The entry of a server as it was read from those objects. -/
def plainEntry (id shortID servObjInstID : UInt16) (sessionH : Option Nat) (status : ServerStatus) :
    Lwm2mServer :=
  { zeroServer id with shortID, servObjInstID, sessionH, status }

/-- A client with a bootstrap server and two others, in the middle of a bootstrap. Security
instances in `refused` cannot be deleted. -/
def threeServers (refused : List UInt16) : ClientContext PlainInstance where
  state := .bootstrapping
  bootstrapServerList := [plainEntry 0 0 lwm2mMaxId (some 7) .bsPending]
  serverList := [plainEntry 1 101 1 none .deregistered, plainEntry 2 102 2 none .deregistered]
  objectList :=
    [plainServers lwm2mSecurityObjectId refused [⟨0, true, 0⟩, ⟨1, false, 101⟩, ⟨2, false, 102⟩],
      plainServers lwm2mServerObjectId [] [⟨1, false, 101⟩, ⟨2, false, 102⟩]]

theorem threeServers_tracked (refused : List UInt16) :
    EntriesTracked PlainInstance.id (threeServers refused) := by
  refine ⟨⟨?_, ?_, ?_⟩, ?_, ?_, ?_, ?_, ?_⟩
  · refine ascending_cons.mpr ⟨?_, ascending_cons.mpr ⟨by simp, ascending_nil⟩⟩
    intro object hmem
    obtain rfl := List.mem_singleton.mp hmem
    exact (by decide : lwm2mSecurityObjectId < lwm2mServerObjectId)
  · intro object hmem
    rcases List.mem_cons.mp hmem with rfl | hmem
    · simp [plainServers, Ascending]
    · obtain rfl := List.mem_singleton.mp hmem
      simp [plainServers, Ascending]
  · intro object hmem
    rcases List.mem_cons.mp hmem with rfl | hmem
    · exact plainServers_local _ _ _
    · obtain rfl := List.mem_singleton.mp hmem
      exact plainServers_local _ _ _
  · simp [threeServers, Ascending]
  · simp [threeServers, Ascending, plainEntry, zeroServer]
  · simp [threeServers, plainEntry, zeroServer]
  · intro server hmem _
    obtain rfl := List.mem_singleton.mp hmem
    exact ⟨⟨some 0, rfl⟩, rfl⟩
  · intro server hmem _
    rcases List.mem_cons.mp hmem with rfl | hmem
    · exact ⟨rfl, rfl⟩
    · obtain rfl := List.mem_singleton.mp hmem
      exact ⟨rfl, rfl⟩

/-- The payload of the run below is one integer: the Short Server ID. -/
def shortIdPayload (_ : Lwm2mUri) (payload : List UInt8) (_ : Unit) : Int × List Lwm2mData :=
  (1, [.node .integer 10 (.asInteger (payload.headD 0).toUInt64.toInt64)])

/-- The requests of the run below: DELETE on the Security object, a new instance 2, and
Bootstrap-Finish. -/
def deleteOthers : BootstrapCall Unit :=
  .request 100 7 (.command .delete ⟨0, lwm2mMaxId, lwm2mMaxId, lwm2mMaxId⟩ () [])

def putInstance : BootstrapCall Unit :=
  .request 101 7 (.command .put ⟨0, 2, lwm2mMaxId, lwm2mMaxId⟩ () [101])

def bootstrapFinish : BootstrapCall Unit := .request 102 7 .finish

/-- That client with all its Security instances but the first deleted. -/
def othersDeleted : ClientContext PlainInstance where
  state := .bootstrapping
  bootstrapServerList :=
    [{ plainEntry 0 0 lwm2mMaxId (some 7) .bsPending with registration := 347 }]
  serverList :=
    [{ plainEntry 1 101 1 none .deregistered with dirty := true },
      { plainEntry 2 102 2 none .deregistered with dirty := true }]
  objectList :=
    [plainServers lwm2mSecurityObjectId [] [⟨0, true, 0⟩],
      plainServers lwm2mServerObjectId [] [⟨1, false, 101⟩, ⟨2, false, 102⟩]]

theorem deleteOthers_step :
    refreshingStep PlainInstance.id shortIdPayload (threeServers []) deleteOthers =
      .ok (othersDeleted, .answered .deleted202) := rfl

theorem threeServers_deletable :
    SecurityDeletable PlainInstance.id (threeServers []) 0 := by
  intro object hobject
  obtain rfl := Option.some.inj hobject
  refine ⟨_, rfl, fun id _ nodes hasc hmem => ?_⟩
  obtain ⟨node, hnode, rfl⟩ := List.mem_map.mp hmem
  have hfind := (lwm2mListFind_eq_some_iff hasc).mpr ⟨hnode, rfl⟩
  simp [lwm2mListRemove_eq hasc, hfind]

/-- The same client with a new Security instance 2 for the Short Server ID 101. -/
def instanceRewritten : ClientContext PlainInstance where
  state := .bootstrapping
  bootstrapServerList :=
    [{ plainEntry 0 0 lwm2mMaxId (some 7) .bsPending with registration := 348 }]
  serverList := othersDeleted.serverList
  objectList :=
    [plainServers lwm2mSecurityObjectId [] [⟨0, true, 0⟩, ⟨2, false, 101⟩],
      plainServers lwm2mServerObjectId [] [⟨1, false, 101⟩, ⟨2, false, 102⟩]]

theorem putInstance_step :
    refreshingStep PlainInstance.id shortIdPayload othersDeleted putInstance =
      .ok (instanceRewritten, .answered .changed204) := rfl

theorem bootstrapFinish_step :
    refreshingStep PlainInstance.id shortIdPayload instanceRewritten bootstrapFinish =
      .ok (setBootstrapStatus 0 .bsFinishing instanceRewritten, .answered .changed204) := rfl

end Wakaama
