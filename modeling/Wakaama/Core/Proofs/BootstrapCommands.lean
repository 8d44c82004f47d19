import Wakaama.Core.Proofs.EntriesTracked
import Wakaama.Misc.Run

/-!
# The commands of a bootstrap and the entries of the server lists

Each command is a few calls of the application. What a command has to meet for the entries that
are not marked dirty to stay right is stated of the calls it makes; the loops of DELETE end
because every instance that is deleted makes the list shorter.
-/

namespace Wakaama

variable {Node Format : Type} {ident : Node → UInt16}

/-! ## Writing and creating -/

/-- A write to an instance is safe. -/
def WriteSafe (ident : Node → UInt16) (context : ClientContext Node) (objectId id : UInt16)
    (data : List Lwm2mData) (type : WriteType) : Prop :=
  ∀ object ∈ context.findObject objectId, ∀ write ∈ object.writeFunc,
    CallTagsOrKeeps ident context objectId id object (write id data type) .changed204

variable {context context' : ClientContext Node} {id objectId own : UInt16}
  {object : Lwm2mObject Node} {parse : Lwm2mUri → List UInt8 → Format → Int × List Lwm2mData}
  {payload : List UInt8} {format : Format} {uri : Lwm2mUri} {out : ClientContext Node × CoapCode}

theorem WriteSafe.mono {data : List Lwm2mData} {type : WriteType}
    (h : WriteSafe ident context objectId id data type) (hadv : Advances ident context context') :
    WriteSafe ident context' objectId id data type := by
  intro object hobject write hwrite
  obtain ⟨before, hbefore, heq⟩ := hadv.find hobject
  rw [heq] at hwrite ⊢
  exact (h before hbefore write hwrite).mono hadv _

theorem updateServerOf_retagged {instanceId serverId : UInt16} :
    ∀ {servers servers' : List Lwm2mServer},
      updateServerOf object instanceId serverId servers = .ok servers' →
      Retagged servers servers' := by
  intro servers
  induction servers with
  | nil =>
    intro servers' h
    cases h
    exact Retagged.refl []
  | cons server servers ih =>
    intro servers' h
    simp only [updateServerOf] at h
    split at h
    · obtain ⟨⟨updated, found⟩, hinfo, rfl⟩ := exceptMap_inv h
      obtain ⟨hid, hshort, hserv, hdirty⟩ := prvGetMandatoryInfo_keeps hinfo
      refine ⟨by simp [hid], fun server' hmem => ?_⟩
      rcases List.mem_cons.mp hmem with rfl | hmem
      · exact ⟨server, by simp, hid, hshort, hserv, fun hc => hdirty ▸ hc⟩
      · exact ⟨server', List.mem_cons_of_mem _ hmem, rfl, rfl, rfl, fun hc => hc⟩
    · obtain ⟨rest, hrest, rfl⟩ := exceptMap_inv h
      obtain ⟨hids, hmem⟩ := ih hrest
      refine ⟨by simp [hids], fun server' hserver => ?_⟩
      rcases List.mem_cons.mp hserver with rfl | hserver
      · exact ⟨server', by simp, rfl, rfl, rfl, fun hc => hc⟩
      · obtain ⟨before, hbefore, heq⟩ := hmem server' hserver
        exact ⟨before, List.mem_cons_of_mem _ hbefore, heq⟩

theorem prvUpdateServerInfo_advances {instanceId : UInt16} (h : EntriesTracked ident context)
    (hupdate : prvUpdateServerInfo object instanceId context = .ok context') :
    Advances ident context context' := by
  simp only [prvUpdateServerInfo] at hupdate
  split at hupdate
  · cases hupdate
  · split at hupdate
    · cases hupdate
      exact Advances.refl h
    · obtain ⟨serverList, hservers, rfl⟩ := exceptMap_inv hupdate
      exact h.withServers (Retagged.refl _) (updateServerOf_retagged hservers)

theorem objectWrite_advances (h : EntriesTracked ident context)
    (hsafe : WriteSafe ident context uri.objectId uri.instanceId (objectWriteData uri ((parse uri payload format).2.take (parse uri payload format).1.toNat)) (objectWriteType uri false))
    (hwrite : objectWrite parse context uri format payload false = .ok out) :
    Advances ident context
      (if uri.objectId = lwm2mSecurityObjectId ∧ out.2 = .changed204 then
        prvTagServer out.1 uri.instanceId else out.1) := by
  simp only [objectWrite] at hwrite
  split at hwrite
  · cases hwrite
    rw [if_neg (by simp)]
    exact Advances.refl h
  · split at hwrite
    · cases hwrite
      rw [if_neg (by simp)]
      exact Advances.refl h
    · rename_i target hfind
      split at hwrite
      · cases hwrite
        rw [if_neg (by simp)]
        exact Advances.refl h
      · rename_i write hfunc
        have hobject := h.objects.find hfind
        have hcall := h.call hfind
          ((h.objects.callbacks target hobject).write write hfunc uri.instanceId
            (objectWriteData uri
              ((parse uri payload format).2.take (parse uri payload format).1.toNat))
            (objectWriteType uri false) _ (h.objects.instances target hobject))
          (hsafe target hfind write hfunc)
        split at hwrite
        · cases hwrite
          rw [if_neg (by simp)]
          exact Advances.refl h
        · split at hwrite
          · rename_i hserver
            have hne : ¬ uri.objectId = lwm2mSecurityObjectId := by
              rw [← findObject_id hfind, hserver.2]
              decide
            rw [if_neg fun hboth => hne hboth.1] at hcall ⊢
            obtain ⟨updated, hupdate, rfl⟩ := exceptMap_inv hwrite
            exact hcall.trans (prvUpdateServerInfo_advances hcall.tracked hupdate)
          · cases hwrite
            exact hcall

theorem objectIsInstanceNew_notMem (h : ObjectsReady ident context)
    (hfind : context.findObject objectId = some object)
    (hnew : objectIsInstanceNew ident context objectId id = true) :
    id ∉ object.instanceList.map ident := by
  simp only [objectIsInstanceNew, hfind, Option.isNone_iff_eq_none] at hnew
  exact lwm2mListFind_notMem (h.instances object (h.find hfind)) hnew

theorem objectCreate_advances (h : EntriesTracked ident context) (hset : uri.isSetInstance = true)
    (hnew : objectIsInstanceNew ident context uri.objectId uri.instanceId = true) :
    Advances ident context (objectCreate ident parse context uri format payload).1 := by
  simp only [objectCreate]
  split
  · exact Advances.refl h
  · split
    · exact Advances.refl h
    · rename_i target hfind
      have hasc := h.objects.instances target (h.objects.find hfind)
      split
      · exact Advances.refl h
      · rename_i create hcreate
        split
        · exact Advances.refl h
        · split
          · exact Advances.refl h
          · split
            · exact Advances.refl h
            · split
              · exact Advances.refl h
              · rename_i hnone
                simp only [Option.isSome_iff_ne_none, ne_eq, not_not] at hnone
                exact h.create hfind (lwm2mListFind_notMem hasc hnone) hcreate _
          · exact h.create hfind (objectIsInstanceNew_notMem h.objects hfind hnew) hcreate _

theorem bootstrapPutInstanceUri_advances (h : EntriesTracked ident context)
    (hset : uri.isSetInstance = true)
    (hsafe : WriteSafe ident context uri.objectId uri.instanceId (objectWriteData uri ((parse uri payload format).2.take (parse uri payload format).1.toNat)) (objectWriteType uri false))
    (hput : bootstrapPutInstanceUri ident parse uri format payload context = .ok out) :
    Advances ident context out.1 := by
  simp only [bootstrapPutInstanceUri] at hput
  split at hput
  · rename_i hnew
    cases hput
    exact objectCreate_advances h hset hnew
  · obtain ⟨written, hwrite, rfl⟩ := exceptMap_inv hput
    exact objectWrite_advances h hsafe hwrite

theorem objectWriteInstance_cases (context : ClientContext Node) (objectId : UInt16)
    (data : Lwm2mData) :
    (∃ result, result ≠ .changed204 ∧ objectWriteInstance context objectId data = (context, result)) ∨
    ∃ object write, context.findObject objectId = some object ∧ object.writeFunc = some write ∧
      objectWriteInstance context objectId data =
        (context.setInstances objectId
          (write data.id data.children .replaceInstance object.instanceList).1,
          (write data.id data.children .replaceInstance object.instanceList).2) := by
  simp only [objectWriteInstance]
  split
  · exact Or.inl ⟨_, by decide, rfl⟩
  · rename_i object hfind
    split
    · exact Or.inl ⟨_, by decide, rfl⟩
    · rename_i write hwrite
      exact Or.inr ⟨object, write, hfind, hwrite, rfl⟩

theorem objectCreateInstance_advances {data : Lwm2mData} (h : EntriesTracked ident context)
    (hnew : objectIsInstanceNew ident context objectId data.id = true) :
    Advances ident context (objectCreateInstance ident context objectId data).1 := by
  simp only [objectCreateInstance]
  split
  · exact Advances.refl h
  · rename_i object hfind
    have hasc := h.objects.instances object (h.objects.find hfind)
    have habsent := objectIsInstanceNew_notMem h.objects hfind hnew
    split
    · exact Advances.refl h
    · rename_i create hcreate
      refine h.create hfind ?_ hcreate data.children
      intro hmem
      obtain ⟨node, hnode, hid⟩ := List.mem_map.mp hmem
      exact lwm2mListNewId_fresh hasc
        ⟨data.id, fun b hb hEq => habsent (List.mem_map.mpr ⟨b, hb, hEq⟩)⟩ node hnode hid

theorem bootstrapPutInstance_advances {data : Lwm2mData} (h : EntriesTracked ident context)
    (hsafe : WriteSafe ident context objectId data.id data.children .replaceInstance) :
    Advances ident context (bootstrapPutInstance ident objectId data context).1 := by
  simp only [bootstrapPutInstance]
  split
  · rename_i hnew
    exact objectCreateInstance_advances h hnew
  · rcases objectWriteInstance_cases context objectId data with
      ⟨result, hresult, heq⟩ | ⟨object, write, hfind, hwrite, heq⟩
    · simp only [heq, hresult, and_false, if_false]
      exact Advances.refl h
    · have hobject := h.objects.find hfind
      simp only [heq]
      exact h.call hfind ((h.objects.callbacks object hobject).write write hwrite data.id
        data.children .replaceInstance _ (h.objects.instances object hobject))
        (hsafe object hfind write hwrite)

theorem bootstrapPutItems_advances :
    ∀ {items : List Lwm2mData} {result : CoapCode} {context : ClientContext Node},
      EntriesTracked ident context →
      (∀ data ∈ items, data.type = .objectInstance →
        WriteSafe ident context objectId data.id data.children .replaceInstance) →
      Advances ident context (bootstrapPutItems ident objectId items result context).1 := by
  intro items
  induction items with
  | nil => exact fun h _ => Advances.refl h
  | cons data items ih =>
    intro result context h hsafe
    simp only [bootstrapPutItems]
    split
    · rename_i htype
      have hadv := bootstrapPutInstance_advances h (hsafe data (by simp) htype)
      split
      · exact hadv
      · exact hadv.trans (ih hadv.tracked fun d hd ht =>
          (hsafe d (List.mem_cons_of_mem _ hd) ht).mono hadv)
    · exact ih h fun d hd => hsafe d (List.mem_cons_of_mem _ hd)

theorem bootstrapPutObject_advances {parse : List UInt8 → Int × List Lwm2mData}
    (h : EntriesTracked ident context)
    (hsafe : ∀ data ∈ (parse payload).2.take (parse payload).1.toNat, data.type = .objectInstance → WriteSafe ident context objectId data.id data.children .replaceInstance) :
    Advances ident context (bootstrapPutObject ident objectId parse payload context).1 := by
  simp only [bootstrapPutObject]
  split
  · exact Advances.refl h
  · split
    · exact Advances.refl h
    · exact bootstrapPutItems_advances h hsafe

/-! ## Deleting -/

/-- Deleting an instance is safe. -/
def DeleteSafe (ident : Node → UInt16) (context : ClientContext Node) (objectId id : UInt16) :
    Prop :=
  ∀ object ∈ context.findObject objectId, ∀ delete ∈ object.deleteFunc,
    CallTagsOrKeeps ident context objectId id object (delete id) .deleted202

/-- Deleting an instance that is referred to leaves it. -/
def DeleteKeeps (ident : Node → UInt16) (context : ClientContext Node) (objectId id : UInt16) :
    Prop :=
  Referred context objectId id → ∀ object ∈ context.findObject objectId,
    ∀ delete ∈ object.deleteFunc, KeepsShown ident object id (delete id)

/-- The application lets every Security instance but one be deleted. -/
def SecurityDeletable (ident : Node → UInt16) (context : ClientContext Node) (own : UInt16) :
    Prop :=
  ∀ object ∈ context.findObject lwm2mSecurityObjectId, ∃ delete ∈ object.deleteFunc,
    ∀ id, id ≠ own → AlwaysAnswers ident id (delete id) .deleted202

theorem DeleteKeeps.mono (h : DeleteKeeps ident context objectId id)
    (hadv : Advances ident context context') : DeleteKeeps ident context' objectId id := by
  intro href object hobject delete hdelete
  obtain ⟨before, hbefore, heq⟩ := hadv.find hobject
  rw [heq] at hdelete ⊢
  exact h (hadv.referred _ _ href) before hbefore delete hdelete

theorem DeleteSafe.mono (h : DeleteSafe ident context objectId id)
    (hadv : Advances ident context context') : DeleteSafe ident context' objectId id := by
  intro object hobject delete hdelete
  obtain ⟨before, hbefore, heq⟩ := hadv.find hobject
  rw [heq] at hdelete ⊢
  exact (h before hbefore delete hdelete).mono hadv _

theorem SecurityDeletable.mono (h : SecurityDeletable ident context own)
    (hadv : Advances ident context context') : SecurityDeletable ident context' own := by
  intro object hobject
  obtain ⟨before, hbefore, heq⟩ := hadv.find hobject
  obtain ⟨delete, hdelete, hall⟩ := h before hbefore
  rw [heq]
  exact ⟨delete, hdelete, hall⟩

theorem objectDelete_instance (h : EntriesTracked ident context) (hset : uri.isSetInstance = true)
    (hsafe : DeleteSafe ident context uri.objectId uri.instanceId)
    (hdelete : objectDelete ident context uri = .ok out) :
    Advances ident context
      (if uri.objectId = lwm2mSecurityObjectId ∧ out.2 = .deleted202 then
        prvTagServer out.1 uri.instanceId else out.1) := by
  simp only [objectDelete] at hdelete
  split at hdelete
  · cases hdelete
    rw [if_neg (by simp)]
    exact Advances.refl h
  · rename_i object hfind
    have hobject := h.objects.find hfind
    split at hdelete
    · cases hdelete
      rw [if_neg (by simp)]
      exact Advances.refl h
    · rename_i delete hfunc
      rw [if_pos hset] at hdelete
      cases hdelete
      exact h.call hfind ((h.objects.callbacks object hobject).delete delete hfunc uri.instanceId _
        (h.objects.instances object hobject)) (hsafe object hfind delete hfunc)

theorem objectDelete_cases (hset : id ≠ lwm2mMaxId)
    (hdelete : objectDelete ident context ⟨objectId, id, lwm2mMaxId, lwm2mMaxId⟩ = .ok out) :
    (∀ object ∈ context.findObject objectId, object.deleteFunc = none) ∧ out.1 = context ∨
    ∃ object delete, context.findObject objectId = some object ∧ object.deleteFunc = some delete ∧
      out = (context.setInstances objectId (delete id object.instanceList).1,
        (delete id object.instanceList).2) := by
  have hisSet : (⟨objectId, id, lwm2mMaxId, lwm2mMaxId⟩ : Lwm2mUri).isSetInstance = true := by
    simpa [Lwm2mUri.isSetInstance] using hset
  simp only [objectDelete] at hdelete
  split at hdelete
  · rename_i hnone
    cases hdelete
    exact Or.inl ⟨by simp [hnone], rfl⟩
  · rename_i object hfind
    split at hdelete
    · rename_i hnone
      cases hdelete
      refine Or.inl ⟨fun other hother => ?_, rfl⟩
      rw [hfind] at hother
      cases hother
      exact hnone
    · rename_i delete hfunc
      rw [if_pos hisSet] at hdelete
      exact Or.inr ⟨object, delete, hfind, hfunc, (Except.ok.inj hdelete).symm⟩

theorem objectDelete_kept (h : EntriesTracked ident context) (hset : id ≠ lwm2mMaxId)
    (hkeeps : DeleteKeeps ident context objectId id)
    (hdelete : objectDelete ident context ⟨objectId, id, lwm2mMaxId, lwm2mMaxId⟩ = .ok out) :
    Advances ident context out.1 ∧ ∀ other, other ≠ id →
      instanceAt ident out.1 objectId other = instanceAt ident context objectId other := by
  rcases objectDelete_cases hset hdelete with ⟨-, heq⟩ | ⟨object, delete, hfind, hfunc, rfl⟩
  · rw [heq]
    exact ⟨Advances.refl h, fun _ _ => rfl⟩
  · have hobject := h.objects.find hfind
    have hasc := h.objects.instances object hobject
    have htouch := (h.objects.callbacks object hobject).delete delete hfunc id _ hasc
    refine ⟨h.setInstances hfind htouch fun href => ?_, fun other hother => ?_⟩
    · exact hkeeps href object hfind delete hfunc _ hasc (h.referred_mem hfind href)
    · rw [instanceAt_setInstances hfind, if_pos rfl, instanceAt, hfind]
      exact shownAt_same (htouch.others other hother)

/-- No Security instance has the id that stands for no instance in a URI. -/
def NoMaxInstance (ident : Node → UInt16) (context : ClientContext Node) : Prop :=
  instanceAt ident context lwm2mSecurityObjectId lwm2mMaxId = none

/-- The loop over the Security instances but one, where those that are referred to stay. -/
theorem deleteOtherInstances_advances :
    ∀ {rounds : Nat} {context : ClientContext Node} {out : ClientContext Node × CoapCode},
      EntriesTracked ident context → NoMaxInstance ident context →
      (∀ id, id ≠ own → DeleteKeeps ident context lwm2mSecurityObjectId id) →
      deleteOtherInstances ident own rounds context = .ok out →
      Advances ident context out.1 ∧
        (SecurityDeletable ident context own → out.2 = .deleted202) := by
  intro rounds
  induction rounds with
  | zero =>
    intro context out h _ _ hloop
    simp only [deleteOtherInstances] at hloop
    split at hloop
    · cases hloop
      exact ⟨Advances.refl h, fun _ => rfl⟩
    · cases hloop
  | succ rounds ih =>
    intro context out h hmax hkeeps hloop
    simp only [deleteOtherInstances] at hloop
    split at hloop
    · cases hloop
      exact ⟨Advances.refl h, fun _ => rfl⟩
    · rename_i node hnode
      obtain ⟨object, hfind, hother⟩ := Option.bind_eq_some_iff.mp hnode
      have hmem : ident node ∈ object.instanceList.map ident :=
        List.mem_map_of_mem (List.mem_of_find?_eq_some hother)
      have hown : ident node ≠ own := by simpa using List.find?_some hother
      have hset : ident node ≠ lwm2mMaxId := by
        intro hEq
        rw [NoMaxInstance, securityObject_isSecurity ident hfind, ← hEq, if_pos hmem] at hmax
        cases hmax
      split at hloop
      · cases hloop
      · rename_i context' result hdelete
        obtain ⟨hadv, hothers⟩ := objectDelete_kept h hset (hkeeps _ hown) hdelete
        have hresult : SecurityDeletable ident context own → result = .deleted202 := by
          intro hall
          obtain ⟨delete, hfunc, hanswers⟩ := hall object hfind
          rcases objectDelete_cases hset hdelete with
            ⟨hnone, -⟩ | ⟨object', delete', hfind', hfunc', heq⟩
          · rw [hnone object hfind] at hfunc
            cases hfunc
          · obtain rfl : object = object' := Option.some.inj (hfind.symm.trans hfind')
            obtain rfl : delete = delete' := Option.some.inj (hfunc.symm.trans hfunc')
            rw [(Prod.mk.inj heq).2]
            exact hanswers _ hown _ (h.objects.instances object (h.objects.find hfind)) hmem
        split at hloop
        · have hmax' : NoMaxInstance ident context' := by
            rw [NoMaxInstance, hothers _ (Ne.symm hset)]
            exact hmax
          obtain ⟨hrest, hdone⟩ :=
            ih hadv.tracked hmax' (fun id hid => (hkeeps id hid).mono hadv) hloop
          exact ⟨hadv.trans hrest, fun hall => hdone (hall.mono hadv)⟩
        · rename_i hfailed
          cases hloop
          exact ⟨hadv, fun hall => absurd (hresult hall) hfailed⟩

theorem objectDelete_withServers (context : ClientContext Node) (uri : Lwm2mUri)
    (bootstrapServerList serverList : List Lwm2mServer) :
    objectDelete ident (context.withServers bootstrapServerList serverList) uri =
      (objectDelete ident context uri).map fun out =>
        (out.1.withServers bootstrapServerList serverList, out.2) := by
  have hfind : (context.withServers bootstrapServerList serverList).findObject uri.objectId =
      context.findObject uri.objectId := rfl
  simp only [objectDelete, hfind]
  split
  · rfl
  · split
    · rfl
    · split
      · rfl
      · cases deleteInstances ident _ _ _ <;> rfl

theorem deleteOtherInstances_withServers (ident : Node → UInt16) (own : UInt16)
    (bootstrapServerList serverList : List Lwm2mServer) :
    ∀ (rounds : Nat) (context : ClientContext Node),
      deleteOtherInstances ident own rounds (context.withServers bootstrapServerList serverList) =
        (deleteOtherInstances ident own rounds context).map fun out =>
          (out.1.withServers bootstrapServerList serverList, out.2) := by
  intro rounds
  induction rounds with
  | zero =>
    intro context
    have hother : otherInstance ident own (context.withServers bootstrapServerList serverList) =
        otherInstance ident own context := rfl
    simp only [deleteOtherInstances, hother]
    split <;> rfl
  | succ rounds ih =>
    intro context
    have hother : otherInstance ident own (context.withServers bootstrapServerList serverList) =
        otherInstance ident own context := rfl
    simp only [deleteOtherInstances, hother, objectDelete_withServers]
    split
    · rfl
    · rename_i node hnode
      cases objectDelete ident context ⟨lwm2mSecurityObjectId, ident node, lwm2mMaxId, lwm2mMaxId⟩ with
      | error fault => rfl
      | ok deleted =>
        obtain ⟨context', result⟩ := deleted
        simp only [Except.map]
        split
        · exact ih context'
        · rfl

theorem deleteOtherInstances_servers {rounds : Nat}
    (h : deleteOtherInstances ident own rounds context = .ok out) :
    out.1.withServers context.bootstrapServerList context.serverList = out.1 := by
  have hsame := deleteOtherInstances_withServers ident own context.bootstrapServerList
    context.serverList rounds context
  rw [show context.withServers context.bootstrapServerList context.serverList = context from rfl, h]
    at hsame
  exact congrArg Prod.fst (Except.ok.inj hsame).symm

/-- Deleting the Security instances is safe: all but the server's own can be deleted, or those
that are referred to stay. -/
def SecurityDeleteSafe (ident : Node → UInt16) (context : ClientContext Node) (own : UInt16) :
    Prop :=
  NoMaxInstance ident context ∧ (SecurityDeletable ident context own ∨
    ∀ id, id ≠ own → DeleteKeeps ident context lwm2mSecurityObjectId id)

/-- What DELETE does with the Security object. When all instances can be deleted, only the
server's own is referred to afterwards. -/
theorem deleteSecurity_advances (h : EntriesTracked ident context)
    (hsafe : SecurityDeleteSafe ident context own)
    (hdelete : deleteSecurity ident own .deleted202 context = .ok out) :
    Advances ident context out.1 ∧ (SecurityDeletable ident context own →
      ∀ objectId id, Referred out.1 objectId id → objectId = lwm2mSecurityObjectId ∧ id = own) := by
  simp only [deleteSecurity, ne_eq, not_true_eq_false, if_false] at hdelete
  obtain ⟨deleted, hloop, rfl⟩ := exceptMap_inv hdelete
  obtain ⟨hmax, hcan⟩ := hsafe
  obtain ⟨htag, htagged⟩ := h.tagAllServer own
  -- the loop and the tagging commute, and after the tagging nothing that is deleted is referred to
  have hcommutes : SecurityDeletable ident context own →
      deleted.2 = .deleted202 ∧ Advances ident context (prvTagAllServer deleted.1 (some own)) ∧
        ∀ objectId id, Referred (prvTagAllServer deleted.1 (some own)) objectId id →
          objectId = lwm2mSecurityObjectId ∧ id = own := by
    intro hall
    have htagloop := deleteOtherInstances_withServers ident own
      (prvTagAllServer context (some own)).bootstrapServerList
      (prvTagAllServer context (some own)).serverList context.securityCount context
    rw [hloop] at htagloop
    have hlists := deleteOtherInstances_servers hloop
    have hafter : deleted.1.withServers (prvTagAllServer context (some own)).bootstrapServerList
        (prvTagAllServer context (some own)).serverList =
          prvTagAllServer deleted.1 (some own) := by
      rw [← hlists]
      rfl
    obtain ⟨hadv, hdone⟩ := deleteOtherInstances_advances htag.tracked hmax
      (fun id hid href => absurd (htagged _ _ href).2 hid) htagloop
    change Advances ident _ (deleted.1.withServers _ _) at hadv
    rw [hafter] at hadv
    exact ⟨hdone (hall.mono htag), htag.trans hadv,
      fun objectId id href => htagged _ _ (hadv.referred _ _ href)⟩
  rcases hcan with hall | hkeeps
  · obtain ⟨hdone, hadv, href⟩ := hcommutes hall
    rw [if_pos hdone]
    exact ⟨hadv, fun _ => href⟩
  · obtain ⟨hadv, hdone⟩ := deleteOtherInstances_advances h hmax hkeeps hloop
    split
    · rename_i hcode
      obtain ⟨htag', hreferred⟩ := hadv.tracked.tagAllServer own
      exact ⟨hadv.trans htag', fun _ => hreferred⟩
    · rename_i hcode
      exact ⟨hadv, fun hall => absurd (hdone hall) hcode⟩

theorem objectIds_cases (h : ObjectsReady ident context) :
    (∃ next, context.objectList.map Lwm2mObject.objID = lwm2mSecurityObjectId :: next ∧
      lwm2mSecurityObjectId ∉ next) ∨
    (lwm2mSecurityObjectId ∉ context.objectList.map Lwm2mObject.objID ∧
      context.findObject lwm2mSecurityObjectId = none) := by
  by_cases hmem : lwm2mSecurityObjectId ∈ context.objectList.map Lwm2mObject.objID
  · refine Or.inl ?_
    have hasc : (context.objectList.map Lwm2mObject.objID).Pairwise fun a b => a < b := by
      rw [List.pairwise_map]
      exact h.ascending
    cases hids : context.objectList.map Lwm2mObject.objID with
    | nil => simp [hids] at hmem
    | cons first next =>
      rw [hids] at hasc hmem
      have hlt := (List.pairwise_cons.mp hasc).1
      have hnot : ∀ {id : UInt16}, id < lwm2mSecurityObjectId → False := fun hid => by
        simp [lwm2mSecurityObjectId] at hid
      rcases List.mem_cons.mp hmem with hfirst | hnext
      · subst hfirst
        exact ⟨next, rfl, fun hin => hnot (hlt _ hin)⟩
      · exact absurd (hlt _ hnext) hnot
  · refine Or.inr ⟨hmem, (lwm2mListFind_eq_none_iff h.ascending).mpr fun object hobject hid => ?_⟩
    exact hmem (List.mem_map.mpr ⟨object, hobject, hid⟩)

theorem deleteSecurityObjects_advances (h : EntriesTracked ident context)
    (hsafe : SecurityDeleteSafe ident context own)
    (hdelete : deleteSecurityObjects ident own (context.objectList.map Lwm2mObject.objID) .deleted202 context = .ok out) :
    Advances ident context out.1 := by
  have hskip : ∀ {ids : List UInt16} {result : CoapCode} {context : ClientContext Node},
      lwm2mSecurityObjectId ∉ ids →
      deleteSecurityObjects ident own ids result context = .ok (context, result) := by
    intro ids
    induction ids with
    | nil => exact fun _ => rfl
    | cons id ids ih =>
      intro result context hnot
      obtain ⟨hne, hnot⟩ := not_or.mp (mt List.mem_cons.mpr hnot)
      simp only [deleteSecurityObjects, if_neg (Ne.symm hne)]
      exact ih hnot
  rcases objectIds_cases h.objects with ⟨next, hids, hnot⟩ | ⟨hnot, -⟩
  · rw [hids] at hdelete
    simp only [deleteSecurityObjects, if_true] at hdelete
    split at hdelete
    · cases hdelete
    · rename_i context' result hone
      rw [hskip hnot] at hdelete
      cases hdelete
      exact (deleteSecurity_advances h hsafe hone).1
  · rw [hskip hnot] at hdelete
    cases hdelete
    exact Advances.refl h

theorem deleteInstances_advances {delete : UInt16 → List Node → List Node × CoapCode} :
    ∀ {rounds : Nat} {context : ClientContext Node} {object : Lwm2mObject Node}
      {out : List Node × CoapCode}, EntriesTracked ident context →
      context.findObject objectId = some object → object.deleteFunc = some delete →
      (∀ id, DeleteKeeps ident context objectId id) →
      deleteInstances ident delete rounds object.instanceList = .ok out →
      Advances ident context (context.setInstances objectId out.1) := by
  intro rounds
  induction rounds with
  | zero =>
    intro context object out h hfind _ _ hloop
    have hasc := h.objects.instances object (h.objects.find hfind)
    cases hnodes : object.instanceList with
    | cons node next =>
      rw [hnodes] at hloop
      cases hloop
    | nil =>
      rw [hnodes] at hloop
      cases hloop
      rw [← hnodes]
      exact h.setInstances hfind (TouchesOne.refl object 0 hasc) fun _ => rfl
  | succ rounds ih =>
    intro context object out h hfind hfunc hkeeps hloop
    have hobject := h.objects.find hfind
    have hasc := h.objects.instances object hobject
    cases hnodes : object.instanceList with
    | nil =>
      rw [hnodes] at hloop
      cases hloop
      rw [← hnodes]
      exact h.setInstances hfind (TouchesOne.refl object 0 hasc) fun _ => rfl
    | cons node next =>
      have htouch := (h.objects.callbacks object hobject).delete delete hfunc (ident node) _ hasc
      have hadv := h.setInstances hfind htouch fun href =>
        hkeeps _ href object hfind delete hfunc _ hasc (h.referred_mem hfind href)
      rw [hnodes] at hloop hadv
      simp only [deleteInstances] at hloop
      split at hloop
      · have hfind' : (context.setInstances objectId (delete (ident node) (node :: next)).1).findObject
            objectId = some (object.withInstances (delete (ident node) (node :: next)).1) := by
          simp [lwm2mListFind_setInstances, hfind, findObject_id hfind, Lwm2mObject.withInstances]
        have hrest := ih hadv.tracked hfind' hfunc (fun id => (hkeeps id).mono hadv) hloop
        rw [setInstances_setInstances] at hrest
        exact hadv.trans hrest
      · cases hloop
        exact hadv

theorem objectDelete_all (h : EntriesTracked ident context) (hset : uri.isSetInstance = false)
    (hkeeps : ∀ id, DeleteKeeps ident context uri.objectId id)
    (hdelete : objectDelete ident context uri = .ok out) : Advances ident context out.1 := by
  simp only [objectDelete] at hdelete
  split at hdelete
  · cases hdelete
    exact Advances.refl h
  · rename_i object hfind
    split at hdelete
    · cases hdelete
      exact Advances.refl h
    · rename_i delete hfunc
      simp only [hset, Bool.false_eq_true, if_false] at hdelete
      obtain ⟨deleted, hloop, rfl⟩ := exceptMap_inv hdelete
      exact deleteInstances_advances h hfind hfunc hkeeps hloop

/-- Deleting everything is safe: the Security instances but the server's own can be deleted, or
what is referred to stays. -/
def DeleteAllSafe (ident : Node → UInt16) (context : ClientContext Node) (own : UInt16) : Prop :=
  NoMaxInstance ident context ∧ (SecurityDeletable ident context own ∨
    (∀ id, id ≠ own → DeleteKeeps ident context lwm2mSecurityObjectId id) ∧
      ∀ id, DeleteKeeps ident context lwm2mServerObjectId id)

theorem referred_object (h : Referred context objectId id) :
    objectId = lwm2mSecurityObjectId ∨ objectId = lwm2mServerObjectId :=
  h.imp And.left And.left

theorem deleteAllObjects_others :
    ∀ {ids : List UInt16} {result : CoapCode} {context : ClientContext Node}
      {out : ClientContext Node × CoapCode}, EntriesTracked ident context →
      lwm2mSecurityObjectId ∉ ids → (∀ id, DeleteKeeps ident context lwm2mServerObjectId id) →
      deleteAllObjects ident own ids result context = .ok out → Advances ident context out.1 := by
  intro ids
  induction ids with
  | nil =>
    intro result context out h _ _ hloop
    cases hloop
    exact Advances.refl h
  | cons objectId ids ih =>
    intro result context out h hnot hkeeps hloop
    obtain ⟨hne, hnot⟩ := not_or.mp (mt List.mem_cons.mpr hnot)
    simp only [deleteAllObjects, if_neg (Ne.symm hne)] at hloop
    split at hloop
    · cases hloop
    · rename_i context' result' hdelete
      have hobject : ∀ id, DeleteKeeps ident context objectId id := by
        intro id href
        rcases referred_object href with hsec | hserv
        · exact absurd hsec.symm hne
        · subst hserv
          exact hkeeps id href
      have hadv := objectDelete_all h (by simp [Lwm2mUri.isSetInstance]) hobject hdelete
      exact hadv.trans (ih hadv.tracked hnot (fun id => (hkeeps id).mono hadv) hloop)

theorem deleteAllObjects_advances (h : EntriesTracked ident context)
    (hsafe : DeleteAllSafe ident context own)
    (hdelete : deleteAllObjects ident own (context.objectList.map Lwm2mObject.objID) .deleted202 context = .ok out) :
    Advances ident context out.1 := by
  obtain ⟨hmax, hcan⟩ := hsafe
  rcases objectIds_cases h.objects with ⟨next, hids, hnot⟩ | ⟨hnot, hnone⟩
  · rw [hids] at hdelete
    simp only [deleteAllObjects, if_true] at hdelete
    split at hdelete
    · cases hdelete
    · rename_i context' result hone
      obtain ⟨hadv, hreferred⟩ := deleteSecurity_advances h ⟨hmax, hcan.imp_right And.left⟩ hone
      refine hadv.trans (deleteAllObjects_others hadv.tracked hnot (fun id => ?_) hdelete)
      rcases hcan with hall | ⟨-, hkeeps⟩
      · intro href
        exact absurd (hreferred hall _ _ href).1 (by decide)
      · exact (hkeeps id).mono hadv
  · refine deleteAllObjects_others h hnot (fun id href => ?_) hdelete
    obtain ⟨-, server, hmem, hclean, -⟩ := href.resolve_left fun hsec => absurd hsec.1 (by decide)
    have hsecurity := (h.regular server hmem hclean).security
    simp [instanceAt, hnone] at hsecurity

end Wakaama
