import Wakaama.Core.BootstrapTimeout
import Wakaama.Core.Proofs.BootstrapServerList

/-!
# The inactivity deadline of a bootstrap

While a server is in `STATE_BS_PENDING` its deadline is at least `COAP_EXCHANGE_LIFETIME` after
the last reply or command that was accepted from it, provided that no command is accepted on the
strength of a hold-off deadline: those are not rewritten.
-/

namespace Wakaama

variable {Node Format : Type} {ident : Node → UInt16}

/-! ## What the objects leave alone -/

/-- What `bootstrap_step` looks at. -/
def bootstrapTimer (server : Lwm2mServer) : UInt16 × ServerStatus × Int :=
  (server.secObjInstID, server.status, server.registration)

/-- No bootstrap server of the new context has a status or a deadline that it did not have. -/
def TimersFrom (context context' : ClientContext Node) : Prop :=
  ∀ server' ∈ context'.bootstrapServerList, ∃ server ∈ context.bootstrapServerList,
    bootstrapTimer server' = bootstrapTimer server

variable {context context' : ClientContext Node} {server : Lwm2mServer}
  {parse : Lwm2mUri → List UInt8 → Format → Int × List Lwm2mData} {payload : List UInt8}
  {format : Format} {uri : Lwm2mUri} {out : ClientContext Node × CoapCode} {own : UInt16}
  {past : List (TimeoutCall Format × TimeoutReply)} {event : TimeoutCall Format × TimeoutReply}
  {now timeoutP currentTime : Int} {fromSessionH : Nat} {env : UInt16 → BootstrapEnv}

theorem TimersFrom.of_eq (h : context'.bootstrapServerList = context.bootstrapServerList) :
    TimersFrom context context' :=
  fun server hmem => ⟨server, h ▸ hmem, rfl⟩

theorem TimersFrom.trans {a b c : ClientContext Node} (h : TimersFrom a b)
    (h' : TimersFrom b c) : TimersFrom a c := by
  intro server'' hmem
  obtain ⟨server', hmem', htimer'⟩ := h' server'' hmem
  obtain ⟨server, hmem, htimer⟩ := h server' hmem'
  exact ⟨server, hmem, htimer'.trans htimer⟩

theorem mem_replaceServer {target : Lwm2mServer} {servers : List Lwm2mServer}
    (h : target ∈ replaceServer server servers) :
    target = server ∨ target ∈ servers ∧ target.secObjInstID ≠ server.secObjInstID := by
  obtain ⟨before, hbefore, heq⟩ := List.mem_map.mp h
  split at heq
  · exact .inl heq.symm
  · rename_i hid
    subst heq
    exact .inr ⟨hbefore, hid⟩

theorem setInstances_timers (context : ClientContext Node) (objectId : UInt16)
    (instanceList : List Node) :
    TimersFrom context (context.setInstances objectId instanceList) := .of_eq rfl

theorem prvTagServer_timers (context : ClientContext Node) (id : UInt16) :
    TimersFrom context (prvTagServer context id) := by
  unfold prvTagServer
  split
  · rename_i target hfind
    intro server' hmem
    rcases mem_replaceServer hmem with rfl | ⟨hmem, -⟩
    · exact ⟨target, lwm2mListFind_mem hfind, rfl⟩
    · exact ⟨server', hmem, rfl⟩
  · split
    · exact .of_eq rfl
    · exact .of_eq rfl

theorem prvTagAllServer_timers (context : ClientContext Node) (spared : Option UInt16) :
    TimersFrom context (prvTagAllServer context spared) := by
  intro server' hmem
  obtain ⟨server, hserver, rfl⟩ := List.mem_map.mp hmem
  refine ⟨server, hserver, ?_⟩
  split <;> rfl

theorem prvUpdateServerInfo_timers {object : Lwm2mObject Node} {instanceId : UInt16}
    (h : prvUpdateServerInfo object instanceId context = .ok context') :
    TimersFrom context context' := by
  simp only [prvUpdateServerInfo] at h
  split at h
  · cases h
  · split at h
    · cases h
      exact .of_eq rfl
    · obtain ⟨serverList, -, rfl⟩ := exceptMap_inv h
      exact .of_eq rfl

theorem objectWrite_timers {isPartial : Bool}
    (h : objectWrite parse context uri format payload isPartial = .ok out) :
    TimersFrom context out.1 := by
  simp only [objectWrite] at h
  split at h
  · cases h
    exact .of_eq rfl
  split at h
  · cases h
    exact .of_eq rfl
  split at h
  · cases h
    exact .of_eq rfl
  split at h
  · cases h
    exact .of_eq rfl
  split at h
  · obtain ⟨context', hupdate, rfl⟩ := exceptMap_inv h
    exact (setInstances_timers context _ _).trans (prvUpdateServerInfo_timers hupdate)
  · cases h
    exact .of_eq rfl

theorem objectCreate_timers
    (parse : Lwm2mUri → List UInt8 → Format → Int × List Lwm2mData) (uri : Lwm2mUri)
    (format : Format) (payload : List UInt8) (context : ClientContext Node) :
    TimersFrom context (objectCreate ident parse context uri format payload).1 := by
  apply TimersFrom.of_eq
  simp only [objectCreate]
  repeat' split
  all_goals rfl

theorem bootstrapPutInstanceUri_timers
    (h : bootstrapPutInstanceUri ident parse uri format payload context = .ok out) :
    TimersFrom context out.1 := by
  simp only [bootstrapPutInstanceUri] at h
  split at h
  · cases h
    exact objectCreate_timers parse uri format payload context
  · obtain ⟨written, hwrite, rfl⟩ := exceptMap_inv h
    have hwritten := objectWrite_timers hwrite
    split
    · exact hwritten.trans (prvTagServer_timers _ _)
    · exact hwritten

theorem bootstrapPutInstance_timers (ident : Node → UInt16) (objectId : UInt16)
    (data : Lwm2mData) (context : ClientContext Node) :
    TimersFrom context (bootstrapPutInstance ident objectId data context).1 := by
  have hwrite : TimersFrom context (objectWriteInstance context objectId data).1 := by
    apply TimersFrom.of_eq
    simp only [objectWriteInstance]
    repeat' split
    all_goals rfl
  simp only [bootstrapPutInstance]
  split
  · apply TimersFrom.of_eq
    simp only [objectCreateInstance]
    repeat' split
    all_goals rfl
  · split
    · exact hwrite.trans (prvTagServer_timers _ _)
    · exact hwrite

theorem bootstrapPutItems_timers (objectId : UInt16) :
    ∀ (items : List Lwm2mData) (result : CoapCode) (context : ClientContext Node),
      TimersFrom context (bootstrapPutItems ident objectId items result context).1 := by
  intro items
  induction items with
  | nil => exact fun _ _ => .of_eq rfl
  | cons data items ih =>
    intro result context
    simp only [bootstrapPutItems]
    split
    · have hone := bootstrapPutInstance_timers ident objectId data context
      split
      · exact hone
      · exact hone.trans (ih _ _)
    · exact ih _ _

theorem bootstrapPutObject_timers (objectId : UInt16)
    (parse : List UInt8 → Int × List Lwm2mData) (payload : List UInt8)
    (context : ClientContext Node) :
    TimersFrom context (bootstrapPutObject ident objectId parse payload context).1 := by
  simp only [bootstrapPutObject]
  split
  · exact .of_eq rfl
  split
  · exact .of_eq rfl
  · exact bootstrapPutItems_timers objectId _ _ context

theorem objectDelete_timers (h : objectDelete ident context uri = .ok out) :
    TimersFrom context out.1 := by
  simp only [objectDelete] at h
  split at h
  · cases h
    exact .of_eq rfl
  split at h
  · cases h
    exact .of_eq rfl
  split at h
  · cases h
    exact .of_eq rfl
  · obtain ⟨deleted, -, rfl⟩ := exceptMap_inv h
    exact .of_eq rfl

theorem deleteOtherInstances_timers {rounds : Nat}
    (h : deleteOtherInstances ident own rounds context = .ok out) : TimersFrom context out.1 := by
  apply TimersFrom.of_eq
  rw [← deleteOtherInstances_servers h]
  rfl

theorem deleteSecurity_timers {result : CoapCode}
    (h : deleteSecurity ident own result context = .ok out) : TimersFrom context out.1 := by
  simp only [deleteSecurity] at h
  split at h
  · cases h
    exact .of_eq rfl
  · obtain ⟨deleted, hdelete, rfl⟩ := exceptMap_inv h
    have hdeleted := deleteOtherInstances_timers hdelete
    split
    · exact hdeleted.trans (prvTagAllServer_timers _ _)
    · exact hdeleted

theorem deleteSecurityObjects_timers :
    ∀ {objectIds : List UInt16} {result : CoapCode} {context : ClientContext Node}
      {out : ClientContext Node × CoapCode},
      deleteSecurityObjects ident own objectIds result context = .ok out →
      TimersFrom context out.1 := by
  intro objectIds
  induction objectIds with
  | nil =>
    intro result context out h
    cases h
    exact .of_eq rfl
  | cons objectId next ih =>
    intro result context out h
    simp only [deleteSecurityObjects] at h
    split at h
    · split at h
      · cases h
      · rename_i hdelete
        exact (deleteSecurity_timers hdelete).trans (ih h)
    · exact ih h

theorem deleteAllObjects_timers :
    ∀ {objectIds : List UInt16} {result : CoapCode} {context : ClientContext Node}
      {out : ClientContext Node × CoapCode},
      deleteAllObjects ident own objectIds result context = .ok out →
      TimersFrom context out.1 := by
  intro objectIds
  induction objectIds with
  | nil =>
    intro result context out h
    cases h
    exact .of_eq rfl
  | cons objectId next ih =>
    intro result context out h
    simp only [deleteAllObjects] at h
    split at h
    · split at h
      · cases h
      · rename_i hdelete
        exact (deleteSecurity_timers hdelete).trans (ih h)
    · split at h
      · cases h
      · rename_i hdelete
        exact (objectDelete_timers hdelete).trans (ih h)

theorem bootstrapDelete_timers (h : bootstrapDelete ident own uri context = .ok out) :
    TimersFrom context out.1 := by
  simp only [bootstrapDelete] at h
  split at h
  · cases h
    exact .of_eq rfl
  split at h
  · exact deleteSecurityObjects_timers h
  · obtain ⟨deleted, hdelete, rfl⟩ := exceptMap_inv h
    have hdeleted := objectDelete_timers hdelete
    split
    · exact hdeleted.trans (prvTagServer_timers _ _)
    · exact hdeleted

/-! ## The deadline of a server that waits for commands -/

/-- A server that waits for commands has a deadline, at least `COAP_EXCHANGE_LIFETIME` after the
last of them. -/
def DeadlineKept (past : List (TimeoutCall Format × TimeoutReply)) (server : Lwm2mServer) : Prop :=
  server.status = .bsPending → ∃ last, lastAccepted past server.secObjInstID = some last ∧
    last + coapExchangeLifetime ≤ server.registration

def DeadlinesKept (past : List (TimeoutCall Format × TimeoutReply))
    (context : ClientContext Node) : Prop :=
  ∀ server ∈ context.bootstrapServerList, DeadlineKept past server

/-- A command of the server `own` is being carried out: its deadline has been renewed. -/
def RenewedAt (past : List (TimeoutCall Format × TimeoutReply)) (own : UInt16) (now : Int)
    (context : ClientContext Node) : Prop :=
  ∀ server ∈ context.bootstrapServerList,
    (server.secObjInstID = own → now + coapExchangeLifetime ≤ server.registration) ∧
      (server.secObjInstID ≠ own → DeadlineKept past server)

theorem lastAccepted_append (past : List (TimeoutCall Format × TimeoutReply))
    (event : TimeoutCall Format × TimeoutReply) (id : UInt16) :
    lastAccepted (past ++ [event]) id =
      if event.2.accepted = some id then some event.1.now else lastAccepted past id := by
  unfold lastAccepted
  rw [List.filterMap_append]
  split
  · rename_i h
    simp [h]
  · rename_i h
    simp [h]

theorem DeadlineKept.append_none (h : DeadlineKept past server)
    (hother : event.2.accepted ≠ some server.secObjInstID) :
    DeadlineKept (past ++ [event]) server := by
  intro hpending
  rw [lastAccepted_append, if_neg hother]
  exact h hpending

theorem DeadlinesKept.append_none (h : DeadlinesKept past context)
    (hnone : event.2.accepted = none) :
    DeadlinesKept (past ++ [event]) context :=
  fun server hmem => (h server hmem).append_none (by simp [hnone])

theorem DeadlineKept.congr {server' : Lwm2mServer} (h : DeadlineKept past server)
    (htimer : bootstrapTimer server' = bootstrapTimer server) : DeadlineKept past server' := by
  obtain ⟨hid, hstatus, hregistration⟩ : server'.secObjInstID = server.secObjInstID ∧
      server'.status = server.status ∧ server'.registration = server.registration := by
    simpa [bootstrapTimer] using htimer
  intro hpending
  rw [hid, hregistration]
  exact h (hstatus ▸ hpending)

theorem RenewedAt.timers (h : RenewedAt past own now context)
    (htimers : TimersFrom context context') : RenewedAt past own now context' := by
  intro server' hmem'
  obtain ⟨server, hmem, htimer⟩ := htimers server' hmem'
  obtain ⟨hown, hother⟩ := h server hmem
  obtain ⟨hid, -, hregistration⟩ : server'.secObjInstID = server.secObjInstID ∧
      server'.status = server.status ∧ server'.registration = server.registration := by
    simpa [bootstrapTimer] using htimer
  rw [hid, hregistration]
  exact ⟨hown, fun hne => (hother hne).congr htimer⟩

theorem RenewedAt.pending (h : RenewedAt past own now context) (status : ServerStatus) :
    RenewedAt past own now (setBootstrapStatus own status context) := by
  intro server' hmem'
  obtain ⟨server, hmem, rfl⟩ := List.mem_map.mp hmem'
  split
  · rename_i hid
    exact ⟨(h server hmem).1, fun hne => absurd hid hne⟩
  · exact h server hmem

theorem RenewedAt.kept (h : RenewedAt past own event.1.now context)
    (haccepted : event.2.accepted = some own) : DeadlinesKept (past ++ [event]) context := by
  intro server hmem
  obtain ⟨hown, hother⟩ := h server hmem
  by_cases hid : server.secObjInstID = own
  · intro _
    refine ⟨event.1.now, ?_, hown hid⟩
    rw [lastAccepted_append, if_pos (by rw [haccepted, hid])]
  · exact (hother hid).append_none fun hsome => hid (Option.some.inj (haccepted ▸ hsome)).symm

/-- Passing `prv_checkServerStatus` renews the deadline, of a server in hold-off and of one that
waits for a reply by the condition. -/
theorem prvCheckServerStatus_renews
    (hfar : server.status = .bsHoldOff ∨ server.status = .bsInitiated → now + coapExchangeLifetime ≤ server.registration)
    (hpassed : (prvCheckServerStatus now server).2 = .noError) :
    now + coapExchangeLifetime ≤ (prvCheckServerStatus now server).1.registration := by
  unfold prvCheckServerStatus at hpassed ⊢
  split
  · rename_i hstatus
    exact hfar (.inl hstatus)
  · rename_i hstatus
    exact hfar (.inr hstatus)
  · exact Int.le_refl _
  · exact Int.le_refl _
  · simp_all

theorem prvCheckServerStatus_ignored (hignored : (prvCheckServerStatus now server).2 ≠ .noError) :
    (prvCheckServerStatus now server).1 = server := by
  unfold prvCheckServerStatus at hignored ⊢
  split <;> simp_all

theorem checkedContext_renewed (h : DeadlinesKept past context)
    (hfar : server.status = .bsHoldOff ∨ server.status = .bsInitiated → now + coapExchangeLifetime ≤ server.registration)
    (hpassed : (prvCheckServerStatus now server).2 = .noError) :
    RenewedAt past server.secObjInstID now (checkedContext now server context) := by
  have hid := (prvCheckServerStatus_keeps now server).1
  intro target hmem
  rcases mem_replaceServer hmem with rfl | ⟨hmem, hne⟩
  · exact ⟨fun _ => prvCheckServerStatus_renews hfar hpassed, fun hne => absurd hid hne⟩
  · rw [hid] at hne
    exact ⟨fun heq => absurd heq hne, fun _ => h target hmem⟩

theorem checkedContext_ignored (h : DeadlinesKept past context)
    (hmem : server ∈ context.bootstrapServerList)
    (hignored : (prvCheckServerStatus now server).2 ≠ .noError) :
    DeadlinesKept past (checkedContext now server context) := by
  intro target htarget
  rcases mem_replaceServer htarget with rfl | ⟨htarget, -⟩
  · rw [prvCheckServerStatus_ignored hignored]
    exact h server hmem
  · exact h target htarget

/-! ## Commands -/

theorem bootstrapHandleCommand_renewed {method : BootstrapMethod}
    (hchecked : RenewedAt past server.secObjInstID now (checkedContext now server context))
    (hpassed : (prvCheckServerStatus now server).2 = .noError)
    (hcommand : bootstrapHandleCommand ident now parse method uri format payload server context = .ok out) :
    RenewedAt past server.secObjInstID now out.1 := by
  simp only [bootstrapHandleCommand] at hcommand
  rw [if_neg (not_not.mpr hpassed)] at hcommand
  obtain ⟨done, hdone, rfl⟩ := exceptMap_inv hcommand
  have htimers : TimersFrom (checkedContext now server context) done.1 := by
    cases method with
    | put =>
      simp only at hdone
      split at hdone
      · exact bootstrapPutInstanceUri_timers hdone
      · cases hdone
        exact bootstrapPutObject_timers _ _ _ _
    | delete => exact bootstrapDelete_timers hdone
  have hdone' := hchecked.timers htimers
  split
  · rw [← (prvCheckServerStatus_keeps now server).1] at hdone' ⊢
    exact hdone'.pending .bsPending
  · exact hdone'

theorem bootstrapHandleDeleteAll_renewed
    (hchecked : RenewedAt past server.secObjInstID now (checkedContext now server context))
    (hpassed : (prvCheckServerStatus now server).2 = .noError)
    (hdelete : bootstrapHandleDeleteAll ident now server context = .ok out) :
    RenewedAt past server.secObjInstID now out.1 := by
  simp only [bootstrapHandleDeleteAll] at hdelete
  rw [if_neg (not_not.mpr hpassed)] at hdelete
  have htimers : TimersFrom (checkedContext now server context) out.1 :=
    deleteAllObjects_timers hdelete
  exact hchecked.timers htimers

theorem bootstrapHandleCommandGet_renewed {answer : CoapCode}
    (hchecked : RenewedAt past server.secObjInstID now (checkedContext now server context))
    (hpassed : (prvCheckServerStatus now server).2 = .noError) :
    RenewedAt past server.secObjInstID now
      (bootstrapHandleCommandGet now answer server context).1 := by
  simp only [bootstrapHandleCommandGet]
  rw [if_neg (not_not.mpr hpassed)]
  split
  · rw [← (prvCheckServerStatus_keeps now server).1] at hchecked ⊢
    exact hchecked.pending .bsPending
  · exact hchecked

theorem bootstrapHandleCommand_ignored {method : BootstrapMethod}
    (hignored : (prvCheckServerStatus now server).2 ≠ .noError)
    (hcommand : bootstrapHandleCommand ident now parse method uri format payload server context = .ok out) :
    out.1 = checkedContext now server context := by
  simp only [bootstrapHandleCommand] at hcommand
  rw [if_pos hignored] at hcommand
  cases hcommand
  rfl

theorem bootstrapHandleDeleteAll_ignored (hignored : (prvCheckServerStatus now server).2 ≠ .noError)
    (hdelete : bootstrapHandleDeleteAll ident now server context = .ok out) :
    out.1 = checkedContext now server context := by
  simp only [bootstrapHandleDeleteAll] at hdelete
  rw [if_pos hignored] at hdelete
  cases hdelete
  rfl

theorem bootstrapHandleCommandGet_ignored {answer : CoapCode}
    (hignored : (prvCheckServerStatus now server).2 ≠ .noError) :
    (bootstrapHandleCommandGet now answer server context).1 =
      checkedContext now server context := by
  simp only [bootstrapHandleCommandGet]
  rw [if_pos hignored]
  rfl

theorem bootstrapHandleFinish_kept (h : DeadlinesKept past context)
    (hfinish : bootstrapHandleFinish ident server context = .ok out) :
    DeadlinesKept past out.1 := by
  simp only [bootstrapHandleFinish] at hfinish
  split at hfinish
  · cases hfinish
    exact h
  · obtain ⟨checked, hcheck, rfl⟩ := exceptMap_inv hfinish
    have hsame : checked.1 = context := objectGetServers_checkOnly hcheck
    rw [hsame]
    split
    · intro target' htarget'
      obtain ⟨target, htarget, rfl⟩ := List.mem_map.mp htarget'
      split
      · intro hpending
        cases hpending
      · exact h target htarget
    · exact h

theorem acceptedCommand_eq (hfound : utilsFindBootstrapServer context fromSessionH = some server) :
    acceptedCommand context now fromSessionH =
      if (prvCheckServerStatus now server).2 = .noError then some server.secObjInstID else none := by
  unfold acceptedCommand
  rw [hfound]
  by_cases hpassed : (prvCheckServerStatus now server).2 = .noError
  · simp [hpassed]
  · simp [hpassed]

/-- A command that renews the deadline when it is accepted and does nothing but the status check
when it is not. -/
theorem DeadlinesKept.command {after : ClientContext Node} (h : DeadlinesKept past context)
    (hfound : utilsFindBootstrapServer context fromSessionH = some server)
    (haccepted : event.2.accepted = acceptedCommand context event.1.now fromSessionH)
    (hpassed : (prvCheckServerStatus event.1.now server).2 = .noError → RenewedAt past server.secObjInstID event.1.now after)
    (hignored : (prvCheckServerStatus event.1.now server).2 ≠ .noError → after = checkedContext event.1.now server context) :
    DeadlinesKept (past ++ [event]) after := by
  rw [acceptedCommand_eq hfound] at haccepted
  by_cases hcheck : (prvCheckServerStatus event.1.now server).2 = .noError
  · rw [if_pos hcheck] at haccepted
    exact (hpassed hcheck).kept haccepted
  · rw [if_neg hcheck] at haccepted
    rw [hignored hcheck]
    apply DeadlinesKept.append_none _ haccepted
    exact checkedContext_ignored h (List.mem_of_find?_eq_some hfound) hcheck

theorem handleBootstrapRequest_kept {request : BootstrapRequest Format} {reply : TimeoutReply}
    (h : DeadlinesKept past context)
    (hfar : DeadlineFar context (.request now fromSessionH request))
    (haccepted : reply.accepted = acceptedRequest context now fromSessionH request)
    (hrequest : handleBootstrapRequest ident parse now fromSessionH request context = .ok out) :
    DeadlinesKept (past ++ [(.request now fromSessionH request, reply)]) out.1 := by
  simp only [handleBootstrapRequest] at hrequest
  split at hrequest
  · rename_i hnone
    cases hrequest
    apply h.append_none
    rw [haccepted]
    cases request <;> simp [acceptedRequest, acceptedCommand, hnone]
  · rename_i server hfound
    cases request with
    | command method uri format payload =>
      refine h.command hfound haccepted (fun hpassed => ?_) fun hignored => ?_
      · have hchecked := checkedContext_renewed h (hfar server hfound) hpassed
        exact bootstrapHandleCommand_renewed hchecked hpassed hrequest
      · exact bootstrapHandleCommand_ignored hignored hrequest
    | deleteAll =>
      refine h.command hfound haccepted (fun hpassed => ?_) fun hignored => ?_
      · have hchecked := checkedContext_renewed h (hfar server hfound) hpassed
        exact bootstrapHandleDeleteAll_renewed hchecked hpassed hrequest
      · exact bootstrapHandleDeleteAll_ignored hignored hrequest
    | finish => exact (bootstrapHandleFinish_kept h hrequest).append_none haccepted

/-! ## Replies and steps -/

theorem prvHandleBootstrapReply_pending {message : Option BootstrapReplyPacket}
    (hpending : (prvHandleBootstrapReply now message server).status = .bsPending) :
    (acceptsReply message server = true ∧
        (prvHandleBootstrapReply now message server).registration = now + coapExchangeLifetime) ∨
      acceptsReply message server = false ∧ prvHandleBootstrapReply now message server = server := by
  unfold prvHandleBootstrapReply at hpending ⊢
  split at hpending
  · rename_i hinitiated
    rw [if_pos hinitiated]
    left
    cases message with
    | none => cases hpending
    | some packet =>
      simp only at hpending ⊢
      split at hpending
      · cases hpending
      · rename_i hreset
        unfold prvHandleResponse at hpending ⊢
        split at hpending
        · rename_i hcode
          simp [acceptsReply, hinitiated, hreset, hcode]
        · cases hpending
  · rename_i hother
    rw [if_neg hother]
    exact .inr ⟨by simp [acceptsReply, hother], rfl⟩

theorem prvHandleBootstrapReply_id (now : Int) (message : Option BootstrapReplyPacket)
    (server : Lwm2mServer) :
    (prvHandleBootstrapReply now message server).secObjInstID = server.secObjInstID := by
  unfold prvHandleBootstrapReply prvHandleResponse
  repeat' split
  all_goals rfl

theorem DeadlinesKept.reply {id : UInt16} (h : DeadlinesKept past context)
    (hfound : bootstrapServerOf context id = some server) (now : Int)
    (message : Option BootstrapReplyPacket) :
    DeadlinesKept (past ++ [(.reply now id message,
        { accepted := if acceptsReply message server then some id else none })])
      { context with
        bootstrapServerList :=
          replaceServer (prvHandleBootstrapReply now message server)
            context.bootstrapServerList } := by
  have hmem := List.mem_of_find?_eq_some hfound
  have hid : server.secObjInstID = id := by simpa using List.find?_some hfound
  have hid' := prvHandleBootstrapReply_id now message server
  intro target htarget
  rcases mem_replaceServer htarget with rfl | ⟨htarget, hne⟩
  · intro hpending
    rw [hid', hid, lastAccepted_append]
    rcases prvHandleBootstrapReply_pending hpending with ⟨haccepts, hdeadline⟩ | ⟨hrefused, hsame⟩
    · rw [if_pos (by simp [haccepts])]
      exact ⟨now, rfl, hdeadline ▸ Int.le_refl _⟩
    · rw [hsame] at hpending ⊢
      rw [if_neg (by simp [hrefused]), ← hid]
      exact h server hmem hpending
  · apply (h target htarget).append_none
    intro heq
    rw [hid', hid] at hne
    by_cases haccepts : acceptsReply message server
    · simp only [haccepts, if_true, Option.some.injEq] at heq
      exact hne heq.symm
    · simp [haccepts] at heq

theorem prvRequestBootstrap_status (env : BootstrapEnv) (server : Lwm2mServer) :
    (prvRequestBootstrap env server).status = server.status ∨
      (prvRequestBootstrap env server).status ∈ [.bsFailing, .bsFailed, .bsInitiated] := by
  unfold prvRequestBootstrap
  repeat' split
  all_goals simp

theorem bootstrapStepServer_pending {env : BootstrapEnv}
    (hpending : (bootstrapStepServer currentTime env server timeoutP).1.status = .bsPending) :
    (bootstrapStepServer currentTime env server timeoutP).1 = server := by
  unfold bootstrapStepServer at hpending ⊢
  cases hstatus : server.status with
  | bsHoldOff =>
    simp only [hstatus] at hpending ⊢
    split at hpending
    · rcases prvRequestBootstrap_status env server with hsame | hother
      · rw [hsame, hstatus] at hpending
        cases hpending
      · rw [hpending] at hother
        simp at hother
    · rw [hstatus] at hpending
      cases hpending
  | bsPending =>
    simp only [hstatus] at hpending ⊢
    split at hpending
    · cases hpending
    · rename_i hearly
      rw [if_neg hearly]
  | _ => simp_all

theorem bootstrapStepServer_failing {env : BootstrapEnv} (hpending : server.status = .bsPending)
    (hfailing : (bootstrapStepServer currentTime env server timeoutP).1.status = .bsFailing) :
    server.registration ≤ currentTime := by
  simp only [bootstrapStepServer, hpending] at hfailing
  split at hfailing
  · assumption
  · rw [hpending] at hfailing
    cases hfailing

theorem bootstrapStepServers_zip {pair : Lwm2mServer × Lwm2mServer} :
    ∀ {servers : List Lwm2mServer} {timeoutP : Int},
      pair ∈ servers.zip (bootstrapStepServers currentTime env servers timeoutP).1 →
      pair.1 ∈ servers ∧ ∃ timeoutP, pair.2 =
        (bootstrapStepServer currentTime (env pair.1.secObjInstID) pair.1 timeoutP).1 := by
  intro servers
  induction servers with
  | nil => exact fun h => nomatch h
  | cons server next ih =>
    intro timeoutP h
    simp only [bootstrapStepServers, List.zip_cons_cons] at h
    rcases List.mem_cons.mp h with rfl | h
    · exact ⟨List.mem_cons_self, timeoutP, rfl⟩
    · obtain ⟨hmem, hstep⟩ := ih h
      exact ⟨List.mem_cons_of_mem _ hmem, hstep⟩

theorem bootstrapStepServers_length (currentTime : Int) (env : UInt16 → BootstrapEnv) :
    ∀ (servers : List Lwm2mServer) (timeoutP : Int),
      (bootstrapStepServers currentTime env servers timeoutP).1.length = servers.length := by
  intro servers
  induction servers with
  | nil => exact fun _ => rfl
  | cons server next ih =>
    intro timeoutP
    simp [bootstrapStepServers, ih]

theorem bootstrapStepServers_mem {server' : Lwm2mServer} {servers : List Lwm2mServer}
    (h : server' ∈ (bootstrapStepServers currentTime env servers timeoutP).1) :
    ∃ server ∈ servers, ∃ timeoutP, server' =
      (bootstrapStepServer currentTime (env server.secObjInstID) server timeoutP).1 := by
  have hlength := bootstrapStepServers_length currentTime env servers timeoutP
  rw [← List.map_snd_zip (Nat.le_of_eq hlength)] at h
  obtain ⟨⟨server, server'⟩, hpair, rfl⟩ := List.mem_map.mp h
  obtain ⟨hmem, hstep⟩ := bootstrapStepServers_zip hpair
  exact ⟨server, hmem, hstep⟩

theorem DeadlinesKept.step (h : DeadlinesKept past context)
    (event : TimeoutCall Format × TimeoutReply) (hnone : event.2.accepted = none)
    (currentTime : Int) (env : UInt16 → BootstrapEnv) (timeoutP : Int) :
    DeadlinesKept (past ++ [event]) (bootstrapStep context currentTime env timeoutP).1 := by
  apply DeadlinesKept.append_none _ hnone
  intro server' hmem' hpending
  obtain ⟨server, hmem, timeoutP', rfl⟩ := bootstrapStepServers_mem hmem'
  have hsame := bootstrapStepServer_pending hpending
  rw [hsame] at hpending ⊢
  exact h server hmem hpending

theorem timedOut_silent (h : DeadlinesKept past context) {id : UInt16}
    (hfailed : id ∈ timedOut context.bootstrapServerList (bootstrapStep context currentTime env timeoutP).1.bootstrapServerList) :
    ∃ last, lastAccepted past id = some last ∧ last + coapExchangeLifetime ≤ currentTime := by
  obtain ⟨⟨server, server'⟩, hpair, rfl⟩ := List.mem_map.mp hfailed
  obtain ⟨hzip, hstatus⟩ := List.mem_filter.mp hpair
  obtain ⟨hmem, timeoutP', hstepped⟩ := bootstrapStepServers_zip hzip
  simp only [Bool.and_eq_true, beq_iff_eq] at hstatus hstepped
  obtain ⟨hpending, hfailing⟩ := hstatus
  rw [hstepped] at hfailing
  obtain ⟨last, hlast, hdeadline⟩ := h server hmem hpending
  exact ⟨last, hlast, hdeadline.trans (bootstrapStepServer_failing hpending hfailing)⟩

/-! ## Runs -/

theorem timeoutStep_kept (past : List (TimeoutCall Format × TimeoutReply))
    (context : ClientContext Node) (call : TimeoutCall Format) (context' : ClientContext Node)
    (reply : TimeoutReply) (h : DeadlinesKept past context) (hfar : DeadlineFar context call)
    (hstep : timeoutStep ident parse context call = .ok (context', reply)) :
    FailsAfterSilence past (call, reply) ∧ DeadlinesKept (past ++ [(call, reply)]) context' := by
  cases call with
  | step currentTime env timeoutP =>
    cases hstep
    exact ⟨fun id hid => timedOut_silent h hid, h.step _ rfl currentTime env timeoutP⟩
  | reply now id message =>
    simp only [timeoutStep] at hstep
    split at hstep
    · cases hstep
      exact ⟨fun _ hid => (nomatch hid), h.append_none rfl⟩
    · rename_i server hfound
      cases hstep
      exact ⟨fun _ hid => (nomatch hid), h.reply hfound now message⟩
  | request now fromSessionH request =>
    obtain ⟨out, hrequest, heq⟩ := exceptMap_inv hstep
    obtain ⟨rfl, rfl⟩ := Prod.mk.inj heq
    exact ⟨fun _ hid => (nomatch hid), handleBootstrapRequest_kept h hfar rfl hrequest⟩
  | get now fromSessionH answer =>
    simp only [timeoutStep] at hstep
    split at hstep
    · cases hstep
      exact ⟨fun _ hid => (nomatch hid), h.append_none rfl⟩
    · rename_i server hfound
      cases hstep
      refine ⟨fun _ hid => (nomatch hid), h.command hfound rfl (fun hpassed => ?_) fun hignored => ?_⟩
      · have hchecked := checkedContext_renewed h (hfar server hfound) hpassed
        exact bootstrapHandleCommandGet_renewed hchecked hpassed
      · exact bootstrapHandleCommandGet_ignored hignored

/-- Over any run of replies, commands and steps in which no command finds its server with a
hold-off deadline that ends too early, a server that fails while it waits for commands has been
silent for `COAP_EXCHANGE_LIFETIME`. -/
theorem timeoutRun_silence
    {parse : Lwm2mUri → List UInt8 → Format → Int × List Lwm2mData} {context : ClientContext Node}
    {calls : List (TimeoutCall Format)}
    (hstart : ∀ server ∈ context.bootstrapServerList, server.status ≠ .bsPending)
    (hmeet : StepsMeet (timeoutStep ident parse) DeadlineFar context calls)
    {final : ClientContext Node} {replies : List TimeoutReply}
    (hrun : run (timeoutStep ident parse) context calls = .ok (final, replies)) :
    EachEvent FailsAfterSilence [] (calls.zip replies) := by
  have hinit : DeadlinesKept ([] : List (TimeoutCall Format × TimeoutReply)) context :=
    fun server hmem hpending => absurd hpending (hstart server hmem)
  exact run_eachEvent timeoutStep_kept calls [] context final replies hinit hmeet hrun

/-! ## One bootstrap server -/

/-- A client without objects and with one bootstrap server, before the bootstrap. -/
def beforeBootstrap (lifetime : Int) : ClientContext PlainInstance where
  state := .bootstrapRequired
  bootstrapServerList := [{ zeroServer 0 with lifetime, sessionH := some 7 }]
  serverList := []
  objectList := []

/-- Nothing in these runs has a payload. -/
def parseNothing : Lwm2mUri → List UInt8 → Unit → Int × List Lwm2mData := fun _ _ _ => (0, [])

/-- The platform sends what it is asked to send. -/
def sendsAll : UInt16 → BootstrapEnv := fun _ => ⟨true, none, true, true⟩

/-- The request is answered, a command comes, and then nothing until the deadline. -/
def answeredBootstrap : List (TimeoutCall Unit) :=
  [.step 0 sendsAll 60, .step 5 sendsAll 60, .reply 6 0 (some ⟨.ack, .changed204⟩),
    .request 100 7 .deleteAll, .get 200 7 .notFound404, .step 446 sendsAll 60,
    .step 447 sendsAll 60]

def overtakenReply : List (TimeoutCall Unit) :=
  [.step 0 sendsAll 60, .step 5 sendsAll 60, .request 6 7 .deleteAll, .step 7 sendsAll 60]

theorem beforeBootstrap_notPending (lifetime : Int) :
    ∀ server ∈ (beforeBootstrap lifetime).bootstrapServerList, server.status ≠ .bsPending := by
  intro server hmem
  obtain rfl := List.mem_singleton.mp hmem
  exact fun h => nomatch h

/-- The server fails 247 s after its last command. -/
theorem answeredBootstrap_silence :
    EachEvent FailsAfterSilence [] (answeredBootstrap.zip
      [{}, {}, ⟨some 0, []⟩, ⟨some 0, []⟩, ⟨some 0, []⟩, {}, ⟨none, [0]⟩]) := by
  have hpending : ∀ server : Lwm2mServer, server.status = .bsPending →
      server.status = .bsHoldOff ∨ server.status = .bsInitiated → False := by
    rintro server hstatus (h | h) <;> rw [hstatus] at h <;> cases h
  have hmeet : StepsMeet (timeoutStep PlainInstance.id parseNothing) DeadlineFar
      (beforeBootstrap 5) answeredBootstrap := by
    refine .cons trivial rfl (.cons trivial rfl (.cons trivial rfl (.cons ?_ rfl (.cons ?_ rfl
      (.cons trivial rfl (.cons trivial rfl trivial))))))
    · rintro server ⟨⟩ h
      exact (hpending _ rfl h).elim
    · rintro server ⟨⟩ h
      exact (hpending _ rfl h).elim
  exact timeoutRun_silence (beforeBootstrap_notPending 5) hmeet rfl

/-- A command that overtakes the reply leaves the hold-off deadline: the next step, one second
later, makes the server fail. -/
theorem overtakenReply_fails :
    ¬ (∀ (lifetime : Int) (calls : List (TimeoutCall Unit)) (final : ClientContext PlainInstance)
        (replies : List TimeoutReply),
        run (timeoutStep PlainInstance.id parseNothing) (beforeBootstrap lifetime) calls =
          .ok (final, replies) → EachEvent FailsAfterSilence [] (calls.zip replies)) := by
  intro h
  obtain ⟨-, -, -, hlast, -⟩ := h 5 overtakenReply _ _ rfl
  obtain ⟨last, hlast, hsilent⟩ := hlast 0 (List.Mem.head _)
  cases hlast
  exact absurd hsilent (by decide)

end Wakaama
