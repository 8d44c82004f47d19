import Wakaama.Core.Registration.Client
import Wakaama.Core.Proofs.SortedList
import Wakaama.Misc.Run

/-!
# Full registration updates are kept

A call that asks for a full update leaves the request in the server's status. From there it
survives every later call, reply and timeout until an update with the object list is sent; but
the call for all servers does not put it there when an update without objects is already
needed.
-/

namespace Wakaama

variable {Node : Type}

/-- What happens to a client: a call of the API, a registration step, or the reply to an update
(no packet for a timeout). -/
inductive ClientEvent (Node : Type) where
  | updateRegistration (shortServerID : UInt16) (withObjects : Bool)
  | addObject (object : Lwm2mObject Node)
  | removeObject (id : UInt16)
  | step (currentTime : Int) (env : UInt16 → ServerEnv)
  | updateReply (secObjInstID : UInt16) (now : Int) (packet : Option ReplyPacket)

/-- What a call returns and the updates that are sent. -/
structure ClientReply (Node : Type) where
  code : CoapCode
  sent : List (UpdateMessage Node)

/-- The client as a state machine; no event faults. -/
def clientStep (getServers : ClientContext Node → ClientContext Node × Bool)
    (context : ClientContext Node) :
    ClientEvent Node → Except Empty (ClientContext Node × ClientReply Node)
  | .updateRegistration shortServerID withObjects =>
    let (context, code) :=
      lwm2mUpdateRegistration getServers shortServerID withObjects context
    .ok (context, { code, sent := [] })
  | .addObject object =>
    let (context, code) := lwm2mAddObject getServers object context
    .ok (context, { code, sent := [] })
  | .removeObject id =>
    let (context, code) := lwm2mRemoveObject getServers id context
    .ok (context, { code, sent := [] })
  | .step currentTime env =>
    let (context, sent) := registrationStep currentTime env context
    .ok (context, { code := .noError, sent })
  | .updateReply secObjInstID now packet =>
    let serverList := context.serverList.map fun server =>
      if server.secObjInstID = secObjInstID then
        prvHandleRegistrationUpdateReply now packet server
      else server
    .ok ({ context with serverList }, { code := .noError, sent := [] })

/-- The servers a call asks a full update for: one short id, 0 for all. -/
def fullUpdateRequest (context : ClientContext Node) : ClientEvent Node → Option UInt16
  | .updateRegistration shortServerID true => some shortServerID
  | .addObject _ | .removeObject _ => if context.state = .ready then some 0 else none
  | _ => none

/-- The statuses in which a server is registered and takes updates. -/
def takesUpdates (status : ServerStatus) : Prop :=
  status = .registered ∨ status = .regUpdateNeeded ∨ status = .regFullUpdateNeeded ∨
    status = .regUpdatePending

/-- The first update sent to a server. -/
def nextUpdate (secObjInstID : UInt16) (replies : List (ClientReply Node)) :
    Option (UpdateMessage Node) :=
  (replies.flatMap ClientReply.sent).find? fun message => message.server == secObjInstID

/-- A request for the short id leaves a full update needed by the server: it is needed
already, or all servers are asked and no update without objects is needed, or the server is
the first with the short id. -/
def RequestReaches (context : ClientContext Node) (shortServerID : UInt16)
    (server : Lwm2mServer) : Prop :=
  server.status = .regFullUpdateNeeded ∨
    if shortServerID = 0 then server.status ≠ .regUpdateNeeded
    else context.serverList.find? (fun target => target.shortID == shortServerID) = some server

instance (context : ClientContext Node) (shortServerID : UInt16) (server : Lwm2mServer) :
    Decidable (RequestReaches context shortServerID server) :=
  inferInstanceAs (Decidable (_ ∨ ite _ _ _))

/-! ### One server -/

theorem prvHandleRegistrationUpdateReply_id (now : Int) (packet : Option ReplyPacket)
    (server : Lwm2mServer) :
    (prvHandleRegistrationUpdateReply now packet server).secObjInstID = server.secObjInstID := by
  unfold prvHandleRegistrationUpdateReply
  cases packet <;> simp [apply_ite Lwm2mServer.secObjInstID]

variable {server : Lwm2mServer} {servers servers' : List Lwm2mServer}
  {context context' : ClientContext Node} {secObjInstID : UInt16}
  {getServers : ClientContext Node → ClientContext Node × Bool}

theorem prvHandleRegistrationUpdateReply_ignored (h : server.status ≠ .regUpdatePending) (now : Int)
    (packet : Option ReplyPacket) :
    prvHandleRegistrationUpdateReply now packet server = server := by
  unfold prvHandleRegistrationUpdateReply
  rw [if_neg h]

theorem prvUpdateRegistration_id (objectList : List (Lwm2mObject Node)) (outcome : UpdateOutcome)
    (withObjects : Bool) (server : Lwm2mServer) :
    (prvUpdateRegistration objectList outcome withObjects server).1.secObjInstID =
        server.secObjInstID ∧
      ∀ message ∈ (prvUpdateRegistration objectList outcome withObjects server).2,
        message.server = server.secObjInstID := by
  cases outcome with
  | notSent => simp [prvUpdateRegistration]
  | sentFailed => simp [prvUpdateRegistration, prvHandleRegistrationUpdateReply_id]
  | sent => simp [prvUpdateRegistration]

theorem prvRegister_id (env : ServerEnv) (server : Lwm2mServer) :
    (prvRegister env server).secObjInstID = server.secObjInstID := by
  unfold prvRegister
  split
  · split
    · rfl
    · split <;> rfl
  · rfl

theorem registrationStepServer_id (objectList : List (Lwm2mObject Node)) (currentTime : Int)
    (env : ServerEnv) (server : Lwm2mServer) :
    (registrationStepServer objectList currentTime env server).1.secObjInstID =
        server.secObjInstID ∧
      ∀ message ∈ (registrationStepServer objectList currentTime env server).2,
        message.server = server.secObjInstID := by
  unfold registrationStepServer
  split
  · split
    · exact ⟨prvRegister_id env server, by simp⟩
    · exact ⟨rfl, by simp⟩
  · split
    · exact prvUpdateRegistration_id _ _ _ _
    · exact ⟨rfl, by simp⟩
  · exact prvUpdateRegistration_id _ _ _ _
  · exact prvUpdateRegistration_id _ _ _ _
  · exact ⟨rfl, by simp⟩
  · exact ⟨rfl, by simp⟩

theorem updateOneServer_id (withObjects : Bool) (server : Lwm2mServer) :
    (updateOneServer withObjects server).1.secObjInstID = server.secObjInstID := by
  unfold updateOneServer
  split
  · rfl
  · rfl
  · cases withObjects <;> rfl
  · cases withObjects <;> rfl
  · rfl

theorem updateEachServer_id (withObjects : Bool) (server : Lwm2mServer) :
    (updateEachServer withObjects server).secObjInstID = server.secObjInstID := by
  unfold updateEachServer
  split <;> rfl

/-! ### One event -/

/-- The server list is in order and a full update is needed by the server with the id. -/
structure Owed (context : ClientContext Node) (secObjInstID : UInt16) : Prop where
  ascending : Ascending Lwm2mServer.secObjInstID context.serverList
  needed : ∃ server ∈ context.serverList,
    server.secObjInstID = secObjInstID ∧ server.status = .regFullUpdateNeeded

/-- The server is the same one, untouched if it needs a full update. -/
def KeepsFull (server server' : Lwm2mServer) : Prop :=
  server'.secObjInstID = server.secObjInstID ∧
    (server.status = .regFullUpdateNeeded → server' = server)

theorem ascending_of_ids
    (hids : servers'.map Lwm2mServer.secObjInstID = servers.map Lwm2mServer.secObjInstID)
    (hasc : Ascending Lwm2mServer.secObjInstID servers) :
    Ascending Lwm2mServer.secObjInstID servers' := by
  unfold Ascending at hasc ⊢
  rw [← List.pairwise_map] at hasc ⊢
  rwa [hids]

theorem keepsFull_ids (h : List.Forall₂ KeepsFull servers servers') :
    servers'.map Lwm2mServer.secObjInstID = servers.map Lwm2mServer.secObjInstID := by
  induction h with
  | nil => rfl
  | cons hhead _ ih => rw [List.map_cons, List.map_cons, hhead.1, ih]

theorem keepsFull_mem (h : List.Forall₂ KeepsFull servers servers') (hmem : server ∈ servers) :
    ∃ server' ∈ servers', KeepsFull server server' := by
  induction h with
  | nil => simp at hmem
  | cons hhead _ ih =>
    rcases List.mem_cons.mp hmem with heq | hrest
    · exact ⟨_, by simp, heq ▸ hhead⟩
    · obtain ⟨server', hmem', hsame⟩ := ih hrest
      exact ⟨server', List.mem_cons_of_mem _ hmem', hsame⟩

theorem Owed.keep (h : Owed context secObjInstID)
    (hkeep : List.Forall₂ KeepsFull context.serverList context'.serverList) :
    Owed context' secObjInstID := by
  obtain ⟨server, hmem, hserver, hstatus⟩ := h.needed
  obtain ⟨server', hmem', hsame⟩ := keepsFull_mem hkeep hmem
  rw [hsame.2 hstatus] at hmem'
  exact ⟨ascending_of_ids (keepsFull_ids hkeep) h.ascending, server, hmem', hserver, hstatus⟩

theorem forall₂_keepsFull_map {f : Lwm2mServer → Lwm2mServer}
    (hkeep : ∀ server, KeepsFull server (f server)) (servers : List Lwm2mServer) :
    List.Forall₂ KeepsFull servers (servers.map f) := by
  rw [List.forall₂_map_right_iff, List.forall₂_same]
  exact fun server _ => hkeep server

theorem updateOneServer_keeps (withObjects : Bool) (server : Lwm2mServer) :
    KeepsFull server (updateOneServer withObjects server).1 := by
  refine ⟨updateOneServer_id withObjects server, fun hfull => ?_⟩
  unfold updateOneServer
  rw [hfull]
  cases withObjects
  · rfl
  · cases server
    simp_all

theorem updateEachServer_keeps (withObjects : Bool) (server : Lwm2mServer) :
    KeepsFull server (updateEachServer withObjects server) := by
  refine ⟨updateEachServer_id withObjects server, fun hfull => ?_⟩
  unfold updateEachServer
  rw [hfull]
  rfl

theorem updateShortID_keeps (shortServerID : UInt16) (withObjects : Bool)
    (servers : List Lwm2mServer) :
    List.Forall₂ KeepsFull servers (updateShortID shortServerID withObjects servers).1 := by
  induction servers with
  | nil => exact List.Forall₂.nil
  | cons target next ih =>
    unfold updateShortID
    split
    · exact List.Forall₂.cons (updateOneServer_keeps withObjects target)
        (List.forall₂_same.mpr fun server _ => ⟨rfl, fun _ => rfl⟩)
    · exact List.Forall₂.cons ⟨rfl, fun _ => rfl⟩ ih

theorem lwm2mUpdateRegistration_owed (getServers : ClientContext Node → ClientContext Node × Bool)
    (shortServerID : UInt16) (withObjects : Bool) (h : Owed context secObjInstID) :
    Owed (lwm2mUpdateRegistration getServers shortServerID withObjects context).1
      secObjInstID := by
  unfold lwm2mUpdateRegistration
  split
  · rename_i hnil
    obtain ⟨server, hmem, -⟩ := h.needed
    simp [hnil] at hmem
  · split
    · exact h.keep (forall₂_keepsFull_map (updateEachServer_keeps withObjects) _)
    · exact h.keep (updateShortID_keeps shortServerID withObjects _)

theorem prvHandleRegistrationUpdateReply_keeps (now : Int) (packet : Option ReplyPacket)
    (server : Lwm2mServer) :
    KeepsFull server (prvHandleRegistrationUpdateReply now packet server) := by
  refine ⟨prvHandleRegistrationUpdateReply_id now packet server, fun hfull => ?_⟩
  apply prvHandleRegistrationUpdateReply_ignored
  rw [hfull]
  exact ServerStatus.noConfusion

theorem registrationStepServer_full (objectList : List (Lwm2mObject Node)) (currentTime : Int)
    (env : ServerEnv) (hfull : server.status = .regFullUpdateNeeded) :
    registrationStepServer objectList currentTime env server = (server, []) ∨
      ∃ message, (registrationStepServer objectList currentTime env server).2 = [message] ∧
        message.server = server.secObjInstID ∧ message.objects = some objectList := by
  unfold registrationStepServer prvUpdateRegistration
  rw [hfull]
  cases env.update with
  | notSent => exact Or.inl rfl
  | sentFailed => exact Or.inr ⟨_, rfl, rfl, rfl⟩
  | sent => exact Or.inr ⟨_, rfl, rfl, rfl⟩

theorem registrationStep_ascending (hasc : Ascending Lwm2mServer.secObjInstID context.serverList)
    (currentTime : Int) (env : UInt16 → ServerEnv) :
    Ascending Lwm2mServer.secObjInstID (registrationStep currentTime env context).1.serverList := by
  refine ascending_of_ids ?_ hasc
  unfold registrationStep
  rw [List.map_map, List.map_map]
  exact List.map_congr_left fun server _ =>
    (registrationStepServer_id context.objectList currentTime (env server.secObjInstID) server).1

theorem registrationStep_sent (hasc : Ascending Lwm2mServer.secObjInstID context.serverList)
    (hmem : server ∈ context.serverList) (currentTime : Int) (env : UInt16 → ServerEnv) :
    (registrationStep currentTime env context).2.find?
        (fun message => message.server == server.secObjInstID) =
      (registrationStepServer context.objectList currentTime (env server.secObjInstID)
        server).2.head? := by
  unfold registrationStep
  dsimp only
  generalize context.serverList = servers at hasc hmem
  have hown : ∀ other : Lwm2mServer,
      (registrationStepServer context.objectList currentTime (env other.secObjInstID)
        other).2.find? (fun message => message.server == server.secObjInstID) =
      if other.secObjInstID = server.secObjInstID then
        (registrationStepServer context.objectList currentTime (env other.secObjInstID)
          other).2.head?
      else none := by
    intro other
    have hid := (registrationStepServer_id context.objectList currentTime
      (env other.secObjInstID) other).2
    cases hsent : (registrationStepServer context.objectList currentTime
        (env other.secObjInstID) other).2 with
    | nil => simp
    | cons message rest =>
      rw [hsent] at hid
      split
      · rename_i heq
        simp [hid message (by simp), heq]
      · rename_i hne
        rw [List.find?_eq_none]
        intro m hm
        simp [hid m hm, hne]
  induction servers with
  | nil => simp at hmem
  | cons first next ih =>
    obtain ⟨hlt, hnext⟩ := ascending_cons.mp hasc
    rw [List.map_cons, List.flatMap_cons, List.find?_append, hown first]
    rcases List.mem_cons.mp hmem with heq | hrest
    · -- no later server has the id
      subst heq
      have hnone : ∀ other ∈ next, other.secObjInstID ≠ server.secObjInstID := by
        intro other hother hid
        have hless := hlt other hother
        rw [hid] at hless
        exact uint16_lt_irrefl _ hless
      have hlater : ((next.map fun server => registrationStepServer context.objectList
          currentTime (env server.secObjInstID) server).flatMap Prod.snd).find?
            (fun message => message.server == server.secObjInstID) = none := by
        rw [List.find?_eq_none]
        intro message hmessage
        obtain ⟨stepped, hstepped, hm⟩ := List.mem_flatMap.mp hmessage
        obtain ⟨other, hother, rfl⟩ := List.mem_map.mp hstepped
        have hid := (registrationStepServer_id context.objectList currentTime
          (env other.secObjInstID) other).2 message hm
        simp [hid, hnone other hother]
      rw [if_pos rfl, hlater, Option.or_none]
    · have hne : first.secObjInstID ≠ server.secObjInstID := by
        intro hid
        have hless := hlt server hrest
        rw [hid] at hless
        exact uint16_lt_irrefl _ hless
      rw [if_neg hne, Option.none_or]
      exact ih hnext hrest

/-- An event either keeps what is owed and sends the server nothing, or sends it an update
with the object list. -/
theorem clientStep_owed {event : ClientEvent Node} {reply : ClientReply Node}
    (h : Owed context secObjInstID)
    (hstep : clientStep getServers context event = .ok (context', reply)) :
    (nextUpdate secObjInstID [reply] = none ∧ Owed context' secObjInstID) ∨
      ∃ message, nextUpdate secObjInstID [reply] = some message ∧ message.objects.isSome := by
  cases event with
  | updateRegistration shortServerID withObjects =>
    simp only [clientStep, Except.ok.injEq, Prod.mk.injEq] at hstep
    obtain ⟨rfl, rfl⟩ := hstep
    exact Or.inl ⟨rfl, lwm2mUpdateRegistration_owed getServers shortServerID withObjects h⟩
  | addObject object =>
    simp only [clientStep, Except.ok.injEq, Prod.mk.injEq] at hstep
    obtain ⟨rfl, rfl⟩ := hstep
    refine Or.inl ⟨rfl, ?_⟩
    unfold lwm2mAddObject
    split
    · exact h
    · dsimp only
      split
      · exact lwm2mUpdateRegistration_owed getServers 0 true ⟨h.ascending, h.needed⟩
      · exact ⟨h.ascending, h.needed⟩
  | removeObject id =>
    simp only [clientStep, Except.ok.injEq, Prod.mk.injEq] at hstep
    obtain ⟨rfl, rfl⟩ := hstep
    refine Or.inl ⟨rfl, ?_⟩
    unfold lwm2mRemoveObject
    dsimp only
    split
    · exact ⟨h.ascending, h.needed⟩
    · split
      · exact lwm2mUpdateRegistration_owed getServers 0 true ⟨h.ascending, h.needed⟩
      · exact ⟨h.ascending, h.needed⟩
  | step currentTime env =>
    simp only [clientStep, Except.ok.injEq, Prod.mk.injEq] at hstep
    obtain ⟨rfl, rfl⟩ := hstep
    obtain ⟨server, hmem, hid, hstatus⟩ := h.needed
    have hsent := registrationStep_sent h.ascending hmem currentTime env
    rw [hid] at hsent
    simp only [nextUpdate, List.flatMap_cons, List.flatMap_nil, List.append_nil, hsent]
    rcases registrationStepServer_full context.objectList currentTime (env secObjInstID) hstatus
      with hsame | ⟨message, hmessage, -, hobjects⟩
    · left
      refine ⟨by rw [hsame]; rfl, registrationStep_ascending h.ascending currentTime env, server, ?_,
        hid, hstatus⟩
      unfold registrationStep
      refine List.mem_map.mpr ⟨(server, []), List.mem_map.mpr ⟨server, hmem, ?_⟩, rfl⟩
      rw [hid]
      exact hsame
    · right
      exact ⟨message, by rw [hmessage]; rfl, by rw [hobjects]; rfl⟩
  | updateReply id now packet =>
    simp only [clientStep, Except.ok.injEq, Prod.mk.injEq] at hstep
    obtain ⟨rfl, rfl⟩ := hstep
    refine Or.inl ⟨rfl, h.keep (forall₂_keepsFull_map (fun server => ?_) _)⟩
    split
    · exact prvHandleRegistrationUpdateReply_keeps now packet server
    · exact ⟨rfl, fun _ => rfl⟩

/-! ### Every run -/

theorem nextUpdate_cons (secObjInstID : UInt16) (reply : ClientReply Node)
    (replies : List (ClientReply Node)) :
    nextUpdate secObjInstID (reply :: replies) =
      (nextUpdate secObjInstID [reply]).or (nextUpdate secObjInstID replies) := by
  simp [nextUpdate, List.find?_append]

theorem owed_nextUpdate :
    ∀ (events : List (ClientEvent Node)) (context final : ClientContext Node)
      (replies : List (ClientReply Node)), Owed context secObjInstID →
      run (clientStep getServers) context events = .ok (final, replies) →
      ∀ message ∈ nextUpdate secObjInstID replies, message.objects.isSome := by
  intro events
  induction events with
  | nil =>
    intro context final replies _ hrun message hmessage
    simp only [run_nil, Except.ok.injEq, Prod.mk.injEq] at hrun
    rw [← hrun.2] at hmessage
    simp [nextUpdate] at hmessage
  | cons event events ih =>
    intro context final replies howed hrun message hmessage
    obtain ⟨context', reply, rest, hstep, hrest, rfl⟩ := run_cons_inv hrun
    rw [nextUpdate_cons] at hmessage
    rcases clientStep_owed howed hstep with ⟨hnone, howed'⟩ | ⟨sent, hsent, hobjects⟩
    · rw [hnone, Option.none_or] at hmessage
      exact ih context' final rest howed' hrest message hmessage
    · rw [hsent, Option.some_or, Option.mem_some_iff] at hmessage
      exact hmessage ▸ hobjects

/-! ### The request -/

theorem updateShortID_mem (hasc : Ascending Lwm2mServer.secObjInstID servers)
    (hmem : server ∈ servers) (shortServerID : UInt16) (withObjects : Bool) :
    (if servers.find? (fun target => target.shortID == shortServerID) = some server then
        (updateOneServer withObjects server).1 else server) ∈
      (updateShortID shortServerID withObjects servers).1 := by
  induction servers with
  | nil => simp at hmem
  | cons target next ih =>
    obtain ⟨hlt, hnext⟩ := ascending_cons.mp hasc
    by_cases htarget : target.shortID = shortServerID
    · rw [List.find?_cons_of_pos (by simpa using htarget), updateShortID, if_pos htarget]
      rcases List.mem_cons.mp hmem with heq | hrest
      · rw [if_pos (by rw [heq]), heq]
        exact List.mem_cons_self
      · have hne : some target ≠ some server := by
          intro heq
          have hless := hlt server hrest
          rw [Option.some.inj heq] at hless
          exact uint16_lt_irrefl _ hless
        rw [if_neg hne]
        exact List.mem_cons_of_mem _ hrest
    · rw [List.find?_cons_of_neg (by simpa using htarget), updateShortID, if_neg htarget]
      rcases List.mem_cons.mp hmem with heq | hrest
      · have hne : next.find? (fun target => target.shortID == shortServerID) ≠ some server := by
          intro hfound
          have hshort := List.find?_some hfound
          rw [heq] at hshort
          exact htarget (by simpa using hshort)
        rw [if_neg hne, heq]
        exact List.mem_cons_self
      · exact List.mem_cons_of_mem _ (ih hnext hrest)

theorem updateOneServer_request (h : takesUpdates server.status) :
    (updateOneServer true server).1.status = .regFullUpdateNeeded := by
  unfold updateOneServer
  rcases h with hstatus | hstatus | hstatus | hstatus <;> simp [hstatus]

theorem updateEachServer_request (h : takesUpdates server.status) :
    takesUpdates (updateEachServer true server).status ∧
      ((updateEachServer true server).status = .regFullUpdateNeeded ↔
        server.status ≠ .regUpdateNeeded) := by
  unfold updateEachServer
  rcases h with hstatus | hstatus | hstatus | hstatus <;> simp [hstatus, takesUpdates]

/-- After a call that asks for full updates, a server it addresses needs a full update exactly
when the request reaches it. -/
theorem lwm2mUpdateRegistration_request {shortServerID : UInt16} {code : CoapCode}
    (hasc : Ascending Lwm2mServer.secObjInstID context.serverList)
    (hmem : server ∈ context.serverList) (hstatus : takesUpdates server.status)
    (hcall : lwm2mUpdateRegistration getServers shortServerID true context = (context', code)) :
    Ascending Lwm2mServer.secObjInstID context'.serverList ∧
      ∃ server' ∈ context'.serverList, server'.secObjInstID = server.secObjInstID ∧
        takesUpdates server'.status ∧
        (server'.status = .regFullUpdateNeeded ↔ RequestReaches context shortServerID server) := by
  have hservers : context.serverList ≠ [] := List.ne_nil_of_mem hmem
  unfold lwm2mUpdateRegistration at hcall
  split at hcall
  · contradiction
  split at hcall
  · -- all servers are asked
    rename_i hzero
    obtain ⟨rfl, -⟩ := Prod.mk.inj hcall
    obtain ⟨htakes, hfull⟩ := updateEachServer_request hstatus
    refine ⟨ascending_of_ids (keepsFull_ids (forall₂_keepsFull_map
      (updateEachServer_keeps true) _)) hasc, updateEachServer true server,
      List.mem_map_of_mem hmem, updateEachServer_id true server, htakes, ?_⟩
    rw [hfull, RequestReaches, if_pos hzero]
    constructor
    · exact Or.inr
    · rintro (hneeded | hneeded)
      · rw [hneeded]
        exact ServerStatus.noConfusion
      · exact hneeded
  · -- the first server with the short id is asked
    rename_i hzero
    obtain ⟨rfl, -⟩ := Prod.mk.inj hcall
    refine ⟨ascending_of_ids (keepsFull_ids (updateShortID_keeps shortServerID true _)) hasc,
      _, updateShortID_mem hasc hmem shortServerID true, ?_⟩
    rw [RequestReaches, if_neg hzero]
    split
    · rename_i hfirst
      have hfull := updateOneServer_request hstatus
      exact ⟨updateOneServer_id true server, by rw [hfull]; exact Or.inr (Or.inr (Or.inl rfl)),
        iff_of_true hfull (Or.inr hfirst)⟩
    · rename_i hfirst
      exact ⟨rfl, hstatus, ⟨Or.inl, fun h => h.resolve_right hfirst⟩⟩

/-- An event that asks for full updates and reports success is a call of
`lwm2m_update_registration`. -/
theorem clientStep_request {event : ClientEvent Node} {reply : ClientReply Node}
    {shortServerID : UInt16} (hstep : clientStep getServers context event = .ok (context', reply))
    (hrequest : fullUpdateRequest context event = some shortServerID)
    (hcode : reply.code = .noError) :
    ∃ started : ClientContext Node, started.serverList = context.serverList ∧
      lwm2mUpdateRegistration getServers shortServerID true started = (context', .noError) := by
  cases event with
  | updateRegistration id withObjects =>
    cases withObjects with
    | false => simp [fullUpdateRequest] at hrequest
    | true =>
      simp only [fullUpdateRequest, Option.some.injEq] at hrequest
      simp only [clientStep, Except.ok.injEq, Prod.mk.injEq] at hstep
      obtain ⟨rfl, rfl⟩ := hstep
      exact ⟨context, rfl, Prod.ext (by rw [hrequest]) (by rw [← hrequest]; exact hcode)⟩
  | addObject object =>
    simp only [clientStep, Except.ok.injEq, Prod.mk.injEq] at hstep
    obtain ⟨rfl, rfl⟩ := hstep
    by_cases hready : context.state = .ready
    · simp only [fullUpdateRequest, if_pos hready, Option.some.injEq] at hrequest
      subst hrequest
      unfold lwm2mAddObject at hcode ⊢
      split at hcode
      · simp at hcode
      · rw [if_pos hready] at hcode
        refine ⟨_, ?_, Prod.ext ?_ hcode⟩
        · rfl
        · rw [if_pos hready]
    · simp [fullUpdateRequest, hready] at hrequest
  | removeObject id =>
    simp only [clientStep, Except.ok.injEq, Prod.mk.injEq] at hstep
    obtain ⟨rfl, rfl⟩ := hstep
    by_cases hready : context.state = .ready
    · simp only [fullUpdateRequest, if_pos hready, Option.some.injEq] at hrequest
      subst hrequest
      unfold lwm2mRemoveObject at hcode ⊢
      dsimp only at hcode ⊢
      split at hcode
      · simp at hcode
      · rename_i hfound
        refine ⟨_, ?_, Prod.ext ?_ hcode⟩
        · rfl
        · rw [if_neg hfound, if_pos hready]
    · simp [fullUpdateRequest, hready] at hrequest
  | step currentTime env => simp [fullUpdateRequest] at hrequest
  | updateReply id now packet => simp [fullUpdateRequest] at hrequest

/-! ### When the request is lost -/

/-- A platform on which every update is sent. -/
def sendingEnv : ServerEnv :=
  { update := .sent, registerPayload := false, connect := none, registerSend := false }

/-- The reply to the pending update arrives; then the next update falls due. -/
def dueEvents (server : Lwm2mServer) : List (ClientEvent Node) :=
  [.updateReply server.secObjInstID (-1) (some { code := .changed204, block1Num := none }),
    .step (nextUpdateTime server) fun _ => sendingEnv]

def settled (server : Lwm2mServer) : Lwm2mServer :=
  if server.status = .regUpdatePending then { server with status := .registered } else server

theorem prvHandleRegistrationUpdateReply_settled (server : Lwm2mServer) :
    prvHandleRegistrationUpdateReply (-1) (some { code := .changed204, block1Num := none })
      server = settled server := by
  unfold prvHandleRegistrationUpdateReply settled
  split <;> simp

theorem registrationStepServer_settled (objectList : List (Lwm2mObject Node))
    (hstatus : takesUpdates server.status) (hfull : server.status ≠ .regFullUpdateNeeded) :
    (registrationStepServer objectList (nextUpdateTime server) sendingEnv (settled server)).2 =
      [{ server := server.secObjInstID, objects := none }] := by
  have htime : nextUpdateTime (settled server) = nextUpdateTime server := by
    unfold nextUpdateTime settled
    split <;> rfl
  unfold registrationStepServer
  rw [htime, Int.sub_self, if_pos (Int.le_refl 0)]
  rcases hstatus with h | h | h | h
  · simp [settled, h, prvUpdateRegistration, sendingEnv]
  · simp [settled, h, prvUpdateRegistration, sendingEnv]
  · exact absurd h hfull
  · simp [settled, h, prvUpdateRegistration, sendingEnv]

theorem dueEvents_sent (getServers : ClientContext Node → ClientContext Node × Bool)
    (hasc : Ascending Lwm2mServer.secObjInstID context.serverList)
    (hmem : server ∈ context.serverList) (hstatus : takesUpdates server.status)
    (hfull : server.status ≠ .regFullUpdateNeeded) :
    ∃ final replies, run (clientStep getServers) context (dueEvents server) =
        .ok (final, replies) ∧
      nextUpdate server.secObjInstID replies =
        some { server := server.secObjInstID, objects := none } := by
  obtain ⟨acknowledge, hacknowledge⟩ : ∃ acknowledge : Lwm2mServer → Lwm2mServer,
      acknowledge = fun other =>
        if other.secObjInstID = server.secObjInstID then
          prvHandleRegistrationUpdateReply (-1)
            (some { code := .changed204, block1Num := none }) other
        else other := ⟨_, rfl⟩
  have hids : ∀ other, (acknowledge other).secObjInstID = other.secObjInstID := by
    intro other
    rw [hacknowledge]
    dsimp only
    split
    · exact prvHandleRegistrationUpdateReply_id _ _ other
    · rfl
  have hsettled : acknowledge server = settled server := by
    rw [hacknowledge]
    dsimp only
    rw [if_pos rfl, prvHandleRegistrationUpdateReply_settled]
  have hid : (settled server).secObjInstID = server.secObjInstID := by rw [← hsettled, hids]
  have hmem' : settled server ∈ context.serverList.map acknowledge :=
    List.mem_map.mpr ⟨server, hmem, hsettled⟩
  have hasc' : Ascending Lwm2mServer.secObjInstID (context.serverList.map acknowledge) := by
    refine ascending_of_ids ?_ hasc
    rw [List.map_map]
    exact List.map_congr_left fun other _ => hids other
  let context' := { context with serverList := context.serverList.map acknowledge }
  have hrun : run (clientStep getServers) context (dueEvents server) =
      .ok ((registrationStep (nextUpdateTime server) (fun _ => sendingEnv) context').1,
        [{ code := .noError, sent := [] },
          { code := .noError
            sent := (registrationStep (nextUpdateTime server) (fun _ => sendingEnv)
              context').2 }]) := by
    simp only [context', hacknowledge]
    rfl
  refine ⟨_, _, hrun, ?_⟩
  have hsent : (registrationStep (nextUpdateTime server) (fun _ => sendingEnv) context').2.find?
      (fun message => message.server == (settled server).secObjInstID) = _ :=
    registrationStep_sent hasc' hmem' (nextUpdateTime server) fun _ => sendingEnv
  rw [hid, registrationStepServer_settled _ hstatus hfull] at hsent
  simp only [nextUpdate, List.flatMap_cons, List.flatMap_nil, List.nil_append, List.append_nil]
  exact hsent

/-- A request for a full update that was accepted while a server takes updates is kept for it,
in every run that follows, exactly when it reaches the server. -/
theorem fullUpdate_kept_iff (getServers : ClientContext Node → ClientContext Node × Bool)
    {context context' : ClientContext Node} {event : ClientEvent Node} {reply : ClientReply Node}
    {shortServerID : UInt16} {server : Lwm2mServer}
    (hasc : Ascending Lwm2mServer.secObjInstID context.serverList)
    (hstep : clientStep getServers context event = .ok (context', reply))
    (hrequest : fullUpdateRequest context event = some shortServerID)
    (hcode : reply.code = .noError) (hmem : server ∈ context.serverList)
    (hstatus : takesUpdates server.status) :
    (∀ events final replies,
        run (clientStep getServers) context' events = .ok (final, replies) →
        ∀ message ∈ nextUpdate server.secObjInstID replies, message.objects.isSome) ↔
      RequestReaches context shortServerID server := by
  obtain ⟨started, hstarted, hcall⟩ := clientStep_request hstep hrequest hcode
  obtain ⟨hasc', server', hmem', hid, htakes, hfull⟩ :=
    lwm2mUpdateRegistration_request (hstarted ▸ hasc) (hstarted ▸ hmem) hstatus hcall
  have hreaches : RequestReaches started shortServerID server ↔
      RequestReaches context shortServerID server := by
    unfold RequestReaches
    rw [hstarted]
  rw [← hreaches, ← hfull]
  constructor
  · intro hkept
    by_contra hnot
    obtain ⟨final, replies, hrun, hsent⟩ :=
      dueEvents_sent getServers hasc' hmem' htakes hnot
    rw [hid] at hsent
    simpa using hkept _ final replies hrun _ hsent
  · intro hneeded events final replies hrun
    exact owed_nextUpdate events context' final replies ⟨hasc', server', hmem', hid, hneeded⟩ hrun

/-- A registered server in the given status. -/
def registeredServer (status : ServerStatus) : Lwm2mServer where
  secObjInstID := 1
  shortID := 123
  lifetime := 300
  registration := 1000
  sessionH := some 1
  status := status
  dirty := false

/-- A ready client with this server and no objects. -/
def readyClient (status : ServerStatus) : ClientContext Unit where
  state := .ready
  bootstrapServerList := []
  serverList := [registeredServer status]
  objectList := []

/-- A full update asked for while one without objects is pending: the next one is full. -/
theorem fullUpdate_kept_pending :
    RequestReaches (readyClient .regUpdatePending) 123 (registeredServer .regUpdatePending) ∧
    ∀ events final replies,
      run (clientStep fun context => (context, true)) (readyClient .regFullUpdateNeeded) events =
        .ok (final, replies) →
      ∀ message ∈ nextUpdate 1 replies, message.objects.isSome := by
  have hstep : clientStep (fun context => (context, true)) (readyClient .regUpdatePending)
      (.updateRegistration 123 true) =
        .ok (readyClient .regFullUpdateNeeded, { code := .noError, sent := [] }) := rfl
  have hmem : registeredServer .regUpdatePending ∈ (readyClient .regUpdatePending).serverList :=
    List.mem_singleton.mpr rfl
  have hasc : Ascending Lwm2mServer.secObjInstID (readyClient .regUpdatePending).serverList :=
    ascending_cons.mpr ⟨by simp, ascending_nil⟩
  have hreaches : RequestReaches (readyClient .regUpdatePending) 123
      (registeredServer .regUpdatePending) := by decide
  exact ⟨hreaches, (fullUpdate_kept_iff _ hasc hstep rfl rfl hmem
    (Or.inr (Or.inr (Or.inr rfl)))).mpr hreaches⟩

/-- A registered server is asked for an update and needs one; then all servers are asked for a
full one. Both calls succeed, and the update that is sent carries no objects. -/
theorem fullUpdate_lost :
    clientStep (fun context => (context, true)) (readyClient .registered)
        (.updateRegistration 123 false) =
      .ok (readyClient .regUpdateNeeded, { code := .noError, sent := [] }) ∧
    ∃ final replies,
      run (clientStep fun context => (context, true)) (readyClient .regUpdateNeeded)
          [.updateRegistration 0 true, .step 1000 fun _ => sendingEnv] = .ok (final, replies) ∧
        replies.map ClientReply.code = [.noError, .noError] ∧
        nextUpdate 1 replies = some { server := 1, objects := none } :=
  ⟨rfl, _, _, rfl, rfl, rfl⟩

end Wakaama
