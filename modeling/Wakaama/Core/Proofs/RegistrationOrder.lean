import Wakaama.Core.Proofs.FullUpdate
import Wakaama.Core.Proofs.RegistrationReply

/-!
# The order of registrations

Whether a registration that goes well leaves a later one to be started. The reply handler starts
the next registration behind a success of the first sequence, and behind a later one where failures
do not block; but then the next one was started by the first failure, and where failures block it
was not.
-/

namespace Wakaama

/-! ## The servers stay the same -/

/-- The servers of a context, each with its order; the Server object answers for them. -/
structure Configured (serverObjP : ServerReader) (orders : List (Option UInt64))
    (context : RegistrationContext) : Prop where
  obj : context.serverObj = some serverObjP
  answers : ∀ server ∈ context.serverList, AnswersStart serverObjP server.servObjInstID
  orders : context.serverList.map (serverOrder serverObjP) = orders

theorem startedList_inst (serverObjP : ServerReader) (now : Int) (restartFailed : Bool)
    (servers : List RegistrationServer) :
    (startedList serverObjP now restartFailed servers).map (fun server => server.servObjInstID) =
      servers.map fun server => server.servObjInstID := by
  apply List.ext_getElem?
  intro k
  rw [List.getElem?_map, List.getElem?_map, startedList_getElem?]
  cases servers[k]? with
  | none => rfl
  | some server => exact congrArg some (startServer_inst _ _ _ _ _ _)

theorem map_inst {change : RegistrationServer → RegistrationServer}
    (h : ∀ server, (change server).servObjInstID = server.servObjInstID)
    (servers : List RegistrationServer) :
    (servers.map change).map (fun server => server.servObjInstID) =
      servers.map fun server => server.servObjInstID := by
  rw [List.map_map]
  exact List.map_congr_left fun server _ => h server

variable {servers servers' : List RegistrationServer} {serverObjP : ServerReader}
  {server server' : RegistrationServer} {index k : Nat} {now : Int} {context : RegistrationContext}
  {orders : List (Option UInt64)} {order : UInt64}

theorem orders_of_inst
    (hinst : servers'.map (fun server => server.servObjInstID) = servers.map fun server => server.servObjInstID) :
    servers'.map (serverOrder serverObjP) = servers.map (serverOrder serverObjP) := by
  apply List.ext_getElem?
  intro k
  have hk := congrArg (fun list => list[k]?) hinst
  simp only [List.getElem?_map] at hk ⊢
  cases hserver : servers[k]? with
  | none =>
    rw [hserver, Option.map_none, Option.map_eq_none_iff] at hk
    rw [hk]
  | some server =>
    rw [hserver, Option.map_some, Option.map_eq_some_iff] at hk
    obtain ⟨server', hserver', hsame⟩ := hk
    rw [hserver', Option.map_some, Option.map_some, serverOrder_congr hsame]

theorem SequenceOutcome.same {blocking : Bool}
    (houtcome : SequenceOutcome serverObjP blocking servers index server servers')
    (h : servers[index]? = some server) :
    servers'.map (fun server => server.servObjInstID) =
      servers.map fun server => server.servObjInstID := by
  cases houtcome with
  | ended hover => exact set_inst h hover.inst
  | blocked hblocking inst failed =>
    rw [map_inst (failOrdered_inst serverObjP)]
    exact set_inst h inst

theorem set_getElem? (h : servers[index]? = some server) (k : Nat) :
    (servers.set index server')[k]? = if index = k then some server' else servers[k]? := by
  have hlt := (List.getElem?_eq_some_iff.mp h).1
  rw [List.getElem?_set]
  by_cases hk : index = k
  · subst hk
    rw [if_pos rfl, if_pos rfl, if_pos hlt]
  · rw [if_neg hk, if_neg hk]

theorem startedList_set (h : servers[index]? = some server)
    (hstatus : server'.status ≠ .deregistered) (now : Int) :
    (startedList serverObjP now false (servers.set index server'))[index]? = some server' := by
  rw [startedList_getElem?, set_getElem? h, if_pos rfl, Option.map_some, startServer_kept]
  rwa [startable_false]

theorem ReplyOutcome.same {created openFailure : Bool}
    (houtcome : ReplyOutcome serverObjP now servers index server created openFailure servers')
    (h : servers[index]? = some server) (hpending : server.status = .regPending) :
    servers'.map (fun server => server.servObjInstID) =
      servers.map fun server => server.servObjInstID := by
  have hwaiting : ∀ registration, (retimed server registration).status ≠ .deregistered := by
    intro registration
    rw [retimed, hpending]
    nofun
  cases houtcome with
  | continued registration => exact set_inst h rfl
  | registered registration hno => exact set_inst h rfl
  | startsNext registration hstarts =>
    rw [startedList_inst]
    exact set_inst h rfl
  | retried inst => exact set_inst h inst
  | gaveUp inst => exact set_inst h inst
  | sequenceFailed registration blocking openFailure hno outcome =>
    have hset : (servers.set index (retimed server registration))[index]? =
        some (retimed server registration) := by rw [set_getElem? h, if_pos rfl]
    rw [outcome.same hset]
    exact set_inst h rfl
  | failureStartsNext registration hstarts outcome =>
    rw [outcome.same (startedList_set h (hwaiting registration) now), startedList_inst]
    exact set_inst h rfl

/-! ### Steps and updates -/

/-- A status in which a server neither waits to be started nor for a registration. -/
def StatusSettled (status : ServerStatus) : Prop :=
  status ≠ .deregistered ∧ status ≠ .regHoldOff ∧ status ≠ .regPending

/-- What a step or a reply to an update makes of a server: the same, a registration that is sent,
another of the settled statuses. -/
inductive QuietChange (server server' : RegistrationServer) : Prop
  | same (status : server'.status = server.status) (attempt : server'.attempt = server.attempt)
      (sequence : server'.sequence = server.sequence)
  | sent (before : server.status = .regHoldOff) (after : server'.status = .regPending)
      (attempt : server'.attempt = server.attempt + 1)
      (sequence : server'.sequence =
        if server.attempt = 0 then server.sequence + 1 else server.sequence)
  | settled (before : StatusSettled server.status) (after : StatusSettled server'.status)

theorem prvHandleRegistrationUpdateReply_quiet (now : Int) (packet : Option ReplyPacket)
    (server : Lwm2mServer) :
    (prvHandleRegistrationUpdateReply now packet server).servObjInstID = server.servObjInstID ∧
      ((prvHandleRegistrationUpdateReply now packet server).status = server.status ∨
        StatusSettled server.status ∧
          StatusSettled (prvHandleRegistrationUpdateReply now packet server).status) := by
  by_cases hpending : server.status = .regUpdatePending
  · have hbefore : StatusSettled server.status := by
      rw [hpending]
      exact ⟨nofun, nofun, nofun⟩
    unfold prvHandleRegistrationUpdateReply
    rw [if_pos hpending]
    constructor
    · cases packet <;> simp [apply_ite Lwm2mServer.servObjInstID]
    · refine .inr ⟨hbefore, ?_⟩
      cases packet with
      | none => exact ⟨nofun, nofun, nofun⟩
      | some packet =>
        dsimp only
        split
        · split <;> exact hbefore
        split <;> exact ⟨nofun, nofun, nofun⟩
  · rw [prvHandleRegistrationUpdateReply_ignored hpending]
    exact ⟨rfl, .inl rfl⟩

theorem updateReply_quiet (now : Int) (packet : Option ReplyPacket) (server : RegistrationServer) :
    ({ server with toLwm2mServer := prvHandleRegistrationUpdateReply now packet server.toLwm2mServer } :
        RegistrationServer).servObjInstID = server.servObjInstID ∧
      QuietChange server
        { server with
          toLwm2mServer := prvHandleRegistrationUpdateReply now packet server.toLwm2mServer } := by
  obtain ⟨hinst, hstatus⟩ := prvHandleRegistrationUpdateReply_quiet now packet server.toLwm2mServer
  refine ⟨hinst, ?_⟩
  rcases hstatus with hsame | ⟨hbefore, hafter⟩
  · exact .same hsame rfl rfl
  · exact .settled hbefore hafter

theorem prvUpdateRegistration_quiet (outcome : UpdateOutcome) (withObjects : Bool)
    {server : Lwm2mServer} (h : StatusSettled server.status) :
    (prvUpdateRegistration noObjects outcome withObjects server).1.servObjInstID =
        server.servObjInstID ∧
      StatusSettled (prvUpdateRegistration noObjects outcome withObjects server).1.status := by
  cases outcome with
  | notSent => exact ⟨rfl, h⟩
  | sentFailed =>
    obtain ⟨hinst, hstatus⟩ := prvHandleRegistrationUpdateReply_quiet (-1) none server
    refine ⟨hinst, ?_⟩
    rcases hstatus with hsame | ⟨-, hafter⟩
    · change StatusSettled (prvHandleRegistrationUpdateReply (-1) none server).status
      rwa [hsame]
    · exact hafter
  | sent => exact ⟨rfl, nofun, nofun, nofun⟩

theorem prvRegister_quiet (env : ServerEnv) (server : Lwm2mServer) :
    (prvRegister env server).servObjInstID = server.servObjInstID ∧
      ((prvRegister env server).status = server.status ∨
        (prvRegister env server).status = .regPending) := by
  unfold prvRegister
  split
  · split
    · exact ⟨rfl, .inl rfl⟩
    · split
      · exact ⟨rfl, .inr rfl⟩
      · exact ⟨rfl, .inl rfl⟩
  · exact ⟨rfl, .inl rfl⟩

theorem prvRegisterCounted_quiet (env : ServerEnv) (h : server.status = .regHoldOff) :
    (prvRegisterCounted env server).servObjInstID = server.servObjInstID ∧
      QuietChange server (prvRegisterCounted env server) := by
  obtain ⟨hinst, hstatus⟩ := prvRegister_quiet env server.toLwm2mServer
  unfold prvRegisterCounted
  by_cases hpending : (prvRegister env server.toLwm2mServer).status = .regPending
  · simp only [if_pos hpending]
    exact ⟨hinst, .sent h hpending rfl rfl⟩
  · simp only [if_neg hpending]
    exact ⟨hinst, .same (hstatus.resolve_right hpending) rfl rfl⟩

theorem registrationStepServer_quiet (currentTime : Int) (env : ServerEnv) {server : Lwm2mServer}
    (h : server.status ≠ .regHoldOff) :
    (registrationStepServer noObjects currentTime env server).1.servObjInstID =
        server.servObjInstID ∧
      ((registrationStepServer noObjects currentTime env server).1.status = server.status ∨
        StatusSettled server.status ∧
          StatusSettled (registrationStepServer noObjects currentTime env server).1.status) := by
  have hupdate : ∀ withObjects, StatusSettled server.status →
      (prvUpdateRegistration noObjects env.update withObjects server).1.servObjInstID =
          server.servObjInstID ∧
        ((prvUpdateRegistration noObjects env.update withObjects server).1.status =
            server.status ∨
          StatusSettled server.status ∧
            StatusSettled (prvUpdateRegistration noObjects env.update withObjects server).1.status) :=
    fun withObjects hsettled =>
      have hquiet := prvUpdateRegistration_quiet env.update withObjects hsettled
      ⟨hquiet.1, .inr ⟨hsettled, hquiet.2⟩⟩
  unfold registrationStepServer
  split
  · rename_i hstatus
    exact absurd hstatus h
  · rename_i hstatus
    split
    · apply hupdate
      rw [hstatus]
      exact ⟨nofun, nofun, nofun⟩
    · exact ⟨rfl, .inl rfl⟩
  · rename_i hstatus
    apply hupdate
    rw [hstatus]
    exact ⟨nofun, nofun, nofun⟩
  · rename_i hstatus
    apply hupdate
    rw [hstatus]
    exact ⟨nofun, nofun, nofun⟩
  · exact ⟨rfl, .inl rfl⟩
  · exact ⟨rfl, .inl rfl⟩

theorem registrationStepCounted_quiet (currentTime : Int) (env : ServerEnv)
    (server : RegistrationServer) :
    (registrationStepCounted currentTime env server).servObjInstID = server.servObjInstID ∧
      QuietChange server (registrationStepCounted currentTime env server) := by
  unfold registrationStepCounted
  by_cases hhold : server.status = .regHoldOff
  · rw [if_pos hhold]
    split
    · exact prvRegisterCounted_quiet env hhold
    · exact ⟨rfl, .same rfl rfl rfl⟩
  · rw [if_neg hhold]
    obtain ⟨hinst, hstatus⟩ := registrationStepServer_quiet currentTime env hhold
    refine ⟨hinst, ?_⟩
    rcases hstatus with hsame | ⟨hbefore, hafter⟩
    · exact .same hsame rfl rfl
    · exact .settled hbefore hafter

/-! ### Any call -/

theorem prvHandleRegistrationReply_ignored
    (h : ∀ server ∈ context.serverList[index]?, server.status ≠ .regPending) (now : Int)
    (packet : Option ReplyPacket) :
    prvHandleRegistrationReply now index packet context = context := by
  unfold prvHandleRegistrationReply
  cases hserver : context.serverList[index]? with
  | none => rfl
  | some server => exact if_neg (h server hserver)

theorem Configured.next {serverObjP : ServerReader} {orders : List (Option UInt64)}
    {context : RegistrationContext} (h : Configured serverObjP orders context)
    (call : RegistrationCall) : Configured serverObjP orders (registrationNext context call) := by
  have hsame : (registrationNext context call).serverObj = context.serverObj ∧
      (registrationNext context call).serverList.map (fun server => server.servObjInstID) =
        context.serverList.map fun server => server.servObjInstID := by
    cases call with
    | start now =>
      rw [registrationNext, registrationStart_eq h.obj h.answers]
      exact ⟨rfl, startedList_inst _ _ _ _⟩
    | step currentTime env =>
      exact ⟨rfl, map_inst (fun server => (registrationStepCounted_quiet _ _ server).1) _⟩
    | updateReply now index packet =>
      refine ⟨rfl, ?_⟩
      apply List.ext_getElem?
      intro k
      change ((context.serverList.modify index _).map _)[k]? = _
      rw [List.getElem?_map, List.getElem?_map, List.getElem?_modify]
      cases context.serverList[k]? with
      | none => rfl
      | some server =>
        by_cases hk : index = k
        · simp [hk, (prvHandleRegistrationUpdateReply_quiet now packet server.toLwm2mServer).1]
        · simp [hk]
    | reply now index packet =>
      by_cases hpending : ∃ server, context.serverList[index]? = some server ∧
          server.status = .regPending
      · obtain ⟨server, hserver, hpending⟩ := hpending
        obtain ⟨hobj, houtcome⟩ :=
          prvHandleRegistrationReply_outcome h.obj h.answers hserver hpending now packet
        exact ⟨hobj, houtcome.same hserver hpending⟩
      · rw [registrationNext, prvHandleRegistrationReply_ignored fun server hserver hstatus =>
          hpending ⟨server, hserver, hstatus⟩]
        exact ⟨rfl, rfl⟩
  exact ⟨hsame.1.trans h.obj, answers_of_inst hsame.2 h.answers,
    (orders_of_inst hsame.2).trans h.orders⟩

/-! ## The next registration -/

/-- An ordered server with the order, in the status. -/
def Waits (orders : List (Option UInt64)) (statuses : List ServerStatus) (k : Nat)
    (order : UInt64) : Prop :=
  OrderedAt orders k order ∧ statuses[k]? = some .deregistered

/-- A registration that goes well while ordered servers of a larger order wait leaves one of them
started. -/
def RegistrationGoesOn (orders : List (Option UInt64))
    (event : RegistrationCall × RegistrationReply) : Prop :=
  match event.1 with
  | .reply _ index _ =>
    event.2.before[index]? = some .regPending → event.2.after[index]? = some .registered →
    ∀ order, OrderedAt orders index order →
      (∃ k later, Waits orders event.2.before k later ∧ order < later) →
      ∃ k later, Waits orders event.2.before k later ∧ order < later ∧
        ∃ status ∈ event.2.after[k]?, status ≠ .deregistered ∧ status ≠ .regFailed
  | _ => True

/-- The condition: behind a registration that goes well while ordered servers of a larger order
wait, it was the first sequence or failures do not block, and no other ordered server that waits
comes before those. -/
def GoesOnWhen (serverObjP : ServerReader) (context : RegistrationContext) :
    RegistrationCall → Prop
  | .reply _ index packet =>
    ∀ server ∈ context.serverList[index]?, server.status = .regPending → registrationAccepted packet = true →
    ∀ order, serverOrder serverObjP server = some order →
      (∃ k later, StartableAt serverObjP false context.serverList k later ∧ order < later) →
      (server.sequence = 1 ∨ prvGetRegistrationFailureBlocking serverObjP server = .ok false) ∧
        ∀ k later, StartableAt serverObjP false context.serverList k later → order < later
  | _ => True

theorem orderedAt_iff (h : Configured serverObjP orders context) :
    OrderedAt orders k order ↔ ∃ server, context.serverList[k]? = some server ∧
      serverOrder serverObjP server = some order := by
  rw [OrderedAt, ← h.orders, List.getElem?_map, Option.map_eq_some_iff]

theorem waits_iff (h : Configured serverObjP orders context) :
    Waits orders (context.serverList.map fun server => server.status) k order ↔
      StartableAt serverObjP false context.serverList k order := by
  rw [Waits, orderedAt_iff h, List.getElem?_map, StartableAt]
  constructor
  · rintro ⟨⟨server, hserver, horder⟩, hstatus⟩
    rw [hserver, Option.map_some] at hstatus
    exact ⟨server, hserver, startable_false.mpr (Option.some.inj hstatus), horder⟩
  · rintro ⟨server, hserver, hstartable, horder⟩
    refine ⟨⟨server, hserver, horder⟩, ?_⟩
    rw [hserver, Option.map_some, startable_false.mp hstartable]

theorem startableAt_set (h : servers[index]? = some server)
    (hbefore : server.status ≠ .deregistered) (hafter : server'.status ≠ .deregistered) :
    StartableAt serverObjP false (servers.set index server') k order ↔
      StartableAt serverObjP false servers k order := by
  simp only [StartableAt, set_getElem? h, startable_false]
  by_cases hk : index = k
  · subst hk
    rw [if_pos rfl, h]
    constructor
    · rintro ⟨_, ⟨⟩, hstatus, -⟩
      exact absurd hstatus hafter
    · rintro ⟨_, ⟨⟩, hstatus, -⟩
      exact absurd hstatus hbefore
  · rw [if_neg hk]

theorem startServer_status (hanswers : AnswersStart serverObjP server.servObjInstID)
    (hordered : (serverOrder serverObjP server).isSome) {restartFailed : Bool}
    (hstartable : startable restartFailed server = true) (now : Int) (chosen : Option Nat)
    (k : Nat) :
    (startServer serverObjP now restartFailed chosen k server).status =
      if chosen = some k then .regHoldOff else server.status := by
  unfold startServer
  rw [if_pos hstartable]
  by_cases hk : chosen = some k
  · obtain ⟨registration, hstarted⟩ := startedServer_answers hanswers now
    rw [if_pos hk, if_neg (fun h => h.2 hk), hstarted]
  · rw [if_neg hk, if_pos ⟨hordered, hk⟩]
    rfl

theorem map_status_getElem? (servers : List RegistrationServer) (k : Nat) :
    (servers.map fun server => server.status)[k]? = (servers[k]?).map fun server => server.status :=
  List.getElem?_map

theorem startedList_status (h : Configured serverObjP orders context)
    (hserver : context.serverList[index]? = some server) (hwas : server.status ≠ .deregistered)
    (his : server'.status ≠ .deregistered) (now : Int) {later : UInt64}
    (hat : StartableAt serverObjP false context.serverList k later) :
    ((startedList serverObjP now false (context.serverList.set index server')).map
      fun server => server.status)[k]? =
        some (if firstStarted serverObjP false (context.serverList.set index server') = some k then
          .regHoldOff else .deregistered) := by
  obtain ⟨target, htarget, hstartable, horder⟩ := (startableAt_set hserver hwas his).mpr hat
  obtain ⟨target', htarget', -⟩ := hat
  have hstatus : target.status = .deregistered := startable_false.mp hstartable
  have hsame : target' = target := by
    rw [set_getElem? hserver] at htarget
    by_cases hk : index = k
    · rw [if_pos hk] at htarget
      obtain rfl := Option.some.inj htarget
      exact absurd hstatus his
    · rw [if_neg hk] at htarget
      exact Option.some.inj (htarget'.symm.trans htarget)
  have hanswers : AnswersStart serverObjP target.servObjInstID := by
    rw [← hsame]
    exact h.answers target' (List.mem_of_getElem? htarget')
  rw [map_status_getElem?, startedList_getElem?, htarget, Option.map_some, Option.map_some,
    startServer_status hanswers (by rw [horder]; rfl) hstartable, hstatus]

theorem goesOn_accepted (h : Configured serverObjP orders context)
    (hserver : context.serverList[index]? = some server) (hpending : server.status = .regPending)
    {packet : Option ReplyPacket} (haccepted : registrationAccepted packet = true) :
    (RegistrationGoesOn orders (.reply now index packet,
        { before := context.serverList.map fun server => server.status
          after := (prvHandleRegistrationReply now index packet context).serverList.map
            fun server => server.status
          openFailure := endsOpenSequence context index packet }) ↔
      GoesOnWhen serverObjP context (.reply now index packet)) := by
  obtain ⟨-, houtcome⟩ :=
    prvHandleRegistrationReply_outcome h.obj h.answers hserver hpending now packet
  rw [haccepted] at houtcome
  have hbefore : (context.serverList.map fun server => server.status)[index]? = some .regPending := by
    rw [map_status_getElem?, hserver, Option.map_some, hpending]
  have hwas : server.status ≠ .deregistered := by
    rw [hpending]
    nofun
  have horder : ∀ order, OrderedAt orders index order ↔ serverOrder serverObjP server = some order := by
    intro order
    rw [orderedAt_iff h, hserver]
    exact ⟨fun ⟨_, hsame, horder⟩ => Option.some.inj hsame ▸ horder, fun horder => ⟨server, rfl, horder⟩⟩
  simp only [RegistrationGoesOn, GoesOnWhen, waits_iff h, horder, hserver, Option.mem_some_iff,
    forall_eq', hpending, haccepted, forall_const, hbefore]
  generalize (prvHandleRegistrationReply now index packet context).serverList = servers' at houtcome ⊢
  generalize endsOpenSequence context index packet = openFailure at houtcome
  cases houtcome with
  | registered registration hno =>
    have hafter : ∀ k later, StartableAt serverObjP false context.serverList k later →
        ((context.serverList.set index { retimed server registration with
          status := .registered }).map fun server => server.status)[k]? = some .deregistered := by
      rintro k later ⟨target, htarget, hstartable, -⟩
      have hk : index ≠ k := by
        rintro rfl
        rw [hserver] at htarget
        obtain rfl := Option.some.inj htarget
        exact hwas (startable_false.mp hstartable)
      rw [map_status_getElem?, set_getElem? hserver, if_neg hk, htarget, Option.map_some,
        startable_false.mp hstartable]
    constructor
    · intro hgoes order hordered hlarger
      obtain ⟨k, later, hwaits, -, status, hstatus, hne, -⟩ := hgoes (by
        rw [map_status_getElem?, set_getElem? hserver, if_pos rfl]
        rfl) order hordered hlarger
      rw [hafter k later hwaits] at hstatus
      exact absurd (Option.some.inj hstatus).symm hne
    · intro hwhen _ order hordered hlarger
      exact absurd ⟨by rw [hordered]; rfl, (hwhen order hordered hlarger).1⟩ hno
  | startsNext registration hstarts =>
    have hregistered : ({ retimed server registration with status := .registered } :
        RegistrationServer).status ≠ .deregistered := nofun
    have hafter := fun k later (hat : StartableAt serverObjP false context.serverList k later) =>
      startedList_status h hserver hwas hregistered now hat
    have hindex : ((startedList serverObjP now false (context.serverList.set index
        { retimed server registration with status := .registered })).map
          fun server => server.status)[index]? = some .registered := by
      rw [map_status_getElem?, startedList_set hserver hregistered]
      rfl
    have hchosen := firstStarted_isChosen serverObjP false (context.serverList.set index
      { retimed server registration with status := .registered })
    generalize firstStarted serverObjP false (context.serverList.set index
      { retimed server registration with status := .registered }) = chosen at hchosen hafter
    constructor
    · intro hgoes order hordered hlarger
      refine ⟨hstarts.2, fun k' later' hat' => ?_⟩
      obtain ⟨k, later, hat, hlater, status, hstatus, hne, -⟩ := hgoes hindex order hordered hlarger
      rw [hafter k later hat, Option.mem_some_iff] at hstatus
      by_cases hk : chosen = some k
      · subst hk
        obtain ⟨least, hleast, hall⟩ := hchosen
        obtain ⟨target, htarget, -, horder⟩ := (startableAt_set hserver hwas hregistered).mp hleast
        obtain ⟨target', htarget', -, horder'⟩ := hat
        rw [htarget] at htarget'
        obtain rfl := Option.some.inj htarget'
        rw [horder] at horder'
        obtain rfl := Option.some.inj horder'
        exact UInt64.lt_of_lt_of_le hlater
          (hall k' later' ((startableAt_set hserver hwas hregistered).mpr hat'))
      · rw [if_neg hk] at hstatus
        exact absurd hstatus.symm hne
    · intro hwhen _ order hordered hlarger
      obtain ⟨-, hall⟩ := hwhen order hordered hlarger
      obtain ⟨k, later, hat, -⟩ := hlarger
      cases chosen with
      | none => exact absurd ((startableAt_set hserver hwas hregistered).mpr hat) (hchosen k later)
      | some chosen =>
        obtain ⟨least, hleast, -⟩ := hchosen
        have hat := (startableAt_set hserver hwas hregistered).mp hleast
        refine ⟨chosen, least, hat, hall chosen least hat, .regHoldOff, ?_, nofun, nofun⟩
        rw [hafter chosen least hat, if_pos rfl]
        rfl

theorem SequenceOutcome.own {blocking : Bool}
    (houtcome : SequenceOutcome serverObjP blocking servers index server servers')
    (h : servers[index]? = some server) :
    ∃ server', servers'[index]? = some server' ∧ SequenceOver server server' := by
  cases houtcome with
  | ended hover => exact ⟨_, by rw [set_getElem? h, if_pos rfl], hover⟩
  | @blocked server' hblocking inst failed =>
    refine ⟨server', ?_, inst, .inl failed⟩
    have hfailed : failOrdered serverObjP server' = server' := by
      rw [failOrdered, if_neg]
      rw [failed]
      nofun
    rw [List.getElem?_map, set_getElem? h, if_pos rfl, Option.map_some, hfailed]

theorem ReplyOutcome.notRegistered {openFailure : Bool}
    (houtcome : ReplyOutcome serverObjP now servers index server false openFailure servers')
    (h : servers[index]? = some server) (hpending : server.status = .regPending) :
    ∃ server', servers'[index]? = some server' ∧ server'.status ≠ .registered := by
  have hover : ∀ {registration : Int} {server' : RegistrationServer},
      SequenceOver (retimed server registration) server' → server'.status ≠ .registered := by
    rintro registration server' ⟨-, hstatus⟩ hregistered
    rcases hstatus with hfailed | ⟨hhold, -⟩
    · rw [hfailed] at hregistered
      nomatch hregistered
    · rw [hhold] at hregistered
      nomatch hregistered
  have hset : ∀ server', (servers.set index server')[index]? = some server' := fun server' => by
    rw [set_getElem? h, if_pos rfl]
  cases houtcome with
  | continued registration =>
    refine ⟨_, hset _, ?_⟩
    rw [retimed, hpending]
    nofun
  | retried inst status attempt sequence hlt =>
    refine ⟨_, hset _, ?_⟩
    rw [status]
    nofun
  | gaveUp inst status =>
    refine ⟨_, hset _, ?_⟩
    rw [status]
    nofun
  | sequenceFailed registration blocking _ hno outcome =>
    obtain ⟨server', hserver', hsequence⟩ := outcome.own (hset _)
    exact ⟨server', hserver', hover hsequence⟩
  | failureStartsNext registration hstarts outcome =>
    have hwaiting : (retimed server registration).status ≠ .deregistered := by
      rw [retimed, hpending]
      nofun
    obtain ⟨server', hserver', hsequence⟩ := outcome.own (startedList_set h hwaiting now)
    exact ⟨server', hserver', hover hsequence⟩

theorem registrationGoesOn_iff (h : Configured serverObjP orders context) {call : RegistrationCall}
    {context' : RegistrationContext} {reply : RegistrationReply}
    (hstep : registrationCallStep context call = .ok (context', reply)) :
    RegistrationGoesOn orders (call, reply) ↔ GoesOnWhen serverObjP context call := by
  obtain ⟨rfl, rfl⟩ := Prod.mk.inj (Except.ok.inj hstep)
  cases call with
  | start now => exact Iff.rfl
  | step currentTime env => exact Iff.rfl
  | updateReply now index packet => exact Iff.rfl
  | reply now index packet =>
    by_cases hpending : ∃ server, context.serverList[index]? = some server ∧
        server.status = .regPending
    · obtain ⟨server, hserver, hpending⟩ := hpending
      by_cases haccepted : registrationAccepted packet = true
      · exact goesOn_accepted h hserver hpending haccepted
      · rw [Bool.not_eq_true] at haccepted
        obtain ⟨-, houtcome⟩ :=
          prvHandleRegistrationReply_outcome h.obj h.answers hserver hpending now packet
        rw [haccepted] at houtcome
        obtain ⟨server', hserver', hstatus⟩ := houtcome.notRegistered hserver hpending
        constructor
        · intro _ server _ _ hyes
          rw [haccepted] at hyes
          nomatch hyes
        · intro _ _ hregistered
          rw [map_status_getElem?, registrationNext, hserver', Option.map_some] at hregistered
          exact absurd (Option.some.inj hregistered) hstatus
    · constructor
      · exact fun _ server hserver hstatus => absurd ⟨server, hserver, hstatus⟩ hpending
      · intro _ hbefore
        rw [map_status_getElem?, Option.map_eq_some_iff] at hbefore
        exact absurd hbefore hpending

/-- A run in which every registration that goes well leaves the next one started is a run whose
calls all meet the condition. -/
theorem registrationRun_goesOn (serverObjP : ServerReader) (context : RegistrationContext)
    (hobj : context.serverObj = some serverObjP)
    (hanswers : ∀ server ∈ context.serverList, AnswersStart serverObjP server.servObjInstID)
    (calls : List RegistrationCall) :
    (∃ final replies, run registrationCallStep context calls = .ok (final, replies) ∧
      EachEvent (fun _ => RegistrationGoesOn (context.serverList.map (serverOrder serverObjP))) []
        (calls.zip replies)) ↔
      StepsMeet registrationCallStep (GoesOnWhen serverObjP) context calls := by
  apply run_eachEvent_iff
    (fun _ => Configured serverObjP (context.serverList.map (serverOrder serverObjP)))
  · intro past s call h
    exact ⟨_, _, rfl, registrationGoesOn_iff h rfl, fun _ => h.next call⟩
  · exact ⟨hobj, hanswers, rfl⟩

/-! ### Three ordered servers -/

/-- The resources of three ordered servers with one attempt and two sequences. -/
def orderedReader (blocking : Bool) : ServerReader := fun instanceId resourceId =>
  if resourceId = lwm2mServerRegOrderId then
    (.content205, .node .unsignedInteger resourceId (.asUnsigned (instanceId.toUInt64 + 1)))
  else if resourceId = lwm2mServerRegFailBlockId then
    (.content205, .node .boolean resourceId (.asBoolean blocking))
  else if resourceId = lwm2mServerCommRetryCountId then
    (.content205, .node .unsignedInteger resourceId (.asUnsigned 1))
  else if resourceId = lwm2mServerSeqRetryCountId then
    (.content205, .node .unsignedInteger resourceId (.asUnsigned 2))
  else (.notFound404, lwm2mDataNew)

def orderedServer (id : UInt16) (status : ServerStatus) : RegistrationServer where
  secObjInstID := id
  shortID := id
  lifetime := 300
  registration := 0
  sessionH := none
  status := status
  dirty := false
  servObjInstID := id
  attempt := 0
  sequence := 0

def orderedContext (blocking : Bool) : RegistrationContext where
  state := .registering
  serverList :=
    [orderedServer 0 .deregistered, orderedServer 1 .deregistered, orderedServer 2 .deregistered]
  serverObj := some (orderedReader blocking)

/-- Everything can be sent. -/
def everythingSent : ServerEnv where
  update := .sent
  registerPayload := true
  connect := some 1
  registerSend := true

/-- The first server fails its first sequence and registers in its second one. -/
def secondSequence : List RegistrationCall :=
  [.start 0, .step 0 fun _ => everythingSent, .reply 1 0 none, .step 100000 fun _ => everythingSent,
    .reply 100001 0 (some { code := .created201, block1Num := none })]

theorem orderedReader_answers (blocking : Bool) (id : UInt16) :
    AnswersStart (orderedReader blocking) id :=
  ⟨.inl ⟨id.toUInt64 + 1, rfl⟩, .inr rfl⟩

/-- A blocking server registers in its second sequence, and nothing is started behind it. -/
theorem secondSequence_stalls : ∃ final replies,
    run registrationCallStep (orderedContext true) secondSequence = .ok (final, replies) ∧
      replies.getLast?.map RegistrationReply.before =
        some [.regPending, .deregistered, .deregistered] ∧
      replies.getLast?.map RegistrationReply.after =
        some [.registered, .deregistered, .deregistered] ∧
      ¬ EachEvent (fun _ => RegistrationGoesOn [some 1, some 2, some 3]) []
        (secondSequence.zip replies) := by
  refine ⟨_, _, rfl, rfl, rfl, ?_⟩
  rintro ⟨-, -, -, -, hlast, -⟩
  obtain ⟨k, later, ⟨-, hwaits⟩, -, status, hstatus, hne, -⟩ :=
    hlast rfl rfl 1 rfl ⟨1, 2, ⟨rfl, rfl⟩, by decide⟩
  match k with
  | 0 => nomatch hwaits
  | 1 => exact hne (Option.some.inj hstatus).symm
  | 2 => exact hne (Option.some.inj hstatus).symm
  | k + 3 => nomatch hwaits

/-- The first server registers in its first sequence. -/
def firstSequence : List RegistrationCall :=
  [.start 0, .step 0 fun _ => everythingSent,
    .reply 1 0 (some { code := .created201, block1Num := none })]

def afterStart : RegistrationContext :=
  { orderedContext true with
    serverList :=
      [orderedServer 0 .regHoldOff, orderedServer 1 .deregistered, orderedServer 2 .deregistered] }

def afterSending : RegistrationContext :=
  { orderedContext true with
    serverList :=
      [{ orderedServer 0 .regPending with sessionH := some 1, attempt := 1, sequence := 1 },
        orderedServer 1 .deregistered, orderedServer 2 .deregistered] }

theorem firstSequence_goesOn : ∃ final replies,
    run registrationCallStep (orderedContext true) firstSequence = .ok (final, replies) ∧
      EachEvent (fun _ => RegistrationGoesOn [some 1, some 2, some 3]) []
        (firstSequence.zip replies) := by
  have hmeet : StepsMeet registrationCallStep (GoesOnWhen (orderedReader true))
      (orderedContext true) firstSequence := by
    have hstart : registrationCallStep (orderedContext true) (.start 0) = .ok (afterStart, _) := rfl
    have hsend : registrationCallStep afterStart (.step 0 fun _ => everythingSent) =
      .ok (afterSending, _) := rfl
    refine .cons trivial hstart (.cons trivial hsend (.cons ?_ rfl trivial))
    rintro server ⟨⟩ _ _ order horder _
    refine ⟨.inl rfl, ?_⟩
    rintro k later ⟨target, htarget, hstartable, hlater⟩
    obtain rfl : 1 = order := Option.some.inj horder
    match k with
    | 0 =>
      obtain rfl := Option.some.inj htarget
      nomatch hstartable
    | 1 =>
      obtain rfl := Option.some.inj htarget
      obtain rfl : 2 = later := Option.some.inj hlater
      decide
    | 2 =>
      obtain rfl := Option.some.inj htarget
      obtain rfl : 3 = later := Option.some.inj hlater
      decide
    | k + 3 => nomatch htarget
  exact (registrationRun_goesOn (orderedReader true) (orderedContext true) rfl
    (fun server _ => orderedReader_answers true server.servObjInstID) firstSequence).mpr hmeet

end Wakaama
