import Wakaama.Core.Proofs.RegistrationStart
import Wakaama.Misc.Outcome

/-!
# What the reply handler does

A reply to a registration leaves the server registered, waiting for its next attempt or its next
sequence, or failed; and it starts the next ordered registration or fails those that wait.
-/

namespace Wakaama

def StartsNext (serverObjP : ServerReader) (server : RegistrationServer) : Prop :=
  (serverOrder serverObjP server).isSome ∧
    (server.sequence = 1 ∨ prvGetRegistrationFailureBlocking serverObjP server = .ok false)

def FailureStartsNext (serverObjP : ServerReader) (server : RegistrationServer) : Prop :=
  (serverOrder serverObjP server).isSome ∧ server.sequence = 1 ∧
    prvGetRegistrationFailureBlocking serverObjP server = .ok false

/-- The server behind a failed sequence: it has failed, or waits for the next sequence. -/
structure SequenceOver (server server' : RegistrationServer) : Prop where
  inst : server'.servObjInstID = server.servObjInstID
  ended : server'.status = .regFailed ∨
    server'.status = .regHoldOff ∧ server'.attempt = 0 ∧ server'.sequence = server.sequence ∧
      server.sequence < 254

/-- The servers behind a failed sequence of the server at `index`; where it blocks, the ordered
ones that wait may have failed with it. -/
inductive SequenceOutcome (serverObjP : ServerReader) (blocking : Bool)
    (servers : List RegistrationServer) (index : Nat) (server : RegistrationServer) :
    List RegistrationServer → Prop
  | ended {server' : RegistrationServer} (h : SequenceOver server server') :
      SequenceOutcome serverObjP blocking servers index server (servers.set index server')
  | blocked {server' : RegistrationServer} (hblocking : blocking = true)
      (inst : server'.servObjInstID = server.servObjInstID) (failed : server'.status = .regFailed) :
      SequenceOutcome serverObjP blocking servers index server
        ((servers.set index server').map (failOrdered serverObjP))

variable {index : Nat} {servers : List RegistrationServer} {server : RegistrationServer}
  {serverObjP : ServerReader} {context : RegistrationContext}

theorem set_same (h : servers[index]? = some server) : servers.set index server = servers := by
  obtain ⟨hlt, rfl⟩ := List.getElem?_eq_some_iff.mp h
  exact List.set_getElem_self hlt

theorem modifyServer_eq (context : RegistrationContext)
    (h : context.serverList[index]? = some server)
    (change : RegistrationServer → RegistrationServer) :
    context.modifyServer index change =
      { context with serverList := context.serverList.set index (change server) } := by
  have hlist : context.serverList.modify index change =
      context.serverList.set index (change server) := by
    apply List.ext_getElem?
    intro k
    rw [List.getElem?_modify, List.getElem?_set]
    by_cases hk : index = k
    · subst hk
      obtain ⟨hlt, hserver⟩ := List.getElem?_eq_some_iff.mp h
      simp [hlt, hserver]
    · simp [hk]
  rw [RegistrationContext.modifyServer, hlist]

theorem retryLimit_le (limit : UInt64) : retryLimit limit ≤ 254 := by
  unfold retryLimit
  split
  · exact UInt8.le_refl 254
  · rename_i hle
    rw [UInt64.not_lt, UInt64.le_iff_toNat_le] at hle
    rw [UInt8.le_iff_toNat_le, UInt64.toNat_toUInt8]
    simp at hle ⊢
    omega

theorem sequenceLimit_le {limits : UInt8 × UInt64}
    (h : prvGetRegistrationSequenceLimit serverObjP server = .ok limits) : limits.1 ≤ 254 := by
  obtain ⟨sequenceLimit, -, h⟩ := bind_eq_ok.mp h
  obtain ⟨sequenceDelay, -, h⟩ := bind_eq_ok.mp h
  rw [← Except.ok.inj h]
  exact retryLimit_le sequenceLimit

theorem attemptLimit_le {limits : UInt8 × UInt64}
    (h : prvGetRegistrationAttemptLimit serverObjP server = .ok limits) : limits.1 ≤ 254 := by
  obtain ⟨attemptLimit, -, h⟩ := bind_eq_ok.mp h
  obtain ⟨attemptDelay, -, h⟩ := bind_eq_ok.mp h
  rw [← Except.ok.inj h]
  exact retryLimit_le attemptLimit

theorem nextSequence_outcome (serverObjP : ServerReader) (context : RegistrationContext)
    {target : RegistrationServer} (h : context.serverList[index]? = some server)
    (hsequence : target.sequence = server.sequence) (now : Int) (blocking : Bool) :
    (nextSequence serverObjP now blocking index target context).serverObj = context.serverObj ∧
      SequenceOutcome serverObjP blocking context.serverList index server
        (nextSequence serverObjP now blocking index target context).serverList := by
  have hfailed : SequenceOver server { server with status := .regFailed } := ⟨rfl, .inl rfl⟩
  unfold nextSequence
  cases hlimit : prvGetRegistrationSequenceLimit serverObjP target with
  | error code =>
    simp only [modifyServer_eq _ h]
    exact ⟨trivial, .ended hfailed⟩
  | ok limits =>
    obtain ⟨sequenceLimit, sequenceDelay⟩ := limits
    simp only [modifyServer_eq _ h]
    by_cases hlast : sequenceLimit ≤ target.sequence
    · rw [if_pos hlast]
      cases hbootstrap : prvGetBootstrapOnRegistrationFailure serverObjP target with
      | error code => exact ⟨rfl, .ended hfailed⟩
      | ok bootstrap =>
        cases bootstrap with
        | true => exact ⟨rfl, .ended hfailed⟩
        | false =>
          cases hblocking : blocking with
          | false => exact ⟨rfl, .ended hfailed⟩
          | true =>
            have hregFailed : ({ server with status := .regFailed } : RegistrationServer).servObjInstID =
                server.servObjInstID := rfl
            exact ⟨rfl, .blocked rfl hregFailed rfl⟩
    · rw [if_neg hlast]
      have hlimit := sequenceLimit_le hlimit
      have hlt : server.sequence < 254 := by
        rw [← hsequence]
        exact UInt8.lt_of_lt_of_le (UInt8.not_le.mp hlast) hlimit
      exact ⟨rfl, .ended ⟨rfl, .inr ⟨rfl, rfl, rfl, hlt⟩⟩⟩

def retimed (server : RegistrationServer) (registration : Int) : RegistrationServer :=
  { server with registration := registration }

/-- What a reply makes of the servers, `server` at `index` being the one that waits for it: whether
the registration is accepted, whether it ends a failed sequence that does not block. -/
inductive ReplyOutcome (serverObjP : ServerReader) (now : Int) (servers : List RegistrationServer)
    (index : Nat) (server : RegistrationServer) :
    Bool → Bool → List RegistrationServer → Prop
  | continued (registration : Int) :
      ReplyOutcome serverObjP now servers index server false false
        (servers.set index (retimed server registration))
  | registered (registration : Int) (h : ¬ StartsNext serverObjP server) :
      ReplyOutcome serverObjP now servers index server true false
        (servers.set index { retimed server registration with status := .registered })
  | startsNext (registration : Int) (h : StartsNext serverObjP server) :
      ReplyOutcome serverObjP now servers index server true false
        (startedList serverObjP now false
          (servers.set index { retimed server registration with status := .registered }))
  | retried {server' : RegistrationServer} (inst : server'.servObjInstID = server.servObjInstID)
      (status : server'.status = .regHoldOff) (attempt : server'.attempt = server.attempt)
      (sequence : server'.sequence = server.sequence) (h : server.attempt < 254) :
      ReplyOutcome serverObjP now servers index server false false (servers.set index server')
  | gaveUp {server' : RegistrationServer} (inst : server'.servObjInstID = server.servObjInstID)
      (status : server'.status = .regFailed) :
      ReplyOutcome serverObjP now servers index server false false (servers.set index server')
  | sequenceFailed (registration : Int) {servers' : List RegistrationServer}
      (blocking openFailure : Bool) (h : ¬ FailureStartsNext serverObjP server)
      (outcome : SequenceOutcome serverObjP blocking
        (servers.set index (retimed server registration)) index (retimed server registration)
        servers') :
      ReplyOutcome serverObjP now servers index server false openFailure servers'
  | failureStartsNext (registration : Int) {servers' : List RegistrationServer}
      (h : FailureStartsNext serverObjP server)
      (outcome : SequenceOutcome serverObjP false
        (startedList serverObjP now false (servers.set index (retimed server registration))) index
        (retimed server registration) servers') :
      ReplyOutcome serverObjP now servers index server false true servers'

theorem startedList_getElem? (serverObjP : ServerReader) (now : Int) (restartFailed : Bool)
    (servers : List RegistrationServer) (k : Nat) :
    (startedList serverObjP now restartFailed servers)[k]? =
      (servers[k]?).map (startServer serverObjP now restartFailed
        (firstStarted serverObjP restartFailed servers) k) := by
  rw [startedList, List.getElem?_mapIdx]

theorem startServer_kept {now : Int} {restartFailed : Bool} {chosen : Option Nat} {k : Nat}
    (h : ¬ startable restartFailed server = true) :
    startServer serverObjP now restartFailed chosen k server = server := by
  rw [startServer, if_neg h]

theorem startable_false : startable false server = true ↔ server.status = .deregistered := by
  simp [startable]

theorem prvHandleRegistrationSequenceFailure_outcome (server : RegistrationServer)
    {target : RegistrationServer} (hobj : context.serverObj = some serverObjP)
    (hanswers : ∀ server ∈ context.serverList, AnswersStart serverObjP server.servObjInstID)
    (h : context.serverList[index]? = some target) (hpending : target.status = .regPending)
    (hinst : server.servObjInstID = target.servObjInstID)
    (hsequence : server.sequence = target.sequence) (now : Int) :
    (prvHandleRegistrationSequenceFailure serverObjP now index server context).serverObj =
        context.serverObj ∧
      ((∃ blocking, ¬ FailureStartsNext serverObjP server ∧
          SequenceOutcome serverObjP blocking context.serverList index target
            (prvHandleRegistrationSequenceFailure serverObjP now index server context).serverList) ∨
        (FailureStartsNext serverObjP server ∧
          SequenceOutcome serverObjP false (startedList serverObjP now false context.serverList)
            index target
            (prvHandleRegistrationSequenceFailure serverObjP now index server context).serverList)) := by
  have hserver : AnswersStart serverObjP server.servObjInstID := by
    rw [hinst]
    exact hanswers target (List.mem_of_getElem? h)
  have hquiet := fun blocking => nextSequence_outcome serverObjP context h hsequence now blocking
  rw [prvHandleRegistrationSequenceFailure, prvGetRegistrationOrder_answers _ hserver]
  cases horder : serverOrder serverObjP server with
  | none =>
    have hno : ¬ FailureStartsNext serverObjP server := fun hstarts => by
      simpa [horder] using hstarts.1
    exact ⟨(hquiet false).1, .inl ⟨false, hno, (hquiet false).2⟩⟩
  | some order =>
    cases hblocking : prvGetRegistrationFailureBlocking serverObjP server with
    | error code =>
      have hno : ¬ FailureStartsNext serverObjP server := fun hstarts => by
        simpa [hblocking] using hstarts.2.2
      exact ⟨(hquiet false).1, .inl ⟨false, hno, (hquiet false).2⟩⟩
    | ok blocking =>
      cases blocking with
      | true =>
        have hno : ¬ FailureStartsNext serverObjP server := fun hstarts => by
          simpa [hblocking] using hstarts.2.2
        exact ⟨(hquiet true).1, .inl ⟨true, hno, (hquiet true).2⟩⟩
      | false =>
        by_cases hfirst : server.sequence = 1
        · have hstarts : FailureStartsNext serverObjP server :=
            ⟨by simp [horder], hfirst, hblocking⟩
          have hkept : (startedList serverObjP now false context.serverList)[index]? = some target := by
            rw [startedList_getElem?, h, Option.map_some, startServer_kept]
            rw [startable_false, hpending]
            nofun
          have houtcome := nextSequence_outcome serverObjP
            ({ context with
              serverList := startedList serverObjP now false context.serverList })
            hkept hsequence now false
          simp only [hfirst, if_true, registrationStart_eq hobj hanswers]
          exact ⟨houtcome.1, .inr ⟨hstarts, houtcome.2⟩⟩
        · have hno : ¬ FailureStartsNext serverObjP server := fun hstarts => hfirst hstarts.2.1
          simp only [hfirst, if_false]
          exact ⟨(hquiet false).1, .inl ⟨false, hno, (hquiet false).2⟩⟩

theorem set_inst {server' : RegistrationServer} (h : servers[index]? = some server)
    (hinst : server'.servObjInstID = server.servObjInstID) :
    (servers.set index server').map (fun server => server.servObjInstID) =
      servers.map fun server => server.servObjInstID := by
  apply List.ext_getElem?
  intro k
  rw [List.getElem?_map, List.getElem?_map, List.getElem?_set]
  by_cases hk : index = k
  · subst hk
    have hlt := (List.getElem?_eq_some_iff.mp h).1
    rw [if_pos rfl, if_pos hlt, h]
    simp [hinst]
  · rw [if_neg hk]

theorem answers_of_inst {servers' : List RegistrationServer}
    (hinst : servers'.map (fun server => server.servObjInstID) = servers.map fun server => server.servObjInstID)
    (hanswers : ∀ server ∈ servers, AnswersStart serverObjP server.servObjInstID) :
    ∀ server ∈ servers', AnswersStart serverObjP server.servObjInstID := by
  intro server' hmem
  have hid : server'.servObjInstID ∈ servers'.map fun server => server.servObjInstID :=
    List.mem_map_of_mem hmem
  rw [hinst] at hid
  obtain ⟨server, hserver, hsame⟩ := List.mem_map.mp hid
  rw [← hsame]
  exact hanswers server hserver

/-- The registration is accepted. -/
def registrationAccepted (packet : Option ReplyPacket) : Bool :=
  packet.any fun packet => packet.code == .created201

theorem registrationAccepted_not_continues {packet : Option ReplyPacket} (h : registrationAccepted packet = true) :
    packet.any continues = false := by
  cases packet with
  | none => rfl
  | some packet =>
    have hcode : packet.code = .created201 := by simpa [registrationAccepted] using h
    simp [continues, hcode]

theorem startNext_outcome (context : RegistrationContext) (server : RegistrationServer)
    (hobj : context.serverObj = some serverObjP)
    (hanswers : ∀ server ∈ context.serverList, AnswersStart serverObjP server.servObjInstID)
    (hserver : AnswersStart serverObjP server.servObjInstID) (now : Int) :
    (StartsNext serverObjP server → startNext now server context =
      { context with serverList := startedList serverObjP now false context.serverList }) ∧
    (¬ StartsNext serverObjP server → startNext now server context = context) := by
  have hstart := registrationStart_eq hobj hanswers now false
  simp only [hobj] at hstart
  unfold startNext
  simp only [hobj, prvGetRegistrationOrder_answers _ hserver]
  cases horder : serverOrder serverObjP server with
  | none =>
    have hno : ¬ StartsNext serverObjP server := fun hstarts => by simpa [horder] using hstarts.1
    exact ⟨fun hstarts => absurd hstarts hno, fun _ => rfl⟩
  | some order =>
    by_cases hfirst : server.sequence = 1
    · have hstarts : StartsNext serverObjP server := ⟨by simp [horder], .inl hfirst⟩
      simp only [hfirst, if_true]
      exact ⟨fun _ => hstart, fun hno => absurd hstarts hno⟩
    · simp only [hfirst, if_false]
      cases hblocking : prvGetRegistrationFailureBlocking serverObjP server with
      | error code =>
        have hno : ¬ StartsNext serverObjP server := fun hstarts => by
          simpa [hfirst, hblocking] using hstarts.2
        exact ⟨fun hstarts => absurd hstarts hno, fun _ => rfl⟩
      | ok blocking =>
        cases blocking with
        | true =>
          have hno : ¬ StartsNext serverObjP server := fun hstarts => by
            simpa [hfirst, hblocking] using hstarts.2
          exact ⟨fun hstarts => absurd hstarts hno, fun _ => rfl⟩
        | false =>
          have hstarts : StartsNext serverObjP server := ⟨by simp [horder], .inr hblocking⟩
          exact ⟨fun _ => hstart, fun hno => absurd hstarts hno⟩

theorem prvHandleRegistrationAttemptFailure_outcome (hobj : context.serverObj = some serverObjP)
    (hanswers : ∀ server ∈ servers, AnswersStart serverObjP server.servObjInstID)
    (h : servers[index]? = some server) (hpending : server.status = .regPending)
    (registration : Int)
    (hlist : context.serverList = servers.set index (retimed server registration)) (now : Int)
    (openFailure : Bool)
    (hopen : openFailure = (((prvGetRegistrationAttemptLimit serverObjP server).toOption.any fun limits => limits.1 ≤ server.attempt) && (prvGetRegistrationFailureBlocking serverObjP server).toOption == some false)) :
    (prvHandleRegistrationAttemptFailure now index server context).serverObj = context.serverObj ∧
      ReplyOutcome serverObjP now servers index server false openFailure
        (prvHandleRegistrationAttemptFailure now index server context).serverList := by
  have hlt := (List.getElem?_eq_some_iff.mp h).1
  have htarget : context.serverList[index]? = some (retimed server registration) := by
    rw [hlist, List.getElem?_set, if_pos rfl, if_pos hlt]
  have hset : ∀ server', context.serverList.set index server' = servers.set index server' := by
    intro server'
    rw [hlist, List.set_set]
  unfold prvHandleRegistrationAttemptFailure
  simp only [hobj]
  cases hlimit : prvGetRegistrationAttemptLimit serverObjP server with
  | error code =>
    rw [hlimit] at hopen
    obtain rfl : openFailure = false := by simpa [Except.toOption] using hopen
    simp only [modifyServer_eq _ htarget, hset]
    exact ⟨hobj, .gaveUp rfl rfl⟩
  | ok limits =>
    obtain ⟨attemptLimit, attemptDelay⟩ := limits
    simp only [hlimit, Except.toOption, Option.any_some] at hopen
    by_cases hlast : attemptLimit ≤ server.attempt
    · simp only [if_pos hlast]
      have hcontext : ∀ server ∈ context.serverList, AnswersStart serverObjP server.servObjInstID := by
        apply answers_of_inst _ hanswers
        rw [hlist]
        exact set_inst h rfl
      obtain ⟨hkept, houtcome⟩ := prvHandleRegistrationSequenceFailure_outcome
        server hobj hcontext htarget hpending rfl rfl now
      refine ⟨hkept.trans hobj, ?_⟩
      rw [hlist] at houtcome
      rcases houtcome with ⟨blocking, hno, houtcome⟩ | ⟨hstarts, houtcome⟩
      · exact .sequenceFailed registration blocking openFailure hno houtcome
      · obtain rfl : openFailure = true := by simpa [hlast, hstarts.2.2] using hopen
        exact .failureStartsNext registration hstarts houtcome
    · have hattempt : server.attempt < 254 :=
        UInt8.lt_of_lt_of_le (UInt8.not_le.mp hlast) (attemptLimit_le hlimit)
      obtain rfl : openFailure = false := by simpa [hlast] using hopen
      simp only [if_neg hlast, modifyServer_eq _ htarget, hset]
      exact ⟨hobj, .retried rfl rfl rfl rfl hattempt⟩

theorem prvHandleRegistrationReply_outcome (hobj : context.serverObj = some serverObjP)
    (hanswers : ∀ server ∈ context.serverList, AnswersStart serverObjP server.servObjInstID)
    (h : context.serverList[index]? = some server) (hpending : server.status = .regPending)
    (now : Int) (packet : Option ReplyPacket) :
    (prvHandleRegistrationReply now index packet context).serverObj = context.serverObj ∧
      ReplyOutcome serverObjP now context.serverList index server (registrationAccepted packet)
        (endsOpenSequence context index packet)
        (prvHandleRegistrationReply now index packet context).serverList := by
  have hlt := (List.getElem?_eq_some_iff.mp h).1
  obtain ⟨registration, htimed⟩ : ∃ registration, (if 0 ≤ now then
      context.modifyServer index fun target => { target with registration := now } else context) =
        { context with serverList := context.serverList.set index (retimed server registration) } := by
    by_cases hnow : 0 ≤ now
    · refine ⟨now, ?_⟩
      rw [if_pos hnow, modifyServer_eq _ h]
      rfl
    · refine ⟨server.registration, ?_⟩
      have hself : context.serverList.set index (retimed server server.registration) =
          context.serverList := set_same h
      rw [if_neg hnow, hself]
  have hretimed : (context.serverList.set index (retimed server registration))[index]? =
      some (retimed server registration) := by
    rw [List.getElem?_set, if_pos rfl, if_pos hlt]
  unfold prvHandleRegistrationReply
  simp only [h, if_pos hpending, htimed]
  by_cases hcontinues : packet.any continues = true
  · have hnot : registrationAccepted packet = false := by
      apply Bool.eq_false_iff.mpr
      intro haccepted
      rw [registrationAccepted_not_continues haccepted] at hcontinues
      nomatch hcontinues
    have hopen : endsOpenSequence context index packet = false := by
      cases packet with
      | none => nomatch hcontinues
      | some packet =>
        have hcode : continues packet = true := hcontinues
        simp [endsOpenSequence, hobj, h, hcode]
    rw [if_pos hcontinues, hnot, hopen]
    exact ⟨rfl, .continued registration⟩
  · rw [if_neg hcontinues]
    by_cases haccepted : registrationAccepted packet = true
    · have hopen : endsOpenSequence context index packet = false := by
        cases packet with
        | none => nomatch haccepted
        | some packet =>
          have hcode : (packet.code == .created201) = true := haccepted
          simp [endsOpenSequence, hobj, h, hcode]
      have hregistered := modifyServer_eq ({ context with
          serverList := context.serverList.set index (retimed server registration) }) hretimed
        fun target => { target with status := .registered }
      simp only [List.set_set] at hregistered
      obtain ⟨hstarts, hstays⟩ := startNext_outcome ({ context with
          serverList := context.serverList.set index
            { retimed server registration with status := .registered } }) server hobj
        (answers_of_inst (set_inst h rfl) hanswers) (hanswers server (List.mem_of_getElem? h)) now
      rw [registrationAccepted] at haccepted
      rw [if_pos haccepted, hregistered, registrationAccepted, haccepted, hopen]
      by_cases hnext : StartsNext serverObjP server
      · rw [hstarts hnext]
        exact ⟨rfl, .startsNext registration hnext⟩
      · rw [hstays hnext]
        exact ⟨rfl, .registered registration hnext⟩
    · have hnot : registrationAccepted packet = false := by simpa using haccepted
      have hnone : packet.any (fun packet => continues packet || packet.code == .created201) =
          false := by
        cases packet with
        | none => rfl
        | some packet =>
          have hno : continues packet = false := by simpa using hcontinues
          have hcode : (packet.code == .created201) = false := hnot
          simp [hno, hcode]
      rw [registrationAccepted] at haccepted
      rw [if_neg haccepted, hnot]
      have htimedObj : ({ context with
          serverList := context.serverList.set index (retimed server registration) } :
            RegistrationContext).serverObj = some serverObjP := hobj
      apply prvHandleRegistrationAttemptFailure_outcome htimedObj hanswers h hpending registration rfl
      simp [endsOpenSequence, hobj, h, hpending, hnone]

end Wakaama
