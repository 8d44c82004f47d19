import Wakaama.Core.Registration.Ordered

/-!
# What `registration_start` does

Where the Server object answers, the servers that are not ordered are started at once, and of
those that are ordered the first one with the least order.
-/

namespace Wakaama

/-- The Server object answers with a value or with 4.04. -/
def AnswersUint (serverObjP : ServerReader) (instanceId resourceId : UInt16) : Prop :=
  (∃ value, prvReadUint serverObjP instanceId resourceId = .ok value) ∨
    prvReadUint serverObjP instanceId resourceId = .error .notFound404

/-- It does so for what `registration_start` reads. -/
structure AnswersStart (serverObjP : ServerReader) (instanceId : UInt16) : Prop where
  order : AnswersUint serverObjP instanceId lwm2mServerRegOrderId
  delay : AnswersUint serverObjP instanceId lwm2mServerInitialRegDelayId

variable {serverObjP : ServerReader} {server : RegistrationServer} {restartFailed : Bool}
  {order : UInt64}

theorem prvGetRegistrationOrder_answers (server : RegistrationServer)
    (h : AnswersStart serverObjP server.servObjInstID) :
    prvGetRegistrationOrder serverObjP server = .ok (serverOrder serverObjP server) := by
  rcases h.order with ⟨value, hread⟩ | hread
  · simp only [serverOrder, prvGetRegistrationOrder, hread]
    rfl
  · simp only [serverOrder, prvGetRegistrationOrder, hread]
    rfl

def resetCounters (server : RegistrationServer) : RegistrationServer :=
  { server with attempt := 0, sequence := 0 }

/-- The server as `prv_startRegistration` leaves it. -/
def startedServer (serverObjP : ServerReader) (now : Int) (server : RegistrationServer) :
    RegistrationServer :=
  (prvStartRegistration serverObjP now server).toOption.getD server

theorem prvStartRegistration_answers (server : RegistrationServer)
    (h : AnswersStart serverObjP server.servObjInstID) (now : Int) :
    ∃ registration, prvStartRegistration serverObjP now server =
      .ok { server with registration := registration, status := .regHoldOff } := by
  rcases h.delay with ⟨value, hread⟩ | hread
  · exact ⟨addDelay now value, by simp only [prvStartRegistration, hread]; rfl⟩
  · exact ⟨addDelay now 0, by simp only [prvStartRegistration, hread]; rfl⟩

theorem startedServer_answers (h : AnswersStart serverObjP server.servObjInstID) (now : Int) :
    ∃ registration, startedServer serverObjP now (resetCounters server) =
      { server with
        registration := registration, status := .regHoldOff, attempt := 0, sequence := 0 } := by
  obtain ⟨registration, hstart⟩ := prvStartRegistration_answers (resetCounters server) h now
  refine ⟨registration, ?_⟩
  rw [startedServer, hstart]
  rfl

def loopServer (serverObjP : ServerReader) (now : Int) (restartFailed : Bool)
    (server : RegistrationServer) : RegistrationServer :=
  if startable restartFailed server then
    if (serverOrder serverObjP server).isSome then resetCounters server
    else startedServer serverObjP now (resetCounters server)
  else server

/-- The better of an ordered server and the first one so far. -/
def betterFirst (order : Option UInt64) (index : Nat) (first : Option (UInt64 × Nat)) :
    Option (UInt64 × Nat) :=
  match order with
  | some order => if first.all fun first => order < first.1 then some (order, index) else first
  | none => first

/-- The first of the ordered servers from `index` on. -/
def firstFrom (serverObjP : ServerReader) (restartFailed : Bool) :
    Nat → List RegistrationServer → Option (UInt64 × Nat) → Option (UInt64 × Nat)
  | _, [], first => first
  | index, server :: next, first =>
    firstFrom serverObjP restartFailed (index + 1) next
      (if startable restartFailed server then
        betterFirst (serverOrder serverObjP server) index first
      else first)

theorem registrationStartLoop_eq {now : Int} :
    ∀ {servers : List RegistrationServer} {index : Nat} {first : Option (UInt64 × Nat)},
      (∀ server ∈ servers, AnswersStart serverObjP server.servObjInstID) →
      registrationStartLoop serverObjP now restartFailed index servers first =
        (servers.map (loopServer serverObjP now restartFailed),
          firstFrom serverObjP restartFailed index servers first, .noError) := by
  intro servers
  induction servers with
  | nil => exact fun _ => rfl
  | cons server next ih =>
    intro index first hanswers
    have hserver := hanswers server List.mem_cons_self
    have hnext := fun other hmem => hanswers other (List.mem_cons_of_mem _ hmem)
    have horder : prvGetRegistrationOrder serverObjP
        { server with attempt := 0, sequence := 0 } = .ok (serverOrder serverObjP server) :=
      prvGetRegistrationOrder_answers (resetCounters server) hserver
    rw [registrationStartLoop, firstFrom, List.map_cons, loopServer]
    by_cases hstartable : startable restartFailed server = true
    · rw [if_pos hstartable, if_pos hstartable, if_pos hstartable]
      simp only [horder]
      cases hordered : serverOrder serverObjP server with
      | some order =>
        simp only [ih hnext]
        rfl
      | none =>
        obtain ⟨registration, hstart⟩ :=
          prvStartRegistration_answers (resetCounters server) hserver now
        have hstarted : startedServer serverObjP now (resetCounters server) =
            { resetCounters server with registration := registration, status := .regHoldOff } := by
          rw [startedServer, hstart]
          rfl
        simp only [resetCounters] at hstart
        simp only [hstart, ih hnext, hstarted, betterFirst]
        rfl
    · rw [if_neg hstartable, if_neg hstartable, if_neg hstartable]
      simp only [ih hnext]

theorem betterFirst_some (order : UInt64) (index : Nat) (first : Option (UInt64 × Nat)) :
    ∃ least, betterFirst (some order) index first = some least ∧ least.1 ≤ order ∧
      (∀ other ∈ first, least.1 ≤ other.1) ∧ (least = (order, index) ∨ first = some least) := by
  cases first with
  | none => exact ⟨(order, index), rfl, UInt64.le_refl order, nofun, .inl rfl⟩
  | some other =>
    by_cases h : order < other.1
    · refine ⟨(order, index), by simp [betterFirst, h], UInt64.le_refl order, ?_, .inl rfl⟩
      rintro _ ⟨⟩
      exact UInt64.le_of_lt h
    · refine ⟨other, by simp [betterFirst, h], UInt64.not_lt.mp h, ?_, .inr rfl⟩
      rintro _ ⟨⟩
      exact UInt64.le_refl other.1

/-- A start, and the servers behind it: the ordered ones that can be started. -/
def StartableAt (serverObjP : ServerReader) (restartFailed : Bool)
    (servers : List RegistrationServer) (k : Nat) (order : UInt64) : Prop :=
  ∃ server, servers[k]? = some server ∧ startable restartFailed server = true ∧
    serverOrder serverObjP server = some order

theorem startableAt_succ {next : List RegistrationServer} {k : Nat} :
    StartableAt serverObjP restartFailed (server :: next) (k + 1) order ↔
      StartableAt serverObjP restartFailed next k order := by
  simp [StartableAt]

theorem startableAt_zero {next : List RegistrationServer} :
    StartableAt serverObjP restartFailed (server :: next) 0 order ↔
      startable restartFailed server = true ∧ serverOrder serverObjP server = some order := by
  simp [StartableAt]

theorem firstFrom_some {least : UInt64 × Nat} :
    ∀ {servers : List RegistrationServer} {index : Nat} {first : Option (UInt64 × Nat)},
      firstFrom serverObjP restartFailed index servers first = some least →
      (first = some least ∨
        ∃ k, least.2 = index + k ∧ StartableAt serverObjP restartFailed servers k least.1) ∧
      (∀ other ∈ first, least.1 ≤ other.1) ∧
      ∀ k order, StartableAt serverObjP restartFailed servers k order → least.1 ≤ order := by
  intro servers
  induction servers with
  | nil =>
    intro index first h
    refine ⟨.inl h, ?_, ?_⟩
    · rintro other hother
      obtain rfl : least = other := Option.some.inj (h.symm.trans hother)
      exact UInt64.le_refl least.1
    · rintro k order ⟨server, hk, -⟩
      simp at hk
  | cons server next ih =>
    intro index first h
    rw [firstFrom] at h
    obtain ⟨hfound, hfirst, hall⟩ := ih h
    have hbehind : (∃ k, least.2 = index + 1 + k ∧
        StartableAt serverObjP restartFailed next k least.1) →
          ∃ k, least.2 = index + k ∧
            StartableAt serverObjP restartFailed (server :: next) k least.1 := by
      rintro ⟨k, hk, hat⟩
      exact ⟨k + 1, by omega, startableAt_succ.mpr hat⟩
    by_cases hstartable : startable restartFailed server = true
    · rw [if_pos hstartable] at hfound hfirst
      cases hordered : serverOrder serverObjP server with
      | none =>
        rw [hordered] at hfound hfirst
        refine ⟨hfound.imp_right hbehind, hfirst, fun k order hat => ?_⟩
        cases k with
        | zero =>
          obtain ⟨-, horder⟩ := startableAt_zero.mp hat
          rw [hordered] at horder
          nomatch horder
        | succ k => exact hall k order (startableAt_succ.mp hat)
      | some here =>
        obtain ⟨better, hbetter, hhere, hothers, hwhich⟩ :=
          betterFirst_some here index first
        rw [hordered, hbetter] at hfound hfirst
        have hle : least.1 ≤ better.1 := hfirst better rfl
        refine ⟨?_, fun other hother => UInt64.le_trans hle (hothers other hother), ?_⟩
        · rcases hfound with hfound | hfound
          · obtain rfl : better = least := Option.some.inj hfound
            rcases hwhich with rfl | hwhich
            · exact .inr ⟨0, rfl, startableAt_zero.mpr ⟨hstartable, hordered⟩⟩
            · exact .inl hwhich
          · exact .inr (hbehind hfound)
        · intro k order hat
          cases k with
          | zero =>
            obtain ⟨-, horder⟩ := startableAt_zero.mp hat
            obtain rfl : here = order := Option.some.inj (hordered.symm.trans horder)
            exact UInt64.le_trans hle hhere
          | succ k => exact hall k order (startableAt_succ.mp hat)
    · rw [if_neg hstartable] at hfound hfirst
      refine ⟨hfound.imp_right hbehind, hfirst, fun k order hat => ?_⟩
      cases k with
      | zero => exact absurd (startableAt_zero.mp hat).1 hstartable
      | succ k => exact hall k order (startableAt_succ.mp hat)

theorem firstFrom_none :
    ∀ {servers : List RegistrationServer} {index : Nat} {first : Option (UInt64 × Nat)},
      firstFrom serverObjP restartFailed index servers first = none →
      first = none ∧ ∀ k order, ¬ StartableAt serverObjP restartFailed servers k order := by
  intro servers
  induction servers with
  | nil =>
    intro index first h
    refine ⟨h, ?_⟩
    rintro k order ⟨server, hk, -⟩
    simp at hk
  | cons server next ih =>
    intro index first h
    rw [firstFrom] at h
    obtain ⟨hfirst, hall⟩ := ih h
    by_cases hstartable : startable restartFailed server = true
    · rw [if_pos hstartable] at hfirst
      cases hordered : serverOrder serverObjP server with
      | none =>
        rw [hordered] at hfirst
        refine ⟨hfirst, fun k order hat => ?_⟩
        cases k with
        | zero =>
          obtain ⟨-, horder⟩ := startableAt_zero.mp hat
          rw [hordered] at horder
          nomatch horder
        | succ k => exact hall k order (startableAt_succ.mp hat)
      | some here =>
        obtain ⟨better, hbetter, -⟩ :=
          betterFirst_some here index first
        rw [hordered, hbetter] at hfirst
        nomatch hfirst
    · rw [if_neg hstartable] at hfirst
      refine ⟨hfirst, fun k order hat => ?_⟩
      cases k with
      | zero => exact absurd (startableAt_zero.mp hat).1 hstartable
      | succ k => exact hall k order (startableAt_succ.mp hat)

/-- What `registration_start` makes of the server at `k`, when the ordered server at `chosen` is
the one to start. -/
def startServer (serverObjP : ServerReader) (now : Int) (restartFailed : Bool)
    (chosen : Option Nat) (k : Nat) (server : RegistrationServer) : RegistrationServer :=
  if startable restartFailed server then
    if (serverOrder serverObjP server).isSome ∧ chosen ≠ some k then resetCounters server
    else startedServer serverObjP now (resetCounters server)
  else server

/-- The server that is chosen has the least order of those that can be started. -/
def IsChosen (serverObjP : ServerReader) (restartFailed : Bool)
    (servers : List RegistrationServer) : Option Nat → Prop
  | none => ∀ k order, ¬ StartableAt serverObjP restartFailed servers k order
  | some chosen => ∃ least, StartableAt serverObjP restartFailed servers chosen least ∧
      ∀ k order, StartableAt serverObjP restartFailed servers k order → least ≤ order

theorem startServer_none (serverObjP : ServerReader) (now : Int) (restartFailed : Bool)
    (servers : List RegistrationServer) :
    servers.map (loopServer serverObjP now restartFailed) =
      servers.mapIdx (startServer serverObjP now restartFailed none) := by
  apply List.ext_getElem?
  intro k
  rw [List.getElem?_map, List.getElem?_mapIdx]
  cases servers[k]? with
  | none => rfl
  | some server => simp [startServer, loopServer]

theorem startServer_some (serverObjP : ServerReader) (now : Int) (restartFailed : Bool)
    {servers : List RegistrationServer} {chosen : Nat}
    (hat : StartableAt serverObjP restartFailed servers chosen order) :
    startAt serverObjP now chosen (servers.map (loopServer serverObjP now restartFailed)) =
      servers.mapIdx (startServer serverObjP now restartFailed (some chosen)) := by
  obtain ⟨target, htarget, hstartable, horder⟩ := hat
  apply List.ext_getElem?
  intro k
  rw [startAt, List.getElem?_modify, List.getElem?_map, List.getElem?_mapIdx]
  by_cases hk : chosen = k
  · subst hk
    rw [htarget]
    simp [startServer, loopServer, hstartable, horder, startedServer]
  · cases servers[k]? with
    | none => rfl
    | some server =>
      have hother : some chosen ≠ some k := fun h => hk (Option.some.inj h)
      simp [startServer, loopServer, hk]

/-- The ordered server that `registration_start` starts. -/
def firstStarted (serverObjP : ServerReader) (restartFailed : Bool)
    (servers : List RegistrationServer) : Option Nat :=
  (firstFrom serverObjP restartFailed 0 servers none).map Prod.snd

theorem firstStarted_isChosen (serverObjP : ServerReader) (restartFailed : Bool)
    (servers : List RegistrationServer) :
    IsChosen serverObjP restartFailed servers (firstStarted serverObjP restartFailed servers) := by
  unfold firstStarted
  cases hfirst : firstFrom serverObjP restartFailed 0 servers none with
  | none => exact (firstFrom_none hfirst).2
  | some least =>
    obtain ⟨hfound, -, hleast⟩ := firstFrom_some hfirst
    obtain ⟨k, hk, hat⟩ := hfound.resolve_left nofun
    obtain rfl : least.2 = k := by omega
    exact ⟨least.1, hat, hleast⟩

/-- The servers behind `registration_start`. -/
def startedList (serverObjP : ServerReader) (now : Int) (restartFailed : Bool)
    (servers : List RegistrationServer) : List RegistrationServer :=
  servers.mapIdx
    (startServer serverObjP now restartFailed (firstStarted serverObjP restartFailed servers))

theorem registrationStart_eq {context : RegistrationContext}
    (hobj : context.serverObj = some serverObjP)
    (hanswers : ∀ server ∈ context.serverList, AnswersStart serverObjP server.servObjInstID)
    (now : Int) (restartFailed : Bool) :
    registrationStart now restartFailed context =
      { context with
        serverList := startedList serverObjP now restartFailed context.serverList } := by
  rw [registrationStart, hobj, startedList, firstStarted]
  cases hfirst : firstFrom serverObjP restartFailed 0 context.serverList none with
  | none => simp only [registrationStartLoop_eq hanswers, hfirst, startServer_none, Option.map_none]
  | some least =>
    obtain ⟨hfound, -, -⟩ := firstFrom_some hfirst
    obtain ⟨k, hk, hat⟩ := hfound.resolve_left nofun
    obtain rfl : least.2 = k := by omega
    simp only [registrationStartLoop_eq hanswers, hfirst, startServer_some _ _ _ hat,
      Option.map_some]

theorem serverOrder_congr {server' : RegistrationServer}
    (h : server'.servObjInstID = server.servObjInstID) :
    serverOrder serverObjP server' = serverOrder serverObjP server := by
  simp only [serverOrder, prvGetRegistrationOrder, h]

theorem startServer_inst (serverObjP : ServerReader) (now : Int) (restartFailed : Bool)
    (chosen : Option Nat) (k : Nat) (server : RegistrationServer) :
    (startServer serverObjP now restartFailed chosen k server).servObjInstID =
      server.servObjInstID := by
  have hstarted : (startedServer serverObjP now (resetCounters server)).servObjInstID =
      server.servObjInstID := by
    simp only [startedServer, prvStartRegistration]
    cases orNotFound 0 (prvReadUint serverObjP (resetCounters server).servObjInstID
      lwm2mServerInitialRegDelayId) with
    | error code => rfl
    | ok delay => rfl
  unfold startServer
  split
  · split
    · rfl
    · exact hstarted
  · rfl

theorem failOrdered_inst (serverObjP : ServerReader) (server : RegistrationServer) :
    (failOrdered serverObjP server).servObjInstID = server.servObjInstID := by
  unfold failOrdered
  split
  · split <;> rfl
  · rfl

end Wakaama
