import Wakaama.Core.Proofs.RegistrationOrder

/-!
# Ordered servers take turns

A server has passed once it has registered or has completed a failed sequence that does not block.
At most one ordered server that has not passed is on its way, and all the others that were started
before those that wait have passed. The next server is started when the one on its way passes.
-/

namespace Wakaama

/-! ## Turns -/

/-- The statuses of a server that is registered. -/
def isRegistered : ServerStatus → Bool
  | .registered | .regUpdatePending | .regUpdateNeeded | .regFullUpdateNeeded => true
  | _ => false

/-- The servers that have passed behind an event; `registration_start` of the client begins anew
with those that are registered. -/
def passedAfter (passed : List Nat) (event : RegistrationCall × RegistrationReply) : List Nat :=
  match event.1 with
  | .start _ =>
    (List.range event.2.before.length).filter fun k => event.2.before[k]?.any isRegistered
  | .reply _ index _ =>
    if event.2.before[index]? = some .regPending ∧
        (event.2.after[index]? = some .registered ∨ event.2.openFailure = true) then
      index :: passed
    else passed
  | _ => passed

/-- The servers that have registered or completed a failed sequence that does not block. -/
def passedServers (past : List (RegistrationCall × RegistrationReply)) : List Nat :=
  past.foldl passedAfter []

/-- The events since the client last began to register. -/
def currentRound (past : List (RegistrationCall × RegistrationReply)) :
    List (RegistrationCall × RegistrationReply) :=
  past.foldl (fun round event =>
    match event.1 with
    | .start _ => []
    | _ => round ++ [event]) []

/-- A reply for the server has started an ordered server. -/
def Triggered (orders : List (Option UInt64))
    (round : List (RegistrationCall × RegistrationReply)) (index : Nat) : Prop :=
  ∃ event ∈ round, (∃ now packet, event.1 = .reply now index packet) ∧
    ∃ k order, OrderedAt orders k order ∧ startedAt event.2 k

/-- An ordered server that is started has its turn: those of a smaller order have passed, no other
is started with it, and the server whose reply this is has started none before. -/
def StartsInTurn (orders : List (Option UInt64))
    (past : List (RegistrationCall × RegistrationReply))
    (event : RegistrationCall × RegistrationReply) : Prop :=
  ∀ k order, OrderedAt orders k order → startedAt event.2 k →
    (∀ j earlier, OrderedAt orders j earlier → earlier < order →
      j ∈ passedServers (past ++ [event])) ∧
    (∀ k' order', OrderedAt orders k' order' → startedAt event.2 k' → k' = k) ∧
    ∀ now index packet, event.1 = .reply now index packet →
      ¬ Triggered orders (currentRound past) index

/-- The client may begin to register: no ordered server is on its way, and an ordered server that
has failed and is not the one that is started has none of a larger order behind it that waits. -/
def RoundReady (serverObjP : ServerReader) (context : RegistrationContext) : Prop :=
  (∀ (k : Nat) server order, context.serverList[k]? = some server →
    serverOrder serverObjP server = some order →
      isRegistered server.status = true ∨ startable true server = true) ∧
  ∀ (k : Nat) server order, context.serverList[k]? = some server →
    serverOrder serverObjP server = some order → server.status = .regFailed →
    firstStarted serverObjP true context.serverList ≠ some k →
      ∀ j later, StartableAt serverObjP false context.serverList j later → ¬ order < later

/-- The condition: the client begins to register when it is ready, and behind a registration that
goes well in a later sequence of a server whose failures do not block no ordered server waits. -/
def TurnKept (serverObjP : ServerReader) (context : RegistrationContext) :
    RegistrationCall → Prop
  | .start _ => RoundReady serverObjP context
  | .reply _ index packet =>
    ∀ server ∈ context.serverList[index]?, server.status = .regPending →
      registrationAccepted packet = true → (serverOrder serverObjP server).isSome →
      server.sequence ≠ 1 → prvGetRegistrationFailureBlocking serverObjP server = .ok false →
      ∀ k order, ¬ StartableAt serverObjP false context.serverList k order
  | _ => True

/-! ### The statuses -/

def Front (orders : List (Option UInt64)) (passed : List Nat) (statuses : List ServerStatus)
    (k : Nat) : Prop :=
  (∃ order, OrderedAt orders k order) ∧ k ∉ passed ∧
    (statuses[k]? = some .regHoldOff ∨ statuses[k]? = some .regPending)

/-- What holds of the statuses of the ordered servers between two calls. -/
structure Turns (orders : List (Option UInt64)) (passed : List Nat)
    (statuses : List ServerStatus) : Prop where
  begun : ∀ k order, OrderedAt orders k order → k ∈ passed → statuses[k]? ≠ some .deregistered
  oneFront : ∀ i j, Front orders passed statuses i → Front orders passed statuses j → i = j
  behind : ∀ i, Front orders passed statuses i → ∀ j earlier k later,
    OrderedAt orders j earlier → Waits orders statuses k later → earlier < later → j ≠ i →
      statuses[j]? ≠ some .deregistered → j ∈ passed

variable {orders : List (Option UInt64)} {passed : List Nat} {statuses statuses' : List ServerStatus}

theorem Turns.quiet (h : Turns orders passed statuses)
    (hwaits : ∀ k order, OrderedAt orders k order →
      (statuses'[k]? = some .deregistered ↔ statuses[k]? = some .deregistered))
    (hfront : ∀ k order, OrderedAt orders k order →
      statuses'[k]? = some .regHoldOff ∨ statuses'[k]? = some .regPending →
        statuses[k]? = some .regHoldOff ∨ statuses[k]? = some .regPending) :
    Turns orders passed statuses' := by
  have hwas : ∀ k, Front orders passed statuses' k → Front orders passed statuses k := by
    rintro k ⟨⟨order, horder⟩, hnot, hway⟩
    exact ⟨⟨order, horder⟩, hnot, hfront k order horder hway⟩
  constructor
  · intro k order horder hmem hstatus
    exact h.begun k order horder hmem ((hwaits k order horder).mp hstatus)
  · intro i j hi hj
    exact h.oneFront i j (hwas i hi) (hwas j hj)
  · intro i hi j earlier k later hj hk hlt hne hstatus
    apply h.behind i (hwas i hi) j earlier k later hj _ hlt hne
    · exact fun hdereg => hstatus ((hwaits j earlier hj).mpr hdereg)
    · exact ⟨hk.1, (hwaits k later hk.1).mp hk.2⟩

variable {index low k : Nat} {server server' : RegistrationServer}
  {event : RegistrationCall × RegistrationReply}
  {past : List (RegistrationCall × RegistrationReply)} {context' context : RegistrationContext}
  {serverObjP : ServerReader} {servers : List RegistrationServer} {call : RegistrationCall}
  {reply : RegistrationReply}

theorem Turns.pass (h : Turns orders passed statuses)
    (hindex : statuses[index]? ≠ some .deregistered) : Turns orders (index :: passed) statuses := by
  have hwas : ∀ k, Front orders (index :: passed) statuses k → Front orders passed statuses k := by
    rintro k ⟨horder, hnot, hway⟩
    exact ⟨horder, fun hmem => hnot (List.mem_cons_of_mem _ hmem), hway⟩
  constructor
  · intro k order horder hmem
    rcases List.mem_cons.mp hmem with rfl | hmem
    · exact hindex
    · exact h.begun k order horder hmem
  · intro i j hi hj
    exact h.oneFront i j (hwas i hi) (hwas j hj)
  · intro i hi j earlier k later hj hk hlt hne hstatus
    exact List.mem_cons_of_mem _ (h.behind i (hwas i hi) j earlier k later hj hk hlt hne hstatus)

theorem Turns.passFront (h : Turns orders passed statuses)
    (hfront : Front orders passed statuses index) :
    (∀ k, ¬ Front orders (index :: passed) statuses k) ∧
      ∀ j earlier k later, OrderedAt orders j earlier → Waits orders statuses k later →
        earlier < later → statuses[j]? ≠ some .deregistered → j ∈ index :: passed := by
  constructor
  · rintro k ⟨horder, hnot, hway⟩
    rw [List.mem_cons, not_or] at hnot
    exact hnot.1 (h.oneFront k index ⟨horder, hnot.2, hway⟩ hfront)
  · intro j earlier k later hj hk hlt hstatus
    by_cases hne : j = index
    · rw [hne]
      exact List.mem_cons_self
    · exact List.mem_cons_of_mem _ (h.behind index hfront j earlier k later hj hk hlt hne hstatus)

theorem Turns.start {chosen : Nat} (hbegun : ∀ k order, OrderedAt orders k order → k ∈ passed →
      k ≠ chosen → statuses[k]? ≠ some .deregistered)
    (hnone : ∀ k, ¬ Front orders passed statuses k)
    (hbehind : ∀ j earlier k later, OrderedAt orders j earlier → Waits orders statuses k later →
      earlier < later → j ≠ chosen → statuses[j]? ≠ some .deregistered → j ∈ passed)
    (hchosen : statuses'[chosen]? = some .regHoldOff)
    (hothers : ∀ k order, OrderedAt orders k order → k ≠ chosen → statuses'[k]? = statuses[k]?) :
    Turns orders passed statuses' := by
  have honly : ∀ k, Front orders passed statuses' k → k = chosen := by
    rintro k ⟨⟨order, horder⟩, hnot, hway⟩
    refine Decidable.byContradiction fun hne => hnone k ⟨⟨order, horder⟩, hnot, ?_⟩
    rwa [hothers k order horder hne] at hway
  constructor
  · intro k order horder hmem
    by_cases hk : k = chosen
    · rw [hk, hchosen]
      nofun
    · rw [hothers k order horder hk]
      exact hbegun k order horder hmem hk
  · intro i j hi hj
    rw [honly i hi, honly j hj]
  · intro i hi j earlier k later hj hk hlt hne hstatus
    have hi := honly i hi
    subst hi
    have hki : k ≠ i := by
      rintro rfl
      rw [Waits, hchosen] at hk
      nomatch hk.2
    rw [Waits, hothers k later hk.1 hki] at hk
    rw [hothers j earlier hj hne] at hstatus
    exact hbehind j earlier k later hj hk hlt hne hstatus

theorem Turns.noneWaits (h : Turns orders passed statuses)
    (hwaits : ∀ k order, OrderedAt orders k order → statuses'[k]? ≠ some .deregistered)
    (hfront : ∀ k order, OrderedAt orders k order →
      statuses'[k]? = some .regHoldOff ∨ statuses'[k]? = some .regPending →
        statuses[k]? = some .regHoldOff ∨ statuses[k]? = some .regPending) :
    Turns orders passed statuses' := by
  have hwas : ∀ k, Front orders passed statuses' k → Front orders passed statuses k := by
    rintro k ⟨⟨order, horder⟩, hnot, hway⟩
    exact ⟨⟨order, horder⟩, hnot, hfront k order horder hway⟩
  constructor
  · exact fun k order horder _ => hwaits k order horder
  · intro i j hi hj
    exact h.oneFront i j (hwas i hi) (hwas j hj)
  · intro i _ j earlier k later _ hk
    exact absurd hk.2 (hwaits k later hk.1)

/-! ### The counters -/

/-- What the counters of an ordered server on its way tell: with `low` 1, for one that has passed,
it is not in its first sequence. -/
structure Counted (low : Nat) (server : RegistrationServer) : Prop where
  pending : server.status = .regPending → low + 1 ≤ server.sequence.toNat ∧ server.attempt ≠ 0
  holdOff : server.status = .regHoldOff → server.attempt.toNat ≤ 253 ∧
    (server.attempt = 0 → low ≤ server.sequence.toNat ∧ server.sequence.toNat ≤ 253) ∧
    (server.attempt ≠ 0 → low + 1 ≤ server.sequence.toNat)

theorem Counted.off (hpending : server.status ≠ .regPending)
    (hholdOff : server.status ≠ .regHoldOff) : Counted low server :=
  ⟨fun h => absurd h hpending, fun h => absurd h hholdOff⟩

theorem Counted.quiet (h : Counted low server) (hquiet : QuietChange server server') :
    Counted low server' := by
  cases hquiet with
  | same status attempt sequence =>
    constructor
    · intro hstatus
      rw [attempt, sequence]
      exact h.pending (status ▸ hstatus)
    · intro hstatus
      rw [attempt, sequence]
      exact h.holdOff (status ▸ hstatus)
  | sent before after attempt sequence =>
    obtain ⟨hbound, hfirst, hlater⟩ := h.holdOff before
    constructor
    · intro _
      rw [attempt, sequence]
      constructor
      · split
        · rename_i hzero
          obtain ⟨hlow, hhigh⟩ := hfirst hzero
          rw [UInt8.toNat_add]
          simp
          omega
        · rename_i hzero
          exact hlater hzero
      · intro hzero
        have := congrArg UInt8.toNat hzero
        rw [UInt8.toNat_add] at this
        simp at this
        omega
    · intro hstatus
      rw [after] at hstatus
      nomatch hstatus
  | settled before after => exact .off after.2.2 after.2.1

theorem Counted.started (hattempt : server.attempt = 0) (hsequence : server.sequence = 0)
    (hstatus : server.status = .regHoldOff) : Counted 0 server := by
  constructor
  · intro hpending
    rw [hstatus] at hpending
    nomatch hpending
  · intro _
    rw [hattempt, hsequence]
    exact ⟨by decide, fun _ => ⟨by decide, by decide⟩, fun hne => absurd rfl hne⟩

theorem Counted.retried {low : Nat} {server server' : RegistrationServer} (h : Counted low server)
    (hpending : server.status = .regPending) (hstatus : server'.status = .regHoldOff)
    (hattempt : server'.attempt = server.attempt) (hsequence : server'.sequence = server.sequence)
    (hlt : server.attempt < 254) : Counted low server' := by
  obtain ⟨hlow, hne⟩ := h.pending hpending
  have hbound : server.attempt.toNat < 254 := UInt8.lt_iff_toNat_lt.mp hlt
  constructor
  · intro hpending'
    rw [hstatus] at hpending'
    nomatch hpending'
  · intro _
    rw [hattempt, hsequence]
    exact ⟨by omega, fun hzero => absurd hzero hne, fun _ => hlow⟩

theorem Counted.sequenceOver {low' : Nat} (h : Counted low server)
    (hpending : server.status = .regPending) (hover : SequenceOver server server')
    (hlow : low' ≤ 1) : Counted low' server' := by
  obtain ⟨hsequence, -⟩ := h.pending hpending
  rcases hover.ended with hfailed | ⟨hhold, hattempt, hsame, hlt⟩
  · apply Counted.off
    · rw [hfailed]
      nofun
    · rw [hfailed]
      nofun
  · have hbound : server.sequence.toNat < 254 := UInt8.lt_iff_toNat_lt.mp hlt
    constructor
    · intro hpending'
      rw [hhold] at hpending'
      nomatch hpending'
    · intro _
      rw [hattempt, hsame]
      exact ⟨by decide, fun _ => ⟨by omega, by omega⟩, fun hne => absurd rfl hne⟩

/-! ### The invariant -/

def passedLow (passed : List Nat) (k : Nat) : Nat := if k ∈ passed then 1 else 0

structure InTurn (serverObjP : ServerReader) (orders : List (Option UInt64))
    (past : List (RegistrationCall × RegistrationReply)) (context : RegistrationContext) : Prop where
  configured : Configured serverObjP orders context
  turns : Turns orders (passedServers past) (context.serverList.map fun server => server.status)
  counted : ∀ (k : Nat) server, context.serverList[k]? = some server →
    (serverOrder serverObjP server).isSome → Counted (passedLow (passedServers past) k) server
  triggered : ∀ index, Triggered orders (currentRound past) index → index ∈ passedServers past

theorem passedServers_append (past : List (RegistrationCall × RegistrationReply))
    (event : RegistrationCall × RegistrationReply) :
    passedServers (past ++ [event]) = passedAfter (passedServers past) event := by
  rw [passedServers, List.foldl_append]
  rfl

theorem currentRound_append (past : List (RegistrationCall × RegistrationReply))
    (h : ∀ now, event.1 ≠ .start now) :
    currentRound (past ++ [event]) = currentRound past ++ [event] := by
  rw [currentRound, List.foldl_append]
  change (match event.1 with | .start _ => [] | _ => _) = _
  split
  · rename_i now hstart
    exact absurd hstart (h now)
  · rfl

theorem triggered_append {round : List (RegistrationCall × RegistrationReply)}
    (h : Triggered orders (round ++ [event]) index) :
    Triggered orders round index ∨ (∃ now packet, event.1 = .reply now index packet) ∧
      ∃ k order, OrderedAt orders k order ∧ startedAt event.2 k := by
  obtain ⟨other, hmem, hreply, hstarted⟩ := h
  rcases List.mem_append.mp hmem with hmem | hmem
  · exact .inl ⟨other, hmem, hreply, hstarted⟩
  · obtain rfl := List.mem_singleton.mp hmem
    exact .inr ⟨hreply, hstarted⟩

theorem passedServers_mono (h : ∀ now, event.1 ≠ .start now) (hk : k ∈ passedServers past) :
    k ∈ passedServers (past ++ [event]) := by
  rw [passedServers_append, passedAfter]
  split
  · rename_i now hstart
    exact absurd hstart (h now)
  · split
    · exact List.mem_cons_of_mem _ hk
    · exact hk
  · exact hk

theorem inTurn_unstarted (h : InTurn serverObjP orders past context)
    (hcall : ∀ now, event.1 ≠ .start now) (hconfigured : Configured serverObjP orders context')
    (hturns : Turns orders (passedServers (past ++ [event])) (context'.serverList.map fun server => server.status))
    (hcounted : ∀ (k : Nat) server, context'.serverList[k]? = some server → (serverOrder serverObjP server).isSome → Counted (passedLow (passedServers (past ++ [event])) k) server)
    (hnone : ∀ k order, OrderedAt orders k order → ¬ startedAt event.2 k) :
    StartsInTurn orders past event ∧ InTurn serverObjP orders (past ++ [event]) context' := by
  refine ⟨fun k order horder hstarted => absurd hstarted (hnone k order horder), hconfigured, hturns,
    hcounted, fun index htriggered => ?_⟩
  rw [currentRound_append past hcall] at htriggered
  rcases triggered_append htriggered with hbefore | ⟨-, k, order, horder, hstarted⟩
  · exact passedServers_mono hcall (h.triggered index hbefore)
  · exact absurd hstarted (hnone k order horder)

/-! ### Steps and updates -/

def QuietServers (servers servers' : List RegistrationServer) : Prop :=
  servers'.length = servers.length ∧ ∀ (k : Nat) server server', servers[k]? = some server →
    servers'[k]? = some server' → QuietChange server server' ∧
      server'.servObjInstID = server.servObjInstID

theorem QuietServers.status {servers' : List RegistrationServer} (h : QuietServers servers servers')
    (hk : servers'[k]? = some server') :
    ∃ server, servers[k]? = some server ∧ QuietChange server server' ∧
      server'.servObjInstID = server.servObjInstID := by
  have hlt : k < servers.length := by
    rw [← h.1]
    exact (List.getElem?_eq_some_iff.mp hk).1
  exact ⟨servers[k], List.getElem?_eq_getElem hlt,
    h.2 k _ _ (List.getElem?_eq_getElem hlt) hk⟩

theorem QuietChange.waits (h : QuietChange server server') :
    (server'.status = .deregistered ↔ server.status = .deregistered) ∧
      (server'.status = .regHoldOff ∨ server'.status = .regPending →
        server.status = .regHoldOff ∨ server.status = .regPending) ∧
      (server'.status = .regHoldOff → server.status = .regHoldOff) := by
  cases h with
  | same status =>
    rw [status]
    exact ⟨Iff.rfl, fun h => h, fun h => h⟩
  | sent before after =>
    rw [before, after]
    exact ⟨⟨nofun, nofun⟩, fun _ => .inl rfl, nofun⟩
  | settled before after =>
    refine ⟨⟨fun h => absurd h after.1, fun h => absurd h before.1⟩, ?_,
      fun h => absurd h after.2.1⟩
    rintro (h | h)
    · exact absurd h after.2.1
    · exact absurd h after.2.2

theorem quietServers_status {servers' : List RegistrationServer} (h : QuietServers servers servers')
    (k : Nat) (status : ServerStatus) :
    (servers'.map fun server => server.status)[k]? = some status →
      ∃ before, (servers.map fun server => server.status)[k]? = some before ∧
        (status = .deregistered ↔ before = .deregistered) ∧
        (status = .regHoldOff ∨ status = .regPending → before = .regHoldOff ∨ before = .regPending) ∧
        (status = .regHoldOff → before = .regHoldOff) := by
  intro hstatus
  rw [map_status_getElem?, Option.map_eq_some_iff] at hstatus
  obtain ⟨server', hserver', rfl⟩ := hstatus
  obtain ⟨server, hserver, hquiet, -⟩ := h.status hserver'
  refine ⟨server.status, ?_, hquiet.waits⟩
  rw [map_status_getElem?, hserver, Option.map_some]

theorem inTurn_quiet (h : InTurn serverObjP orders past context) (hcall : ∀ now, call ≠ .start now)
    (hconfigured : Configured serverObjP orders context')
    (hquiet : QuietServers context.serverList context'.serverList)
    (hbefore : reply.before = context.serverList.map fun server => server.status)
    (hafter : reply.after = context'.serverList.map fun server => server.status)
    (hpassed : passedServers (past ++ [(call, reply)]) = passedServers past) :
    StartsInTurn orders past (call, reply) ∧
      InTurn serverObjP orders (past ++ [(call, reply)]) context' := by
  have hback := fun (k : Nat) (order : UInt64) (_ : OrderedAt orders k order) =>
    quietServers_status hquiet k
  apply inTurn_unstarted h hcall hconfigured
  · rw [hpassed]
    apply h.turns.quiet
    · intro k order horder
      constructor
      · intro hafter
        obtain ⟨before, hbefore, hdereg, -⟩ := hback k order horder _ hafter
        rw [hbefore, hdereg.mp rfl]
      · intro hbefore
        have hlt : k < context'.serverList.length := by
          rw [hquiet.1, ← List.length_map (fun server => server.status)]
          exact (List.getElem?_eq_some_iff.mp hbefore).1
        obtain ⟨before, hbefore', hdereg, -⟩ := hback k order horder _ (by
          rw [map_status_getElem?, List.getElem?_eq_getElem hlt, Option.map_some])
        rw [hbefore] at hbefore'
        rw [map_status_getElem?, List.getElem?_eq_getElem hlt, Option.map_some,
          hdereg.mpr (Option.some.inj hbefore').symm]
    · rintro k order horder (hafter | hafter)
      · obtain ⟨before, hbefore, -, hway, -⟩ := hback k order horder _ hafter
        rw [hbefore]
        exact (hway (.inl rfl)).imp (congrArg some) (congrArg some)
      · obtain ⟨before, hbefore, -, hway, -⟩ := hback k order horder _ hafter
        rw [hbefore]
        exact (hway (.inr rfl)).imp (congrArg some) (congrArg some)
  · intro k server' hserver' hordered
    obtain ⟨server, hserver, hchange, hinst⟩ := hquiet.status hserver'
    rw [hpassed]
    rw [serverOrder_congr hinst] at hordered
    exact (h.counted k server hserver hordered).quiet hchange
  · rintro k order horder ⟨hwaited, hhold⟩
    rw [hafter] at hhold
    rw [hbefore] at hwaited
    obtain ⟨before, hwas, -, -, hheld⟩ := hback k order horder _ hhold
    rw [hwas, hheld rfl] at hwaited
    rcases hwaited with hwaited | hwaited <;> nomatch hwaited

/-! ### Starts -/

theorem startedList_ordered
    (hanswers : ∀ server ∈ servers, AnswersStart serverObjP server.servObjInstID) (now : Int)
    (restartFailed : Bool) (hk : servers[k]? = some server)
    (hordered : (serverOrder serverObjP server).isSome) :
    ∃ server', (startedList serverObjP now restartFailed servers)[k]? = some server' ∧
      if startable restartFailed server then
        server'.attempt = 0 ∧ server'.sequence = 0 ∧
          server'.status =
            if firstStarted serverObjP restartFailed servers = some k then .regHoldOff
            else server.status
      else server' = server := by
  refine ⟨_, by rw [startedList_getElem?, hk]; rfl, ?_⟩
  have hserver := hanswers server (List.mem_of_getElem? hk)
  by_cases hstartable : startable restartFailed server = true
  · rw [if_pos hstartable]
    refine ⟨?_, ?_, startServer_status hserver hordered hstartable now _ k⟩
    · obtain ⟨registration, hstarted⟩ := startedServer_answers hserver now
      rw [startServer, if_pos hstartable]
      split
      · rfl
      · rw [hstarted]
    · obtain ⟨registration, hstarted⟩ := startedServer_answers hserver now
      rw [startServer, if_pos hstartable]
      split
      · rfl
      · rw [hstarted]
  · rw [if_neg hstartable]
    exact startServer_kept hstartable

theorem startedList_chosen
    (hanswers : ∀ server ∈ servers, AnswersStart serverObjP server.servObjInstID) (now : Int)
    (restartFailed : Bool) (hk : servers[k]? = some server)
    (hordered : (serverOrder serverObjP server).isSome) :
    ((startedList serverObjP now restartFailed servers).map fun server => server.status)[k]? =
      some (if startable restartFailed server ∧
          firstStarted serverObjP restartFailed servers = some k then .regHoldOff
        else server.status) := by
  obtain ⟨server', hserver', hstart⟩ := startedList_ordered hanswers now restartFailed hk hordered
  rw [map_status_getElem?, hserver', Option.map_some]
  by_cases hstartable : startable restartFailed server = true
  · rw [if_pos hstartable] at hstart
    rw [hstart.2.2]
    simp only [hstartable, true_and]
  · rw [if_neg hstartable] at hstart
    rw [if_neg (fun h => hstartable h.1), hstart]

theorem startable_true :
    startable true server = true ↔
      server.status = .deregistered ∨ server.status = .regFailed := by
  simp [startable]

/-- The client that is ready begins to register; `reply` tells of it. -/
structure Begins (serverObjP : ServerReader) (orders : List (Option UInt64)) (now : Int)
    (context : RegistrationContext) (reply : RegistrationReply) : Prop where
  configured : Configured serverObjP orders context
  ready : RoundReady serverObjP context
  before : reply.before = context.serverList.map fun server => server.status
  after : reply.after =
    (registrationStart now true context).serverList.map fun server => server.status

section Begins

variable {serverObjP : ServerReader} {now : Int} {context : RegistrationContext}
  {reply : RegistrationReply} {past : List (RegistrationCall × RegistrationReply)}

theorem Begins.passed_iff (h : Begins serverObjP orders now context reply) (k : Nat) :
    k ∈ passedServers (past ++ [(.start now, reply)]) ↔
      ∃ server, context.serverList[k]? = some server ∧ isRegistered server.status = true := by
  rw [passedServers_append, passedAfter]
  simp only [h.before, List.mem_filter, List.mem_range, List.length_map, List.getElem?_map]
  constructor
  · rintro ⟨hlt, hany⟩
    rw [List.getElem?_eq_getElem hlt] at hany ⊢
    exact ⟨_, rfl, hany⟩
  · rintro ⟨server, hserver, hregistered⟩
    refine ⟨(List.getElem?_eq_some_iff.mp hserver).1, ?_⟩
    rw [hserver]
    exact hregistered

variable {k : Nat} {server : RegistrationServer} {order : UInt64}

theorem Begins.statusBefore (h : Begins serverObjP orders now context reply)
    (hserver : context.serverList[k]? = some server) : reply.before[k]? = some server.status := by
  rw [h.before, map_status_getElem?, hserver, Option.map_some]

theorem Begins.statusAfter (h : Begins serverObjP orders now context reply)
    (hserver : context.serverList[k]? = some server)
    (hordered : (serverOrder serverObjP server).isSome) :
    reply.after[k]? =
      some (if startable true server ∧
          firstStarted serverObjP true context.serverList = some k then .regHoldOff
        else server.status) := by
  rw [h.after, registrationStart_eq h.configured.obj h.configured.answers]
  exact startedList_chosen h.configured.answers now true hserver hordered

theorem Begins.passedOrStartable (h : Begins serverObjP orders now context reply)
    (hserver : context.serverList[k]? = some server)
    (horder : serverOrder serverObjP server = some order) :
    k ∈ passedServers (past ++ [(.start now, reply)]) ∨ startable true server = true :=
  (h.ready.1 k server order hserver horder).imp_left
    fun hregistered => h.passed_iff k |>.mpr ⟨server, hserver, hregistered⟩

theorem Begins.notOnItsWay (h : Begins serverObjP orders now context reply)
    (hserver : context.serverList[k]? = some server)
    (horder : serverOrder serverObjP server = some order) :
    server.status ≠ .regHoldOff ∧ server.status ≠ .regPending := by
  rcases h.ready.1 k server order hserver horder with hregistered | hstartable
  · constructor
    · intro hstatus
      rw [hstatus] at hregistered
      nomatch hregistered
    · intro hstatus
      rw [hstatus] at hregistered
      nomatch hregistered
  · rcases startable_true.mp hstartable with hstatus | hstatus
    · rw [hstatus]
      exact ⟨nofun, nofun⟩
    · rw [hstatus]
      exact ⟨nofun, nofun⟩

theorem Begins.chosen (h : Begins serverObjP orders now context reply)
    (horder : OrderedAt orders k order) (hhold : reply.after[k]? = some .regHoldOff) :
    firstStarted serverObjP true context.serverList = some k := by
  obtain ⟨server, hserver, horder⟩ := (orderedAt_iff h.configured).mp horder
  rw [h.statusAfter hserver (by rw [horder]; rfl)] at hhold
  refine Decidable.byContradiction fun hne => ?_
  rw [if_neg fun hboth => hne hboth.2] at hhold
  exact (h.notOnItsWay hserver horder).1 (Option.some.inj hhold)

theorem Begins.startsInTurn (h : Begins serverObjP orders now context reply) :
    StartsInTurn orders past (.start now, reply) := by
  intro k order horder hat
  have hk := h.chosen horder hat.2
  refine ⟨?_, fun k' order' horder' hat' => ?_, fun _ _ _ hreply => nomatch hreply⟩
  · intro j earlier hj hlt
    obtain ⟨server, hserver, hearlier⟩ := (orderedAt_iff h.configured).mp hj
    refine (h.passedOrStartable hserver hearlier).resolve_right fun hstartable => ?_
    have hchosen := firstStarted_isChosen serverObjP true context.serverList
    rw [hk] at hchosen
    obtain ⟨least, ⟨target, htarget, -, hleast⟩, hall⟩ := hchosen
    obtain ⟨target', htarget', hsame⟩ := (orderedAt_iff h.configured).mp horder
    rw [htarget] at htarget'
    obtain rfl := Option.some.inj htarget'
    obtain rfl := Option.some.inj (hleast.symm.trans hsame)
    exact UInt64.not_lt.mpr (hall j earlier ⟨server, hserver, hstartable, hearlier⟩) hlt
  · exact Option.some.inj ((h.chosen horder' hat'.2).symm.trans hk)

theorem Begins.noFront (h : Begins serverObjP orders now context reply) (k : Nat) :
    ¬ Front orders (passedServers (past ++ [(.start now, reply)])) reply.before k := by
  rintro ⟨⟨order, horder⟩, -, hway⟩
  obtain ⟨server, hserver, horder⟩ := (orderedAt_iff h.configured).mp horder
  obtain ⟨hnotHeld, hnotPending⟩ := h.notOnItsWay hserver horder
  rw [h.statusBefore hserver] at hway
  rcases hway with hway | hway
  · exact hnotHeld (Option.some.inj hway)
  · exact hnotPending (Option.some.inj hway)

theorem Begins.begun (h : Begins serverObjP orders now context reply)
    (hpassed : k ∈ passedServers (past ++ [(.start now, reply)])) :
    reply.before[k]? ≠ some .deregistered := by
  obtain ⟨server, hserver, hregistered⟩ := (h.passed_iff k).mp hpassed
  rw [h.statusBefore hserver]
  intro hstatus
  rw [Option.some.inj hstatus] at hregistered
  nomatch hregistered

theorem Begins.turns (h : Begins serverObjP orders now context reply) :
    Turns orders (passedServers (past ++ [(.start now, reply)])) reply.after := by
  have hchosen := firstStarted_isChosen serverObjP true context.serverList
  have hothers : ∀ k order, OrderedAt orders k order →
      firstStarted serverObjP true context.serverList ≠ some k → reply.after[k]? = reply.before[k]? := by
    intro k order horder hne
    obtain ⟨server, hserver, horder⟩ := (orderedAt_iff h.configured).mp horder
    rw [h.statusAfter hserver (by rw [horder]; rfl), h.statusBefore hserver,
      if_neg fun hboth => hne hboth.2]
  cases hfirst : firstStarted serverObjP true context.serverList with
  | none =>
    rw [hfirst] at hothers
    have hbefore : Turns orders (passedServers (past ++ [(.start now, reply)])) reply.before :=
      ⟨fun k _ _ hmem => h.begun hmem,
        fun i _ hi => absurd hi (h.noFront i),
        fun i hi => absurd hi (h.noFront i)⟩
    apply hbefore.quiet
    · intro k order horder
      rw [hothers k order horder nofun]
    · intro k order horder
      rw [hothers k order horder nofun]
      exact fun hway => hway
  | some chosen =>
    rw [hfirst] at hothers hchosen
    obtain ⟨least, ⟨target, htarget, hstartable, hleast⟩, -⟩ := hchosen
    have hstarted : reply.after[chosen]? = some .regHoldOff := by
      rw [h.statusAfter htarget (by rw [hleast]; rfl), if_pos ⟨hstartable, hfirst⟩]
    refine Turns.start ?_ h.noFront ?_ hstarted ?_
    · exact fun k _ _ hmem _ => h.begun hmem
    · intro j earlier k later hj hk hlt hne hstatus
      obtain ⟨server, hserver, hearlier⟩ := (orderedAt_iff h.configured).mp hj
      refine (h.passedOrStartable hserver hearlier).resolve_right fun hstartable => ?_
      rcases startable_true.mp hstartable with hdereg | hfailed
      · rw [h.statusBefore hserver, hdereg] at hstatus
        exact hstatus rfl
      · rw [h.before, waits_iff h.configured] at hk
        have hother : firstStarted serverObjP true context.serverList ≠ some j := by
          rw [hfirst]
          exact fun hsame => hne (Option.some.inj hsame).symm
        exact h.ready.2 j server earlier hserver hearlier hfailed hother k later hk hlt
    · intro k order horder hne
      exact hothers k order horder fun hsame => hne (Option.some.inj hsame).symm

theorem Begins.counted (h : Begins serverObjP orders now context reply) (k : Nat)
    (server' : RegistrationServer)
    (hserver' : (registrationStart now true context).serverList[k]? = some server')
    (hordered' : (serverOrder serverObjP server').isSome) :
    Counted (passedLow (passedServers (past ++ [(.start now, reply)])) k) server' := by
  rw [registrationStart_eq h.configured.obj h.configured.answers] at hserver'
  have hserver := hserver'
  rw [startedList_getElem?, Option.map_eq_some_iff] at hserver
  obtain ⟨server, hserver, rfl⟩ := hserver
  have hordered : (serverOrder serverObjP server).isSome := by
    rwa [serverOrder_congr (startServer_inst _ _ _ _ _ _)] at hordered'
  obtain ⟨order, horder⟩ := Option.isSome_iff_exists.mp hordered
  obtain ⟨server', hsame, hstart⟩ :=
    startedList_ordered h.configured.answers now true hserver hordered
  obtain rfl := Option.some.inj (hserver'.symm.trans hsame)
  obtain ⟨hnotHeld, hnotPending⟩ := h.notOnItsWay hserver horder
  by_cases hstartable : startable true server = true
  · rw [if_pos hstartable] at hstart
    obtain ⟨hattempt, hsequence, hstatus⟩ := hstart
    by_cases hk : firstStarted serverObjP true context.serverList = some k
    · rw [if_pos hk] at hstatus
      have hlow : passedLow (passedServers (past ++ [(.start now, reply)])) k = 0 := by
        apply if_neg
        intro hmem
        obtain ⟨other, hother, hregistered⟩ := (h.passed_iff k).mp hmem
        obtain rfl := Option.some.inj (hserver.symm.trans hother)
        rcases startable_true.mp hstartable with hstatus | hstatus
        · rw [hstatus] at hregistered
          nomatch hregistered
        · rw [hstatus] at hregistered
          nomatch hregistered
      rw [hlow]
      exact .started hattempt hsequence hstatus
    · rw [if_neg hk] at hstatus
      apply Counted.off
      · rwa [hstatus]
      · rwa [hstatus]
  · rw [if_neg hstartable] at hstart
    rw [hstart]
    exact .off hnotPending hnotHeld

theorem Begins.inTurn (h : Begins serverObjP orders now context reply) :
    InTurn serverObjP orders (past ++ [(.start now, reply)]) (registrationStart now true context) := by
  refine ⟨h.configured.next (.start now), ?_, h.counted, ?_⟩
  · rw [← h.after]
    exact h.turns
  · rintro index ⟨event, hmem, -⟩
    rw [currentRound, List.foldl_append] at hmem
    nomatch hmem

end Begins

/-! ### Replies -/

/-- A reply for the server at `index`, which waits for it, and the servers behind it. -/
structure Replied (serverObjP : ServerReader) (orders : List (Option UInt64))
    (past : List (RegistrationCall × RegistrationReply)) (now : Int) (index : Nat)
    (packet : Option ReplyPacket) (server : RegistrationServer)
    (context context' : RegistrationContext) (reply : RegistrationReply) : Prop where
  inTurn : InTurn serverObjP orders past context
  configured : Configured serverObjP orders context'
  waits : context.serverList[index]? = some server
  pending : server.status = .regPending
  before : reply.before = context.serverList.map fun server => server.status
  after : reply.after = context'.serverList.map fun server => server.status

section Replied

variable {serverObjP : ServerReader} {past : List (RegistrationCall × RegistrationReply)}
  {now : Int} {index : Nat} {packet : Option ReplyPacket} {server : RegistrationServer}
  {context context' : RegistrationContext} {reply : RegistrationReply}

theorem Replied.beforeIndex
    (h : Replied serverObjP orders past now index packet server context context' reply) :
    reply.before[index]? = some .regPending := by
  rw [h.before, map_status_getElem?, h.waits, Option.map_some, h.pending]

theorem Replied.passed_eq
    (h : Replied serverObjP orders past now index packet server context context' reply) :
    passedServers (past ++ [(.reply now index packet, reply)]) =
      if reply.after[index]? = some .registered ∨ reply.openFailure = true then
        index :: passedServers past
      else passedServers past := by
  rw [passedServers_append, passedAfter]
  simp only [h.beforeIndex, true_and]

variable {k : Nat} {server' server'' : RegistrationServer}

theorem Replied.ordered
    (h : Replied serverObjP orders past now index packet server context context' reply)
    {target' : RegistrationServer} (htarget : context'.serverList[k]? = some target')
    (hordered : (serverOrder serverObjP target').isSome) :
    ∃ target, context.serverList[k]? = some target ∧ (serverOrder serverObjP target).isSome := by
  obtain ⟨order, horder⟩ := Option.isSome_iff_exists.mp hordered
  obtain ⟨target, hserver, horder⟩ := (orderedAt_iff h.inTurn.configured).mp
    ((orderedAt_iff h.configured).mpr ⟨target', htarget, horder⟩)
  exact ⟨target, hserver, by rw [horder]; rfl⟩

def OthersKept (serverObjP : ServerReader) (index : Nat)
    (servers servers' : List RegistrationServer) : Prop :=
  ∀ k, k ≠ index → ∀ target, servers[k]? = some target → (serverOrder serverObjP target).isSome →
    ∃ target', servers'[k]? = some target' ∧ target'.status = target.status ∧
      ∀ low, Counted low target → Counted low target'

theorem Replied.statusOthers
    (h : Replied serverObjP orders past now index packet server context context' reply)
    (hothers : OthersKept serverObjP index context.serverList context'.serverList) {order : UInt64}
    (horder : OrderedAt orders k order) (hk : k ≠ index) : reply.after[k]? = reply.before[k]? := by
  obtain ⟨target, htarget, horder⟩ := (orderedAt_iff h.inTurn.configured).mp horder
  obtain ⟨target', htarget', hstatus, -⟩ := hothers k hk target htarget (by rw [horder]; rfl)
  rw [h.after, h.before, map_status_getElem?, map_status_getElem?, htarget, htarget',
    Option.map_some, Option.map_some, hstatus]

theorem passedLow_cons (hk : k ≠ index) : passedLow (index :: passed) k = passedLow passed k := by
  simp [passedLow, hk]

theorem Replied.keepsOthers
    (h : Replied serverObjP orders past now index packet server context context' reply)
    (hserver' : context'.serverList[index]? = some server')
    (hstatus : server'.status ≠ .deregistered)
    (hothers : OthersKept serverObjP index context.serverList context'.serverList)
    (hcounted : (serverOrder serverObjP server).isSome → Counted (passedLow (passedServers (past ++ [(.reply now index packet, reply)])) index) server') :
    StartsInTurn orders past (.reply now index packet, reply) ∧
      InTurn serverObjP orders (past ++ [(.reply now index packet, reply)]) context' := by
  have hafter : reply.after[index]? = some server'.status := by
    rw [h.after, map_status_getElem?, hserver', Option.map_some]
  have hnot : reply.before[index]? ≠ some .deregistered := by
    rw [h.beforeIndex]
    nofun
  refine inTurn_unstarted h.inTurn ?_ h.configured ?_ ?_ ?_
  · exact fun _ hstart => nomatch hstart
  · rw [← h.after]
    have hbefore : Turns orders (passedServers (past ++ [(.reply now index packet, reply)]))
        reply.before := by
      have hturns := h.inTurn.turns
      rw [← h.before] at hturns
      rw [h.passed_eq]
      split
      · exact hturns.pass hnot
      · exact hturns
    apply hbefore.quiet
    · intro k order horder
      by_cases hk : k = index
      · rw [hk, hafter]
        exact ⟨fun hdereg => absurd (Option.some.inj hdereg) hstatus, fun hdereg => absurd hdereg hnot⟩
      · rw [h.statusOthers hothers horder hk]
    · intro k order horder
      by_cases hk : k = index
      · rw [hk, h.beforeIndex]
        exact fun _ => .inr rfl
      · rw [h.statusOthers hothers horder hk]
        exact fun hway => hway
  · intro k target' htarget' hordered'
    obtain ⟨target, htarget, hordered⟩ := h.ordered htarget' hordered'
    by_cases hk : k = index
    · subst hk
      obtain rfl := Option.some.inj (hserver'.symm.trans htarget')
      obtain rfl := Option.some.inj (h.waits.symm.trans htarget)
      exact hcounted hordered
    · obtain ⟨other, hother, -, hlow⟩ := hothers k hk target htarget hordered
      obtain rfl := Option.some.inj (htarget'.symm.trans hother)
      have hsame : passedLow (passedServers (past ++ [(.reply now index packet, reply)])) k =
          passedLow (passedServers past) k := by
        rw [h.passed_eq]
        split
        · exact passedLow_cons hk
        · rfl
      rw [hsame]
      exact hlow _ (h.inTurn.counted k target htarget hordered)
  · rintro k order horder ⟨hbefore, hhold⟩
    by_cases hk : k = index
    · rw [hk, h.beforeIndex] at hbefore
      rcases hbefore with hbefore | hbefore <;> nomatch hbefore
    · rw [h.statusOthers hothers horder hk] at hhold
      rw [hhold] at hbefore
      rcases hbefore with hbefore | hbefore <;> nomatch hbefore

theorem othersKept_set (hserver : context.serverList[index]? = some server)
    (server' : RegistrationServer) :
    OthersKept serverObjP index context.serverList (context.serverList.set index server') := by
  intro k hk target htarget _
  refine ⟨target, ?_, rfl, fun _ hlow => hlow⟩
  rwa [set_getElem? hserver, if_neg (Ne.symm hk)]

theorem othersKept_start (h : Configured serverObjP orders context)
    (hserver : context.serverList[index]? = some server)
    (hinst : server'.servObjInstID = server.servObjInstID)
    (hnone : firstStarted serverObjP false (context.serverList.set index server') = none) :
    OthersKept serverObjP index context.serverList
      ((startedList serverObjP now false (context.serverList.set index server')).set index
        server'') := by
  intro k hk target htarget hordered
  have hset : (context.serverList.set index server')[k]? = some target := by
    rwa [set_getElem? hserver, if_neg (Ne.symm hk)]
  obtain ⟨target', htarget', hstart⟩ := startedList_ordered
    (answers_of_inst (set_inst hserver hinst) h.answers) now false hset hordered
  refine ⟨target', by rwa [List.getElem?_set, if_neg (Ne.symm hk)], ?_⟩
  by_cases hstartable : startable false target = true
  · rw [if_pos hstartable, hnone] at hstart
    have hdereg := startable_false.mp hstartable
    have hstatus : target'.status = target.status := hstart.2.2
    refine ⟨hstatus, fun low _ => ?_⟩
    apply Counted.off
    · rw [hstatus, hdereg]
      nofun
    · rw [hstatus, hdereg]
      nofun
  · rw [if_neg hstartable] at hstart
    rw [hstart]
    exact ⟨rfl, fun _ hlow => hlow⟩

structure NextStarted (serverObjP : ServerReader) (now : Int) (index chosen : Nat)
    (server' server'' : RegistrationServer) (context context' : RegistrationContext) : Prop where
  inst : ∀ server, context.serverList[index]? = some server →
    server'.servObjInstID = server.servObjInstID
  status : server'.status ≠ .deregistered
  servers : context'.serverList =
    (startedList serverObjP now false (context.serverList.set index server')).set index server''
  first : firstStarted serverObjP false (context.serverList.set index server') = some chosen

theorem Replied.notWaiting
    (h : Replied serverObjP orders past now index packet server context context' reply) :
    server.status ≠ .deregistered := by
  rw [h.pending]
  nofun

theorem Replied.chosen
    (h : Replied serverObjP orders past now index packet server context context' reply)
    {chosen : Nat}
    (hnext : NextStarted serverObjP now index chosen server' server'' context context') :
    chosen ≠ index ∧ ∃ least, StartableAt serverObjP false context.serverList chosen least ∧
      ∀ k order, StartableAt serverObjP false context.serverList k order → least ≤ order := by
  have hchosen := firstStarted_isChosen serverObjP false (context.serverList.set index server')
  rw [hnext.first] at hchosen
  obtain ⟨least, hat, hall⟩ := hchosen
  have hat' := (startableAt_set h.waits h.notWaiting hnext.status).mp hat
  refine ⟨?_, least, hat', fun k order hk =>
    hall k order ((startableAt_set h.waits h.notWaiting hnext.status).mpr hk)⟩
  rintro rfl
  obtain ⟨target, htarget, hstartable, -⟩ := hat'
  obtain rfl := Option.some.inj (h.waits.symm.trans htarget)
  exact h.notWaiting (startable_false.mp hstartable)

theorem Replied.startedOther
    (h : Replied serverObjP orders past now index packet server context context' reply)
    {chosen : Nat}
    (hnext : NextStarted serverObjP now index chosen server' server'' context context')
    (hk : k ≠ index) {target : RegistrationServer} (htarget : context.serverList[k]? = some target)
    (hordered : (serverOrder serverObjP target).isSome) :
    ∃ target', context'.serverList[k]? = some target' ∧
      if startable false target then
        target'.attempt = 0 ∧ target'.sequence = 0 ∧
          target'.status = if chosen = k then .regHoldOff else target.status
      else target' = target := by
  have hset : (context.serverList.set index server')[k]? = some target := by
    rwa [set_getElem? h.waits, if_neg (Ne.symm hk)]
  obtain ⟨target', htarget', hstart⟩ := startedList_ordered
    (answers_of_inst (set_inst h.waits (hnext.inst server h.waits)) h.inTurn.configured.answers) now
    false hset hordered
  refine ⟨target', ?_, ?_⟩
  · rwa [hnext.servers, List.getElem?_set, if_neg (Ne.symm hk)]
  · simpa only [hnext.first, Option.some.injEq] using hstart

theorem Replied.startedStatus
    (h : Replied serverObjP orders past now index packet server context context' reply)
    {chosen : Nat}
    (hnext : NextStarted serverObjP now index chosen server' server'' context context')
    {order : UInt64} (hk : k ≠ index) (horder : OrderedAt orders k order) :
    reply.after[k]? = if chosen = k then some .regHoldOff else reply.before[k]? := by
  obtain ⟨target, htarget, horder⟩ := (orderedAt_iff h.inTurn.configured).mp horder
  obtain ⟨target', htarget', hstart⟩ := h.startedOther hnext hk htarget (by rw [horder]; rfl)
  rw [h.after, h.before, map_status_getElem?, map_status_getElem?, htarget, htarget',
    Option.map_some, Option.map_some]
  by_cases hstartable : startable false target = true
  · rw [if_pos hstartable] at hstart
    rw [hstart.2.2]
    split <;> rfl
  · rw [if_neg hstartable] at hstart
    have hother : chosen ≠ k := by
      rintro rfl
      obtain ⟨-, least, ⟨other, hother, hyes, -⟩, -⟩ := h.chosen hnext
      obtain rfl := Option.some.inj (htarget.symm.trans hother)
      exact hstartable hyes
    rw [if_neg hother, hstart]

theorem Replied.nextTurns
    (h : Replied serverObjP orders past now index packet server context context' reply)
    {chosen : Nat}
    (hnext : NextStarted serverObjP now index chosen server' server'' context context')
    (hserver'' : context'.serverList[index]? = some server'')
    (hstatus : server''.status ≠ .deregistered)
    (hfront : Front orders (passedServers past) reply.before index) :
    Turns orders (index :: passedServers past) reply.after := by
  have hturns := h.inTurn.turns
  rw [← h.before] at hturns
  have hnot : reply.before[index]? ≠ some .deregistered := by
    rw [h.beforeIndex]
    nofun
  have hafter : reply.after[index]? = some server''.status := by
    rw [h.after, map_status_getElem?, hserver'', Option.map_some]
  obtain ⟨hne, least, ⟨target, htarget, -⟩, -⟩ := h.chosen hnext
  obtain ⟨hnone, hbehind⟩ := hturns.passFront hfront
  -- the statuses with the next server started and the reply not yet noted
  have hmid : (reply.before.set chosen .regHoldOff)[chosen]? = some .regHoldOff := by
    have hlt : chosen < reply.before.length := by
      rw [h.before, List.length_map]
      exact (List.getElem?_eq_some_iff.mp htarget).1
    rw [List.getElem?_set, if_pos rfl, if_pos hlt]
  have hmidOthers : ∀ k, k ≠ chosen →
      (reply.before.set chosen .regHoldOff)[k]? = reply.before[k]? := by
    intro k hk
    rw [List.getElem?_set, if_neg (Ne.symm hk)]
  have hstarted : Turns orders (index :: passedServers past) (reply.before.set chosen .regHoldOff) := by
    refine Turns.start ?_ hnone ?_ hmid ?_
    · exact fun k order horder hmem _ => (hturns.pass hnot).begun k order horder hmem
    · exact fun j earlier k later hj hk hlt _ hdereg => hbehind j earlier k later hj hk hlt hdereg
    · exact fun k order _ hk => hmidOthers k hk
  have hkept : ∀ k order, OrderedAt orders k order → k ≠ index →
      reply.after[k]? = (reply.before.set chosen .regHoldOff)[k]? := by
    intro k order horder hk
    rw [h.startedStatus hnext hk horder]
    by_cases hchosen : chosen = k
    · rw [if_pos hchosen, ← hchosen, hmid]
    · rw [if_neg hchosen, hmidOthers k (Ne.symm hchosen)]
  apply hstarted.quiet
  · intro k order horder
    by_cases hk : k = index
    · rw [hk, hafter, hmidOthers index (Ne.symm hne)]
      exact ⟨fun hdereg => absurd (Option.some.inj hdereg) hstatus, fun hdereg => absurd hdereg hnot⟩
    · rw [hkept k order horder hk]
  · intro k order horder
    by_cases hk : k = index
    · rw [hk, hmidOthers index (Ne.symm hne), h.beforeIndex]
      exact fun _ => .inr rfl
    · rw [hkept k order horder hk]
      exact fun hway => hway

theorem Replied.nextCounted
    (h : Replied serverObjP orders past now index packet server context context' reply)
    {chosen : Nat}
    (hnext : NextStarted serverObjP now index chosen server' server'' context context')
    (hserver'' : context'.serverList[index]? = some server'') (hcounted : Counted 1 server'')
    (k : Nat) (target' : RegistrationServer) (htarget' : context'.serverList[k]? = some target')
    (hordered' : (serverOrder serverObjP target').isSome) :
    Counted (passedLow (index :: passedServers past) k) target' := by
  by_cases hk : k = index
  · subst hk
    obtain rfl := Option.some.inj (hserver''.symm.trans htarget')
    rwa [passedLow, if_pos List.mem_cons_self]
  · obtain ⟨target, htarget, hordered⟩ := h.ordered htarget' hordered'
    obtain ⟨order, horder⟩ := Option.isSome_iff_exists.mp hordered
    obtain ⟨other, hother, hstart⟩ := h.startedOther hnext hk htarget hordered
    obtain rfl := Option.some.inj (htarget'.symm.trans hother)
    rw [passedLow_cons hk]
    by_cases hstartable : startable false target = true
    · rw [if_pos hstartable] at hstart
      obtain ⟨hattempt, hsequence, hstatus⟩ := hstart
      have hdereg := startable_false.mp hstartable
      by_cases hchosen : chosen = k
      · rw [if_pos hchosen] at hstatus
        have hlow : passedLow (passedServers past) k = 0 := by
          apply if_neg
          intro hmem
          apply h.inTurn.turns.begun k order
            ((orderedAt_iff h.inTurn.configured).mpr ⟨target, htarget, horder⟩) hmem
          rw [map_status_getElem?, htarget, Option.map_some, hdereg]
        rw [hlow]
        exact .started hattempt hsequence hstatus
      · rw [if_neg hchosen, hdereg] at hstatus
        apply Counted.off
        · rw [hstatus]
          nofun
        · rw [hstatus]
          nofun
    · rw [if_neg hstartable] at hstart
      rw [hstart]
      exact h.inTurn.counted k target htarget hordered

/-- The server on its way passes, and the next one that is started has its turn. -/
theorem Replied.nextInTurn
    (h : Replied serverObjP orders past now index packet server context context' reply)
    {chosen : Nat}
    (hnext : NextStarted serverObjP now index chosen server' server'' context context')
    (hserver'' : context'.serverList[index]? = some server'')
    (hstatus : server''.status ≠ .deregistered) (hordered : (serverOrder serverObjP server).isSome)
    (hfirst : index ∉ passedServers past)
    (hpasses : reply.after[index]? = some .registered ∨ reply.openFailure = true)
    (hcounted : Counted 1 server'') :
    StartsInTurn orders past (.reply now index packet, reply) ∧
      InTurn serverObjP orders (past ++ [(.reply now index packet, reply)]) context' := by
  have hpassed := h.passed_eq
  rw [if_pos hpasses] at hpassed
  obtain ⟨hne, least, hleast, hall⟩ := h.chosen hnext
  have hwaits : Waits orders reply.before chosen least := by
    rw [h.before, waits_iff h.inTurn.configured]
    exact hleast
  have hturns := h.inTurn.turns
  rw [← h.before] at hturns
  have hfront : Front orders (passedServers past) reply.before index := by
    obtain ⟨order, horder⟩ := Option.isSome_iff_exists.mp hordered
    exact ⟨⟨order, (orderedAt_iff h.inTurn.configured).mpr ⟨server, h.waits, horder⟩⟩, hfirst,
      .inr h.beforeIndex⟩
  obtain ⟨hnone, hbehind⟩ := hturns.passFront hfront
  have honly : ∀ k order, OrderedAt orders k order → startedAt reply k → k = chosen := by
    rintro k order horder ⟨hbefore, hhold⟩
    have hk : k ≠ index := by
      rintro rfl
      rw [h.beforeIndex] at hbefore
      rcases hbefore with hbefore | hbefore <;> cases hbefore
    rw [h.startedStatus hnext hk horder] at hhold
    refine Decidable.byContradiction fun hother => ?_
    rw [if_neg (Ne.symm hother)] at hhold
    rw [hhold] at hbefore
    rcases hbefore with hbefore | hbefore <;> cases hbefore
  constructor
  · intro k order horder hstarted
    obtain rfl := honly k order horder hstarted
    obtain rfl : least = order := by
      have hsame := hwaits.1
      rw [OrderedAt] at hsame horder
      exact Option.some.inj (Option.some.inj (hsame.symm.trans horder))
    refine ⟨?_, fun k' order' horder' hstarted' => honly k' order' horder' hstarted', ?_⟩
    · intro j earlier hj hlt
      rw [hpassed]
      apply hbehind j earlier k least hj hwaits hlt
      intro hdereg
      rw [h.before] at hdereg
      exact UInt64.not_lt.mpr (hall j earlier
        ((waits_iff h.inTurn.configured).mp ⟨hj, hdereg⟩)) hlt
    · rintro _ _ _ ⟨⟩ htriggered
      exact hfirst (h.inTurn.triggered index htriggered)
  · refine ⟨h.configured, ?_, ?_, ?_⟩
    · rw [hpassed, ← h.after]
      exact h.nextTurns hnext hserver'' hstatus hfront
    · rw [hpassed]
      exact h.nextCounted hnext hserver'' hcounted
    · intro other htriggered
      have hround : currentRound (past ++ [(.reply now index packet, reply)]) =
          currentRound past ++ [(.reply now index packet, reply)] :=
        currentRound_append past fun _ hstart => by cases hstart
      rw [hround] at htriggered
      rw [hpassed]
      rcases triggered_append htriggered with hbefore | ⟨⟨now', packet', hreply⟩, -⟩
      · exact List.mem_cons_of_mem _ (h.inTurn.triggered other hbefore)
      · cases hreply
        exact List.mem_cons_self

theorem Replied.startsNext
    (h : Replied serverObjP orders past now index packet server context context' reply)
    (hinst : server'.servObjInstID = server.servObjInstID)
    (hstatus' : server'.status ≠ .deregistered) (hstatus : server''.status ≠ .deregistered)
    (hservers : context'.serverList = (startedList serverObjP now false (context.serverList.set index server')).set index server'')
    (hordered : (serverOrder serverObjP server).isSome) (hfirst : index ∉ passedServers past)
    (hpasses : reply.after[index]? = some .registered ∨ reply.openFailure = true)
    (hcounted : Counted 1 server'') :
    StartsInTurn orders past (.reply now index packet, reply) ∧
      InTurn serverObjP orders (past ++ [(.reply now index packet, reply)]) context' := by
  have hpassed := h.passed_eq
  rw [if_pos hpasses] at hpassed
  have hlt : index < (startedList serverObjP now false (context.serverList.set index server')).length := by
    rw [startedList, List.length_mapIdx, List.length_set]
    exact (List.getElem?_eq_some_iff.mp h.waits).1
  have hserver'' : context'.serverList[index]? = some server'' := by
    rw [hservers, List.getElem?_set, if_pos rfl, if_pos hlt]
  cases hchosen : firstStarted serverObjP false (context.serverList.set index server') with
  | none =>
    apply h.keepsOthers hserver'' hstatus
    · rw [hservers]
      exact othersKept_start h.inTurn.configured h.waits hinst hchosen
    · intro _
      rw [hpassed, passedLow, if_pos List.mem_cons_self]
      exact hcounted
  | some chosen =>
    have hnext : NextStarted serverObjP now index chosen server' server'' context context' :=
      ⟨fun other hother => Option.some.inj (h.waits.symm.trans hother) ▸ hinst, hstatus', hservers,
        hchosen⟩
    exact h.nextInTurn hnext hserver'' hstatus hordered hfirst hpasses hcounted

theorem Replied.setsServer
    (h : Replied serverObjP orders past now index packet server context context' reply)
    (hservers : context'.serverList = context.serverList.set index server')
    (hstatus : server'.status ≠ .deregistered)
    (hcounted : (serverOrder serverObjP server).isSome → Counted (passedLow (passedServers (past ++ [(.reply now index packet, reply)])) index) server') :
    StartsInTurn orders past (.reply now index packet, reply) ∧
      InTurn serverObjP orders (past ++ [(.reply now index packet, reply)]) context' := by
  refine h.keepsOthers ?_ hstatus ?_ hcounted
  · rw [hservers, set_getElem? h.waits, if_pos rfl]
  · rw [hservers]
    exact othersKept_set h.waits server'

theorem Replied.countedBefore
    (h : Replied serverObjP orders past now index packet server context context' reply)
    (hordered : (serverOrder serverObjP server).isSome) :
    Counted (passedLow (passedServers past) index) server :=
  h.inTurn.counted index server h.waits hordered

theorem passedLow_le (passed : List Nat) (k : Nat) : passedLow passed k ≤ 1 := by
  unfold passedLow
  split <;> decide

theorem Replied.firstSequence
    (h : Replied serverObjP orders past now index packet server context context' reply)
    (hordered : (serverOrder serverObjP server).isSome) (hsequence : server.sequence = 1) :
    index ∉ passedServers past := by
  intro hmem
  have hcounted := h.countedBefore hordered
  rw [passedLow, if_pos hmem] at hcounted
  have hlow := (hcounted.pending h.pending).1
  rw [hsequence] at hlow
  exact absurd hlow (by decide)

theorem Counted.retimed {low : Nat} (h : Counted low server) (registration : Int) :
    Counted low (retimed server registration) := ⟨h.pending, h.holdOff⟩

theorem failOrdered_ordered {target : RegistrationServer}
    (hanswers : AnswersStart serverObjP target.servObjInstID)
    (hordered : (serverOrder serverObjP target).isSome) :
    failOrdered serverObjP target =
      if target.status = .deregistered then { target with status := .regFailed } else target := by
  obtain ⟨order, horder⟩ := Option.isSome_iff_exists.mp hordered
  unfold failOrdered
  rw [prvGetRegistrationOrder_answers _ hanswers, horder]

theorem Replied.failsOthers
    (h : Replied serverObjP orders past now index packet server context context' reply)
    (hfailed : server'.status = .regFailed)
    (hservers : context'.serverList = (context.serverList.set index server').map (failOrdered serverObjP)) :
    StartsInTurn orders past (.reply now index packet, reply) ∧
      InTurn serverObjP orders (past ++ [(.reply now index packet, reply)]) context' := by
  have hnot : reply.before[index]? ≠ some .deregistered := by
    rw [h.beforeIndex]
    intro hsame
    cases hsame
  -- an ordered server behind the reply: the one that failed, one that fails with it, or the same
  have hback : ∀ {k : Nat} {target' : RegistrationServer}, context'.serverList[k]? = some target' →
      (serverOrder serverObjP target').isSome →
      target'.status = .regFailed ∨ k ≠ index ∧ context.serverList[k]? = some target' ∧
        target'.status ≠ .deregistered := by
    intro k target' htarget' hordered'
    rw [hservers, List.getElem?_map, set_getElem? h.waits, Option.map_eq_some_iff] at htarget'
    obtain ⟨target, htarget, rfl⟩ := htarget'
    rw [serverOrder_congr (failOrdered_inst serverObjP target)] at hordered'
    by_cases hk : index = k
    · rw [if_pos hk] at htarget
      obtain rfl := Option.some.inj htarget
      left
      rw [failOrdered, if_neg]
      · exact hfailed
      · rw [hfailed]
        intro hsame
        cases hsame
    · rw [if_neg hk] at htarget
      rw [failOrdered_ordered
        (h.inTurn.configured.answers target (List.mem_of_getElem? htarget)) hordered']
      by_cases hdereg : target.status = .deregistered
      · rw [if_pos hdereg]
        exact .inl rfl
      · rw [if_neg hdereg]
        exact .inr ⟨Ne.symm hk, htarget, hdereg⟩
  have hafter : ∀ {k : Nat} {order : UInt64}, OrderedAt orders k order →
      reply.after[k]? = some .regFailed ∨
        reply.after[k]? = reply.before[k]? ∧ reply.after[k]? ≠ some .deregistered := by
    intro k order horder
    obtain ⟨target', htarget', horder⟩ := (orderedAt_iff h.configured).mp horder
    rw [h.after, h.before, map_status_getElem?, map_status_getElem?, htarget', Option.map_some]
    rcases hback htarget' (by rw [horder]; rfl) with hstatus | ⟨-, htarget, hdereg⟩
    · rw [hstatus]
      exact .inl rfl
    · rw [htarget]
      exact .inr ⟨rfl, fun hsame => hdereg (Option.some.inj hsame)⟩
  refine inTurn_unstarted h.inTurn ?_ h.configured ?_ ?_ ?_
  · intro _ hstart
    cases hstart
  · rw [← h.after]
    have hbefore : Turns orders (passedServers (past ++ [(.reply now index packet, reply)]))
        reply.before := by
      have hturns := h.inTurn.turns
      rw [← h.before] at hturns
      rw [h.passed_eq]
      split
      · exact hturns.pass hnot
      · exact hturns
    apply hbefore.noneWaits
    · intro k order horder
      rcases hafter horder with hstatus | ⟨-, hdereg⟩
      · rw [hstatus]
        intro hsame
        cases hsame
      · exact hdereg
    · intro k order horder
      rcases hafter horder with hstatus | ⟨hsame, -⟩
      · rw [hstatus]
        rintro (hway | hway) <;> cases hway
      · rw [hsame]
        exact fun hway => hway
  · intro k target' htarget' hordered'
    rcases hback htarget' hordered' with hstatus | ⟨hk, htarget, -⟩
    · apply Counted.off
      · rw [hstatus]
        intro hsame
        cases hsame
      · rw [hstatus]
        intro hsame
        cases hsame
    · have hsame : passedLow (passedServers (past ++ [(.reply now index packet, reply)])) k =
          passedLow (passedServers past) k := by
        rw [h.passed_eq]
        split
        · exact passedLow_cons hk
        · rfl
      rw [hsame]
      exact h.inTurn.counted k target' htarget hordered'
  · rintro k order horder ⟨hbefore, hhold⟩
    rcases hafter horder with hstatus | ⟨hsame, -⟩
    · rw [hstatus] at hhold
      cases hhold
    · rw [← hsame, hhold] at hbefore
      rcases hbefore with hbefore | hbefore <;> cases hbefore

theorem Replied.sequenceFailed
    (h : Replied serverObjP orders past now index packet server context context' reply)
    {registration : Int} {blocking : Bool}
    (houtcome : SequenceOutcome serverObjP blocking
      (context.serverList.set index (retimed server registration)) index
      (retimed server registration) context'.serverList) :
    StartsInTurn orders past (.reply now index packet, reply) ∧
      InTurn serverObjP orders (past ++ [(.reply now index packet, reply)]) context' := by
  have hover : ∀ {server'}, SequenceOver (retimed server registration) server' →
      (serverOrder serverObjP server).isSome →
        Counted (passedLow (passedServers (past ++ [(.reply now index packet, reply)])) index)
          server' := fun hover hordered =>
    ((h.countedBefore hordered).retimed registration).sequenceOver h.pending hover (passedLow_le _ _)
  generalize hlist : context'.serverList = servers' at houtcome
  cases houtcome with
  | @ended server' hsequence =>
    have hset : context'.serverList = context.serverList.set index server' := by
      rw [hlist, List.set_set]
    apply h.setsServer hset
    · rcases hsequence.ended with hstatus | ⟨hstatus, -⟩
      · rw [hstatus]
        nofun
      · rw [hstatus]
        nofun
    · exact hover hsequence
  | @blocked server' hblocking inst failed =>
    apply h.failsOthers failed
    rw [hlist, List.set_set]

theorem Replied.inTurnAfter
    (h : Replied serverObjP orders past now index packet server context context' reply)
    {openFailure : Bool} (hopen : reply.openFailure = openFailure)
    (houtcome : ReplyOutcome serverObjP now context.serverList index server
      (registrationAccepted packet) openFailure context'.serverList)
    (hkept : TurnKept serverObjP context (.reply now index packet)) :
    StartsInTurn orders past (.reply now index packet, reply) ∧
      InTurn serverObjP orders (past ++ [(.reply now index packet, reply)]) context' := by
  generalize haccepted : registrationAccepted packet = created at houtcome
  generalize hlist : context'.serverList = servers' at houtcome
  -- the server does not pass where it is neither registered nor at the end of a sequence
  have hstays : ∀ {server'}, servers' = context.serverList.set index server' →
      server'.status ≠ .registered → openFailure = false →
        passedServers (past ++ [(.reply now index packet, reply)]) = passedServers past := by
    rintro server' hset hstatus rfl
    have hnot : reply.after[index]? ≠ some .registered := by
      rw [h.after, map_status_getElem?, hlist, hset, set_getElem? h.waits, if_pos rfl,
        Option.map_some]
      exact fun hsame => hstatus (Option.some.inj hsame)
    rw [h.passed_eq, if_neg]
    rw [hopen]
    rintro (hregistered | hfalse)
    · exact hnot hregistered
    · nomatch hfalse
  cases houtcome with
  | continued registration =>
    have hpending : (retimed server registration).status = .regPending := h.pending
    apply h.setsServer hlist
    · rw [hpending]
      nofun
    · intro hordered
      rw [hstays rfl (by rw [hpending]; nofun) rfl]
      exact (h.countedBefore hordered).retimed registration
  | registered registration hno => exact h.setsServer hlist nofun fun _ => .off nofun nofun
  | startsNext registration hstarts =>
    have hregistered : ({ retimed server registration with status := .registered } :
        RegistrationServer).status ≠ .deregistered := nofun
    have hinst : ({ retimed server registration with status := .registered } :
        RegistrationServer).servObjInstID = server.servObjInstID := rfl
    have hown : (startedList serverObjP now false (context.serverList.set index
        { retimed server registration with status := .registered }))[index]? =
          some { retimed server registration with status := .registered } :=
      startedList_set h.waits hregistered now
    have hset : context'.serverList = (startedList serverObjP now false (context.serverList.set index
        { retimed server registration with status := .registered })).set index
          { retimed server registration with status := .registered } := by
      rw [hlist]
      exact (set_same hown).symm
    by_cases hfirst : server.sequence = 1
    · apply h.startsNext hinst hregistered hregistered hset hstarts.1 (h.firstSequence hstarts.1 hfirst)
      · left
        rw [h.after, map_status_getElem?, hlist, hown]
        rfl
      · exact .off nofun nofun
    · have hblocking := hstarts.2.resolve_left hfirst
      have hnone := hkept server h.waits h.pending haccepted hstarts.1 hfirst hblocking
      have hchosen := firstStarted_isChosen serverObjP false (context.serverList.set index
        { retimed server registration with status := .registered })
      cases hfirstStarted : firstStarted serverObjP false (context.serverList.set index
          { retimed server registration with status := .registered }) with
      | none =>
        apply h.keepsOthers _ hregistered
        · rw [hset]
          exact othersKept_start h.inTurn.configured h.waits rfl hfirstStarted
        · exact fun _ => .off nofun nofun
        · rw [hlist]
          exact hown
      | some chosen =>
        rw [hfirstStarted] at hchosen
        obtain ⟨least, hleast, -⟩ := hchosen
        exact absurd ((startableAt_set h.waits h.notWaiting hregistered).mp hleast)
          (hnone chosen least)
  | @retried server' inst status attempt sequence hlt =>
    apply h.setsServer hlist
    · rw [status]
      nofun
    · intro hordered
      rw [hstays rfl (by rw [status]; nofun) rfl]
      exact (h.countedBefore hordered).retried h.pending status attempt sequence hlt
  | @gaveUp server' inst status =>
    apply h.setsServer hlist
    · rw [status]
      nofun
    · intro _
      apply Counted.off
      · rw [status]
        nofun
      · rw [status]
        nofun
  | sequenceFailed registration blocking _ hno outcome =>
    apply h.sequenceFailed
    rw [hlist]
    exact outcome
  | failureStartsNext registration hstarts outcome =>
    have hwaiting : (retimed server registration).status ≠ .deregistered := h.notWaiting
    have hinst : (retimed server registration).servObjInstID = server.servObjInstID := rfl
    cases outcome with
    | @ended server'' hsequence =>
      apply h.startsNext hinst hwaiting _ hlist hstarts.1 (h.firstSequence hstarts.1 hstarts.2.1)
        (.inr hopen)
      · exact ((h.countedBefore hstarts.1).retimed registration).sequenceOver h.pending hsequence
          (Nat.le_refl 1)
      · rcases hsequence.ended with hstatus | ⟨hstatus, -⟩
        · rw [hstatus]
          nofun
        · rw [hstatus]
          nofun
    | blocked hblocking => nomatch hblocking

end Replied

/-! ### Runs -/

theorem quietServers_refl (servers : List RegistrationServer) : QuietServers servers servers := by
  refine ⟨rfl, fun k server server' hserver hserver' => ?_⟩
  obtain rfl := Option.some.inj (hserver.symm.trans hserver')
  exact ⟨.same rfl rfl rfl, rfl⟩

theorem quietServers_map {change : RegistrationServer → RegistrationServer}
    (h : ∀ server, (change server).servObjInstID = server.servObjInstID ∧
      QuietChange server (change server)) (servers : List RegistrationServer) :
    QuietServers servers (servers.map change) := by
  refine ⟨List.length_map change, fun k server server' hserver hserver' => ?_⟩
  rw [List.getElem?_map, hserver, Option.map_some] at hserver'
  obtain rfl := Option.some.inj hserver'
  exact (h server).symm

theorem quietServers_modify {change : RegistrationServer → RegistrationServer}
    (h : ∀ server, (change server).servObjInstID = server.servObjInstID ∧
      QuietChange server (change server)) (index : Nat) (servers : List RegistrationServer) :
    QuietServers servers (servers.modify index change) := by
  refine ⟨by simp, fun k server server' hserver hserver' => ?_⟩
  rw [List.getElem?_modify, hserver] at hserver'
  by_cases hk : index = k
  · obtain rfl : change server = server' := by simpa [hk] using hserver'
    exact (h server).symm
  · obtain rfl : server = server' := by simpa [hk] using hserver'
    exact ⟨.same rfl rfl rfl, rfl⟩

theorem registrationCallStep_ok (h : registrationCallStep context call = .ok (context', reply)) :
    context' = registrationNext context call ∧
      (reply.before = context.serverList.map fun server => server.status) ∧
      (reply.after = context'.serverList.map fun server => server.status) ∧
      ∀ now index packet, call = .reply now index packet →
        reply.openFailure = endsOpenSequence context index packet := by
  obtain ⟨rfl, rfl⟩ := Prod.mk.inj (Except.ok.inj h)
  refine ⟨rfl, rfl, rfl, ?_⟩
  rintro now index packet rfl
  rfl

/-- One call that meets the condition: what it starts has its turn, and the servers take turns
behind it. -/
theorem registrationCallStep_inTurn (h : InTurn serverObjP orders past context)
    (hkept : TurnKept serverObjP context call)
    (hstep : registrationCallStep context call = .ok (context', reply)) :
    StartsInTurn orders past (call, reply) ∧
      InTurn serverObjP orders (past ++ [(call, reply)]) context' := by
  have hconfigured := h.configured.next call
  obtain ⟨rfl, hbefore, hafter, hopen⟩ := registrationCallStep_ok hstep
  cases call with
  | start now =>
    have hbegins : Begins serverObjP orders now context reply := ⟨h.configured, hkept, hbefore, hafter⟩
    exact ⟨hbegins.startsInTurn, hbegins.inTurn⟩
  | step currentTime env =>
    refine inTurn_quiet h ?_ hconfigured ?_ hbefore hafter ?_
    · exact fun _ hstart => nomatch hstart
    · exact quietServers_map (fun server => registrationStepCounted_quiet _ _ server) _
    · rw [passedServers_append]
      rfl
  | updateReply now index packet =>
    refine inTurn_quiet h ?_ hconfigured ?_ hbefore hafter ?_
    · exact fun _ hstart => nomatch hstart
    · exact quietServers_modify (fun server => updateReply_quiet now packet server) index _
    · rw [passedServers_append]
      rfl
  | reply now index packet =>
    by_cases hpending : ∃ server, context.serverList[index]? = some server ∧
        server.status = .regPending
    · obtain ⟨server, hserver, hpending⟩ := hpending
      obtain ⟨-, houtcome⟩ := prvHandleRegistrationReply_outcome h.configured.obj
        h.configured.answers hserver hpending now packet
      have hreplied : Replied serverObjP orders past now index packet server context
          (registrationNext context (.reply now index packet)) reply :=
        ⟨h, hconfigured, hserver, hpending, hbefore, hafter⟩
      exact hreplied.inTurnAfter (hopen now index packet rfl) houtcome hkept
    · have hsame : registrationNext context (.reply now index packet) = context :=
        prvHandleRegistrationReply_ignored
          (fun server hserver hstatus => hpending ⟨server, hserver, hstatus⟩) now packet
      have hnot : reply.before[index]? ≠ some .regPending := by
        rw [hbefore, map_status_getElem?]
        intro hstatus
        rw [Option.map_eq_some_iff] at hstatus
        exact hpending hstatus
      refine inTurn_quiet h ?_ hconfigured ?_ hbefore hafter ?_
      · exact fun _ hstart => nomatch hstart
      · rw [hsame]
        exact quietServers_refl _
      · rw [passedServers_append]
        exact if_neg fun hboth => hnot hboth.1

/-- In a run that meets the condition, from the moment that the client begins to register, every
ordered server that is started has its turn. -/
theorem registrationRun_inTurn (serverObjP : ServerReader) (context : RegistrationContext)
    (hobj : context.serverObj = some serverObjP)
    (hanswers : ∀ server ∈ context.serverList, AnswersStart serverObjP server.servObjInstID)
    (now : Int) (calls : List RegistrationCall) (final : RegistrationContext)
    (replies : List RegistrationReply)
    (hmeet : StepsMeet registrationCallStep (TurnKept serverObjP) context (.start now :: calls))
    (hrun : run registrationCallStep context (.start now :: calls) = .ok (final, replies)) :
    EachEvent (StartsInTurn (context.serverList.map (serverOrder serverObjP))) []
      ((.start now :: calls).zip replies) := by
  obtain ⟨context', reply, rest, hstep, hrest, rfl⟩ := run_cons_inv hrun
  obtain ⟨rfl, hbefore, hafter, -⟩ := registrationCallStep_ok hstep
  have hbegins : Begins serverObjP (context.serverList.map (serverOrder serverObjP)) now context
      reply := ⟨⟨hobj, hanswers, rfl⟩, hmeet.1, hbefore, hafter⟩
  refine ⟨hbegins.startsInTurn, ?_⟩
  exact run_eachEvent
    (fun past s call s' reply h hkept hstep => registrationCallStep_inTurn h hkept hstep)
    calls _ _ final rest hbegins.inTurn (hmeet.2 _ _ hstep) hrest

/-- Where failures do not block, the first server's failure starts the second one, and its
registration in the second sequence starts the third one while the second is on its way. -/
theorem secondSequence_overtakes : ∃ final replies,
    run registrationCallStep (orderedContext false) secondSequence = .ok (final, replies) ∧
      replies.getLast?.map RegistrationReply.before =
        some [.regPending, .regPending, .deregistered] ∧
      replies.getLast?.map RegistrationReply.after =
        some [.registered, .regPending, .regHoldOff] ∧
      ¬ EachEvent (StartsInTurn [some 1, some 2, some 3]) [] (secondSequence.zip replies) := by
  refine ⟨_, _, rfl, rfl, rfl, ?_⟩
  rintro ⟨-, -, -, -, hlast, -⟩
  obtain ⟨hpassed, -⟩ := hlast 2 3 rfl ⟨.inl rfl, rfl⟩
  exact absurd (hpassed 1 2 rfl (by decide)) (by decide)

/-- The first server registers in its first sequence and starts the second one. -/
theorem firstSequence_inTurn : ∃ final replies,
    run registrationCallStep (orderedContext true) firstSequence = .ok (final, replies) ∧
      replies.getLast?.map RegistrationReply.after =
        some [.registered, .regHoldOff, .deregistered] ∧
      EachEvent (StartsInTurn [some 1, some 2, some 3]) [] (firstSequence.zip replies) := by
  have hready : RoundReady (orderedReader true) (orderedContext true) := by
    have hwaits : ∀ server ∈ (orderedContext true).serverList, server.status = .deregistered := by
      decide
    constructor
    · intro k server order hserver _
      exact .inr (startable_true.mpr (.inl (hwaits server (List.mem_of_getElem? hserver))))
    · intro k server order hserver _ hfailed
      rw [hwaits server (List.mem_of_getElem? hserver)] at hfailed
      nomatch hfailed
  have hmeet : StepsMeet registrationCallStep (TurnKept (orderedReader true)) (orderedContext true)
      firstSequence := by
    have hstart : registrationCallStep (orderedContext true) (.start 0) = .ok (afterStart, _) := rfl
    have hsend : registrationCallStep afterStart (.step 0 fun _ => everythingSent) =
      .ok (afterSending, _) := rfl
    refine .cons hready hstart (.cons trivial hsend (.cons ?_ rfl trivial))
    rintro server ⟨⟩ _ _ _ hsequence
    exact absurd rfl hsequence
  have hrun : run registrationCallStep (orderedContext true) firstSequence = .ok (_, _) := rfl
  exact ⟨_, _, hrun, rfl, registrationRun_inTurn (orderedReader true) (orderedContext true) rfl
    (fun server _ => orderedReader_answers true server.servObjInstID) 0 _ _ _ hmeet hrun⟩

end Wakaama
