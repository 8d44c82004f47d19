import Wakaama.Coap.Proofs.TransactionIds
import Wakaama.Core.Proofs.ListSweep
import Wakaama.Core.Registration.Expiry

/-!
# What the expiry of clients removes (`core/registration.c`, `coap/transaction.c`)

The loop over the clients takes the expired ones from the list of clients, and the transactions
of their sessions from the list of transactions. Both are removed by their ids, and neither list
keeps its ids apart for ever: the message ids wrap while a request is pending, and the client ids
when all are in use.
-/

namespace Wakaama

variable {Session : Type}

/-- The lifetime of the client is over. -/
def isExpired (currentTime : Int) (clientP : ClientNode Session) : Bool :=
  decide (clientP.client.endOfLife ≤ currentTime)

/-- The sessions of the expired clients, in the order of the clients. -/
def expiredSessions (currentTime : Int) (clientList : List (ClientNode Session)) : List Session :=
  (clientList.filter (isExpired currentTime)).map fun clientP => clientP.client.sessionH

/-- The transactions of the sessions are removed, one session after the other. -/
def removeSessions (sessionIsEqual : Session → Session → Bool) :
    List Session → List (Transaction Session) → Except Fault (List (Transaction Session))
  | [], transactionList => .ok transactionList
  | sessionH :: next, transactionList =>
    match transactionRemoveClient sessionIsEqual sessionH transactionList with
    | .error fault => .error fault
    | .ok transactionList => removeSessions sessionIsEqual next transactionList

/-- `*timeoutP` behind the clients. -/
def loweredTimeout (currentTime : Int) : List (ClientNode Session) → Int → Int
  | [], timeoutP => timeoutP
  | clientP :: nextP, timeoutP =>
    if isExpired currentTime clientP then loweredTimeout currentTime nextP timeoutP
    else
      loweredTimeout currentTime nextP
        (if clientP.client.endOfLife - currentTime < timeoutP then
          clientP.client.endOfLife - currentTime
        else timeoutP)

/-- The loop is a loop over the clients and one over the transactions for each expired client. -/
theorem expireClients_ok_iff {sessionIsEqual : Session → Session → Bool} {monitorCallback : Bool}
    {currentTime : Int} (rest : List (ClientNode Session)) :
    ∀ {before : List (ClientNode Session)} {transactionList : List (Transaction Session)}
      {timeoutP : Int} {result : ExpiryResult Session},
      expireClients sessionIsEqual monitorCallback currentTime before rest transactionList timeoutP =
          .ok result ↔
        clientMarks.sweep (isExpired currentTime) before rest = .ok result.clientList ∧
          removeSessions sessionIsEqual (expiredSessions currentTime rest) transactionList =
            .ok result.transactionList ∧
          result.timeoutP = loweredTimeout currentTime rest timeoutP ∧
          result.events = (rest.filter (isExpired currentTime)).flatMap fun clientP =>
            expiryEvents monitorCallback clientP.client := by
  induction rest with
  | nil =>
    intro before transactionList timeoutP result
    obtain ⟨clientList, transactions, timeout, events⟩ := result
    simp only [expireClients, NodeMarks.sweep, removeSessions, expiredSessions, loweredTimeout,
      List.filter_nil, List.map_nil, List.flatMap_nil, Except.ok.injEq, ExpiryResult.mk.injEq]
    constructor
    · intro h
      exact ⟨h.1, h.2.1, h.2.2.1.symm, h.2.2.2.symm⟩
    · intro h
      exact ⟨h.1, h.2.1, h.2.2.1.symm, h.2.2.2.symm⟩
  | cons clientP nextP ih =>
    intro before transactionList timeoutP result
    rw [expireClients, NodeMarks.sweep, expiredSessions, loweredTimeout]
    have hfreed : clientMarks.freed clientP = clientP.freed := rfl
    rw [hfreed]
    by_cases hlive : clientP.freed = true
    · rw [if_pos hlive, if_pos hlive]
      exact iff_of_false (by intro h; cases h) fun h => by cases h.1
    · rw [if_neg hlive, if_neg hlive]
      by_cases hexpired : clientP.client.endOfLife ≤ currentTime
      · have hselected : isExpired currentTime clientP = true := decide_eq_true hexpired
        rw [if_pos hexpired, if_pos hselected, if_pos hselected, List.filter_cons_of_pos hselected,
          List.map_cons, List.flatMap_cons, removeSessions]
        cases clientMarks.remove before clientP with
        | error fault => exact iff_of_false (by intro h; cases h) fun h => by cases h.1
        | ok kept =>
          cases transactionRemoveClient sessionIsEqual clientP.client.sessionH transactionList with
          | error fault => exact iff_of_false (by intro h; cases h) fun h => by cases h.2.1
          | ok left =>
            dsimp only
            constructor
            · intro h
              split at h
              · cases h
              · rename_i result' hnext
                cases h
                obtain ⟨hclients, htransactions, htimeout, hevents⟩ := ih.1 hnext
                exact ⟨hclients, htransactions, htimeout, congrArg _ hevents⟩
            · intro h
              obtain ⟨hclients, htransactions, htimeout, hevents⟩ := h
              have hnext := (@ih kept left timeoutP
                { result with
                  events := (nextP.filter (isExpired currentTime)).flatMap fun clientP =>
                    expiryEvents monitorCallback clientP.client }).2
                ⟨hclients, htransactions, htimeout, rfl⟩
              rw [hnext]
              dsimp only
              rw [← hevents]
      · have hselected : ¬ isExpired currentTime clientP = true := by
          simpa [isExpired] using hexpired
        rw [if_neg hexpired, if_neg hselected, if_neg hselected, List.filter_cons_of_neg hselected]
        exact ih

theorem loweredTimeout_le {currentTime : Int} (clientList : List (ClientNode Session)) :
    ∀ timeoutP : Int, loweredTimeout currentTime clientList timeoutP ≤ timeoutP ∧
      ∀ clientP ∈ clientList, isExpired currentTime clientP = false →
        loweredTimeout currentTime clientList timeoutP ≤
          clientP.client.endOfLife - currentTime := by
  induction clientList with
  | nil => exact fun timeoutP => ⟨Int.le_refl _, fun _ hmem => nomatch hmem⟩
  | cons clientP nextP ih =>
    intro timeoutP
    rw [loweredTimeout]
    by_cases hexpired : isExpired currentTime clientP = true
    · rw [if_pos hexpired]
      obtain ⟨hle, hall⟩ := ih timeoutP
      refine ⟨hle, ?_⟩
      intro other hother hnot
      rcases List.mem_cons.1 hother with rfl | hmem
      · rw [hexpired] at hnot
        cases hnot
      · exact hall other hmem hnot
    · rw [if_neg hexpired]
      have hleast : (if clientP.client.endOfLife - currentTime < timeoutP then
          clientP.client.endOfLife - currentTime else timeoutP) ≤ timeoutP ∧
          (if clientP.client.endOfLife - currentTime < timeoutP then
            clientP.client.endOfLife - currentTime else timeoutP) ≤
              clientP.client.endOfLife - currentTime := by
        split <;> omega
      obtain ⟨hle, hall⟩ := ih (if clientP.client.endOfLife - currentTime < timeoutP then
        clientP.client.endOfLife - currentTime else timeoutP)
      refine ⟨Int.le_trans hle hleast.1, ?_⟩
      intro other hother hnot
      rcases List.mem_cons.1 hother with rfl | hmem
      · exact Int.le_trans hle hleast.2
      · exact hall other hmem hnot

/-- The transaction is one of the sessions. -/
def belongsTo (sessionIsEqual : Session → Session → Bool) (sessions : List Session)
    (transacP : Transaction Session) : Bool :=
  sessions.any fun sessionH => sessionIsEqual transacP.peerH sessionH

/-- A transaction with the message id of one that goes with a session, and in front of it in the
list, goes with the same session or with one before it. -/
def GoInTurn (sessionIsEqual : Session → Session → Bool) (sessions : List Session)
    (transactionList : List (Transaction Session)) : Prop :=
  transactionList.Pairwise fun a b => a.mID = b.mID → ∀ front sessionH back,
    sessions = front ++ sessionH :: back → sessionIsEqual b.peerH sessionH = true →
    belongsTo sessionIsEqual (front ++ [sessionH]) a = true

theorem belongsTo_cons (sessionIsEqual : Session → Session → Bool) (sessionH : Session)
    (sessions : List Session) (transacP : Transaction Session) :
    belongsTo sessionIsEqual (sessionH :: sessions) transacP =
      (sessionIsEqual transacP.peerH sessionH || belongsTo sessionIsEqual sessions transacP) := rfl

theorem goInTurn_nil (sessionIsEqual : Session → Session → Bool)
    (transactionList : List (Transaction Session)) : GoInTurn sessionIsEqual [] transactionList :=
  List.Pairwise.imp (fun _ _ _ _ _ h => absurd h (by simp)) (List.pairwise_of_forall fun _ _ => trivial)

variable {sessions : List Session} {sessionIsEqual : Session → Session → Bool}
  {transactionList : List (Transaction Session)}

theorem goInTurn_of_apart (h : transactionList.Pairwise fun a b => a.mID ≠ b.mID) :
    GoInTurn sessionIsEqual sessions transactionList :=
  h.imp fun hne heq => absurd heq hne

theorem goInTurn_cons {sessionH : Session} :
    GoInTurn sessionIsEqual (sessionH :: sessions) transactionList ↔
      transactionMarks.SelectsOwn (fun transacP => sessionIsEqual transacP.peerH sessionH)
          transactionList ∧
        GoInTurn sessionIsEqual sessions
          (transactionList.filter fun transacP => !sessionIsEqual transacP.peerH sessionH) := by
  unfold GoInTurn NodeMarks.SelectsOwn
  rw [List.pairwise_filter, ← List.pairwise_and_iff]
  refine List.Pairwise.iff fun a b => ?_
  constructor
  · intro h
    refine ⟨?_, ?_⟩
    · intro hkept hgone hid
      have hturn := h hid [] sessionH sessions rfl hgone
      dsimp only at hkept
      rw [List.nil_append, belongsTo_cons, hkept] at hturn
      cases hturn
    · intro hkept _ hid front other back hsplit hgone
      have hturn := h hid (sessionH :: front) other back (by rw [hsplit]; rfl) hgone
      rw [List.cons_append, belongsTo_cons, show sessionIsEqual a.peerH sessionH = false by simpa using hkept] at hturn
      exact hturn
  · intro h hid front other back hsplit hgone
    obtain ⟨hown, hrest⟩ := h
    -- the first session takes the front transaction, or it takes neither of the two
    by_cases hfirst : sessionIsEqual a.peerH sessionH = true
    · cases front with
      | nil =>
        obtain ⟨rfl, -⟩ := List.cons.inj hsplit
        rw [List.nil_append, belongsTo_cons, hfirst]
        rfl
      | cons head front =>
        obtain ⟨rfl, -⟩ := List.cons.inj hsplit
        rw [List.cons_append, belongsTo_cons, hfirst]
        rfl
    · have hkept : sessionIsEqual a.peerH sessionH = false := Bool.eq_false_of_not_eq_true hfirst
      have hnot : ¬ sessionIsEqual b.peerH sessionH = true := fun hsame => hown hkept hsame hid
      cases front with
      | nil =>
        obtain ⟨rfl, -⟩ := List.cons.inj hsplit
        exact absurd hgone hnot
      | cons head front =>
        obtain ⟨rfl, hbehind⟩ := List.cons.inj hsplit
        rw [List.cons_append, belongsTo_cons, hkept, Bool.false_or]
        exact hrest (by simpa using hkept) (by simpa using hnot) hid front other back hbehind hgone

theorem removeSessions_freed {out : List (Transaction Session)}
    (hfreed : transactionMarks.HasFreed transactionList)
    (h : removeSessions sessionIsEqual sessions transactionList = .ok out) :
    transactionMarks.HasFreed out := by
  cases sessions with
  | nil =>
    cases h
    exact hfreed
  | cons sessionH next =>
    rw [removeSessions] at h
    split at h
    · cases h
    · rename_i left hsweep
      exact absurd hsweep (NodeMarks.sweep_reads hfreed)

/-- By induction on the sessions: what is left is the rest exactly where the transactions go in
turn. -/
theorem removeSessions_iff (sessions : List Session) :
    ∀ {transactionList : List (Transaction Session)}, transactionMarks.Linked transactionList →
      (removeSessions sessionIsEqual sessions transactionList =
          .ok (transactionList.filter fun transacP =>
            !belongsTo sessionIsEqual sessions transacP) ↔
        GoInTurn sessionIsEqual sessions transactionList) := by
  induction sessions with
  | nil =>
    intro transactionList _
    refine iff_of_true ?_ (goInTurn_nil sessionIsEqual transactionList)
    simp [removeSessions, belongsTo]
  | cons sessionH next ih =>
    intro transactionList hlinked
    have hleft : transactionMarks.Linked
        (transactionList.filter fun transacP => !sessionIsEqual transacP.peerH sessionH) :=
      hlinked.sublist List.filter_sublist
    rw [removeSessions, goInTurn_cons]
    by_cases hown : transactionMarks.SelectsOwn
        (fun transacP => sessionIsEqual transacP.peerH sessionH) transactionList
    · have hrest : (transactionList.filter fun transacP =>
            !belongsTo sessionIsEqual (sessionH :: next) transacP) =
          (transactionList.filter fun transacP => !sessionIsEqual transacP.peerH sessionH).filter
            fun transacP => !belongsTo sessionIsEqual next transacP := by
        rw [List.filter_filter]
        refine List.filter_congr fun transacP _ => ?_
        rw [belongsTo_cons, Bool.not_or, Bool.and_comm]
      rw [transactionRemoveClient, NodeMarks.sweep_own hlinked hown, and_iff_right hown, hrest]
      exact ih hleft
    · refine iff_of_false ?_ fun h => hown h.1
      intro hout
      split at hout
      · cases hout
      · rename_i left hsweep
        have hfreed := removeSessions_freed (NodeMarks.sweep_other hlinked hown hsweep) hout
        exact (hlinked.sublist List.filter_sublist).not_hasFreed hfreed

/-- The expired clients are removed, each behind the call of its callback, the others stay as and
where they are; the transactions of the sessions of the expired clients are removed, and no others;
`*timeoutP` is at most the time that is left to any client. -/
def ExpiresExactly (sessionIsEqual : Session → Session → Bool) (monitorCallback : Bool)
    (currentTime : Int) (clientList : List (ClientNode Session))
    (transactionList : List (Transaction Session)) (timeoutP : Int) : Prop :=
  ∃ result, registrationStepClients sessionIsEqual monitorCallback currentTime clientList
      transactionList timeoutP = .ok result ∧
    result.clientList = clientList.filter (fun clientP => !isExpired currentTime clientP) ∧
    result.transactionList = transactionList.filter (fun transacP =>
      !belongsTo sessionIsEqual (expiredSessions currentTime clientList) transacP) ∧
    result.events = (clientList.filter (isExpired currentTime)).flatMap
      (fun clientP => expiryEvents monitorCallback clientP.client) ∧
    result.timeoutP ≤ timeoutP ∧
    ∀ clientP ∈ result.clientList, result.timeoutP ≤ clientP.client.endOfLife - currentTime

/-- The step is exact exactly where no client that stays stands in front of an expired one with its
id, and the transactions with one message id go in turn. -/
theorem registrationStepClients_exact_iff {sessionIsEqual : Session → Session → Bool}
    {monitorCallback : Bool} {currentTime : Int} {clientList : List (ClientNode Session)}
    {transactionList : List (Transaction Session)} {timeoutP : Int}
    (hclients : clientMarks.Linked clientList)
    (htransactions : transactionMarks.Linked transactionList) :
    ExpiresExactly sessionIsEqual monitorCallback currentTime clientList transactionList timeoutP ↔
      clientMarks.SelectsOwn (isExpired currentTime) clientList ∧
        GoInTurn sessionIsEqual (expiredSessions currentTime clientList) transactionList := by
  rw [← NodeMarks.sweep_iff hclients, ← removeSessions_iff _ htransactions]
  constructor
  · intro h
    obtain ⟨result, hrun, hleft, hpending, -⟩ := h
    obtain ⟨hsweep, hremove, -⟩ := (expireClients_ok_iff clientList).1 hrun
    exact ⟨hleft ▸ hsweep, hpending ▸ hremove⟩
  · intro h
    obtain ⟨hle, hall⟩ := @loweredTimeout_le _ currentTime clientList timeoutP
    have hrun := (@expireClients_ok_iff _ sessionIsEqual monitorCallback currentTime clientList []
      transactionList timeoutP ⟨_, _, _, _⟩).2 ⟨h.1, h.2, rfl, rfl⟩
    refine ⟨_, hrun, rfl, rfl, rfl, hle, ?_⟩
    intro clientP hclient
    obtain ⟨hmem, hnot⟩ := List.mem_filter.1 hclient
    exact hall clientP hmem (by simpa using hnot)

/-- A client of a server, with the session and the end of its lifetime. -/
def expiringClient (internalID : UInt16) (sessionH : Nat) (endOfLife : Int) : ClientNode Nat where
  client :=
    { internalID, binding := 1, msisdn := none, lifetime := 86400, endOfLife, sessionH,
      objectList := [], observationList := [] }
  freed := false

/-- A request to a client. -/
def clientRequest (peerH : Nat) : Transaction Nat := transactionNew 0 peerH coapGet 0 []

/-- The request when it is sent for the first time, at the time 0. -/
def sentRequest (address : Nat) (mID : UInt16) (peerH : Nat) : Transaction Nat :=
  { clientRequest peerH with
    address
    mID
    retransCounter := 2
    retransTime := 2
    message := { (clientRequest peerH).message with mid := mID }
    buffer := some { (clientRequest peerH).message with mid := mID } }

/-- One of two clients expires, and both of its requests go. -/
theorem registrationStepClients_oneExpired :
    ExpiresExactly (· == ·) true 100 [expiringClient 0 1 200, expiringClient 1 2 50]
      [sentRequest 0 4 2, sentRequest 1 5 1, sentRequest 2 6 2] 60 := by
  refine (registrationStepClients_exact_iff ⟨?_, ?_⟩ ⟨?_, ?_⟩).2 ⟨?_, goInTurn_of_apart ?_⟩
  · decide
  · unfold NonDescending
    decide
  · decide
  · unfold NonDescending
    decide
  · unfold NodeMarks.SelectsOwn
    decide
  · decide

/-- A request to a client is pending while 65535 messages are sent, and the next request goes to
another client. -/
def requestsAround : List (TransactionCall Nat) :=
  .start (clientRequest 1) true 0 false :: List.replicate 65535 .message ++
    [.start (clientRequest 2) true 0 false]

/-- The two requests have one message id. When the second client expires, the request to the first
one is unlinked, and the other is freed while it is linked. -/
theorem requestsAround_wrongRemoved :
    (∃ context effects, run (transactionStep (· == ·)) (startContext 0) requestsAround =
        .ok (context, effects) ∧
      context.transactionList = [sentRequest 0 0 1, sentRequest 1 0 2]) ∧
    ¬ ExpiresExactly (· == ·) true 100 [expiringClient 0 1 200, expiringClient 1 2 50]
      [sentRequest 0 0 1, sentRequest 1 0 2] 60 := by
  constructor
  · obtain ⟨effects, hmessages⟩ :=
      @messages_run Nat (· == ·) 65535 ⟨1, [sentRequest 0 0 1], [], 1⟩
    have hfirst : transactionStep (· == ·) (startContext 0)
        (.start (clientRequest 1) true 0 false) =
          .ok (⟨1, [sentRequest 0 0 1], [], 1⟩, ⟨some (0, false), some 0, none, none, [], []⟩) := rfl
    have hsecond : transactionStep (· == ·) ⟨1 + UInt16.ofNat 65535, [sentRequest 0 0 1], [], 1⟩
        (.start (clientRequest 2) true 0 false) =
          .ok (⟨1, [sentRequest 0 0 1, sentRequest 1 0 2], [], 2⟩,
            ⟨some (1, false), some 1, none, none, [], []⟩) := rfl
    refine ⟨⟨1, [sentRequest 0 0 1, sentRequest 1 0 2], [], 2⟩,
      ⟨some (0, false), some 0, none, none, [], []⟩ ::
        (effects ++ [⟨some (1, false), some 1, none, none, [], []⟩]), ?_, rfl⟩
    rw [requestsAround, List.cons_append, run_cons_ok hfirst,
      run_append_ok _ _ _ _ hmessages, run_cons_ok hsecond]
    rfl
  · intro h
    have hturn := ((registrationStepClients_exact_iff
      ⟨by decide, by unfold NonDescending; decide⟩
      ⟨by decide, by unfold NonDescending; decide⟩).1 h).2
    have hgone := (List.pairwise_pair.1 hturn) rfl [] 2 [] (by decide) rfl
    exact absurd hgone (by decide)

end Wakaama
