import Wakaama.Core.Proofs.ObservationSlots
import Wakaama.Misc.Run

/-!
# What the user last asked for

`lwm2m_observe` and `lwm2m_observe_cancel` on one URI of a registered client, their replies in
any order. There is one observation for the URI at most, whatever happens. Whether there is one
follows the last accepted call only as long as no reply finds the list as a later call or an
earlier reply left it.
-/

namespace Wakaama

/-- A call the user sees as accepted: it is not answered with an error code. -/
def CoapCode.accepts : CoapCode → Bool
  | .noError | .ignore | .changed204 => true
  | _ => false

/-- What the user asked for last, with the request that asks the client for it. -/
inductive ObservationIntent where
  | observe (request : Option Nat)
  | cancel (request : Option Nat)
  deriving DecidableEq, Repr

/-- The request of the call. -/
def ObservationIntent.request : ObservationIntent → Option Nat
  | observe request | cancel request => request

/-- The intent of an accepted call on the URI. -/
def acceptedIntent (uri : Lwm2mUri) (event : ObservationCall × ObservationEffect) :
    Option ObservationIntent :=
  match event.1 with
  | .observe uri' _ _ =>
    if uri' = uri ∧ event.2.code.accepts then some (.observe event.2.request) else none
  | .cancel uri' _ _ =>
    if uri' = uri ∧ event.2.code.accepts then some (.cancel event.2.request) else none
  | .reply .. => none

/-- The intent of the last accepted call on the URI. -/
def lastIntent (uri : Lwm2mUri) (past : List (ObservationCall × ObservationEffect)) :
    Option ObservationIntent :=
  (past.filterMap (acceptedIntent uri)).getLast?

/-- The reply the request was waiting for arrived and was a success. -/
def observeSucceeded (past : List (ObservationCall × ObservationEffect)) (request : Nat) : Bool :=
  past.any fun event =>
    match event.1 with
    | .reply _ message => event.2.request == some request && message.any ObserveAnswer.observes
    | _ => false

/-- The request was not answered yet. -/
def ObservedClient.inFlight (client : ObservedClient) (request : Nat) : Bool :=
  client.transactionList.any fun transaction => transaction.1 == request

/-- The call is about the URI, if it is about one. -/
def ObservationCall.About (uri : Lwm2mUri) : ObservationCall → Prop
  | .observe uri' _ _ | .cancel uri' _ _ => uri' = uri
  | .reply .. => True

/-- Once every reply has arrived, there is an observation for the URI exactly if the last
accepted call was an observe that succeeded. -/
def FollowsIntent (uri : Lwm2mUri) (past : List (ObservationCall × ObservationEffect))
    (client : ObservedClient) : Prop :=
  client.transactionList = [] → (client.observes uri = true ↔
    ∃ request, lastIntent uri past = some (.observe (some request)) ∧
      observeSucceeded past request = true)

/-- A client on which the URI is not observed and that owes no reply. -/
structure Unobserved (uri : Lwm2mUri) (client : ObservedClient) : Prop where
  ascending : Ascending Observation.id client.observationList
  absent : client.observes uri = false
  idle : client.transactionList = []

/-- A reply that meets the observation list as its call left it: a success of an observe finds
an observation for the URI, or comes while an observe is the last accepted call and unanswered;
a success of a cancel finds an observation, and no success of a later observe; any other last
reply to the last accepted call finds no observation. -/
def ReplyInOrder (uri : Lwm2mUri) (past : List (ObservationCall × ObservationEffect))
    (client : ObservedClient) : ObservationCall → Prop
  | .observe .. | .cancel .. => True
  | .reply request message =>
    let failed := isFinal message = true → (lastIntent uri past).bind ObservationIntent.request =
      some request → client.observes uri = false
    match client.transactionList.lookup request with
    | none => True
    | some (.observe _) =>
      if message.any ObserveAnswer.observes then
        client.observes uri = false → ∃ last, lastIntent uri past = some (.observe (some last)) ∧
          client.inFlight last = true
      else failed
    | some (.cancel _) =>
      if message.any ObserveAnswer.cancels then
        client.observes uri = true ∧ ∀ last,
          lastIntent uri past = some (.observe (some last)) → client.inFlight last = true
      else failed

/-! ### Steps -/

def ObserveTransaction.succeeds (transaction : ObserveTransaction)
    (message : Option ObserveAnswer) : Bool :=
  match transaction with
  | .observe _ => message.any ObserveAnswer.observes
  | .cancel _ => message.any ObserveAnswer.cancels

variable {uri : Lwm2mUri} {observationList list : List Observation}
  {transactionList : List (Nat × ObserveTransaction)} {client client' : ObservedClient}
  {transaction : ObserveTransaction} {message : Option ObserveAnswer}
  {reports : List ObservationReport} {effect : ObservationEffect} {call : ObservationCall}
  {past : List (ObservationCall × ObservationEffect)}

theorem OneSlot.congr (h : OneSlot uri observationList transactionList)
    (heq : slots list = slots observationList) : OneSlot uri list transactionList :=
  h.shrink (by rw [ascending_iff_slots, heq, ← ascending_iff_slots]; exact h.ascending)
    fun id uri' hslot => heq ▸ hslot

/-- What a call does that is not accepted: nothing to the slots and the requests. -/
structure Refused (client client' : ObservedClient) (effect : ObservationEffect) : Prop where
  code : effect.code.accepts = false
  request : effect.request = none
  slots : slots client'.observationList = slots client.observationList
  transactionList : client'.transactionList = client.transactionList
  requests : client'.requests = client.requests

structure Sent (client client' : ObservedClient) (transaction : ObserveTransaction)
    (effect : ObservationEffect) : Prop where
  code : effect.code.accepts = true
  request : effect.request = some client.requests
  slots : slots client'.observationList = slots client.observationList
  transactionList :
    client'.transactionList = client.transactionList ++ [(client.requests, transaction)]
  requests : client'.requests = client.requests + 1

theorem sendRequest_cases (client base : ObservedClient)
    (hslots : slots base.observationList = slots client.observationList)
    (hlist : base.transactionList = client.transactionList)
    (hrequests : base.requests = client.requests) (transaction : ObserveTransaction)
    (sent : Bool) :
    Refused client (sendRequest base transaction sent).1 (sendRequest base transaction sent).2 ∨
      Sent client (sendRequest base transaction sent).1 transaction
        (sendRequest base transaction sent).2 := by
  cases sent with
  | false => exact Or.inl ⟨rfl, rfl, hslots, hlist, hrequests⟩
  | true =>
    refine Or.inr ⟨rfl, ?_, hslots, ?_, ?_⟩
    · simp [sendRequest, hrequests]
    · simp [sendRequest, hrequests, hlist]
    · simp [sendRequest, hrequests]

theorem prvLwm2mObserve_cases (hasc : Ascending Observation.id client.observationList)
    (uri : Lwm2mUri) (userData : Nat) (sent : Bool) :
    Refused client (prvLwm2mObserve client uri userData sent).1
        (prvLwm2mObserve client uri userData sent).2 ∨
      ∃ data : ObservationData, data.uri = uri ∧
        (∀ uri', (data.id, uri') ∉ slots client.observationList) ∧
        Sent client (prvLwm2mObserve client uri userData sent).1 (.observe data)
          (prvLwm2mObserve client uri userData sent).2 := by
  unfold prvLwm2mObserve
  split
  · exact Or.inl ⟨rfl, rfl, rfl, rfl, rfl⟩
  · dsimp only
    cases hfind : lwm2mListFind Observation.id (client.observationId + 1)
      client.observationList with
    | some other => exact Or.inl ⟨rfl, rfl, rfl, rfl, rfl⟩
    | none =>
      have hfresh := (lwm2mListFind_eq_none_iff hasc).mp hfind
      rcases sendRequest_cases client
        { client with
          observationId := client.observationId + 1
          observationList := setStatus uri .regPending client.observationList }
        (slots_setStatus uri .regPending client.observationList) rfl rfl
        (.observe { id := client.observationId + 1, uri, userData }) sent with hrefused | hsent
      · exact Or.inl hrefused
      · refine Or.inr ⟨_, rfl, fun uri' hslot => ?_, hsent⟩
        obtain ⟨observation, hmem, hid, -⟩ := mem_slots.mp hslot
        exact hfresh observation hmem hid

theorem prvLwm2mObserveCancel_cases (client : ObservedClient) (uri : Lwm2mUri) (userData : Nat)
    (sent : Bool) :
    Refused client (prvLwm2mObserveCancel client uri userData sent).1
        (prvLwm2mObserveCancel client uri userData sent).2 ∨
      Sent client (prvLwm2mObserveCancel client uri userData sent).1
          (.cancel { uri, userDataP := userData })
          (prvLwm2mObserveCancel client uri userData sent).2 ∨
      ∃ observation code, code.accepts = true ∧
        prvFindObservationByUri uri client.observationList = some observation ∧
        prvLwm2mObserveCancel client uri userData sent =
          ({ client with observationList := observeRemove observation client.observationList },
            .only code) := by
  unfold prvLwm2mObserveCancel
  cases hfind : prvFindObservationByUri uri client.observationList with
  | none => exact Or.inl ⟨rfl, rfl, rfl, rfl, rfl⟩
  | some observation =>
    cases hstatus : observation.status with
    | registered =>
      rcases sendRequest_cases client
        { client with
          observationList := setStatus uri .deregPending client.observationList }
        (slots_setStatus uri .deregPending client.observationList) rfl rfl
        (.cancel { uri, userDataP := userData }) sent with hrefused | hsent
      · exact Or.inl (by simpa [hstatus] using hrefused)
      · exact Or.inr (Or.inl (by simpa [hstatus] using hsent))
    | regPending =>
      exact Or.inr (Or.inr ⟨observation, .changed204, rfl, rfl, by simp [hstatus]⟩)
    | deregPending =>
      exact Or.inr (Or.inr ⟨observation, .ignore, rfl, rfl, by simp [hstatus]⟩)

theorem observationCallback_spec (h : OneSlot uri observationList transactionList) {n : Nat}
    (hmem : (n, transaction) ∈ transactionList)
    (hok : observationCallback transaction message observationList = .ok (list, reports)) :
    OneSlot uri list transactionList ∧
      ((∃ id, (id, uri) ∈ slots list) ↔
        if transaction.succeeds message then ∃ data, transaction = .observe data
        else ∃ id, (id, uri) ∈ slots observationList) := by
  cases transaction with
  | observe data =>
    obtain ⟨rfl, -⟩ := Prod.mk.inj (Except.ok.inj hok)
    obtain ⟨hone, hiff⟩ := prvObsRequestCallback_spec h hmem message
    refine ⟨hone, hiff.trans ?_⟩
    cases hsucc : message.any ObserveAnswer.observes <;>
      simp [ObserveTransaction.succeeds, hsucc]
  | cancel data =>
    have hthere : message.any ObserveAnswer.cancels = true →
        ∃ id, (id, uri) ∈ slots observationList := by
      intro hsuccess
      by_contra habsent
      have hnull := prvObsCancelRequestCallback_null (h.cancels n data hmem) hsuccess
        (not_exists.mp habsent)
      simp [observationCallback, hnull] at hok
    obtain ⟨list', reports', hres, hone, hiff⟩ := prvObsCancelRequestCallback_spec h hmem hthere
    obtain ⟨rfl, -⟩ := Prod.mk.inj (Except.ok.inj (hres.symm.trans hok))
    refine ⟨hone, hiff.trans ?_⟩
    cases hsucc : message.any ObserveAnswer.cancels <;>
      simp [ObserveTransaction.succeeds, hsucc]

theorem observationCallback_ok (h : OneSlot uri observationList transactionList) {n : Nat}
    (hmem : (n, transaction) ∈ transactionList)
    (hthere : ∀ data, transaction = .cancel data → message.any ObserveAnswer.cancels = true → ∃ id, (id, uri) ∈ slots observationList) :
    ∃ out, observationCallback transaction message observationList = .ok out := by
  cases transaction with
  | observe data => exact ⟨_, rfl⟩
  | cancel data =>
    obtain ⟨list, reports, hres, -⟩ := prvObsCancelRequestCallback_spec h hmem (hthere data rfl)
    exact ⟨_, hres⟩

theorem lookup_mem {request : Nat} (h : transactionList.lookup request = some transaction) :
    (request, transaction) ∈ transactionList := by
  obtain ⟨before, after, rfl, -⟩ := List.lookup_eq_some_iff.mp h
  simp

theorem observationStep_oneSlot (h : OneSlot uri client.observationList client.transactionList)
    (habout : call.About uri) (hs : observationStep client call = .ok (client', effect)) :
    OneSlot uri client'.observationList client'.transactionList := by
  cases call with
  | observe uri' userData sent =>
    subst habout
    have hres : prvLwm2mObserve client uri' userData sent = (client', effect) := Except.ok.inj hs
    have hcases := prvLwm2mObserve_cases h.ascending uri' userData sent
    rw [hres] at hcases
    rcases hcases with hrefused | ⟨data, hdata, hfresh, hsent⟩
    · rw [hrefused.transactionList]
      exact h.congr hrefused.slots
    · have hone := h.congr hsent.slots
      rw [hsent.transactionList]
      refine ⟨hone.ascending, hone.unique, ?_, ?_⟩
      · intro n data' hmem
        rcases List.mem_append.mp hmem with hold | hnew
        · exact hone.observes n data' hold
        · obtain ⟨-, rfl⟩ : n = client.requests ∧ data' = data := by simpa using hnew
          refine ⟨hdata, fun uri'' hslot => ?_⟩
          rw [hsent.slots] at hslot
          exact absurd hslot (hfresh uri'')
      · intro n data' hmem
        exact hone.cancels n data' (by simpa using hmem)
  | cancel uri' userData sent =>
    subst habout
    have hres : prvLwm2mObserveCancel client uri' userData sent = (client', effect) :=
      Except.ok.inj hs
    have hcases := prvLwm2mObserveCancel_cases client uri' userData sent
    rw [hres] at hcases
    rcases hcases with hrefused | hsent | ⟨observation, code, -, -, hremoved⟩
    · rw [hrefused.transactionList]
      exact h.congr hrefused.slots
    · have hone := h.congr hsent.slots
      rw [hsent.transactionList]
      refine ⟨hone.ascending, hone.unique, ?_, ?_⟩
      · intro n data' hmem
        exact hone.observes n data' (by simpa using hmem)
      · intro n data' hmem
        rcases List.mem_append.mp hmem with hold | hnew
        · exact hone.cancels n data' hold
        · obtain ⟨-, rfl⟩ : n = client.requests ∧ data' = ⟨uri', userData⟩ := by simpa using hnew
          rfl
    · rw [(Prod.mk.inj hremoved).1]
      exact h.remove observation
  | reply request message =>
    unfold observationStep at hs
    cases hlookup : client.transactionList.lookup request with
    | none =>
      simp only [hlookup, Except.ok.injEq, Prod.mk.injEq] at hs
      exact hs.1 ▸ h
    | some transaction =>
      simp only [hlookup] at hs
      cases hcall : observationCallback transaction message client.observationList with
      | error fault => simp [hcall] at hs
      | ok out =>
        obtain ⟨list, reports⟩ := out
        simp only [hcall, Except.ok.injEq, Prod.mk.injEq] at hs
        rw [← hs.1]
        refine (observationCallback_spec h (lookup_mem hlookup) hcall).1.requests fun t ht => ?_
        split at ht
        · exact (List.mem_filter.mp ht).1
        · exact ht

/-! ### Following the intent -/

theorem lastIntent_concat (uri : Lwm2mUri) (past : List (ObservationCall × ObservationEffect))
    (event : ObservationCall × ObservationEffect) :
    lastIntent uri (past ++ [event]) = (acceptedIntent uri event).or (lastIntent uri past) := by
  unfold lastIntent
  cases h : acceptedIntent uri event <;> simp [List.filterMap_append, h]

theorem observeSucceeded_call (past : List (ObservationCall × ObservationEffect))
    (hcall : ∀ request message, call ≠ .reply request message) (effect : ObservationEffect)
    (request : Nat) :
    observeSucceeded (past ++ [(call, effect)]) request = observeSucceeded past request := by
  cases call with
  | reply request message => exact absurd rfl (hcall request message)
  | _ => simp [observeSucceeded]

theorem observeSucceeded_reply (effect : ObservationEffect) (answered request : Nat)
    (message : Option ObserveAnswer) :
    observeSucceeded (past ++ [(.reply answered message, effect)]) request =
      (observeSucceeded past request ||
        effect.request == some request && message.any ObserveAnswer.observes) := by
  simp [observeSucceeded]

theorem inFlight_iff {request : Nat} :
    client.inFlight request = true ↔
      ∃ transaction, (request, transaction) ∈ client.transactionList := by
  simp [ObservedClient.inFlight]

/-- The observation list is what the last accepted call makes it, as soon as that call was
answered; the request of the call is of its kind. -/
def ListFollows (uri : Lwm2mUri) (past : List (ObservationCall × ObservationEffect))
    (client : ObservedClient) : Prop :=
  match lastIntent uri past with
  | none => client.transactionList = [] ∧ client.observes uri = false
  | some (.observe request) => ∃ sent, request = some sent ∧ sent < client.requests ∧
      (∀ transaction, (sent, transaction) ∈ client.transactionList →
        ∃ data, transaction = .observe data) ∧
      (client.inFlight sent = false →
        (client.observes uri = true ↔ observeSucceeded past sent = true))
  | some (.cancel request) => (∀ sent ∈ request, sent < client.requests ∧
      ∀ transaction, (sent, transaction) ∈ client.transactionList →
        ∃ data, transaction = .cancel data) ∧
      ((∀ sent ∈ request, client.inFlight sent = false) → client.observes uri = false)

structure TracksIntent (uri : Lwm2mUri) (past : List (ObservationCall × ObservationEffect))
    (client : ObservedClient) : Prop where
  oneSlot : OneSlot uri client.observationList client.transactionList
  numbered : ∀ request, client.inFlight request = true → request < client.requests
  answered : ∀ request, observeSucceeded past request = true → request < client.requests
  unanswered : ∀ request, client.inFlight request = true → observeSucceeded past request = false
  follows : ListFollows uri past client

theorem TracksIntent.followsIntent (h : TracksIntent uri past client) :
    FollowsIntent uri past client := by
  intro hidle
  have hflight : ∀ request, client.inFlight request = false := by
    intro request
    simp [ObservedClient.inFlight, hidle]
  have hfollows := h.follows
  unfold ListFollows at hfollows
  cases hlast : lastIntent uri past with
  | none => simp_all
  | some intent =>
    cases intent with
    | observe request =>
      simp only [hlast] at hfollows
      obtain ⟨sent, rfl, -, -, hiff⟩ := hfollows
      simpa using hiff (hflight sent)
    | cancel request =>
      simp only [hlast] at hfollows
      simp [hfollows.2 fun sent _ => hflight sent]

theorem observes_congr (h : slots client'.observationList = slots client.observationList) :
    client'.observes uri = client.observes uri := by
  rw [Bool.eq_iff_iff, observes_iff_slots, observes_iff_slots, h]

theorem TracksIntent.refused (h : TracksIntent uri past client)
    (hcall : ∀ request message, call ≠ .reply request message)
    (hrefused : Refused client client' effect) :
    TracksIntent uri (past ++ [(call, effect)]) client' := by
  have hintent : acceptedIntent uri (call, effect) = none := by
    cases call <;> simp [acceptedIntent, hrefused.code]
  have hlast : lastIntent uri (past ++ [(call, effect)]) = lastIntent uri past := by
    rw [lastIntent_concat, hintent, Option.none_or]
  have hsucc := observeSucceeded_call past hcall effect
  have hflight : ∀ request, client'.inFlight request = client.inFlight request := by
    intro request
    simp [ObservedClient.inFlight, hrefused.transactionList]
  constructor
  · rw [hrefused.transactionList]
    exact h.oneSlot.congr hrefused.slots
  · simpa [hflight, hrefused.requests] using h.numbered
  · simpa [hsucc, hrefused.requests] using h.answered
  · simpa [hflight, hsucc] using h.unanswered
  · have hfollows := h.follows
    unfold ListFollows at hfollows ⊢
    simpa only [hlast, hsucc, hflight, hrefused.transactionList, hrefused.requests,
      observes_congr hrefused.slots] using hfollows

theorem inFlight_sent (hsent : Sent client client' transaction effect) (request : Nat) :
    client'.inFlight request = true ↔
      client.inFlight request = true ∨ request = client.requests := by
  have hcomm : client.requests = request ↔ request = client.requests := eq_comm
  simp [ObservedClient.inFlight, hsent.transactionList, hcomm]

/-- After an accepted call the list need not follow before its request is answered. -/
theorem TracksIntent.sent (h : TracksIntent uri past client)
    (hcall : ∀ request message, call ≠ .reply request message)
    (hsent : Sent client client' transaction effect)
    (hone : OneSlot uri client'.observationList client'.transactionList)
    (hintent : acceptedIntent uri (call, effect) = some (match transaction with | .observe _ => .observe (some client.requests) | .cancel _ => .cancel (some client.requests))) :
    TracksIntent uri (past ++ [(call, effect)]) client' := by
  have hsucc := observeSucceeded_call past hcall effect
  have hnew : ∀ other, (client.requests, other) ∈ client'.transactionList →
      other = transaction := by
    intro other hmem
    rw [hsent.transactionList, List.mem_append] at hmem
    rcases hmem with hold | hnew
    · exact absurd (h.numbered _ (inFlight_iff.mpr ⟨other, hold⟩)) (lt_irrefl _)
    · simpa using hnew
  constructor
  · exact hone
  · intro request hflight
    rw [hsent.requests]
    rcases (inFlight_sent hsent request).mp hflight with hold | rfl
    · exact Nat.lt_succ_of_lt (h.numbered request hold)
    · exact Nat.lt_succ_self _
  · intro request hs
    rw [hsucc] at hs
    rw [hsent.requests]
    exact Nat.lt_succ_of_lt (h.answered request hs)
  · intro request hflight
    rw [hsucc]
    rcases (inFlight_sent hsent request).mp hflight with hold | rfl
    · exact h.unanswered request hold
    · exact Bool.eq_false_iff.mpr fun hs => lt_irrefl _ (h.answered _ hs)
  · have hflight : client'.inFlight client.requests = true :=
      (inFlight_sent hsent _).mpr (Or.inr rfl)
    unfold ListFollows
    rw [lastIntent_concat, hintent, hsent.requests]
    cases transaction with
    | observe data =>
      exact ⟨_, rfl, Nat.lt_succ_self _, fun other hmem => ⟨data, hnew other hmem⟩, by
        simp [hflight]⟩
    | cancel data =>
      refine ⟨?_, by simp [hflight]⟩
      rintro _ ⟨⟩
      exact ⟨Nat.lt_succ_self _, fun other hmem => ⟨data, hnew other hmem⟩⟩

theorem TracksIntent.removed (h : TracksIntent uri past client) {observation : Observation}
    (hfind : prvFindObservationByUri uri client.observationList = some observation)
    {code : CoapCode} (hcode : code.accepts = true) (userData : Nat) (sent : Bool) :
    TracksIntent uri (past ++ [(.cancel uri userData sent, .only code)])
      { client with observationList := observeRemove observation client.observationList } := by
  have hcall : ∀ request message,
      ObservationCall.cancel uri userData sent ≠ .reply request message := by simp
  have hsucc := observeSucceeded_call past hcall (.only code)
  constructor
  · exact h.oneSlot.remove observation
  · exact h.numbered
  · simpa [hsucc] using h.answered
  · intro request hflight
    rw [hsucc]
    exact h.unanswered request hflight
  · unfold ListFollows
    rw [lastIntent_concat]
    simp only [acceptedIntent, ObservationEffect.only, hcode, and_self, if_true, Option.some_or]
    refine ⟨by simp, fun _ => ?_⟩
    rw [Bool.eq_false_iff, ne_eq, observes_iff_slots, not_exists]
    exact h.oneSlot.remove_found hfind

theorem TracksIntent.dropped (h : TracksIntent uri past client) (request : Nat)
    (message : Option ObserveAnswer) (code : CoapCode) :
    TracksIntent uri (past ++ [(.reply request message, .only code)]) client := by
  have hlast : lastIntent uri (past ++ [(.reply request message, .only code)]) =
      lastIntent uri past := by
    simp [lastIntent_concat, acceptedIntent]
  have hsucc : ∀ other, observeSucceeded (past ++ [(.reply request message, .only code)]) other =
      observeSucceeded past other := by
    intro other
    simp [observeSucceeded_reply, ObservationEffect.only]
  refine ⟨h.oneSlot, h.numbered, by simpa [hsucc] using h.answered,
    by simpa [hsucc] using h.unanswered, ?_⟩
  have hfollows := h.follows
  unfold ListFollows at hfollows ⊢
  simpa only [hlast, hsucc] using hfollows

def ObservedClient.replied (client : ObservedClient) (request : Nat)
    (message : Option ObserveAnswer) (observationList : List Observation) : ObservedClient :=
  { client with
    observationList
    transactionList :=
      if isFinal message then client.transactionList.filter fun other => other.1 != request
      else client.transactionList }

theorem mem_replied {request : Nat} {other : Nat × ObserveTransaction} :
    other ∈ (client.replied request message observationList).transactionList ↔
      other ∈ client.transactionList ∧ (isFinal message = true → other.1 ≠ request) := by
  unfold ObservedClient.replied
  cases isFinal message <;> simp

theorem inFlight_replied {request other : Nat} :
    (client.replied request message observationList).inFlight other = true ↔
      client.inFlight other = true ∧ (isFinal message = true → other ≠ request) := by
  simp only [inFlight_iff, mem_replied]
  constructor
  · rintro ⟨transaction, hmem, hne⟩
    exact ⟨⟨transaction, hmem⟩, hne⟩
  · rintro ⟨⟨transaction, hmem⟩, hne⟩
    exact ⟨transaction, hmem, hne⟩

theorem observes_replied {request : Nat}
    (h : OneSlot uri client.observationList client.transactionList)
    (hmem : (request, transaction) ∈ client.transactionList)
    (hcall : observationCallback transaction message client.observationList = .ok (list, reports)) :
    (client.replied request message list).observes uri = true ↔
      if transaction.succeeds message then ∃ data, transaction = .observe data
      else client.observes uri = true := by
  rw [observes_iff_slots, observes_iff_slots]
  exact (observationCallback_spec h hmem hcall).2

theorem ReplyInOrder.failed {request : Nat}
    (h : ReplyInOrder uri past client (.reply request message))
    (hlookup : client.transactionList.lookup request = some transaction)
    (hfailed : transaction.succeeds message = false) (hfinal : isFinal message = true)
    (hlast : (lastIntent uri past).bind ObservationIntent.request = some request) :
    client.observes uri = false := by
  unfold ReplyInOrder at h
  simp only [hlookup] at h
  cases transaction with
  | observe data =>
    simp only [ObserveTransaction.succeeds] at hfailed
    simp only [hfailed] at h
    exact h hfinal hlast
  | cancel data =>
    simp only [ObserveTransaction.succeeds] at hfailed
    simp only [hfailed] at h
    exact h hfinal hlast

theorem ReplyInOrder.observed {request : Nat} {data : ObservationData}
    (h : ReplyInOrder uri past client (.reply request message))
    (hlookup : client.transactionList.lookup request = some (.observe data))
    (hsuccess : message.any ObserveAnswer.observes = true) :
    client.observes uri = false → ∃ last, lastIntent uri past = some (.observe (some last)) ∧
      client.inFlight last = true := by
  unfold ReplyInOrder at h
  simpa only [hlookup, hsuccess, if_true] using h

theorem ReplyInOrder.cancelled {request : Nat} {data : CancellationData}
    (h : ReplyInOrder uri past client (.reply request message))
    (hlookup : client.transactionList.lookup request = some (.cancel data))
    (hsuccess : message.any ObserveAnswer.cancels = true) :
    client.observes uri = true ∧ ∀ last,
      lastIntent uri past = some (.observe (some last)) → client.inFlight last = true := by
  unfold ReplyInOrder at h
  simpa only [hlookup, hsuccess, if_true] using h

theorem ListFollows.replied {request : Nat} (h : TracksIntent uri past client)
    (hlookup : client.transactionList.lookup request = some transaction)
    (hcall : observationCallback transaction message client.observationList = .ok (list, reports))
    (horder : ReplyInOrder uri past client (.reply request message)) (code : CoapCode) :
    ListFollows uri (past ++ [(.reply request message, ⟨code, some request, reports⟩)])
      (client.replied request message list) := by
  have hmem := lookup_mem hlookup
  have hflight : client.inFlight request = true := inFlight_iff.mpr ⟨transaction, hmem⟩
  have hobs := observes_replied h.oneSlot hmem hcall
  have hlast : lastIntent uri (past ++ [(.reply request message, ⟨code, some request, reports⟩)]) =
      lastIntent uri past := by
    simp [lastIntent_concat, acceptedIntent]
  -- what is in flight no longer was answered before, or now
  have hgone : ∀ sent, (client.replied request message list).inFlight sent = false →
      client.inFlight sent = false ∨ isFinal message = true ∧ sent = request := by
    intro sent hsent
    rw [Bool.eq_false_iff, ne_eq, inFlight_replied] at hsent
    cases hbefore : client.inFlight sent with
    | false => exact Or.inl rfl
    | true =>
      simp only [hbefore, true_and, Classical.not_imp, not_not] at hsent
      exact Or.inr hsent
  have hfollows := h.follows
  unfold ListFollows at hfollows ⊢
  rw [hlast]
  cases hintent : lastIntent uri past with
  | none =>
    simp only [hintent] at hfollows
    rw [hfollows.1] at hmem
    cases hmem
  | some intent =>
    cases intent with
    | observe sentRequest =>
      simp only [hintent] at hfollows
      obtain ⟨sent, rfl, hlt, hkind, hiff⟩ := hfollows
      refine ⟨sent, rfl, hlt, fun other hother => hkind other (mem_replied.mp hother).1, ?_⟩
      intro hsent
      rw [hobs, observeSucceeded_reply]
      cases hsuccess : transaction.succeeds message with
      | true =>
        cases transaction with
        | observe data =>
          have hmessage : message.any ObserveAnswer.observes = true := hsuccess
          rcases hgone sent hsent with hbefore | ⟨-, rfl⟩
          · -- the call was answered before, so the success found an observation
            cases hthere : client.observes uri with
            | true => simp [(hiff hbefore).mp hthere]
            | false =>
              obtain ⟨last, hlast', hflight'⟩ := horder.observed hlookup hmessage hthere
              rw [hintent] at hlast'
              cases hlast'
              simp [hbefore] at hflight'
          · simp [hmessage]
        | cancel data =>
          have hwaits := (horder.cancelled hlookup hsuccess).2 sent hintent
          rcases hgone sent hsent with hbefore | ⟨-, rfl⟩
          · simp [hbefore] at hwaits
          · obtain ⟨data', hdata'⟩ := hkind _ hmem
            cases hdata'
      | false =>
        simp only [Bool.false_eq_true, if_false]
        rcases hgone sent hsent with hbefore | ⟨hfinal, rfl⟩
        · have hne : request ≠ sent := by
            rintro rfl
            simp [hflight] at hbefore
          simp [hiff hbefore, hne]
        · -- the failed reply is the one the call waited for
          have habsent := horder.failed hlookup hsuccess hfinal (by simp [hintent,
            ObservationIntent.request])
          obtain ⟨data, rfl⟩ := hkind _ hmem
          simp only [ObserveTransaction.succeeds] at hsuccess
          simp [habsent, h.unanswered _ hflight, hsuccess]
    | cancel sentRequest =>
      simp only [hintent] at hfollows
      refine ⟨fun sent hsent => ⟨(hfollows.1 sent hsent).1, fun other hother =>
        (hfollows.1 sent hsent).2 other (mem_replied.mp hother).1⟩, ?_⟩
      intro hanswered
      rw [Bool.eq_false_iff, ne_eq, hobs]
      -- either the cancel was answered before, or this is its last reply
      have hcases : client.observes uri = false ∨
          isFinal message = true ∧ sentRequest = some request := by
        by_cases hbefore : ∀ sent ∈ sentRequest, client.inFlight sent = false
        · exact Or.inl (hfollows.2 hbefore)
        · push Not at hbefore
          obtain ⟨sent, hsent, hflight'⟩ := hbefore
          rcases hgone sent (hanswered sent hsent) with hno | ⟨hfinal, rfl⟩
          · exact absurd hno hflight'
          · exact Or.inr ⟨hfinal, hsent⟩
      cases hsuccess : transaction.succeeds message with
      | true =>
        simp only [if_true]
        rintro ⟨data, rfl⟩
        rcases hcases with habsent | ⟨-, rfl⟩
        · obtain ⟨last, hlast', -⟩ := horder.observed hlookup hsuccess habsent
          rw [hintent] at hlast'
          cases hlast'
        · obtain ⟨data', hdata'⟩ := (hfollows.1 request rfl).2 _ hmem
          cases hdata'
      | false =>
        simp only [Bool.false_eq_true, if_false]
        rcases hcases with habsent | ⟨hfinal, rfl⟩
        · simp [habsent]
        · simp [horder.failed hlookup hsuccess hfinal (by simp [hintent,
            ObservationIntent.request])]

theorem observes_isFinal (h : message.any ObserveAnswer.observes = true) :
    isFinal message = true := by
  cases message with
  | none => rfl
  | some packet => simp_all [ObserveAnswer.observes, isFinal]

theorem TracksIntent.replied {request : Nat} (h : TracksIntent uri past client)
    (hlookup : client.transactionList.lookup request = some transaction)
    (hcall : observationCallback transaction message client.observationList = .ok (list, reports))
    (horder : ReplyInOrder uri past client (.reply request message)) (code : CoapCode) :
    TracksIntent uri (past ++ [(.reply request message, ⟨code, some request, reports⟩)])
      (client.replied request message list) := by
  have hmem := lookup_mem hlookup
  constructor
  · exact (observationCallback_spec h.oneSlot hmem hcall).1.requests fun t ht =>
      (mem_replied.mp ht).1
  · exact fun other hother => h.numbered other (inFlight_replied.mp hother).1
  · intro other hother
    simp only [observeSucceeded_reply, Bool.or_eq_true, Bool.and_eq_true, beq_iff_eq,
      Option.some.injEq] at hother
    rcases hother with hold | ⟨rfl, -⟩
    · exact h.answered other hold
    · exact h.numbered request (inFlight_iff.mpr ⟨transaction, hmem⟩)
  · intro other hother
    obtain ⟨hbefore, hne⟩ := inFlight_replied.mp hother
    rw [observeSucceeded_reply, h.unanswered other hbefore]
    cases hmessage : message.any ObserveAnswer.observes with
    | false => simp
    | true => simp [(hne (observes_isFinal hmessage)).symm]
  · exact ListFollows.replied h hlookup hcall horder code

theorem TracksIntent.step (h : TracksIntent uri past client) (call : ObservationCall)
    (habout : call.About uri) (horder : ReplyInOrder uri past client call) :
    ∃ client' effect, observationStep client call = .ok (client', effect) ∧
      TracksIntent uri (past ++ [(call, effect)]) client' := by
  cases call with
  | observe uri' userData sent =>
    obtain ⟨client', effect, hres⟩ : ∃ client' effect,
        prvLwm2mObserve client uri' userData sent = (client', effect) := ⟨_, _, rfl⟩
    have hs : observationStep client (.observe uri' userData sent) = .ok (client', effect) :=
      congrArg Except.ok hres
    refine ⟨client', effect, hs, ?_⟩
    have hone := observationStep_oneSlot h.oneSlot habout hs
    subst habout
    have hcases := prvLwm2mObserve_cases h.oneSlot.ascending uri' userData sent
    rw [hres] at hcases
    rcases hcases with hrefused | ⟨data, -, -, hsent⟩
    · exact h.refused (by simp) hrefused
    · exact h.sent (by simp) hsent hone (by simpa [acceptedIntent, hsent.code] using hsent.request)
  | cancel uri' userData sent =>
    obtain ⟨client', effect, hres⟩ : ∃ client' effect,
        prvLwm2mObserveCancel client uri' userData sent = (client', effect) := ⟨_, _, rfl⟩
    have hs : observationStep client (.cancel uri' userData sent) = .ok (client', effect) :=
      congrArg Except.ok hres
    refine ⟨client', effect, hs, ?_⟩
    have hone := observationStep_oneSlot h.oneSlot habout hs
    subst habout
    have hcases := prvLwm2mObserveCancel_cases client uri' userData sent
    rw [hres] at hcases
    rcases hcases with hrefused | hsent | ⟨observation, code, hcode, hfind, hremoved⟩
    · exact h.refused (by simp) hrefused
    · exact h.sent (by simp) hsent hone (by simpa [acceptedIntent, hsent.code] using hsent.request)
    · obtain ⟨rfl, rfl⟩ := Prod.mk.inj hremoved
      exact h.removed hfind hcode userData sent
  | reply request message =>
    cases hlookup : client.transactionList.lookup request with
    | none =>
      exact ⟨client, .only .ignore, by simp [observationStep, hlookup],
        h.dropped request message .ignore⟩
    | some transaction =>
      have hthere : ∀ data, transaction = .cancel data →
          message.any ObserveAnswer.cancels = true →
          ∃ id, (id, uri) ∈ slots client.observationList := by
        rintro data rfl hsuccess
        exact observes_iff_slots.mp (horder.cancelled hlookup hsuccess).1
      obtain ⟨⟨list, reports⟩, hcall⟩ :=
        observationCallback_ok h.oneSlot (lookup_mem hlookup) hthere
      exact ⟨client.replied request message list, ⟨.noError, some request, reports⟩,
        by simp [observationStep, hlookup, hcall, ObservedClient.replied],
        h.replied hlookup hcall horder .noError⟩

theorem Unobserved.oneSlot (h : Unobserved uri client) :
    OneSlot uri client.observationList client.transactionList := by
  have habsent : ∀ id, (id, uri) ∉ slots client.observationList := by
    intro id hslot
    have := observes_iff_slots.mpr ⟨id, hslot⟩
    simp [h.absent] at this
  refine ⟨h.ascending, fun i j hi => absurd hi (habsent i), ?_, ?_⟩ <;> simp [h.idle]

theorem Unobserved.tracksIntent (h : Unobserved uri client) : TracksIntent uri [] client where
  oneSlot := h.oneSlot
  numbered := by simp [ObservedClient.inFlight, h.idle]
  answered := by simp [observeSucceeded]
  unanswered := by simp [observeSucceeded]
  follows := ⟨h.idle, h.absent⟩

/-- Observes and cancels on one URI and their replies, in any order: there is one observation
for the URI at most. If every reply comes in order, nothing goes wrong, and once all have
arrived there is an observation exactly if the last accepted call was an observe that
succeeded. -/
theorem lwm2mObserve_followsIntent (uri : Lwm2mUri) (client : ObservedClient)
    (calls : List ObservationCall) (hstart : Unobserved uri client)
    (habout : ∀ call ∈ calls, call.About uri) :
    EachReached observationStep (fun _ => AtMostOneObservation uri) [] client calls ∧
      (StepsMeetAfter observationStep (ReplyInOrder uri) [] client calls →
        (∃ final effects, run observationStep client calls = .ok (final, effects)) ∧
          EachReached observationStep (FollowsIntent uri) [] client calls) := by
  constructor
  · have hone : EachReached observationStep
        (fun _ c => OneSlot uri c.observationList c.transactionList) [] client calls :=
      eachReached_of_invariant
        (fun _ _ _ _ _ h hcall hs => observationStep_oneSlot h hcall hs)
        calls [] client hstart.oneSlot
        (StepsMeetAfter.of_forall (P := ObservationCall.About uri) calls [] client habout)
    exact EachReached.imp (fun _ _ h => h.atMostOne) calls [] client hone
  · intro hmeet
    have hmeet' := StepsMeetAfter.and_forall calls [] client hmeet habout
    have hstep : ∀ past s call, TracksIntent uri past s →
        ReplyInOrder uri past s call ∧ call.About uri → ∃ s' effect,
          observationStep s call = .ok (s', effect) ∧
            TracksIntent uri (past ++ [(call, effect)]) s' :=
      fun past s call h hcond => h.step call hcond.2 hcond.1
    obtain ⟨hrun, htracks⟩ := run_total_after hstep calls [] client hstart.tracksIntent hmeet'
    exact ⟨hrun, EachReached.imp (fun _ _ h => h.followsIntent) calls [] client htracks⟩

/-- /3/0/9. -/
def batteryLevel : Lwm2mUri := ⟨3, 0, 9, lwm2mMaxId⟩

/-- A client that was just registered. -/
def justRegistered : ObservedClient := ⟨0, [], [], 0⟩

/-- 2.05 with an Observe option. -/
def observeContent : ObserveAnswer := ⟨coapContent, true, none⟩

/-- An observe and its reply, a cancel and its reply. -/
def observedOnce : List ObservationCall :=
  [.observe batteryLevel 1 true, .reply 0 (some observeContent), .cancel batteryLevel 2 true,
    .reply 1 (some ⟨coapContent, false, none⟩)]

theorem observedOnce_inOrder :
    StepsMeetAfter observationStep (ReplyInOrder batteryLevel) [] justRegistered observedOnce := by
  refine ⟨trivial, ?_⟩
  rintro _ _ ⟨⟩
  refine ⟨fun _ => ⟨0, rfl, rfl⟩, ?_⟩
  rintro _ _ ⟨⟩
  refine ⟨trivial, ?_⟩
  rintro _ _ ⟨⟩
  refine ⟨⟨rfl, fun last hlast => ?_⟩, fun _ _ _ => trivial⟩
  cases (show some (ObservationIntent.cancel (some 1)) = some (.observe (some last)) from hlast)

theorem observedOnce_followsIntent :
    EachReached observationStep (fun _ => AtMostOneObservation batteryLevel) [] justRegistered
        observedOnce ∧
      (∃ final effects, run observationStep justRegistered observedOnce = .ok (final, effects)) ∧
        EachReached observationStep (FollowsIntent batteryLevel) [] justRegistered
          observedOnce := by
  obtain ⟨hone, hfollows⟩ := lwm2mObserve_followsIntent batteryLevel justRegistered observedOnce
    ⟨ascending_nil, rfl, rfl⟩ (by simp [observedOnce, ObservationCall.About])
  exact ⟨hone, hfollows observedOnce_inOrder⟩

/-- An observation is renewed and the user cancels before the answer is there: the cancel is
accepted without telling the client, and the answer brings the observation back. -/
theorem cancelledRenewal_notFollowed :
    ¬EachReached observationStep (FollowsIntent batteryLevel) [] justRegistered
      [.observe batteryLevel 1 true, .reply 0 (some observeContent),
        .observe batteryLevel 2 true, .cancel batteryLevel 3 true,
        .reply 1 (some observeContent)] := by
  intro h
  obtain ⟨-, hsecond⟩ := h _ _ rfl
  obtain ⟨-, hthird⟩ := hsecond _ _ rfl
  obtain ⟨-, hfourth⟩ := hthird _ _ rfl
  obtain ⟨-, hfifth⟩ := hfourth _ _ rfl
  obtain ⟨hfollows, -⟩ := hfifth _ _ rfl
  obtain ⟨request, hlast, -⟩ := (hfollows rfl).mp rfl
  cases (show some (ObservationIntent.cancel none) = some (.observe (some request)) from hlast)

end Wakaama
