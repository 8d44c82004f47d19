import Wakaama.Core.ObservationServer
import Wakaama.Core.Proofs.ObservationSlots
import Wakaama.Misc.Run

/-!
# The observation that a cancelled request removes

`prv_obsCancelRequestCallback` does not check that there still is an observation for the URI. There
is one as long as nothing takes it away while the request is in flight.
-/

namespace Wakaama

variable {Session : Type}

/-- A request for the cancellation of an observation is in flight, other than the one with the
number. -/
def CancelPending (context : ObserverContext Session) (except : Option Nat) (clientID : UInt16)
    (uri : Lwm2mUri) : Prop :=
  ∃ pending ∈ context.transactionList, some pending.number ≠ except ∧ pending.client = clientID ∧
    ∃ data, pending.transaction = .cancel data ∧ data.uri = uri

/-- The id of the next observation is none that a request in flight will use. -/
def NextIdFree (context : ObserverContext Session) (clientID id : UInt16) : Prop :=
  ∀ pending ∈ context.transactionList, pending.client = clientID →
    ∀ data, pending.transaction = .observe data → data.id ≠ id

/-- An event takes no observation away whose cancellation is in flight, other than by the reply to
that, and gives no client the number of one; a new observation gets an id of its own. -/
def CancelKept (context : ObserverContext Session) : ObserverCall Session → Prop
  | .observe clientID _ _ _ => ∀ clientP, context.clientList clientID = some clientP →
      NextIdFree context clientID (clientP.observationId + 1)
  | .cancel clientID uri _ _ => ∀ clientP, context.clientList clientID = some clientP →
      ∀ observation, prvFindObservationByUri uri clientP.observationList = some observation →
        observation.status ≠ .registered → ¬ CancelPending context none clientID uri
  | .reply request message => message.any ObserveAnswer.cancels = true →
      ∀ pending ∈ context.transactionList, pending.number = request →
        ∀ data, pending.transaction = .cancel data →
          ¬ CancelPending context (some request) pending.client data.uri
  | .register internalID _ => context.clientList internalID = none →
      ∀ uri, ¬ CancelPending context none internalID uri
  | .update clientID _ objects => ∀ clientP, context.clientList clientID = some clientP →
      ∀ list, objects = some list → ∀ observation ∈ clientP.observationList,
        isDropped list observation = true → ¬ CancelPending context none clientID observation.uri
  | .remove _ => True

/-- If a reply accepts a cancellation now, there is an observation to remove. -/
def RemovalsFind (context : ObserverContext Session) : Prop :=
  ∀ pending ∈ context.transactionList, ∀ data, pending.transaction = .cancel data →
    ∀ clientP, context.clientList pending.client = some clientP →
      ∃ observation, prvFindObservationByUri data.uri clientP.observationList = some observation ∧
        observation ∈ clientP.observationList

structure CancelsHeld (context : ObserverContext Session) : Prop where
  ascending : ∀ clientID clientP, context.clientList clientID = some clientP →
    Ascending Observation.id clientP.observationList
  fresh : ∀ pending ∈ context.transactionList, ∀ data, pending.transaction = .observe data →
    ∀ clientP, context.clientList pending.client = some clientP →
      ∀ uri, (data.id, uri) ∉ slots clientP.observationList
  apart : ∀ pending ∈ context.transactionList, ∀ other ∈ context.transactionList,
    pending.client = other.client → ∀ data data', pending.transaction = .observe data →
      other.transaction = .observe data' → data.id = data'.id → pending.number = other.number
  cancels : ∀ pending ∈ context.transactionList, ∀ data, pending.transaction = .cancel data →
    ∀ clientP, context.clientList pending.client = some clientP →
      ∃ id, (id, data.uri) ∈ slots clientP.observationList

/-- The server before any client registers. -/
def noObservers : ObserverContext Session := ⟨fun _ => none, [], 0⟩

theorem noObservers_held : CancelsHeld (noObservers : ObserverContext Session) where
  ascending _ _ h := nomatch h
  fresh _ h := nomatch h
  apart _ h := nomatch h
  cancels _ h := nomatch h

theorem setClient_self (context : ObserverContext Session) (clientID : UInt16)
    (client : Option (ObserverClient Session)) :
    (context.setClient clientID client).clientList clientID = client := if_pos rfl

variable {observationList : List Observation}

theorem slot_uri_eq (hasc : Ascending Observation.id observationList) {id : UInt16}
    {uri uri' : Lwm2mUri} (h : (id, uri) ∈ slots observationList)
    (h' : (id, uri') ∈ slots observationList) : uri = uri' := by
  obtain ⟨observation, hmem, hid, huri⟩ := mem_slots.1 h
  obtain ⟨observation', hmem', hid', huri'⟩ := mem_slots.1 h'
  have hfind := (lwm2mListFind_eq_some_iff hasc).2 ⟨hmem, hid⟩
  have hfind' := (lwm2mListFind_eq_some_iff hasc).2 ⟨hmem', hid'⟩
  obtain rfl := Option.some.inj (hfind.symm.trans hfind')
  exact huri.symm.trans huri'

theorem found_of_slot {uri : Lwm2mUri} {id : UInt16} (h : (id, uri) ∈ slots observationList) :
    ∃ observation, prvFindObservationByUri uri observationList = some observation ∧
      observation ∈ observationList := by
  cases hfind : prvFindObservationByUri uri observationList with
  | none => exact absurd h (prvFindObservationByUri_none hfind id)
  | some observation => exact ⟨observation, rfl, (prvFindObservationByUri_some hfind).1⟩

theorem prvObsRequestCallback_idle {data : ObservationData} {message : Option ObserveAnswer}
    (h : obsRequestCode (prvFindObservationByUri data.uri observationList) message ≠ coapContent ∨ (message.bind ObserveAnswer.block2More) = some true) :
    (prvObsRequestCallback data message observationList).1 = observationList := by
  simp only [prvObsRequestCallback]
  split
  · rfl
  · next hcode =>
    rw [if_pos (h.resolve_left hcode)]

theorem dropLoop_slots (objects : List (UInt16 × List UInt16)) (todo : List Observation) :
    ∀ kept : List Observation, Ascending Observation.id kept →
      let rest := todo.foldl (fun kept observation =>
        if isDropped objects observation then observeRemove observation kept else kept) kept
      Ascending Observation.id rest ∧ (∀ slot ∈ slots rest, slot ∈ slots kept) ∧
        ∀ slot ∈ slots kept, slot ∉ slots rest →
          ∃ observation ∈ todo, isDropped objects observation = true ∧ observation.id = slot.1 := by
  induction todo with
  | nil => exact fun kept hasc => ⟨hasc, fun _ h => h, fun slot h hgone => absurd h hgone⟩
  | cons observation todo ih =>
    intro kept hasc
    by_cases hdrop : isDropped objects observation = true
    · simp only [List.foldl_cons, if_pos hdrop]
      obtain ⟨hrest, hsub, hgone⟩ := ih _ (observeRemove_ascending hasc observation)
      refine ⟨hrest, fun slot hslot => ?_, fun slot hslot hlost => ?_⟩
      · exact ((mem_slots_observeRemove hasc observation slot.1 slot.2).1 (hsub slot hslot)).1
      · by_cases hid : slot.1 = observation.id
        · exact ⟨observation, by simp, hdrop, hid.symm⟩
        · obtain ⟨other, hmem, hother⟩ := hgone slot
            ((mem_slots_observeRemove hasc observation slot.1 slot.2).2 ⟨hslot, hid⟩) hlost
          exact ⟨other, List.mem_cons_of_mem _ hmem, hother⟩
    · simp only [List.foldl_cons, if_neg hdrop]
      obtain ⟨hrest, hsub, hgone⟩ := ih kept hasc
      refine ⟨hrest, hsub, fun slot hslot hlost => ?_⟩
      obtain ⟨other, hmem, hother⟩ := hgone slot hslot hlost
      exact ⟨other, List.mem_cons_of_mem _ hmem, hother⟩

theorem CancelsHeld.removalsFind {context : ObserverContext Session} (h : CancelsHeld context) :
    RemovalsFind context := by
  intro pending hmem data hdata clientP hclient
  obtain ⟨id, hslot⟩ := h.cancels pending hmem data hdata clientP hclient
  exact found_of_slot hslot

namespace CancelsHeld

variable {context : ObserverContext Session}

theorem shrink (h : CancelsHeld context) (transactionList : List (PendingObservation Session))
    (hsub : ∀ pending ∈ transactionList, pending ∈ context.transactionList) :
    CancelsHeld { context with transactionList } where
  ascending := h.ascending
  fresh pending hmem := h.fresh pending (hsub pending hmem)
  apart pending hmem other hother := h.apart pending (hsub pending hmem) other (hsub other hother)
  cancels pending hmem := h.cancels pending (hsub pending hmem)

theorem drop (h : CancelsHeld context) (clientID : UInt16) :
    CancelsHeld (context.setClient clientID none) := by
  have hold : ∀ other clientP, (context.setClient clientID none).clientList other = some clientP →
      context.clientList other = some clientP := by
    intro other clientP hclient
    by_cases hother : other = clientID
    · simp [ObserverContext.setClient, hother] at hclient
    · simpa [ObserverContext.setClient, hother] using hclient
  exact ⟨fun other clientP hclient => h.ascending other clientP (hold other clientP hclient),
    fun pending hmem data hdata clientP hclient =>
      h.fresh pending hmem data hdata clientP (hold _ clientP hclient), h.apart,
    fun pending hmem data hdata clientP hclient =>
      h.cancels pending hmem data hdata clientP (hold _ clientP hclient)⟩

variable {clientP old : ObserverClient Session} {clientID : UInt16}

theorem change (h : CancelsHeld context) (hasc : Ascending Observation.id clientP.observationList)
    (hfresh : ∀ pending ∈ context.transactionList, pending.client = clientID → ∀ data, pending.transaction = .observe data → ∀ uri, (data.id, uri) ∉ slots clientP.observationList)
    (hcancels : ∀ pending ∈ context.transactionList, pending.client = clientID → ∀ data, pending.transaction = .cancel data → ∃ id, (id, data.uri) ∈ slots clientP.observationList) :
    CancelsHeld (context.setClient clientID (some clientP)) := by
  have hlist : ∀ other client,
      (context.setClient clientID (some clientP)).clientList other = some client →
        other = clientID ∧ client = clientP ∨ context.clientList other = some client := by
    intro other client hclient
    by_cases hother : other = clientID
    · left
      simpa [ObserverContext.setClient, hother, eq_comm] using hclient
    · right
      simpa [ObserverContext.setClient, hother] using hclient
  refine ⟨fun other client hclient => ?_, fun pending hmem data hdata client hclient => ?_, h.apart,
    fun pending hmem data hdata client hclient => ?_⟩
  · rcases hlist other client hclient with ⟨-, rfl⟩ | hold
    · exact hasc
    · exact h.ascending other client hold
  · rcases hlist _ client hclient with ⟨hsame, rfl⟩ | hold
    · exact hfresh pending hmem hsame data hdata
    · exact h.fresh pending hmem data hdata client hold
  · rcases hlist _ client hclient with ⟨hsame, rfl⟩ | hold
    · exact hcancels pending hmem hsame data hdata
    · exact h.cancels pending hmem data hdata client hold

theorem same (h : CancelsHeld context) (hold : context.clientList clientID = some old)
    (hslots : slots clientP.observationList = slots old.observationList) :
    CancelsHeld (context.setClient clientID (some clientP)) := by
  refine h.change ?_ (fun pending hmem hsame data hdata => ?_) fun pending hmem hsame data hdata => ?_
  · rw [ascending_iff_slots, hslots, ← ascending_iff_slots]
    exact h.ascending clientID old hold
  · rw [hslots]
    exact h.fresh pending hmem data hdata old (by rw [hsame]; exact hold)
  · rw [hslots]
    exact h.cancels pending hmem data hdata old (by rw [hsame]; exact hold)

theorem removed (h : CancelsHeld context) (hold : context.clientList clientID = some old)
    (hasc : Ascending Observation.id clientP.observationList)
    (hsub : ∀ slot ∈ slots clientP.observationList, slot ∈ slots old.observationList)
    (hkept : ∀ slot ∈ slots old.observationList, slot ∉ slots clientP.observationList → ¬ CancelPending context none clientID slot.2) :
    CancelsHeld (context.setClient clientID (some clientP)) := by
  refine h.change hasc (fun pending hmem hsame data hdata uri hslot => ?_)
    fun pending hmem hsame data hdata => ?_
  · exact h.fresh pending hmem data hdata old (by rw [hsame]; exact hold) uri (hsub _ hslot)
  · obtain ⟨id, hslot⟩ := h.cancels pending hmem data hdata old (by rw [hsame]; exact hold)
    refine ⟨id, Decidable.by_contra fun hgone => ?_⟩
    exact hkept _ hslot hgone ⟨pending, hmem, nofun, hsame, data, hdata, rfl⟩

/-- A request may be sent: an observe with an id of its own, a cancellation of an observation. -/
theorem send (h : CancelsHeld context) (hclient : context.clientList clientID = some clientP)
    (number requests : Nat) (peerH : Session) {transaction : ObserveTransaction}
    (hobserve : ∀ data, transaction = .observe data → NextIdFree context clientID data.id ∧ ∀ uri, (data.id, uri) ∉ slots clientP.observationList)
    (hcancel : ∀ data, transaction = .cancel data → ∃ id, (id, data.uri) ∈ slots clientP.observationList) :
    CancelsHeld { context with
      transactionList := context.transactionList ++
        [{ number, peerH, client := clientID, transaction }]
      requests } := by
  refine ⟨h.ascending, fun pending hmem data hdata client hclient' => ?_,
    fun pending hmem other hother hsame data data' hdata hdata' hid => ?_,
    fun pending hmem data hdata client hclient' => ?_⟩
  · rcases List.mem_append.1 hmem with hmem | hmem
    · exact h.fresh pending hmem data hdata client hclient'
    · obtain rfl := List.mem_singleton.1 hmem
      obtain rfl : clientP = client := Option.some.inj (hclient.symm.trans hclient')
      exact (hobserve data hdata).2
  · rcases List.mem_append.1 hmem with hmem | hmem <;>
      rcases List.mem_append.1 hother with hother | hother
    · exact h.apart pending hmem other hother hsame data data' hdata hdata' hid
    · obtain rfl := List.mem_singleton.1 hother
      exact absurd hid ((hobserve data' hdata').1 pending hmem hsame data hdata)
    · obtain rfl := List.mem_singleton.1 hmem
      exact absurd hid.symm ((hobserve data hdata).1 other hother hsame.symm data' hdata')
    · obtain rfl := List.mem_singleton.1 hmem
      obtain rfl := List.mem_singleton.1 hother
      rfl
  · rcases List.mem_append.1 hmem with hmem | hmem
    · exact h.cancels pending hmem data hdata client hclient'
    · obtain rfl := List.mem_singleton.1 hmem
      obtain rfl : clientP = client := Option.some.inj (hclient.symm.trans hclient')
      exact hcancel data hdata

/-- `prv_lwm2m_observe` sends a request with an id that is in no slot. -/
theorem observe (h : CancelsHeld context)
    (hfree : ∀ clientP, context.clientList clientID = some clientP → NextIdFree context clientID (clientP.observationId + 1))
    (uri : Lwm2mUri) (userData : Nat) (sent : Bool) :
    CancelsHeld (context.request clientID fun client =>
      prvLwm2mObserve client uri userData sent).1 := by
  unfold ObserverContext.request
  cases hclient : context.clientList clientID with
  | none => exact h
  | some clientP =>
    have hsame : ∀ status observationId, CancelsHeld (context.setClient clientID (some
        { clientP with
          observationId, observationList := setStatus uri status clientP.observationList })) :=
      fun status observationId => h.same hclient (slots_setStatus uri status _)
    have hidle : ∀ observationId, CancelsHeld (context.setClient clientID (some
        { clientP with observationId })) := fun observationId => h.same hclient rfl
    unfold prvLwm2mObserve
    by_cases hbad : (!uri.isSetInstance && uri.isSetResource) = true
    · simpa [hbad, ObserverContext.setClient] using hidle clientP.observationId
    · simp only [if_neg hbad]
      cases hfind : lwm2mListFind Observation.id (clientP.observationId + 1)
          clientP.observationList with
      | some _ => simpa [ObserverContext.setClient] using hidle (clientP.observationId + 1)
      | none =>
        cases sent with
        | false =>
          simpa [sendRequest, ObserverContext.setClient] using
            hsame .regPending (clientP.observationId + 1)
        | true =>
          have hnew : ∀ data : ObservationData,
              ObserveTransaction.observe { id := clientP.observationId + 1, uri, userData } =
                .observe data →
              NextIdFree context clientID data.id ∧
                ∀ uri', (data.id, uri') ∉ slots (setStatus uri .regPending
                  clientP.observationList) := by
            intro data hdata
            obtain rfl := ObserveTransaction.observe.inj hdata
            refine ⟨hfree clientP hclient, fun uri' hslot => ?_⟩
            rw [slots_setStatus, mem_slots] at hslot
            obtain ⟨observation, hmem, hid, -⟩ := hslot
            exact (lwm2mListFind_eq_none_iff (h.ascending clientID clientP hclient)).1 hfind
              observation hmem hid
          have hsent := (hsame .regPending (clientP.observationId + 1)).send (setClient_self ..)
            context.requests (context.requests + 1) clientP.sessionH hnew (by simp)
          simpa [sendRequest, ObserverContext.setClient] using hsent

/-- `prv_lwm2m_observe_cancel` asks for a cancellation of an observation, or removes one whose
cancellation is not in flight. -/
theorem cancel (h : CancelsHeld context) {uri : Lwm2mUri}
    (hkept : ∀ clientP, context.clientList clientID = some clientP → ∀ observation, prvFindObservationByUri uri clientP.observationList = some observation → observation.status ≠ .registered → ¬ CancelPending context none clientID uri)
    (userData : Nat) (sent : Bool) :
    CancelsHeld (context.request clientID fun client =>
      prvLwm2mObserveCancel client uri userData sent).1 := by
  unfold ObserverContext.request
  cases hclient : context.clientList clientID with
  | none => exact h
  | some clientP =>
    have hasc := h.ascending clientID clientP hclient
    unfold prvLwm2mObserveCancel
    cases hfind : prvFindObservationByUri uri clientP.observationList with
    | none =>
      have hidle : CancelsHeld (context.setClient clientID (some clientP)) := h.same hclient rfl
      simpa [hfind, ObserverContext.setClient] using hidle
    | some observation =>
      obtain ⟨hmem, huri⟩ := prvFindObservationByUri_some hfind
      have hslot : (observation.id, uri) ∈ slots clientP.observationList :=
        mem_slots.2 ⟨observation, hmem, rfl, huri⟩
      have hremoved : observation.status ≠ .registered →
          CancelsHeld (context.setClient clientID (some { clientP with
            observationList := observeRemove observation clientP.observationList })) := by
        intro hstatus
        refine h.removed hclient (observeRemove_ascending hasc observation) ?_ ?_
        · intro slot hkept
          exact ((mem_slots_observeRemove hasc observation slot.1 slot.2).1 hkept).1
        · intro slot hold hgone
          have hid : slot.1 = observation.id := Decidable.by_contra fun hne =>
            hgone ((mem_slots_observeRemove hasc observation slot.1 slot.2).2 ⟨hold, hne⟩)
          have : slot.2 = uri := slot_uri_eq hasc (hid ▸ hold) hslot
          rw [this]
          exact hkept clientP hclient observation hfind hstatus
      cases hstatus : observation.status with
      | regPending =>
        simpa [hfind, hstatus, ObserverContext.setClient] using hremoved (by simp [hstatus])
      | deregPending =>
        simpa [hfind, hstatus, ObserverContext.setClient] using hremoved (by simp [hstatus])
      | registered =>
        have hsame : CancelsHeld (context.setClient clientID (some { clientP with
            observationList := setStatus uri .deregPending clientP.observationList })) :=
          h.same hclient (slots_setStatus uri .deregPending _)
        cases sent with
        | false => simpa [hfind, hstatus, sendRequest, ObserverContext.setClient] using hsame
        | true =>
          have hthere : ∀ data : CancellationData,
              ObserveTransaction.cancel { uri, userDataP := userData } = .cancel data →
              ∃ id, (id, data.uri) ∈ slots (setStatus uri .deregPending
                clientP.observationList) := by
            intro data hdata
            obtain rfl := ObserveTransaction.cancel.inj hdata
            exact ⟨observation.id, by rw [slots_setStatus]; exact hslot⟩
          have hsent := hsame.send (setClient_self ..) context.requests (context.requests + 1)
            clientP.sessionH (by simp) hthere
          simpa [hfind, hstatus, sendRequest, ObserverContext.setClient] using hsent

theorem replaced (h : CancelsHeld context) (hold : context.clientList clientID = some old)
    {observationList : List Observation} (hasc : Ascending Observation.id observationList)
    (hsub : ∀ slot ∈ slots observationList, slot ∈ slots old.observationList)
    {registered : Observation}
    (hkept : ∀ slot ∈ slots old.observationList, slot.2 ≠ registered.uri → slot ∈ slots observationList)
    (hfresh : ∀ uri, (registered.id, uri) ∉ slots old.observationList)
    (hother : NextIdFree context clientID registered.id) :
    CancelsHeld (context.setClient clientID (some { old with
      observationList := lwm2mListAdd Observation.id observationList registered })) := by
  have hnew : ∀ observation ∈ observationList, observation.id ≠ registered.id := by
    intro observation hmem hid
    have hslot : (observation.id, observation.uri) ∈ slots observationList :=
      mem_slots.2 ⟨observation, hmem, rfl, rfl⟩
    exact hfresh observation.uri (hid ▸ hsub _ hslot)
  refine h.change (lwm2mListAdd_ascending hasc hnew) ?_ ?_
  · intro pending hmem hsame data hdata uri hslot
    rcases (mem_slots_add _ _ _ _).1 hslot with heq | hslot
    · exact hother pending hmem hsame data hdata (congrArg Prod.fst heq)
    · exact h.fresh pending hmem data hdata old (by rw [hsame]; exact hold) uri (hsub _ hslot)
  · intro pending hmem hsame data hdata
    obtain ⟨id, hslot⟩ := h.cancels pending hmem data hdata old (by rw [hsame]; exact hold)
    by_cases huri : data.uri = registered.uri
    · exact ⟨registered.id, (mem_slots_add _ _ _ _).2 (Or.inl (by rw [huri]; rfl))⟩
    · exact ⟨id, (mem_slots_add _ _ _ _).2 (Or.inr (hkept _ hslot huri))⟩

theorem observed (h : CancelsHeld context) (hclient : context.clientList clientID = some clientP)
    {data : ObservationData} (hfresh : ∀ uri, (data.id, uri) ∉ slots clientP.observationList)
    (hother : NextIdFree context clientID data.id) {message : Option ObserveAnswer}
    (hcode : obsRequestCode (prvFindObservationByUri data.uri clientP.observationList) message = coapContent)
    (hmore : (message.bind ObserveAnswer.block2More) ≠ some true) :
    CancelsHeld (context.setClient clientID (some { clientP with
      observationList := (prvObsRequestCallback data message clientP.observationList).1 })) := by
  have hasc := h.ascending clientID clientP hclient
  unfold prvObsRequestCallback
  simp only [hcode, ne_eq, not_true_eq_false, if_false, if_neg hmore]
  cases hfind : prvFindObservationByUri data.uri clientP.observationList with
  | none => exact h.replaced hclient hasc (fun _ hslot => hslot) (fun _ hslot _ => hslot) hfresh hother
  | some observation =>
    obtain ⟨hmem, huri⟩ := prvFindObservationByUri_some hfind
    refine h.replaced hclient (observeRemove_ascending hasc observation) ?_ ?_ hfresh hother
    · intro slot hslot
      exact ((mem_slots_observeRemove hasc observation slot.1 slot.2).1 hslot).1
    · intro slot hslot hne
      refine (mem_slots_observeRemove hasc observation slot.1 slot.2).2 ⟨hslot, fun hid => hne ?_⟩
      exact slot_uri_eq hasc hslot (mem_slots.2 ⟨observation, hmem, hid.symm, huri⟩)

/-- The callback of a reply, and the end of the requests with the number of the one it is for. -/
theorem reply (h : CancelsHeld context) {pending : PendingObservation Session}
    (hpending : pending ∈ context.transactionList) {message : Option ObserveAnswer}
    (hkept : message.any ObserveAnswer.cancels = true → ∀ data, pending.transaction = .cancel data →
      ¬ CancelPending context (some pending.number) pending.client data.uri) :
    ∃ after, context.callback pending message = .ok after ∧
      CancelsHeld { after with
        transactionList :=
          if isFinal message then
            after.transactionList.filter fun other => other.number != pending.number
          else after.transactionList } := by
  -- a callback that changes nothing
  have hends : ∀ {after : ObserverContext Session}, CancelsHeld after → CancelsHeld { after with
      transactionList :=
        if isFinal message then
          after.transactionList.filter fun other => other.number != pending.number
        else after.transactionList } := by
    intro after hafter
    refine hafter.shrink _ fun other hmem => ?_
    split at hmem
    · exact (List.mem_filter.1 hmem).1
    · exact hmem
  unfold ObserverContext.callback
  cases hclient : context.clientList pending.client with
  | none => exact ⟨context, rfl, hends h⟩
  | some clientP =>
    have hidle : CancelsHeld (context.setClient pending.client (some clientP)) := h.same hclient rfl
    have hasc := h.ascending pending.client clientP hclient
    cases hkind : pending.transaction with
    | observe data =>
      refine ⟨context.setClient pending.client (some { clientP with
        observationList := (prvObsRequestCallback data message clientP.observationList).1 }), rfl, ?_⟩
      by_cases hmore : (message.bind ObserveAnswer.block2More) = some true
      · rw [prvObsRequestCallback_idle (Or.inr hmore)]
        exact hends hidle
      · by_cases hcode : obsRequestCode (prvFindObservationByUri data.uri clientP.observationList)
            message = coapContent
        · have hfinal : isFinal message = true := by simpa [isFinal] using hmore
          have hrest := h.shrink (context.transactionList.filter fun other =>
            other.number != pending.number) fun other hmem => (List.mem_filter.1 hmem).1
          have hother : NextIdFree { context with
                transactionList := context.transactionList.filter fun other =>
                  other.number != pending.number }
              pending.client data.id := by
            intro other hmem hsame data' hdata' hid
            obtain ⟨hmem, hne⟩ := List.mem_filter.1 hmem
            have := h.apart other hmem pending hpending hsame data' data hdata' hkind hid
            simp [this] at hne
          rw [if_pos hfinal]
          exact hrest.observed hclient (h.fresh pending hpending data hkind clientP hclient) hother
            hcode hmore
        · rw [prvObsRequestCallback_idle (Or.inl hcode)]
          exact hends hidle
    | cancel data =>
      unfold observationCallback prvObsCancelRequestCallback
      cases message with
      | none => exact ⟨_, rfl, hends hidle⟩
      | some packet =>
        by_cases hcode : packet.code = coapContent
        · by_cases hmore : packet.block2More = some true
          · exact ⟨_, by simp only [hcode, hmore, ne_eq, not_true_eq_false, if_false, if_true],
              hends hidle⟩
          · obtain ⟨id, hslot⟩ := h.cancels pending hpending data hkind clientP hclient
            obtain ⟨observation, hfind, hmem⟩ := found_of_slot hslot
            have huri := (prvFindObservationByUri_some hfind).2
            refine ⟨context.setClient pending.client (some { clientP with
              observationList := observeRemove observation clientP.observationList }), ?_, ?_⟩
            · simp only [hcode, ne_eq, not_true_eq_false, if_false, if_neg hmore, hfind]
            · have hfinal : isFinal (some packet) = true := by simpa [isFinal] using hmore
              have hcancels : (some packet).any ObserveAnswer.cancels = true := by
                simp [ObserveAnswer.cancels, hcode, hmore]
              have hrest := h.shrink (context.transactionList.filter fun other =>
                other.number != pending.number) fun other hmem => (List.mem_filter.1 hmem).1
              rw [if_pos hfinal]
              refine hrest.removed hclient (observeRemove_ascending hasc observation) ?_ ?_
              · intro slot hold
                exact ((mem_slots_observeRemove hasc observation slot.1 slot.2).1 hold).1
              · intro slot hold hgone hother
                have hid : slot.1 = observation.id := Decidable.by_contra fun hne =>
                  hgone ((mem_slots_observeRemove hasc observation slot.1 slot.2).2 ⟨hold, hne⟩)
                have hsame : slot.2 = data.uri :=
                  slot_uri_eq hasc hold (mem_slots.2 ⟨observation, hmem, hid.symm, huri⟩)
                obtain ⟨other, hother, -, hof⟩ := hother
                obtain ⟨hother, hne⟩ := List.mem_filter.1 hother
                exact hkept hcancels data hkind ⟨other, hother, by simpa using hne, hsame ▸ hof⟩
        · exact ⟨_, by simp only [hcode, ne_eq, not_false_eq_true, if_true], hends hidle⟩

theorem update (h : CancelsHeld context) (hclient : context.clientList clientID = some clientP)
    {objects : List (UInt16 × List UInt16)}
    (hkept : ∀ observation ∈ clientP.observationList, isDropped objects observation = true → ¬ CancelPending context none clientID observation.uri)
    (fromSessionH : Session) :
    CancelsHeld (context.setClient clientID (some { clientP with
      sessionH := fromSessionH
      observationList := dropObservations objects clientP.observationList })) := by
  have hasc := h.ascending clientID clientP hclient
  obtain ⟨hrest, hsub, hgone⟩ := dropLoop_slots objects clientP.observationList
    clientP.observationList hasc
  refine h.removed hclient hrest hsub fun slot hslot hlost => ?_
  obtain ⟨observation, hmem, hdrop, hid⟩ := hgone slot hslot hlost
  have huri : observation.uri = slot.2 :=
    slot_uri_eq hasc (mem_slots.2 ⟨observation, hmem, hid, rfl⟩) hslot
  exact huri ▸ hkept observation hmem hdrop

theorem register (h : CancelsHeld context) {internalID : UInt16}
    (hkept : ∀ uri, ¬ CancelPending context none internalID uri) (fromSessionH : Session) :
    CancelsHeld (context.setClient internalID
      (some { sessionH := fromSessionH, observationId := 0, observationList := [] })) := by
  refine h.change ascending_nil (fun _ _ _ _ _ _ hslot => nomatch hslot) ?_
  intro pending hmem hsame data hdata
  exact absurd ⟨pending, hmem, nofun, hsame, data, hdata, rfl⟩ (hkept data.uri)

end CancelsHeld

/-- One event that takes away no observation whose cancellation is in flight. -/
theorem observerStep_cancelsHeld (sessionIsEqual : Session → Session → Bool)
    {context : ObserverContext Session} (h : CancelsHeld context) {call : ObserverCall Session}
    (hkept : CancelKept context call) :
    ∃ after, observerStep sessionIsEqual context call = .ok (after, ()) ∧ CancelsHeld after := by
  cases call with
  | observe clientID uri userData sent => exact ⟨_, rfl, h.observe hkept uri userData sent⟩
  | cancel clientID uri userData sent => exact ⟨_, rfl, h.cancel hkept userData sent⟩
  | reply request message =>
    unfold observerStep
    cases hfind : context.transactionList.find? fun pending => pending.number == request with
    | none => exact ⟨context, by simp only [hfind], h⟩
    | some pending =>
      have hmem := List.mem_of_find?_eq_some hfind
      obtain rfl : pending.number = request := by simpa using List.find?_some hfind
      obtain ⟨after, hcallback, hheld⟩ := h.reply hmem fun hcancels data hdata =>
        hkept hcancels pending hmem rfl data hdata
      exact ⟨_, by simp only [hfind, hcallback], hheld⟩
  | register internalID fromSessionH =>
    unfold observerStep
    cases hclient : context.clientList internalID with
    | some clientP =>
      exact ⟨context.setClient internalID (some { clientP with sessionH := fromSessionH }),
        by simp only [hclient], h.same hclient rfl⟩
    | none => exact ⟨_, by simp only [hclient], h.register (hkept hclient) fromSessionH⟩
  | update clientID fromSessionH objects =>
    unfold observerStep
    cases hclient : context.clientList clientID with
    | none => exact ⟨context, by simp only [hclient], h⟩
    | some clientP =>
      cases objects with
      | none =>
        exact ⟨context.setClient clientID (some { clientP with sessionH := fromSessionH }),
          by simp only [hclient], h.same hclient rfl⟩
      | some objects =>
        exact ⟨_, by simp only [hclient], h.update hclient (hkept clientP hclient objects rfl)
          fromSessionH⟩
  | remove clientID =>
    refine ⟨_, rfl, ?_⟩
    unfold registrationFreeClient
    cases hclient : context.clientList clientID with
    | none => exact h
    | some clientP => exact (h.drop clientID).shrink _ fun pending hmem => (List.mem_filter.1 hmem).1

/-- Over a run whose events take away no observation that is being cancelled, every reply that
accepts a cancellation finds the observation it removes. -/
theorem cancelReplies_find (sessionIsEqual : Session → Session → Bool)
    (calls : List (ObserverCall Session))
    (hmeet : StepsMeet (observerStep sessionIsEqual) CancelKept noObservers calls) :
    (∃ final replies, run (observerStep sessionIsEqual) noObservers calls = .ok (final, replies)) ∧
      EachReached (observerStep sessionIsEqual) (fun _ context => RemovalsFind context) []
        noObservers calls := by
  have hstep : ∀ (_ : List (ObserverCall Session × Unit)) (context : ObserverContext Session)
      (call : ObserverCall Session), CancelsHeld context → CancelKept context call →
        ∃ after reply, observerStep sessionIsEqual context call = .ok (after, reply) ∧
          CancelsHeld after := by
    intro _ context call hheld hkept
    obtain ⟨after, hstep, hafter⟩ := observerStep_cancelsHeld sessionIsEqual hheld hkept
    exact ⟨after, (), hstep, hafter⟩
  obtain ⟨hrun, hreached⟩ := run_total_after hstep calls [] noObservers noObservers_held
    (StepsMeet.after calls [] noObservers hmeet)
  exact ⟨hrun, EachReached.imp (fun _ _ hheld => hheld.removalsFind) calls [] _ hreached⟩

/-- /3/0/6. -/
def powerSources : Lwm2mUri := ⟨3, 0, 6, lwm2mMaxId⟩

/-- 2.05, with an Observe option or without. -/
def contentAnswer (observe : Bool) : ObserveAnswer := ⟨coapContent, observe, none⟩

/-- A client registers, is observed and the observation is cancelled. -/
def cancelledAfterReply : List (ObserverCall Unit) :=
  [.register 0 (), .observe 0 powerSources 1 true, .reply 0 (some (contentAnswer true)),
    .cancel 0 powerSources 2 true, .reply 1 (some (contentAnswer false))]

theorem cancelledAfterReply_kept :
    StepsMeet (observerStep fun _ _ => true) CancelKept noObservers cancelledAfterReply := by
  refine StepsMeet.cons ?_ rfl (StepsMeet.cons ?_ rfl (StepsMeet.cons ?_ rfl
    (StepsMeet.cons ?_ rfl (StepsMeet.cons ?_ rfl trivial))))
  · intro _ uri hpending
    obtain ⟨pending, hmem, -⟩ := hpending
    cases hmem
  · intro clientP _ pending hmem
    cases hmem
  · intro hcancels pending hmem _ data hdata
    obtain rfl := List.mem_singleton.1 hmem
    cases hdata
  · intro clientP hclient observation hfind hstatus hpending
    obtain ⟨pending, hmem, -⟩ := hpending
    cases hmem
  · intro hcancels pending hmem _ data hdata hpending
    obtain ⟨other, hother, hne, -⟩ := hpending
    obtain rfl := List.mem_singleton.1 hother
    exact hne rfl

theorem cancelledAfterReply_found :
    (∃ final replies, run (observerStep fun _ _ => true) noObservers cancelledAfterReply =
        .ok (final, replies)) ∧
      EachReached (observerStep fun _ _ => true) (fun _ context => RemovalsFind context) []
        noObservers cancelledAfterReply :=
  cancelReplies_find (fun _ _ => true) cancelledAfterReply cancelledAfterReply_kept

/-- The observation is cancelled twice: the second cancel removes it at once, and the reply to the
first finds none. -/
theorem secondCancel_nullDeref :
    run (observerStep fun (_ _ : Unit) => true) noObservers
      [.register 0 (), .observe 0 powerSources 1 true, .reply 0 (some (contentAnswer true)),
        .cancel 0 powerSources 2 true, .cancel 0 powerSources 3 true,
        .reply 1 (some (contentAnswer false))] = .error .nullDeref := rfl

end Wakaama
