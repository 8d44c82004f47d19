import Wakaama.Core.Observation
import Wakaama.Core.Proofs.SortedList

/-!
# The observations for one URI

The list of a client seen from one URI: which observations are for it, and what the callbacks
of requests for it make of them. What is never violated is that there is one at most, and that
no other observation has the id of a request in flight.
-/

namespace Wakaama

/-- The answer accepts a GET with Observe 0 completely. -/
def ObserveAnswer.observes (packet : ObserveAnswer) : Bool :=
  packet.code == coapContent && packet.observe && packet.block2More != some true

/-- The answer accepts a GET with Observe 1 completely. -/
def ObserveAnswer.cancels (packet : ObserveAnswer) : Bool :=
  packet.code == coapContent && packet.block2More != some true

/-- There is an observation for the URI. -/
def ObservedClient.observes (client : ObservedClient) (uri : Lwm2mUri) : Bool :=
  client.observationList.any fun observation => observation.uri == uri

/-- There is at most one observation for the URI. -/
def AtMostOneObservation (uri : Lwm2mUri) (client : ObservedClient) : Prop :=
  (client.observationList.filter fun observation => observation.uri == uri).length ≤ 1

/-- The id and the URI of an observation, which nothing changes while it is in the list. -/
def Observation.slot (observation : Observation) : UInt16 × Lwm2mUri :=
  (observation.id, observation.uri)

def slots (observationList : List Observation) : List (UInt16 × Lwm2mUri) :=
  observationList.map Observation.slot

variable {uri : Lwm2mUri} {observationList : List Observation} {message : Option ObserveAnswer}

theorem mem_slots {id : UInt16} :
    (id, uri) ∈ slots observationList ↔
      ∃ observation ∈ observationList, observation.id = id ∧ observation.uri = uri := by
  simp [slots, Observation.slot]

theorem slots_setStatus (uri : Lwm2mUri) (status : ObservationStatus)
    (observationList : List Observation) :
    slots (setStatus uri status observationList) = slots observationList := by
  induction observationList with
  | nil => rfl
  | cons observation next ih =>
    unfold setStatus
    split
    · rfl
    · exact congrArg (observation.slot :: ·) ih

theorem ascending_iff_slots :
    Ascending Observation.id observationList ↔
      (slots observationList).Pairwise fun a b => a.1 < b.1 := by
  simp [Ascending, slots, Observation.slot, List.pairwise_map]

theorem observes_iff_slots {client : ObservedClient} :
    client.observes uri = true ↔ ∃ id, (id, uri) ∈ slots client.observationList := by
  simp only [ObservedClient.observes, List.any_eq_true, beq_iff_eq, mem_slots]
  constructor
  · rintro ⟨observation, hmem, huri⟩
    exact ⟨observation.id, observation, hmem, rfl, huri⟩
  · rintro ⟨id, observation, hmem, -, huri⟩
    exact ⟨observation, hmem, huri⟩

theorem prvFindObservationByUri_some {observation : Observation}
    (h : prvFindObservationByUri uri observationList = some observation) :
    observation ∈ observationList ∧ observation.uri = uri :=
  ⟨List.mem_of_find?_eq_some h, by simpa using List.find?_some h⟩

theorem prvFindObservationByUri_none (h : prvFindObservationByUri uri observationList = none)
    (id : UInt16) : (id, uri) ∉ slots observationList := by
  rw [mem_slots]
  rintro ⟨observation, hmem, -, huri⟩
  have := List.find?_eq_none.mp h observation hmem
  simp [huri] at this

theorem mem_slots_observeRemove (hasc : Ascending Observation.id observationList)
    (observation : Observation) (id : UInt16) (uri : Lwm2mUri) :
    (id, uri) ∈ slots (observeRemove observation observationList) ↔
      (id, uri) ∈ slots observationList ∧ id ≠ observation.id := by
  simp only [observeRemove, lwm2mListRemove_eq hasc, mem_slots, List.mem_filter, bne_iff_ne]
  constructor
  · rintro ⟨other, ⟨hmem, hne⟩, rfl, huri⟩
    exact ⟨⟨other, hmem, rfl, huri⟩, hne⟩
  · rintro ⟨⟨other, hmem, rfl, huri⟩, hne⟩
    exact ⟨other, ⟨hmem, hne⟩, rfl, huri⟩

theorem observeRemove_ascending (hasc : Ascending Observation.id observationList)
    (observation : Observation) :
    Ascending Observation.id (observeRemove observation observationList) := by
  rw [observeRemove, lwm2mListRemove_eq hasc]
  exact hasc.filter _

theorem mem_slots_add (observationList : List Observation) (observation : Observation)
    (id : UInt16) (uri : Lwm2mUri) :
    (id, uri) ∈ slots (lwm2mListAdd Observation.id observationList observation) ↔
      (id, uri) = observation.slot ∨ (id, uri) ∈ slots observationList := by
  have hperm : (lwm2mListAdd Observation.id observationList observation).Perm
      (observation :: observationList) := lwm2mListAdd_perm observationList observation
  simpa [slots] using (hperm.map Observation.slot).mem_iff (a := (id, uri))

/-- What holds of the list at all times: it is ascending, has one observation for the URI at
most, and no other with the id of a request for the URI in flight. -/
structure OneSlot (uri : Lwm2mUri) (observationList : List Observation)
    (transactionList : List (Nat × ObserveTransaction)) : Prop where
  ascending : Ascending Observation.id observationList
  unique : ∀ i j, (i, uri) ∈ slots observationList → (j, uri) ∈ slots observationList → i = j
  observes : ∀ n data, (n, .observe data) ∈ transactionList → data.uri = uri ∧
    ∀ uri', (data.id, uri') ∈ slots observationList → uri' = uri
  cancels : ∀ n data, (n, .cancel data) ∈ transactionList → data.uri = uri

namespace OneSlot

variable {uri : Lwm2mUri} {observationList : List Observation}
  {transactionList : List (Nat × ObserveTransaction)}

theorem atMostOne (h : OneSlot uri observationList transactionList) :
    (observationList.filter fun observation => observation.uri == uri).length ≤ 1 := by
  have hasc : Ascending Observation.id
      (observationList.filter fun observation => observation.uri == uri) := h.ascending.filter _
  match hfilter : observationList.filter fun observation => observation.uri == uri with
  | [] => simp [hfilter]
  | [_] => simp [hfilter]
  | first :: second :: rest =>
    -- two of them would have different ids
    rw [hfilter] at hasc
    have hslot : ∀ o ∈ first :: second :: rest, (o.id, uri) ∈ slots observationList := by
      intro o ho
      rw [← hfilter, List.mem_filter] at ho
      exact mem_slots.mpr ⟨o, ho.1, rfl, by simpa using ho.2⟩
    have hsame := h.unique _ _ (hslot first (by simp)) (hslot second (by simp))
    have hlt := (ascending_cons.mp hasc).1 second (by simp)
    rw [hsame] at hlt
    exact absurd hlt (uint16_lt_irrefl _)

theorem shrink (h : OneSlot uri observationList transactionList) {list : List Observation}
    (hasc : Ascending Observation.id list)
    (hsub : ∀ id uri', (id, uri') ∈ slots list → (id, uri') ∈ slots observationList) :
    OneSlot uri list transactionList where
  ascending := hasc
  unique i j hi hj := h.unique i j (hsub i uri hi) (hsub j uri hj)
  observes n data hmem :=
    ⟨(h.observes n data hmem).1, fun uri' hslot =>
      (h.observes n data hmem).2 uri' (hsub _ _ hslot)⟩
  cancels := h.cancels

theorem remove (h : OneSlot uri observationList transactionList) (observation : Observation) :
    OneSlot uri (observeRemove observation observationList) transactionList :=
  h.shrink (observeRemove_ascending h.ascending observation) fun id uri' hslot =>
    ((mem_slots_observeRemove h.ascending observation id uri').mp hslot).1

theorem remove_found (h : OneSlot uri observationList transactionList) {observation : Observation}
    (hfind : prvFindObservationByUri uri observationList = some observation) (id : UInt16) :
    (id, uri) ∉ slots (observeRemove observation observationList) := by
  obtain ⟨hmem, huri⟩ := prvFindObservationByUri_some hfind
  rw [mem_slots_observeRemove h.ascending]
  rintro ⟨hslot, hne⟩
  exact hne (h.unique _ _ hslot (mem_slots.mpr ⟨observation, hmem, rfl, huri⟩))

theorem requests (h : OneSlot uri observationList transactionList)
    {list : List (Nat × ObserveTransaction)} (hsub : ∀ t ∈ list, t ∈ transactionList) :
    OneSlot uri observationList list where
  ascending := h.ascending
  unique := h.unique
  observes n data hmem := h.observes n data (hsub _ hmem)
  cancels n data hmem := h.cancels n data (hsub _ hmem)

/-- Where nothing is observed for the URI, the observation a request asked for may be added. -/
theorem add (h : OneSlot uri observationList transactionList) {n : Nat} {data : ObservationData}
    (hdata : (n, .observe data) ∈ transactionList)
    (habsent : ∀ id, (id, uri) ∉ slots observationList) {registered : Observation}
    (hslot : registered.slot = (data.id, uri)) :
    OneSlot uri (lwm2mListAdd Observation.id observationList registered) transactionList := by
  have hslots : ∀ id uri', (id, uri') ∈ slots
      (lwm2mListAdd Observation.id observationList registered) ↔
        (id, uri') = (data.id, uri) ∨ (id, uri') ∈ slots observationList := by
    intro id uri'
    rw [mem_slots_add, hslot]
  have hid : registered.id = data.id := congrArg Prod.fst hslot
  constructor
  · refine lwm2mListAdd_ascending h.ascending fun b hb heq => ?_
    have hmem : (data.id, b.uri) ∈ slots observationList :=
      mem_slots.mpr ⟨b, hb, heq.trans hid, rfl⟩
    have huri := (h.observes n data hdata).2 b.uri hmem
    exact habsent data.id (huri ▸ hmem)
  · intro i j hi hj
    rcases (hslots i uri).mp hi with hi | hi
    · rcases (hslots j uri).mp hj with hj | hj
      · rw [Prod.mk.injEq] at hi hj
        rw [hi.1, hj.1]
      · exact absurd hj (habsent j)
    · exact absurd hi (habsent i)
  · intro n' data' hmem
    refine ⟨(h.observes n' data' hmem).1, fun uri' huri' => ?_⟩
    rcases (hslots data'.id uri').mp huri' with heq | hold
    · exact (Prod.mk.injEq .. ▸ heq).2
    · exact (h.observes n' data' hmem).2 uri' hold
  · exact h.cancels

end OneSlot

theorem obsRequestCode_content {found : Option Observation} :
    obsRequestCode found message = coapContent ↔
      found.map Observation.status ≠ some .deregPending ∧
        ∃ packet, message = some packet ∧ packet.code = coapContent ∧ packet.observe = true := by
  unfold obsRequestCode
  by_cases hstatus : found.map Observation.status = some .deregPending
  · simp [hstatus, coapBadRequest, coapContent]
  · rw [if_neg hstatus]
    cases message with
    | none => simp [coapServiceUnavailable, coapContent]
    | some packet =>
      cases hobserve : packet.observe with
      | true => simp [hstatus, hobserve]
      | false =>
        by_cases hcode : packet.code = coapContent
        · simp [hobserve, hcode, coapMethodNotAllowed, coapContent]
        · simp [hobserve, hcode]

/-- After a reply to an observe there is an observation if there was one or the reply is a
success. -/
theorem prvObsRequestCallback_spec {transactionList : List (Nat × ObserveTransaction)}
    (h : OneSlot uri observationList transactionList) {n : Nat} {data : ObservationData}
    (hdata : (n, .observe data) ∈ transactionList) (message : Option ObserveAnswer) :
    OneSlot uri (prvObsRequestCallback data message observationList).1 transactionList ∧
      ((∃ id, (id, uri) ∈ slots (prvObsRequestCallback data message observationList).1) ↔
        (∃ id, (id, uri) ∈ slots observationList) ∨
          message.any ObserveAnswer.observes = true) := by
  have huri : data.uri = uri := (h.observes n data hdata).1
  have hregistered : (⟨data.id, data.uri, .registered, data.userData⟩ : Observation).slot =
      (data.id, uri) := by simp [Observation.slot, huri]
  have hnone : prvFindObservationByUri data.uri observationList = none →
      ∀ id, (id, uri) ∉ slots observationList := by
    intro hfind
    rw [huri] at hfind
    exact prvFindObservationByUri_none hfind
  unfold prvObsRequestCallback
  simp only
  by_cases hcode :
      obsRequestCode (prvFindObservationByUri data.uri observationList) message = coapContent
  · obtain ⟨hstatus, packet, rfl, hcontent, hobserve⟩ := obsRequestCode_content.mp hcode
    rw [if_neg (by simpa using hcode)]
    by_cases hmore : packet.block2More = some true
    · simp [hmore, h, ObserveAnswer.observes]
    · rw [if_neg (by simpa using hmore)]
      have hsuccess : packet.observes = true := by
        simp [ObserveAnswer.observes, hcontent, hobserve, hmore]
      cases hfind : prvFindObservationByUri data.uri observationList with
      | none =>
        refine ⟨h.add hdata (hnone hfind) hregistered, ?_⟩
        simp only [Option.any_some, hsuccess, or_true, iff_true]
        exact ⟨data.id, (mem_slots_add _ _ _ _).mpr (Or.inl hregistered.symm)⟩
      | some observation =>
        have hgone := h.remove_found (huri ▸ hfind)
        refine ⟨(h.remove observation).add hdata hgone hregistered, ?_⟩
        simp only [Option.any_some, hsuccess, or_true, iff_true]
        exact ⟨data.id, (mem_slots_add _ _ _ _).mpr (Or.inl hregistered.symm)⟩
  · rw [if_pos hcode]
    refine ⟨h, Iff.symm (or_iff_left_of_imp fun hsuccess => ?_)⟩
    -- a success that is refused finds the observation being cancelled
    cases hfind : prvFindObservationByUri data.uri observationList with
    | some observation =>
      obtain ⟨hmem, huri'⟩ := prvFindObservationByUri_some hfind
      exact ⟨observation.id, mem_slots.mpr ⟨observation, hmem, rfl, huri'.trans huri⟩⟩
    | none =>
      refine absurd (obsRequestCode_content.mpr ⟨by simp [hfind], ?_⟩) hcode
      cases message with
      | none => simp at hsuccess
      | some packet =>
        simp only [Option.any_some, ObserveAnswer.observes, Bool.and_eq_true, beq_iff_eq] at hsuccess
        exact ⟨packet, rfl, hsuccess.1.1, hsuccess.1.2⟩

theorem prvObsCancelRequestCallback_null {data : CancellationData} (huri : data.uri = uri)
    (hsuccess : message.any ObserveAnswer.cancels = true)
    (habsent : ∀ id, (id, uri) ∉ slots observationList) :
    prvObsCancelRequestCallback data message observationList = .error .nullDeref := by
  cases message with
  | none => simp at hsuccess
  | some packet =>
    obtain ⟨hcode, hmore⟩ : packet.code = coapContent ∧ packet.block2More ≠ some true := by
      simpa [ObserveAnswer.cancels] using hsuccess
    have hfind : prvFindObservationByUri data.uri observationList = none := by
      cases hfind : prvFindObservationByUri data.uri observationList with
      | none => rfl
      | some observation =>
        obtain ⟨hmem, huri'⟩ := prvFindObservationByUri_some hfind
        exact absurd (mem_slots.mpr ⟨observation, hmem, rfl, huri'.trans huri⟩) (habsent _)
    simp [prvObsCancelRequestCallback, hcode, hmore, hfind]

theorem prvObsCancelRequestCallback_spec {transactionList : List (Nat × ObserveTransaction)}
    (h : OneSlot uri observationList transactionList) {n : Nat} {data : CancellationData}
    (hdata : (n, .cancel data) ∈ transactionList)
    (hthere : message.any ObserveAnswer.cancels = true → ∃ id, (id, uri) ∈ slots observationList) :
    ∃ list reports,
      prvObsCancelRequestCallback data message observationList = .ok (list, reports) ∧
      OneSlot uri list transactionList ∧
      ((∃ id, (id, uri) ∈ slots list) ↔ (∃ id, (id, uri) ∈ slots observationList) ∧
        message.any ObserveAnswer.cancels = false) := by
  have huri : data.uri = uri := h.cancels n data hdata
  unfold prvObsCancelRequestCallback
  cases message with
  | none => exact ⟨observationList, _, rfl, h, by simp⟩
  | some packet =>
    by_cases hcode : packet.code = coapContent
    · by_cases hmore : packet.block2More = some true
      · have hcancels : packet.cancels = false := by simp [ObserveAnswer.cancels, hmore]
        simp [hcode, hmore, hcancels, h]
      · have hcancels : packet.cancels = true := by simp [ObserveAnswer.cancels, hcode, hmore]
        obtain ⟨id, hslot⟩ := hthere hcancels
        simp only [hcode, hmore, hcancels, ne_eq, not_true_eq_false, if_false, Option.any_some]
        cases hfind : prvFindObservationByUri data.uri observationList with
        | none => exact absurd hslot (prvFindObservationByUri_none (huri ▸ hfind) id)
        | some observation =>
          refine ⟨_, _, rfl, h.remove observation, ?_⟩
          simpa using h.remove_found (huri ▸ hfind)
    · have hcancels : packet.cancels = false := by simp [ObserveAnswer.cancels, hcode]
      simp [hcode, hcancels, h]

end Wakaama
