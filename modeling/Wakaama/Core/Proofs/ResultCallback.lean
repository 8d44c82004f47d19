import Wakaama.Core.ResultCallback

/-!
# What becomes of a reply (`core/management.c`)

A reply is told to the user, and the data of the request are freed with the last transaction that
has them. A reply with a location that is not taken is the exception.
-/

namespace Wakaama

variable {Session : Type}

/-- Another transaction of the list has the data of this one. -/
def Shared (transacP : Transaction Session) (transactionList : List (Transaction Session)) : Prop :=
  ∃ other ∈ transactionList, other.userData = transacP.userData ∧ other.address ≠ transacP.address

theorem sharesUserData_eq (transacP : Transaction Session)
    {transactionList : List (Transaction Session)}
    (hlive : ∀ other ∈ transactionList, other.freed = false) :
    ∃ shared, sharesUserData transacP transactionList = .ok shared ∧
      (shared = true ↔ Shared transacP transactionList) := by
  induction transactionList with
  | nil => exact ⟨false, rfl, iff_of_false nofun fun h => by simp [Shared] at h⟩
  | cons target next ih =>
    obtain ⟨shared, hnext, hiff⟩ := ih fun other hother =>
      hlive other (List.mem_cons_of_mem _ hother)
    rw [sharesUserData, hlive target (List.mem_cons_self ..), if_neg Bool.noConfusion]
    by_cases hsame : target.userData = transacP.userData ∧ target.address ≠ transacP.address
    · rw [if_pos hsame]
      exact ⟨true, rfl, iff_of_true rfl ⟨target, List.mem_cons_self .., hsame⟩⟩
    · rw [if_neg hsame]
      refine ⟨shared, hnext, hiff.trans ?_⟩
      unfold Shared
      rw [List.exists_mem_cons_iff, or_iff_right hsame]

/-- The status that the user is told: 5.03 without a message. -/
def reportedStatus (message : Option CoapMessage) : UInt8 :=
  (message.map CoapMessage.code).getD coapServiceUnavailable

/-- The callback is called once, for the client and with the pointer of the user and the status of
the reply; behind it the data are freed unless another transaction has them. -/
def AnswersUser (transacP : Transaction Session) (dataP : DmData) (message : Option CoapMessage)
    (context : DmContext Session)
    (result : Except Fault (DmContext Session × List ResultReport)) : Prop :=
  ∃ after report, result = .ok (after, [report]) ∧ report.clientID = dataP.clientID ∧
    report.userData = dataP.userData ∧ report.status = reportedStatus message ∧
    after.transactionList = context.transactionList ∧
    (after.dmData transacP.userData = none ↔ ¬ Shared transacP context.transactionList) ∧
    ∀ other, other ≠ transacP.userData → after.dmData other = context.dmData other

/-- The reply is that an instance was created, with a location for which there is no memory, or
which `lwm2m_stringToUri` does not take, or which is not an instance of the object of the request. -/
def LocationRefused (alloc : Bool) (dataP : DmData) (packet : CoapMessage) : Prop :=
  packet.code = coapCreated ∧ packet.options.locationPath ≠ [] ∧
    ∀ locationString uri, coapPathString alloc packet.options.locationPath = some locationString →
      lwm2mStringToUri locationString = some uri →
      ¬ (uri.isSetObject = true ∧ uri.isSetInstance = true ∧ uri.isSetResource = false ∧
        uri.objectId = dataP.uri.objectId)

theorem resultLocation_none_iff {alloc : Bool} {dataP : DmData} {packet : CoapMessage}
    (hcreated : packet.code = coapCreated ∧ packet.options.locationPath ≠ []) :
    resultLocation alloc dataP.uri.objectId packet.options.locationPath = none ↔
      LocationRefused alloc dataP packet := by
  unfold resultLocation LocationRefused
  rw [and_iff_right hcreated.1, and_iff_right hcreated.2]
  cases coapPathString alloc packet.options.locationPath with
  | none => exact iff_of_true rfl fun _ _ h => nomatch h
  | some locationString =>
    dsimp only
    cases huri : lwm2mStringToUri locationString with
    | none =>
      refine iff_of_true rfl ?_
      intro _ uri hstring hread
      cases hstring
      rw [huri] at hread
      cases hread
    | some locationUri =>
      have hall : (∀ text uri, some locationString = some text → lwm2mStringToUri text = some uri →
          ¬ (uri.isSetObject = true ∧ uri.isSetInstance = true ∧ uri.isSetResource = false ∧
            uri.objectId = dataP.uri.objectId)) ↔
          ¬ (locationUri.isSetObject = true ∧ locationUri.isSetInstance = true ∧
            locationUri.isSetResource = false ∧ locationUri.objectId = dataP.uri.objectId) := by
        constructor
        · exact fun h => h locationString locationUri rfl huri
        · intro h text uri htext hread
          cases htext
          rw [huri] at hread
          cases hread
          exact h
      rw [hall]
      dsimp only
      constructor
      · intro hnone hgood
        rw [hgood.1, hgood.2.1, hgood.2.2.1, hgood.2.2.2] at hnone
        simp at hnone
      · intro hbad
        refine if_pos ?_
        by_contra hcheck
        simp only [Bool.or_eq_true, Bool.not_eq_true', bne_iff_ne, not_or, not_not,
          Bool.not_eq_false, Bool.not_eq_true] at hcheck
        exact hbad ⟨hcheck.1.1.1, hcheck.1.1.2, hcheck.1.2, hcheck.2⟩

theorem reportAndFree_answers {transacP : Transaction Session} {dataP : DmData}
    {message : Option CoapMessage} {context before : DmContext Session} {report : ResultReport}
    (hlist : before.transactionList = context.transactionList)
    (hdata : before.dmData transacP.userData ≠ none)
    (hothers : ∀ other, other ≠ transacP.userData → before.dmData other = context.dmData other)
    (hreport : report.clientID = dataP.clientID ∧ report.userData = dataP.userData ∧
      report.status = reportedStatus message) :
    AnswersUser transacP dataP message context (reportAndFree transacP report before) := by
  obtain ⟨shared, hshares, hiff⟩ := sharesUserData_eq transacP before.live
  rw [hlist] at hiff
  unfold reportAndFree transactionFreeUserData
  rw [hshares]
  cases shared with
  | true =>
    exact ⟨before, report, rfl, hreport.1, hreport.2.1, hreport.2.2, hlist,
      iff_of_false hdata fun hnot => hnot (hiff.1 rfl), hothers⟩
  | false =>
    have hnot : ¬ Shared transacP context.transactionList := fun h => nomatch hiff.2 h
    refine ⟨_, report, rfl, hreport.1, hreport.2.1, hreport.2.2, hlist,
      iff_of_true (if_pos rfl) hnot, ?_⟩
    intro other hne
    exact (if_neg hne).trans (hothers other hne)

/-- Every reply and every timeout reaches the user, but for a location that is refused. -/
theorem prvResultCallback_answers_iff {transacP : Transaction Session} {dataP : DmData}
    {context : DmContext Session} (hdata : context.dmData transacP.userData = some dataP)
    (alloc : Bool) (message : Option CoapMessage) :
    AnswersUser transacP dataP message context
        (prvResultCallback alloc message transacP context) ↔
      ∀ packet ∈ message, ¬ LocationRefused alloc dataP packet := by
  have hkept : context.dmData transacP.userData ≠ none := by
    rw [hdata]
    exact Option.some_ne_none _
  unfold prvResultCallback
  rw [hdata]
  cases message with
  | none =>
    refine iff_of_true ?_ fun _ hmem => absurd hmem (Option.not_mem_none _)
    exact reportAndFree_answers rfl hkept (fun _ _ => rfl) ⟨rfl, rfl, rfl⟩
  | some packet =>
    have hone : (∀ other ∈ some packet, ¬ LocationRefused alloc dataP other) ↔
        ¬ LocationRefused alloc dataP packet := by
      simp
    rw [hone]
    dsimp only
    by_cases hcreated : packet.code = coapCreated ∧ packet.options.locationPath ≠ []
    · rw [if_pos hcreated, ← resultLocation_none_iff hcreated]
      cases resultLocation alloc dataP.uri.objectId packet.options.locationPath with
      | none =>
        refine iff_of_false ?_ fun h => h rfl
        intro h
        obtain ⟨after, report, hresult, -⟩ := h
        cases hresult
      | some locationUri =>
        refine iff_of_true ?_ (Option.some_ne_none locationUri)
        refine reportAndFree_answers rfl ?_ (fun other hne => if_neg hne) ⟨rfl, rfl, rfl⟩
        dsimp only
        rw [if_pos rfl]
        exact Option.some_ne_none _
    · rw [if_neg hcreated]
      refine iff_of_true ?_ fun h => hcreated ⟨h.1, h.2.1⟩
      exact reportAndFree_answers rfl hkept (fun _ _ => rfl) ⟨rfl, rfl, rfl⟩

/-- A request to create an instance of the Device object. -/
def createRequest : Transaction Nat :=
  { transactionNew 0 1 2 7 [] with callback := true, userData := 100 }

/-- The request is pending, with its data. -/
def createContext : DmContext Nat where
  nextMID := 8
  transactionList := [createRequest]
  dmData address :=
    if address = 100 then some ⟨⟨3, lwm2mMaxId, lwm2mMaxId, lwm2mMaxId⟩, 0, 5⟩ else none
  live := by simp [createRequest, transactionNew]

/-- The instance was created, with these segments as its location. -/
def createdReply (locationPath : List Segment) : CoapMessage where
  type := .ack
  code := coapCreated
  mid := 7
  token := ⟨[], by decide⟩
  options := { CoapOptions.none with locationPath }
  block1 := none
  block2 := none
  payload := []

theorem prvResultCallback_created :
    AnswersUser createRequest ⟨⟨3, lwm2mMaxId, lwm2mMaxId, lwm2mMaxId⟩, 0, 5⟩
      (some (createdReply [⟨[51], by decide⟩, ⟨[48], by decide⟩])) createContext
      (prvResultCallback true (some (createdReply [⟨[51], by decide⟩, ⟨[48], by decide⟩]))
        createRequest createContext) := by
  refine (prvResultCallback_answers_iff rfl true _).2 ?_
  intro packet hpacket hrefused
  obtain rfl := Option.some.inj hpacket
  exact hrefused.2.2 [47, 51, 47, 48] ⟨3, 0, lwm2mMaxId, lwm2mMaxId⟩ rfl (by decide +kernel)
    (by decide)

/-- A location that names an instance of another object: the user is not told, and the data are not
freed. -/
theorem otherLocation_unanswered :
    ¬ AnswersUser createRequest ⟨⟨3, lwm2mMaxId, lwm2mMaxId, lwm2mMaxId⟩, 0, 5⟩
      (some (createdReply [⟨[49], by decide⟩, ⟨[48], by decide⟩])) createContext
      (prvResultCallback true (some (createdReply [⟨[49], by decide⟩, ⟨[48], by decide⟩]))
        createRequest createContext) := by
  intro h
  have hfree := (prvResultCallback_answers_iff rfl true _).1 h _ rfl
  have hnone : resultLocation true 3 [⟨[49], by decide⟩, ⟨[48], by decide⟩] = none := by
    decide +kernel
  exact hfree ((resultLocation_none_iff ⟨rfl, List.cons_ne_nil _ _⟩).1 hnone)

end Wakaama
