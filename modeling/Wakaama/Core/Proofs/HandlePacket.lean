import Wakaama.Coap.Proofs.TransactionMatch

/-!
# Responses that match no transaction

Of the paths `lwm2m_handle_packet` takes on a response, all but one test what
`prv_get_transaction` returns. A 4.13 without a Block option leads to `prv_change_to_block1`,
which does not. A response that matches nothing leaves the list of transactions as it is.
-/

namespace Wakaama

variable {Session : Type}

/-- The message answers no transaction of the peer, by its id or by its token. -/
def MatchesNothing (sessionIsEqual : Session → Session → Bool) (fromSessionH : Session)
    (message : CoapPacket) (transactionList : List (Transaction Session)) : Prop :=
  ∀ transaction ∈ transactionList, sessionIsEqual fromSessionH transaction.peerH = true →
    transaction.mID ≠ message.mid ∧ prvCheckFinished transaction message = false

/-- The message is no request. -/
def isResponse (message : CoapPacket) : Bool :=
  !(coapGet ≤ message.code && message.code ≤ coapDelete)

/-- The response that makes the handler switch to Block1. -/
def changesToBlock1 (blockSize : UInt16) (message : CoapPacket) : Bool :=
  message.type == .ack && message.code == coapEntityTooLarge &&
    message.payload.length ≤ blockSize.toNat && message.block1 == none && message.block2 == none

/-- The handler never follows a NULL transaction, and a response that matches nothing leaves the
list of transactions unchanged. -/
def FoundOnly (env : PacketEnv Session)
    (handleRequest : PacketContext Session → CoapPacket → PacketContext Session)
    (context : PacketContext Session) (fromSessionH : Session) (message : Option CoapPacket) : Prop :=
  lwm2mHandlePacket env handleRequest context fromSessionH message ≠
      .error (.transaction .nullDeref) ∧
    ∀ response ∈ message, isResponse response = true →
      MatchesNothing env.sessionIsEqual fromSessionH response context.transactionList →
      ∀ context', lwm2mHandlePacket env handleRequest context fromSessionH message = .ok context' →
        context'.transactionList = context.transactionList

/-- What a path of the handler may do: it follows no NULL transaction, and with a message that
matches nothing it leaves the list alone. -/
structure Guarded (transactionList : List (Transaction Session)) (unmatched : Prop)
    (result : Except PacketFault (PacketContext Session)) : Prop where
  found : result ≠ .error (.transaction .nullDeref)
  unchanged : unmatched → ∀ context, result = .ok context →
    context.transactionList = transactionList

section paths

variable {env : PacketEnv Session} {context : PacketContext Session} {sessionH : Session}
  {message : CoapPacket} {transactionList : List (Transaction Session)} {unmatched : Prop}

variable {fault : PacketFault} {sessionIsEqual : Session → Session → Bool} {tvSec : Int}

theorem Guarded.error (h : fault ≠ .transaction .nullDeref) :
    Guarded transactionList unmatched (.error fault) := by
  refine ⟨?_, ?_⟩
  · intro heq
    exact h (Except.error.inj heq)
  · intro _ context heq
    cases heq

theorem Guarded.ok (h : unmatched → context.transactionList = transactionList) :
    Guarded transactionList unmatched (.ok context) := by
  refine ⟨by simp, ?_⟩
  intro hnone context' heq
  cases heq
  exact h hnone

theorem prvGetTransaction_fault {mid : UInt16}
    (h : prvGetTransaction sessionIsEqual sessionH mid transactionList = .error fault) :
    fault = .transaction .useAfterFree := by
  induction transactionList with
  | nil => cases h
  | cons transaction next ih =>
    unfold prvGetTransaction at h
    split at h
    · cases h
      rfl
    · split at h
      · cases h
      · exact ih h

theorem prvGetTransaction_some {mid : UInt16} {transaction : Transaction Session}
    (h : prvGetTransaction sessionIsEqual sessionH mid transactionList = .ok (some transaction)) :
    transaction ∈ transactionList ∧ sessionIsEqual sessionH transaction.peerH = true ∧
      transaction.mID = mid := by
  induction transactionList with
  | nil => cases h
  | cons first next ih =>
    unfold prvGetTransaction at h
    split at h
    · cases h
    · split at h
      · rename_i hhit
        cases h
        simp only [Bool.and_eq_true, beq_iff_eq] at hhit
        exact ⟨by simp, hhit⟩
      · obtain ⟨hmem, hhit⟩ := ih h
        exact ⟨List.mem_cons_of_mem _ hmem, hhit⟩

theorem prvGetTransaction_unmatched
    (hnone : MatchesNothing env.sessionIsEqual sessionH message transactionList)
    (transaction : Transaction Session) :
    prvGetTransaction env.sessionIsEqual sessionH message.mid transactionList ≠
      .ok (some transaction) := by
  intro h
  obtain ⟨hmem, hpeer, hmid⟩ := prvGetTransaction_some h
  exact (hnone transaction hmem hpeer).1 hmid

theorem guarded_lookup
    {use : Transaction Session → Except PacketFault (PacketContext Session)}
    (huse : ∀ transaction, use transaction ≠ .error (.transaction .nullDeref))
    {result : Except PacketFault (PacketContext Session)}
    (hresult : result =
      match prvGetTransaction env.sessionIsEqual sessionH message.mid context.transactionList with
      | .error fault => .error fault
      | .ok none => .ok context
      | .ok (some transaction) => use transaction) :
    Guarded context.transactionList
      (MatchesNothing env.sessionIsEqual sessionH message context.transactionList) result := by
  subst hresult
  cases hget : prvGetTransaction env.sessionIsEqual sessionH message.mid
      context.transactionList with
  | error fault =>
    apply Guarded.error
    rw [prvGetTransaction_fault hget]
    simp
  | ok found =>
    cases found with
    | none => exact Guarded.ok fun _ => rfl
    | some transaction =>
      refine ⟨huse transaction, ?_⟩
      intro hnone
      exact absurd hget (prvGetTransaction_unmatched hnone transaction)

theorem prvSendNewBlock1_found (previous : Transaction Session) (blockNum : UInt32)
    (blockSize : UInt16) :
    prvSendNewBlock1 env context (some previous) blockNum blockSize ≠
      .error (.transaction .nullDeref) := by
  unfold prvSendNewBlock1
  dsimp only
  split
  · simp
  · split <;> simp

theorem prvNextBlock1_fault {blockSize : UInt16}
    (h : prvNextBlock1 message blockSize = .error fault) : fault = .transaction .divByZero := by
  unfold prvNextBlock1 at h
  dsimp only at h
  generalize (if message.block1Size < blockSize ∨ blockSize = 0 then message.block1Size
    else blockSize) = size at h
  split at h
  · split at h
    · cases h
      rfl
    · cases h
  · cases h

theorem prvSendNextBlock1_guarded (blockSize : UInt16) :
    Guarded context.transactionList
      (MatchesNothing env.sessionIsEqual sessionH message context.transactionList)
      (prvSendNextBlock1 env context sessionH message.mid blockSize) := by
  refine guarded_lookup ?_ rfl
  intro transaction
  cases hnext : prvNextBlock1 transaction.message blockSize with
  | error fault => simp [prvNextBlock1_fault hnext]
  | ok next => simpa using prvSendNewBlock1_found transaction next.1 next.2

theorem prvRetryBlock1_guarded (blockSize : UInt16) :
    Guarded context.transactionList
      (MatchesNothing env.sessionIsEqual sessionH message context.transactionList)
      (prvRetryBlock1 env context sessionH message.mid blockSize) := by
  refine guarded_lookup ?_ rfl
  intro transaction
  dsimp only
  generalize (if blockSize = transaction.message.block1Size ∧ 16 < blockSize then blockSize / 2
    else blockSize) = size
  split
  · exact prvSendNewBlock1_found transaction 0 blockSize
  · split
    · simp
    · exact prvSendNewBlock1_found transaction _ size

theorem prvSendGetBlock2_guarded (blockDataHead : List BlockData) (block2Num : UInt32)
    (block2Size : UInt16) :
    Guarded context.transactionList
      (MatchesNothing env.sessionIsEqual sessionH message context.transactionList)
      (prvSendGetBlock2 env context sessionH blockDataHead message.mid block2Num block2Size) := by
  refine guarded_lookup ?_ rfl
  intro transaction
  dsimp only
  split
  · simp
  · split
    · simp
    · split <;> simp

theorem prvChangeToBlock1_null_iff (size : UInt32) :
    prvChangeToBlock1 env context sessionH message.mid size = .error (.transaction .nullDeref) ↔
      prvGetTransaction env.sessionIsEqual sessionH message.mid context.transactionList =
        .ok none := by
  unfold prvChangeToBlock1
  cases hget : prvGetTransaction env.sessionIsEqual sessionH message.mid
      context.transactionList with
  | error fault => simp [prvGetTransaction_fault hget]
  | ok found =>
    cases found with
    | none => simp [prvSendNewBlock1]
    | some transaction =>
      simp only [Except.ok.injEq, reduceCtorEq, iff_false]
      exact prvSendNewBlock1_found transaction 0 _

theorem prvChangeToBlock1_guarded {size : UInt32}
    (hfound : prvGetTransaction env.sessionIsEqual sessionH message.mid context.transactionList ≠
      .ok none) :
    Guarded context.transactionList
      (MatchesNothing env.sessionIsEqual sessionH message context.transactionList)
      (prvChangeToBlock1 env context sessionH message.mid size) := by
  constructor
  · intro hnull
    exact hfound (prvChangeToBlock1_null_iff size |>.mp hnull)
  · intro hnone context' hsent
    unfold prvChangeToBlock1 at hsent
    cases hget : prvGetTransaction env.sessionIsEqual sessionH message.mid
        context.transactionList with
    | error fault =>
      rw [hget] at hsent
      cases hsent
    | ok found =>
      cases found with
      | none => exact absurd hget hfound
      | some transaction => exact absurd hget (prvGetTransaction_unmatched hnone transaction)

theorem handleResponseFrom_freed {transacP : Transaction Session} (hfreed : transacP.freed = true)
    (before next : List (Transaction Session)) :
    handleResponseFrom sessionIsEqual tvSec sessionH message before (transacP :: next) =
      .error .useAfterFree := by
  rw [handleResponseFrom, if_pos hfreed]

theorem handleResponseFrom_fault {before rest : List (Transaction Session)} {fault : Fault}
    (h : handleResponseFrom sessionIsEqual tvSec sessionH message before rest = .error fault) :
    fault = .useAfterFree := by
  induction rest generalizing before with
  | nil => cases h
  | cons transacP next ih =>
    cases hlive : transacP.freed with
    | true =>
      rw [handleResponseFrom_freed hlive] at h
      cases h
      rfl
    | false =>
      rw [handleResponseFrom_cons hlive] at h
      split at h
      · split at h
        · split at h <;> cases h
        · cases h
      · exact ih h

theorem handleResponseFrom_unmatched {before rest nodes : List (Transaction Session)}
    {handled : Handled Session}
    (hpass : ∀ transacP ∈ rest, stopsAt sessionIsEqual sessionH message transacP = false)
    (h : handleResponseFrom sessionIsEqual tvSec sessionH message before rest = .ok (nodes, handled)) :
    nodes = before ++ rest := by
  induction rest generalizing before with
  | nil =>
    cases h
    simp
  | cons transacP next ih =>
    cases hlive : transacP.freed with
    | true =>
      rw [handleResponseFrom_freed hlive] at h
      cases h
    | false =>
      rw [handleResponseFrom_cons hlive, hpass transacP (by simp)] at h
      have hnodes := ih (fun t ht => hpass t (List.mem_cons_of_mem _ ht)) h
      rw [hnodes]
      simp

theorem stopsAt_unmatched
    (hnone : MatchesNothing env.sessionIsEqual sessionH message transactionList)
    (transacP : Transaction Session) (hmem : transacP ∈ transactionList) :
    stopsAt env.sessionIsEqual sessionH message transacP = false := by
  unfold stopsAt
  cases hpeer : env.sessionIsEqual sessionH transacP.peerH with
  | false => rfl
  | true =>
    obtain ⟨hmid, hcheck⟩ := hnone transacP hmem hpeer
    have hack : acknowledges message transacP = false := by
      unfold acknowledges
      simp [hmid]
    have hmarked : marked message transacP = transacP := by
      unfold marked
      rw [hack, Bool.or_false]
    unfold finishes
    rw [hack, hmarked, hcheck]
    rfl

theorem thenHandleResponse_guarded {sent : Except PacketFault (PacketContext Session)}
    (h : Guarded transactionList
      (MatchesNothing env.sessionIsEqual sessionH message transactionList) sent) :
    Guarded transactionList
      (MatchesNothing env.sessionIsEqual sessionH message transactionList)
      (thenHandleResponse env sessionH message sent) := by
  unfold thenHandleResponse
  cases sent with
  | error fault =>
    apply Guarded.error
    intro heq
    exact h.found (by rw [heq])
  | ok context =>
    unfold contextHandleResponse transactionHandleResponse
    cases hwalk : handleResponseFrom env.sessionIsEqual env.tvSec sessionH message []
        context.transactionList with
    | error fault =>
      dsimp only
      rw [hwalk]
      apply Guarded.error
      rw [handleResponseFrom_fault hwalk]
      simp
    | ok out =>
      obtain ⟨nodes, handled⟩ := out
      dsimp only
      rw [hwalk]
      apply Guarded.ok
      intro hnone
      have hsame := h.unchanged hnone context rfl
      rw [hsame] at hwalk
      have hnodes := handleResponseFrom_unmatched (stopsAt_unmatched hnone) hwalk
      simpa using hnodes

theorem retryAsBlock2_guarded :
    Guarded context.transactionList
      (MatchesNothing env.sessionIsEqual sessionH message context.transactionList)
      (retryAsBlock2 env context sessionH message) := by
  unfold retryAsBlock2
  split
  · exact Guarded.ok fun _ => rfl
  · exact prvSendGetBlock2_guarded _ _ _

theorem handleBlock1Ack_guarded (block1 : BlockOption) :
    Guarded context.transactionList
      (MatchesNothing env.sessionIsEqual sessionH message context.transactionList)
      (handleBlock1Ack env context sessionH message block1) := by
  unfold handleBlock1Ack
  apply thenHandleResponse_guarded
  split
  · exact prvSendNextBlock1_guarded block1.size
  · split
    · exact prvRetryBlock1_guarded block1.size
    · exact Guarded.ok fun _ => rfl

theorem handleBlock2Ack_guarded (block2 : BlockOption) :
    Guarded context.transactionList
      (MatchesNothing env.sessionIsEqual sessionH message context.transactionList)
      (handleBlock2Ack env context sessionH message block2) := by
  unfold handleBlock2Ack
  split
  · exact Guarded.ok fun _ => rfl
  · dsimp only
    split
    · exact Guarded.error (by simp)
    · rename_i blockData reply _
      have hcontext : Guarded context.transactionList
          (MatchesNothing env.sessionIsEqual sessionH message context.transactionList)
          (.ok { context with
            peers := putBlockData env.sessionIsEqual sessionH blockData context.peers }) :=
        Guarded.ok fun _ => rfl
      split
      · have hthen := thenHandleResponse_guarded hcontext
        split
        · rename_i fault hfault
          apply Guarded.error
          intro heq
          exact hthen.found (by rw [hfault, heq])
        · rename_i context' hcontext'
          split
          · exact Guarded.error (by simp)
          · exact Guarded.ok fun hnone => hthen.unchanged hnone context' hcontext'
      · split
        · have hsend := @prvSendGetBlock2_guarded Session env { context with
            peers := putBlockData env.sessionIsEqual sessionH blockData context.peers } sessionH
            message blockData (block2.num + 1) block2.size
          exact thenHandleResponse_guarded hsend
        · exact hcontext

/-- Every path of a response is guarded except the change to Block1, whose look-up has to find
the transaction. -/
theorem handleResponse_guarded
    (hfound : changesToBlock1 env.blockSize message = true →
      prvGetTransaction env.sessionIsEqual sessionH message.mid context.transactionList ≠
        .ok none) :
    Guarded context.transactionList
      (MatchesNothing env.sessionIsEqual sessionH message context.transactionList)
      (handleResponse env context sessionH message) := by
  have hplain : Guarded context.transactionList
      (MatchesNothing env.sessionIsEqual sessionH message context.transactionList)
      (thenHandleResponse env sessionH message (.ok context)) :=
    thenHandleResponse_guarded (Guarded.ok fun _ => rfl)
  have hretry : Guarded context.transactionList
      (MatchesNothing env.sessionIsEqual sessionH message context.transactionList)
      (thenHandleResponse env sessionH message (retryAsBlock2 env context sessionH message)) :=
    thenHandleResponse_guarded retryAsBlock2_guarded
  unfold handleResponse
  dsimp only
  cases htype : message.type with
  | con | non =>
    dsimp only
    split
    · exact hretry
    · exact hplain
  | rst => exact hplain
  | ack =>
    dsimp only
    split
    · exact hretry
    · rename_i hfits
      cases hblock1 : message.block1 with
      | some block1 => exact handleBlock1Ack_guarded block1
      | none =>
        cases hblock2 : message.block2 with
        | some block2 => exact handleBlock2Ack_guarded block2
        | none =>
          dsimp only
          split
          · rename_i hcode
            apply thenHandleResponse_guarded
            apply prvChangeToBlock1_guarded
            apply hfound
            simp [changesToBlock1, htype, hcode, hblock1, hblock2]
            omega
          · exact hplain

theorem handleResponse_null (hchange : changesToBlock1 env.blockSize message = true)
    (hget : prvGetTransaction env.sessionIsEqual sessionH message.mid context.transactionList =
      .ok none) :
    handleResponse env context sessionH message = .error (.transaction .nullDeref) := by
  unfold changesToBlock1 at hchange
  simp only [Bool.and_eq_true, beq_iff_eq, decide_eq_true_eq] at hchange
  obtain ⟨⟨⟨⟨htype, hcode⟩, hfits⟩, hblock1⟩, hblock2⟩ := hchange
  unfold handleResponse
  dsimp only
  rw [htype, hblock1, hblock2]
  dsimp only
  rw [if_neg (by omega), if_pos hcode, (prvChangeToBlock1_null_iff message.size).mpr hget]
  rfl

end paths

/-- For every packet in every context: the handler follows no NULL transaction, and a response
that matches nothing leaves the transactions alone, exactly unless the packet is a 4.13 that
switches to Block1 a request which is not there. -/
theorem lwm2mHandlePacket_foundOnly_iff (env : PacketEnv Session)
    (handleRequest : PacketContext Session → CoapPacket → PacketContext Session)
    (context : PacketContext Session) (fromSessionH : Session) (message : Option CoapPacket) :
    FoundOnly env handleRequest context fromSessionH message ↔
      ∀ response ∈ message, changesToBlock1 env.blockSize response = true →
        prvGetTransaction env.sessionIsEqual fromSessionH response.mid context.transactionList ≠
          .ok none := by
  unfold FoundOnly lwm2mHandlePacket
  cases message with
  | none => simp
  | some message =>
    by_cases hrequest : coapGet ≤ message.code ∧ message.code ≤ coapDelete
    · have hkeep : changesToBlock1 env.blockSize message = false := by
        have hcode : message.code ≠ coapEntityTooLarge := by
          intro hcode
          rw [hcode] at hrequest
          exact absurd hrequest.2 (by decide)
        simp [changesToBlock1, hcode]
      have hnoResponse : isResponse message = false := by
        simp [isResponse, hrequest]
      simp [hrequest, hkeep, hnoResponse]
    · have hresponse : isResponse message = true := by
        rw [isResponse, Bool.not_eq_true', Bool.and_eq_false_imp]
        simpa using hrequest
      simp only [if_neg hrequest, Option.mem_def, Option.some.injEq, forall_eq']
      constructor
      · rintro ⟨hfound, -⟩ hchange hget
        exact hfound (handleResponse_null hchange hget)
      · intro hget
        have hguarded := handleResponse_guarded hget
        exact ⟨hguarded.found, fun _ hnone => hguarded.unchanged hnone⟩

/-- An unsolicited 4.13. -/
def unsolicitedTooLarge : CoapPacket := coapInitMessage .ack coapEntityTooLarge 7

/-- It is followed through NULL when nothing is pending. -/
theorem unsolicitedTooLarge_null :
    ¬FoundOnly packetEnv (fun context _ => context)
      { transactionList := [], nextMID := 0, peers := [] } 1 (some unsolicitedTooLarge) := by
  intro h
  exact h.1 rfl

end Wakaama
