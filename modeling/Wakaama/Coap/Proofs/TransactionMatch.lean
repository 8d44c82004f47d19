import Mathlib.Data.List.Nodup
import Wakaama.Core.Packet
import Wakaama.Core.Proofs.SortedList
import Wakaama.Misc.UpdateAt

/-!
# Which transaction an answer finishes

`transaction_handleResponse` stops at the first transaction of the peer that the message
acknowledges by its id or finishes by its token. An ACK or RST that carries the id of a
pending transaction deals with exactly that one when nothing before it in the list stops the
walk, and when `transaction_remove`, which looks for the id alone, unlinks the transaction
that it frees.
-/

namespace Wakaama

variable {Session : Type}

/-- The list of a context: ascending ids, live nodes at different addresses, and the id of a
transaction in its message. -/
structure TransactionList (Session : Type) where
  nodes : List (Transaction Session)
  ascending : nodes.Pairwise fun a b => a.mID ≤ b.mID
  addresses : (nodes.map Transaction.address).Nodup
  live : ∀ transacP ∈ nodes, transacP.freed = false
  mids : ∀ transacP ∈ nodes, transacP.message.mid = transacP.mID

/-- The message is an ACK or RST with the id of the transaction, which waits for one. -/
def acknowledges (message : CoapPacket) (transacP : Transaction Session) : Bool :=
  !transacP.ackReceived && (message.type == .ack || message.type == .rst) &&
    transacP.mID == message.mid

/-- The transaction with its acknowledgement noted. -/
def marked (message : CoapPacket) (transacP : Transaction Session) : Transaction Session :=
  { transacP with ackReceived := transacP.ackReceived || acknowledges message transacP }

/-- The message is a reset of the transaction, or its answer. -/
def finishes (message : CoapPacket) (transacP : Transaction Session) : Bool :=
  acknowledges message transacP && message.type == .rst ||
    prvCheckFinished (marked message transacP) message

/-- The transaction was denied and is sent again instead. -/
def retries (message : CoapPacket) (transacP : Transaction Session) : Bool :=
  !(acknowledges message transacP && message.type == .rst) && message.code == coapUnauthorized &&
    transacP.retransCounter < coapMaxRetransmit

/-- The walk stops at the transaction. -/
def stopsAt (sessionIsEqual : Session → Session → Bool) (fromSessionH : Session)
    (message : CoapPacket) (transacP : Transaction Session) : Bool :=
  sessionIsEqual fromSessionH transacP.peerH &&
    (acknowledges message transacP || finishes message transacP)

/-- The transaction at this place, and no other, is acknowledged or gone. -/
def OnlyAnswered (before : List (Transaction Session)) (target : Transaction Session)
    (after nodes : List (Transaction Session)) : Prop :=
  nodes = before ++ after ∨
    ∃ retransTime, nodes = before ++ { target with ackReceived := true, retransTime } :: after

/-- No transaction in front of the one at this place stops the walk, nor one behind it where the
walk goes past it; one that is finished is not to be sent again, and its id is not also that
of a transaction in front. -/
def ReachedAlone (sessionIsEqual : Session → Session → Bool) (fromSessionH : Session)
    (message : CoapPacket) (before : List (Transaction Session)) (target : Transaction Session)
    (after : List (Transaction Session)) : Prop :=
  (∀ transacP ∈ before, stopsAt sessionIsEqual fromSessionH message transacP = false) ∧
    if finishes message target then
      retries message target = false ∧ ∀ transacP ∈ before, transacP.mID ≠ target.mID
    else acknowledges message target = false →
      ∀ transacP ∈ after, stopsAt sessionIsEqual fromSessionH message transacP = false

instance (sessionIsEqual : Session → Session → Bool) (fromSessionH : Session)
    (message : CoapPacket) (before : List (Transaction Session)) (target : Transaction Session)
    (after : List (Transaction Session)) :
    Decidable (ReachedAlone sessionIsEqual fromSessionH message before target after) := by
  unfold ReachedAlone
  infer_instance

/-! ### The walk -/

section walk

variable {sessionIsEqual : Session → Session → Bool} {tvSec : Int} {fromSessionH : Session}
  {message : CoapPacket}

variable {transacP target : Transaction Session} {before after nodes : List (Transaction Session)}

theorem handleResponseFrom_cons (hlive : transacP.freed = false)
    (before next : List (Transaction Session)) :
    handleResponseFrom sessionIsEqual tvSec fromSessionH message before (transacP :: next) =
      if stopsAt sessionIsEqual fromSessionH message transacP then
        if finishes message transacP then
          if retries message transacP then
            .ok (before ++ { marked message transacP with
                ackReceived := false
                retransTime := transacP.retransTime + coapResponseTimeout } :: next,
              { result := true, notified := none })
          else .ok (transactionRemove before (marked message transacP) next,
            { result := true, notified := (marked message transacP).notify })
        else .ok (before ++ { marked message transacP with
            retransTime := retransTimeAfter tvSec (marked message transacP) message } :: next,
          { result := true, notified := none })
      else handleResponseFrom sessionIsEqual tvSec fromSessionH message (before ++ [transacP]) next := by
  let walkOn := handleResponseFrom sessionIsEqual tvSec fromSessionH message
    (before ++ [transacP]) next
  rw [handleResponseFrom, if_neg (by simp [hlive])]
  show (if sessionIsEqual fromSessionH transacP.peerH then
      if finishes message transacP then
        if retries message transacP then .ok (_, _) else .ok (_, _)
      else if acknowledges message transacP then .ok (_, _) else walkOn
    else walkOn) = _
  unfold stopsAt
  cases sessionIsEqual fromSessionH transacP.peerH with
  | false => rfl
  | true =>
    cases finishes message transacP with
    | true =>
      rw [Bool.or_true]
      rfl
    | false =>
      rw [Bool.or_false]
      rfl

theorem handleResponseFrom_passes (tvSec : Int) {passed : List (Transaction Session)}
    (hlive : ∀ transacP ∈ passed, transacP.freed = false)
    (hpass : ∀ transacP ∈ passed, stopsAt sessionIsEqual fromSessionH message transacP = false)
    (before rest : List (Transaction Session)) :
    handleResponseFrom sessionIsEqual tvSec fromSessionH message before (passed ++ rest) =
      handleResponseFrom sessionIsEqual tvSec fromSessionH message (before ++ passed) rest := by
  induction passed generalizing before with
  | nil => simp
  | cons transacP passed ih =>
    have hrest := ih (fun t ht => hlive t (List.mem_cons_of_mem _ ht))
      (fun t ht => hpass t (List.mem_cons_of_mem _ ht)) (before ++ [transacP])
    rw [List.append_assoc, List.singleton_append] at hrest
    rw [List.cons_append, handleResponseFrom_cons (hlive transacP (by simp)),
      hpass transacP (by simp)]
    simpa using hrest

/-- What the list looks like once the walk has stopped at a transaction. -/
inductive Stopped (tvSec : Int) (message : CoapPacket) (before : List (Transaction Session))
    (transacP : Transaction Session) (after : List (Transaction Session)) :
    List (Transaction Session) → Prop where
  | retried (hfinish : finishes message transacP = true) (hretry : retries message transacP = true) :
      Stopped tvSec message before transacP after
        (before ++ { marked message transacP with
          ackReceived := false
          retransTime := transacP.retransTime + coapResponseTimeout } :: after)
  | removed (hfinish : finishes message transacP = true)
      (hretry : retries message transacP = false) :
      Stopped tvSec message before transacP after
        (transactionRemove before (marked message transacP) after)
  | acknowledged (hfinish : finishes message transacP = false)
      (hack : acknowledges message transacP = true) :
      Stopped tvSec message before transacP after
        (before ++ { marked message transacP with
          retransTime := retransTimeAfter tvSec (marked message transacP) message } :: after)

theorem handleResponseFrom_stops (tvSec : Int) (hlive : transacP.freed = false)
    (hstop : stopsAt sessionIsEqual fromSessionH message transacP = true)
    (before after : List (Transaction Session)) :
    ∃ nodes handled, handleResponseFrom sessionIsEqual tvSec fromSessionH message before
        (transacP :: after) = .ok (nodes, handled) ∧
      Stopped tvSec message before transacP after nodes := by
  rw [handleResponseFrom_cons hlive, if_pos hstop]
  by_cases hfinish : finishes message transacP = true
  · rw [if_pos hfinish]
    by_cases hretry : retries message transacP = true
    · rw [if_pos hretry]
      exact ⟨_, _, rfl, Stopped.retried hfinish hretry⟩
    · rw [if_neg hretry]
      exact ⟨_, _, rfl, Stopped.removed hfinish (by simpa using hretry)⟩
  · rw [if_neg hfinish]
    have hack : acknowledges message transacP = true := by
      unfold stopsAt at hstop
      simp_all
    exact ⟨_, _, rfl, Stopped.acknowledged (by simpa using hfinish) hack⟩

/-! ### What is left of the others -/

def KeptIn (nodes : List (Transaction Session)) (transacP : Transaction Session) : Prop :=
  transacP ∈ nodes ∧ ∀ other ∈ nodes, other.address = transacP.address → other = transacP

theorem transactionRemove_own (before after : List (Transaction Session))
    (transacP : Transaction Session) (hasc : ∀ other ∈ before, other.mID ≤ transacP.mID)
    (hne : ∀ other ∈ before, other.mID ≠ transacP.mID) :
    transactionRemove before transacP after = before ++ after := by
  unfold transactionRemove
  have hremove : lwm2mListRemove Transaction.mID transacP.mID
      (before ++ { transacP with freed := true } :: after) =
        (before ++ after, some { transacP with freed := true }) :=
    lwm2mListRemove_first fun other hother =>
      uint16_lt_of_le_of_ne (hasc other hother) (hne other hother)
  rw [hremove]

theorem transactionRemove_other (before after : List (Transaction Session))
    (transacP : Transaction Session) (hasc : before.Pairwise fun a b => a.mID ≤ b.mID)
    (heq : ∃ other ∈ before, other.mID = transacP.mID) :
    { transacP with freed := true } ∈ transactionRemove before transacP after := by
  cases hsplit : splitFirst (fun other => other.mID == transacP.mID) before with
  | none =>
    obtain ⟨other, hother, hmid⟩ := heq
    have hmiss := splitFirst_none hsplit other hother
    simp [hmid] at hmiss
  | some found =>
    obtain ⟨front, other, back⟩ := found
    obtain ⟨hlist, hmid, hfront⟩ := splitFirst_some hsplit
    have hmid : other.mID = transacP.mID := by simpa using hmid
    rw [hlist, List.pairwise_append] at hasc
    have hlow : ∀ b ∈ front, b.mID < other.mID := by
      intro b hb
      apply uint16_lt_of_le_of_ne
      · exact hasc.2.2 b hb other (by simp)
      · rw [hmid]
        simpa using hfront b hb
    have hremove : lwm2mListRemove Transaction.mID transacP.mID
        (front ++ other :: (back ++ { transacP with freed := true } :: after)) =
          (front ++ (back ++ { transacP with freed := true } :: after), some other) := by
      rw [← hmid]
      exact lwm2mListRemove_first hlow
    unfold transactionRemove
    rw [hlist, List.append_assoc, List.cons_append, hremove]
    simp

theorem Stopped.disturbs (hasc : (before ++ transacP :: after).Pairwise fun a b => a.mID ≤ b.mID)
    (haddress : ((before ++ transacP :: after).map Transaction.address).Nodup)
    (h : Stopped tvSec message before transacP after nodes)
    (hlive : ∀ other ∈ nodes, other.freed = false) : ¬KeptIn nodes transacP := by
  intro hkept
  rw [List.pairwise_append] at hasc
  cases h with
  | retried hfinish hretry =>
    have hsame := hkept.2 { marked message transacP with
      ackReceived := false
      retransTime := transacP.retransTime + coapResponseTimeout } (by simp) rfl
    have htime := congrArg Transaction.retransTime hsame
    simp only [coapResponseTimeout] at htime
    omega
  | acknowledged hfinish hack =>
    have hsame := hkept.2 { marked message transacP with
      retransTime := retransTimeAfter tvSec (marked message transacP) message } (by simp) rfl
    have hwaits : transacP.ackReceived = false := by
      unfold acknowledges at hack
      simp_all
    have hreceived := congrArg Transaction.ackReceived hsame
    simp [marked, hack, hwaits] at hreceived
  | removed hfinish hretry =>
    by_cases hmids : ∃ other ∈ before, other.mID = (marked message transacP).mID
    · have hfreed := hlive _ (transactionRemove_other before after _ hasc.1 hmids)
      simp at hfreed
    · have hne : ∀ other ∈ before, other.mID ≠ (marked message transacP).mID := by
        intro other hother heq
        exact hmids ⟨other, hother, heq⟩
      have hle : ∀ other ∈ before, other.mID ≤ (marked message transacP).mID :=
        fun other hother => hasc.2.2 other hother transacP (by simp)
      rw [transactionRemove_own before after _ hle hne] at hkept
      rw [List.map_append, List.map_cons] at haddress
      have hgone := (List.nodup_middle.mp haddress)
      rw [List.nodup_cons, ← List.map_append] at hgone
      exact hgone.1 (List.mem_map_of_mem hkept.1)

theorem OnlyAnswered.keeps (haddress : ((before ++ target :: after).map Transaction.address).Nodup)
    (h : OnlyAnswered before target after nodes) :
    ∀ transacP ∈ before ++ after, KeptIn nodes transacP := by
  rw [List.map_append, List.map_cons] at haddress
  have hothers := List.nodup_middle.mp haddress
  rw [List.nodup_cons, ← List.map_append] at hothers
  obtain ⟨htarget, hothers⟩ := hothers
  intro transacP hmem
  have hsame : ∀ other ∈ before ++ after, other.address = transacP.address → other = transacP :=
    fun other hother heq => List.inj_on_of_nodup_map hothers hother hmem heq
  rcases h with h | ⟨retransTime, h⟩
  · rw [h]
    exact ⟨hmem, hsame⟩
  · rw [h]
    constructor
    · rcases List.mem_append.mp hmem with hbefore | hafter
      · exact List.mem_append_left _ hbefore
      · exact List.mem_append_right _ (List.mem_cons_of_mem _ hafter)
    · intro other hother heq
      rcases List.mem_append.mp hother with hbefore | hrest
      · exact hsame other (List.mem_append_left _ hbefore) heq
      · rcases List.mem_cons.mp hrest with htaken | hafter
        · rw [htaken] at heq
          exact absurd (heq ▸ List.mem_map_of_mem hmem) htarget
        · exact hsame other (List.mem_append_right _ hafter) heq

theorem OnlyAnswered.live (hlive : ∀ transacP ∈ before ++ target :: after, transacP.freed = false)
    (h : OnlyAnswered before target after nodes) : ∀ transacP ∈ nodes, transacP.freed = false := by
  rcases h with h | ⟨retransTime, h⟩
  · rw [h]
    intro transacP hmem
    apply hlive
    rcases List.mem_append.mp hmem with hbefore | hafter
    · exact List.mem_append_left _ hbefore
    · exact List.mem_append_right _ (List.mem_cons_of_mem _ hafter)
  · rw [h]
    intro transacP hmem
    rcases List.mem_append.mp hmem with hbefore | hrest
    · exact hlive transacP (List.mem_append_left _ hbefore)
    · rcases List.mem_cons.mp hrest with htarget | hafter
      · rw [htarget]
        exact hlive target (by simp)
      · exact hlive transacP (List.mem_append_right _ (List.mem_cons_of_mem _ hafter))

theorem not_onlyAnswered_of_stopped {front back : List (Transaction Session)}
    {pending : TransactionList Session} (hplace : pending.nodes = before ++ target :: after)
    (hstop : pending.nodes = front ++ transacP :: back) (hother : transacP ∈ before ++ after)
    (h : Stopped tvSec message front transacP back nodes) :
    ¬OnlyAnswered before target after nodes := by
  intro honly
  have hasc := pending.ascending
  have haddress := pending.addresses
  have hlive := pending.live
  rw [hplace] at hlive
  have hlive' := honly.live hlive
  rw [hstop] at hasc haddress
  have hdisturbed := h.disturbs hasc haddress hlive'
  rw [← hstop, hplace] at haddress
  exact hdisturbed (honly.keeps haddress transacP hother)

theorem not_onlyAnswered_of_waiting {placed : Transaction Session}
    (h : nodes = before ++ placed :: after) (hreceived : placed.ackReceived = false) :
    ¬OnlyAnswered before target after nodes := by
  rintro (hgone | ⟨retransTime, htaken⟩)
  · have hlength := congrArg List.length (h.symm.trans hgone)
    simp at hlength
  · have hsame := h.symm.trans htaken
    rw [List.append_cancel_left_eq, List.cons.injEq] at hsame
    rw [hsame.1] at hreceived
    contradiction

/-- A walk that stops at the target deals with it alone unless it is sent again, or its id is
found in front of it. -/
theorem onlyAnswered_iff_of_stopped {pending : TransactionList Session}
    (hplace : pending.nodes = before ++ target :: after)
    (h : Stopped tvSec message before target after nodes) :
    OnlyAnswered before target after nodes ↔
      if finishes message target then
        retries message target = false ∧ ∀ transacP ∈ before, transacP.mID ≠ target.mID
      else acknowledges message target = false →
        ∀ transacP ∈ after, stopsAt sessionIsEqual fromSessionH message transacP = false := by
  have hasc := pending.ascending
  have hlive := pending.live
  rw [hplace] at hasc hlive
  rw [List.pairwise_append] at hasc
  cases h with
  | retried hfinish hretry =>
    rw [if_pos hfinish, hretry]
    constructor
    · intro honly
      exact absurd honly (not_onlyAnswered_of_waiting rfl rfl)
    · rintro ⟨hfalse, -⟩
      contradiction
  | acknowledged hfinish hack =>
    rw [hfinish]
    constructor
    · intro _ hfalse
      rw [hack] at hfalse
      contradiction
    · intro _
      refine Or.inr ⟨retransTimeAfter tvSec (marked message target) message, ?_⟩
      simp [marked, hack]
  | removed hfinish hretry =>
    rw [if_pos hfinish, hretry]
    constructor
    · intro honly
      refine ⟨rfl, fun other hother heq => ?_⟩
      have hfreed := honly.live hlive _ (transactionRemove_other before after
        (marked message target) hasc.1 ⟨other, hother, heq⟩)
      contradiction
    · rintro ⟨-, hne⟩
      exact Or.inl (transactionRemove_own before after (marked message target)
        (fun other hother => hasc.2.2 other hother target (by simp)) hne)

end walk

/-- A request of 40 bytes in blocks of 16, of which block 0 was sent. -/
def blockRequest (address : Nat) (mID : UInt16) : Transaction Nat where
  address := address
  mID := mID
  peerH := 1
  ackReceived := false
  retransCounter := 2
  retransTime := 2
  message := { coapInitMessage .con 0x02 mID with
    token := some [1, 2, 3, 4]
    block1 := some { num := 0, more := true, size := 16 } }
  buffer := some { coapInitMessage .con 0x02 mID with token := some [1, 2, 3, 4] }
  payload := List.replicate 40 7
  callback := true
  userData := 0
  freed := false

/-- The peer's 2.31 to block 0 of it. -/
def blockAck (mid : UInt16) : CoapPacket :=
  { coapInitMessage .ack coapContinue mid with
    token := some [1, 2, 3, 4]
    block1 := some { num := 0, more := true, size := 16 } }

/-- Plenty of memory, at address 20 for the next transaction. -/
def packetEnv : PacketEnv Nat where
  sessionIsEqual := (· == ·)
  blockSize := 16
  maxMessageSize := 4096
  tvSec := 0
  clone := some 20
  buffer := true
  blockAlloc := { entry := none, uri := 0, buffer := true, high := 0 }

/-- The request alone in the list. -/
def pendingBlock (mID : UInt16) : TransactionList Nat where
  nodes := [blockRequest 10 mID]
  ascending := by simp
  addresses := by simp
  live := by simp [blockRequest]
  mids := by simp [blockRequest, coapInitMessage]

end Wakaama
