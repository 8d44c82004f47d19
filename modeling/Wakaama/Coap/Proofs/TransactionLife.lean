import Wakaama.Coap.Proofs.TransactionIds

/-!
# The life of a transaction

Every transaction is transmitted a few times, until it is acknowledged, and has its callback called
once when it leaves `contextP->transactionList`. `transaction_send` forgets the callback when the
message cannot be serialised, and `transaction_remove_client` forgets it always; `lwm2m_send` goes
on with a transaction that `transaction_send` has freed.
-/

namespace Wakaama

variable {Session : Type}

/-- What has happened to the transaction of one address. -/
structure Life where
  started : Option Bool
  acknowledged : Option Bool
  sent : Nat
  called : Nat
  freed : Nat
  deriving DecidableEq, Repr

/-- Nothing has happened. -/
def Life.unborn : Life := ⟨none, none, 0, 0, 0⟩

/-- What an effect says about the address. -/
def about (address : Nat) : Option (Nat × Bool) → Option Bool
  | some (other, value) => if other = address then some value else none
  | none => none

/-- A life goes on. -/
def Life.record (life : Life) (address : Nat) (effect : TransactionEffect) : Life where
  started := life.started.or (about address effect.started)
  acknowledged := (about address effect.acknowledged).or life.acknowledged
  sent := life.sent + if effect.sent = some address then 1 else 0
  called := life.called + if effect.called = some address then 1 else 0
  freed := life.freed + effect.freed.count address

/-- The life of a transaction so far. -/
def lifeOf (address : Nat) (past : List (TransactionCall Session × TransactionEffect)) : Life :=
  past.foldl (fun life event => life.record address event.2) .unborn

/-- The response with the code 4.01. -/
def Unauthorized (call : TransactionCall Session) : Prop :=
  ∃ tvSec fromSessionH message, call = .response tvSec fromSessionH message ∧
    message.code = coapUnauthorized

/-- What a step of the condition looks like: the id of a new transaction is free; its message is
serialised, or there is no callback and it is not by `lwm2m_send`; the clock works where
`lwm2m_send` starts it; a client that is removed has no callback pending. -/
def LifeKept (sessionIsEqual : Session → Session → Bool) (context : TransactionContext Session) :
    TransactionCall Session → Prop
  | .start transacP serialized tvSec byLwm2mSend => IdFree context ∧
      (serialized = false → transacP.callback = false ∧ byLwm2mSend = false) ∧
      (tvSec < 0 → byLwm2mSend = false)
  | .removeClient sessionH => ∀ transacP ∈ context.transactionList,
      sessionIsEqual transacP.peerH sessionH = true → transacP.callback = false
  | _ => True

/-- No callback runs for a transaction, and it is not in the list. -/
def Left (context : TransactionContext Session) (address : Nat) : Prop :=
  (∀ transacP ∈ context.transactionList, transacP.address ≠ address) ∧ ¬ Running context address

/-- A transaction that counts as acknowledged is not transmitted, and goes on counting as
acknowledged until a 4.01 arrives. -/
def SentRightly (before : List (TransactionCall Session × TransactionEffect))
    (event : TransactionCall Session × TransactionEffect) : Prop :=
  ∀ address, (lifeOf address before).acknowledged = some true →
    event.2.sent ≠ some address ∧
      (event.2.acknowledged = some (address, false) → Unauthorized event.1)

/-- The life cycle. A transaction is transmitted at most `COAP_MAX_RETRANSMIT + 1` times, and not
while it counts as acknowledged. While it is pending its callback is not called; when it has left
the list its callback, if it had one, has been called once, and it has been freed once. -/
structure LifeCycle (past : List (TransactionCall Session × TransactionEffect))
    (context : TransactionContext Session) : Prop where
  transmissions : ∀ address, (lifeOf address past).sent ≤ coapMaxRetransmit.toNat + 1
  rightly : EachEvent SentRightly [] past
  pending : ∀ transacP ∈ context.transactionList, ¬ Running context transacP.address →
    (lifeOf transacP.address past).called = 0 ∧ (lifeOf transacP.address past).freed = 0
  left : ∀ address callback, (lifeOf address past).started = some callback →
    Left context address →
      (lifeOf address past).called = callback.toNat ∧ (lifeOf address past).freed = 1

/-! ## What a step leaves alone -/

structure SameAt (context context' : TransactionContext Session) (address : Nat) : Prop where
  list : ∀ transacP, transacP.address = address →
    (transacP ∈ context'.transactionList ↔ transacP ∈ context.transactionList)
  callbacks : ∀ frame, frame.transacP.address = address →
    (frame ∈ context'.callbacks ↔ frame ∈ context.callbacks)
  allocations : context'.allocations ≤ address ↔ context.allocations ≤ address

namespace SameAt

variable {context context' context'' : TransactionContext Session} {address : Nat}

theorem running (h : SameAt context context' address) :
    Running context' address ↔ Running context address := by
  constructor
  · rintro ⟨frame, hframe, hat⟩
    exact ⟨frame, (h.callbacks frame hat).1 hframe, hat⟩
  · rintro ⟨frame, hframe, hat⟩
    exact ⟨frame, (h.callbacks frame hat).2 hframe, hat⟩

end SameAt

section

variable {context : TransactionContext Session} {address : Nat}

variable {transacP : Transaction Session}

theorem sameAt_set (hne : address ≠ transacP.address) :
    SameAt context (context.set transacP) address := by
  refine ⟨fun other hat => ⟨fun hmem => ?_, fun hmem => ?_⟩, fun _ _ => .rfl, .rfl⟩
  · rcases mem_setTransaction hmem with rfl | ⟨hold, -⟩
    · exact absurd hat.symm hne
    · exact hold
  · exact List.mem_map.2 ⟨other, hmem, if_neg fun hsame => hne (hat.symm.trans hsame)⟩

theorem sameAt_add (hat : transacP.address = context.allocations)
    (hne : address ≠ transacP.address) : SameAt context (context.add transacP) address := by
  refine ⟨fun other hother => ?_, fun _ _ => .rfl, ?_⟩
  · rw [TransactionContext.add, (lwm2mListAdd_perm _ _).mem_iff, List.mem_cons]
    exact or_iff_right fun hsame => hne (hsame ▸ hother.symm)
  · simp only [TransactionContext.add]
    omega

theorem sameAt_remove (h : Tidy context)
    (hlinked : ∃ old ∈ context.transactionList, old.address = transacP.address ∧ old.mID = transacP.mID)
    (effect : TransactionEffect) (hne : address ≠ transacP.address) :
    SameAt context (context.remove transacP effect).1 address := by
  rw [TransactionContext.remove, removeTransaction_eq h.ascending h.addresses hlinked]
  refine ⟨fun other hat => ?_, fun _ _ => .rfl, .rfl⟩
  rw [List.mem_filter, bne_iff_ne]
  exact and_iff_left fun hsame => hne (hat.symm.trans hsame)

theorem sameAt_call (frame : CallbackFrame Session) (hne : address ≠ frame.transacP.address) :
    SameAt context { context with callbacks := frame :: context.callbacks } address := by
  refine ⟨fun _ _ => .rfl, fun other hat => ?_, .rfl⟩
  rw [List.mem_cons]
  exact or_iff_right fun hsame : other = frame => hne (hsame ▸ hat.symm)

theorem sameAt_pop {frame : CallbackFrame Session} {callbacks : List (CallbackFrame Session)}
    (hframes : context.callbacks = frame :: callbacks) (hne : address ≠ frame.transacP.address) :
    SameAt context { context with callbacks } address := by
  refine ⟨fun _ _ => .rfl, fun other hat => ?_, .rfl⟩
  rw [hframes, List.mem_cons]
  exact (or_iff_right fun hsame : other = frame => hne (hsame ▸ hat.symm)).symm

theorem sameAt_tail {next : List (Transaction Session)}
    (hlist : context.transactionList = transacP :: next) (hne : address ≠ transacP.address) :
    SameAt context { context with transactionList := next } address := by
  refine ⟨fun other hat => ?_, fun _ _ => .rfl, .rfl⟩
  rw [hlist, List.mem_cons]
  exact (or_iff_right fun hsame : other = transacP => hne (hsame ▸ hat.symm)).symm

end

/-! ## The life of each transaction -/

/-- A transaction that waits for its answer has been sent at least once. -/
structure Awaits (transacP : Transaction Session) (life : Life) : Prop where
  started : life.started = some transacP.callback
  acknowledged : life.acknowledged.getD false = transacP.ackReceived
  sent : life.sent + 1 = transacP.retransCounter.toNat
  once : 1 ≤ life.sent
  bound : life.sent ≤ coapMaxRetransmit.toNat + 1
  called : life.called = 0
  freed : life.freed = 0
  buffer : transacP.buffer ≠ none

structure Over (callback : Bool) (life : Life) : Prop where
  started : life.started = some callback
  bound : life.sent ≤ coapMaxRetransmit.toNat + 1
  called : life.called = callback.toNat

/-- Where in its life the transaction of an address is: not allocated yet, pending, in its callback
or freed. -/
inductive Stage (context : TransactionContext Session) (address : Nat) (life : Life) : Prop
  | unborn (hfresh : context.allocations ≤ address) (hlife : life = .unborn)
  | pending (transacP : Transaction Session) (hmem : transacP ∈ context.transactionList)
      (hat : transacP.address = address) (hidle : ¬ Running context address)
      (hawaits : Awaits transacP life)
  | running (frame : CallbackFrame Session) (hmem : frame ∈ context.callbacks)
      (hat : frame.transacP.address = address) (hclears : frame.clears = false)
      (hover : Over true life) (hfreed : life.freed = 0)
  | gone (callback : Bool) (hborn : address < context.allocations) (hleft : Left context address)
      (hover : Over callback life) (hfreed : life.freed = 1)

variable {context : TransactionContext Session}

theorem Stage.same {context' : TransactionContext Session} {address : Nat} {life : Life}
    (h : Stage context address life) (hsame : SameAt context context' address) :
    Stage context' address life := by
  cases h with
  | unborn hfresh hlife => exact .unborn (hsame.allocations.2 hfresh) hlife
  | pending transacP hmem hat hidle hawaits =>
    exact .pending transacP ((hsame.list transacP hat).2 hmem) hat
      (fun hrunning => hidle (hsame.running.1 hrunning)) hawaits
  | running frame hmem hat hclears hover hfreed =>
    exact .running frame ((hsame.callbacks frame hat).2 hmem) hat hclears hover hfreed
  | gone callback hborn hleft hover hfreed =>
    refine .gone callback ?_ ⟨fun transacP hmem hat => ?_, fun hrunning => ?_⟩ hover hfreed
    · exact Nat.lt_of_not_le fun hle => absurd (hsame.allocations.1 hle) (Nat.not_le.2 hborn)
    · exact hleft.1 transacP ((hsame.list transacP hat).1 hmem) hat
    · exact hleft.2 (hsame.running.1 hrunning)

section

variable {context : TransactionContext Session} {life : Life}

theorem Stage.awaits (htidy : Tidy context) {transacP : Transaction Session}
    (hmem : transacP ∈ context.transactionList) (hidle : ¬ Running context transacP.address)
    (h : Stage context transacP.address life) : Awaits transacP life := by
  cases h with
  | unborn hfresh _ => exact absurd (htidy.allocated transacP hmem) (Nat.not_lt.2 hfresh)
  | pending other hother hat _ hawaits => exact address_inj htidy.addresses hother hmem hat ▸ hawaits
  | running frame hframe hat _ _ _ => exact absurd ⟨frame, hframe, hat⟩ hidle
  | gone _ _ hleft _ _ => exact absurd rfl (hleft.1 transacP hmem)

theorem Stage.over (htidy : Tidy context) {frame : CallbackFrame Session}
    (hmem : frame ∈ context.callbacks) (h : Stage context frame.transacP.address life) :
    frame.clears = false ∧ Over true life ∧ life.freed = 0 := by
  cases h with
  | unborn hfresh _ => exact absurd (htidy.framesAllocated frame hmem) (Nat.not_lt.2 hfresh)
  | pending _ _ _ hidle _ => exact absurd ⟨frame, hmem, rfl⟩ hidle
  | running other hother hat hclears hover hfreed =>
    obtain rfl := List.inj_on_of_nodup_map htidy.frames hother hmem hat
    exact ⟨hclears, hover, hfreed⟩
  | gone _ _ hleft _ _ => exact absurd ⟨frame, hmem, rfl⟩ hleft.2

theorem Stage.bound {address : Nat} (h : Stage context address life) :
    life.sent ≤ coapMaxRetransmit.toNat + 1 := by
  cases h with
  | unborn _ hlife => simp [hlife, Life.unborn]
  | pending _ _ _ _ hawaits => exact hawaits.bound
  | running _ _ _ _ hover _ => exact hover.bound
  | gone _ _ _ hover _ => exact hover.bound

end

/-! ## What an effect adds to a life -/

theorem record_none (life : Life) (address : Nat) : life.record address .none = life := by
  simp [Life.record, TransactionEffect.none, about]

theorem record_called {effect : TransactionEffect} (hcalled : effect.called = none) (life : Life)
    (address other : Nat) :
    life.record address { effect with called := some other } =
      { life.record address effect with
        called := (life.record address effect).called + if other = address then 1 else 0 } := by
  simp [Life.record, hcalled]

theorem record_remove (context : TransactionContext Session) (transacP : Transaction Session)
    (effect : TransactionEffect) (life : Life) (address : Nat) :
    life.record address (context.remove transacP effect).2 =
      { life.record address effect with
        freed := (life.record address effect).freed +
          if transacP.address = address then 1 else 0 } := by
  have hcount : (effect.freed ++ [transacP.address]).count address =
      effect.freed.count address + if transacP.address = address then 1 else 0 := by
    simp [List.count_append, List.count_singleton]
  have hrecord : life.record address (context.remove transacP effect).2 =
      { life.record address effect with
        freed := life.freed + (effect.freed ++ [transacP.address]).count address } := rfl
  rw [hrecord, hcount, ← Nat.add_assoc]
  rfl

structure Opened (callback : Bool) (life : Life) : Prop where
  started : life.started = some callback
  bound : life.sent ≤ coapMaxRetransmit.toNat + 1
  called : life.called = 0
  freed : life.freed = 0

theorem Awaits.opened {transacP : Transaction Session} {life : Life} (h : Awaits transacP life) :
    Opened transacP.callback life := ⟨h.started, h.bound, h.called, h.freed⟩

/-! ## The ends of a transaction -/

section

variable {context : TransactionContext Session} {transacP : Transaction Session}
variable (lives : Nat → Life) (effect : TransactionEffect)

theorem Tidy.remove_stages (h : Tidy context)
    (hlinked : ∃ old ∈ context.transactionList,
      old.address = transacP.address ∧ old.mID = transacP.mID)
    (hidle : ¬ Running context transacP.address) (callback : Bool)
    (hover : Over callback ((lives transacP.address).record transacP.address effect))
    (hfreed : ((lives transacP.address).record transacP.address effect).freed = 0)
    (hothers : ∀ address, address ≠ transacP.address →
      Stage context address ((lives address).record address effect)) (address : Nat) :
    Stage (context.remove transacP effect).1 address
      ((lives address).record address (context.remove transacP effect).2) := by
  rw [record_remove]
  by_cases hat : address = transacP.address
  · subst hat
    obtain ⟨old, hmem, haddress, -⟩ := id hlinked
    refine .gone callback ?_ ⟨fun other hother => ?_, hidle⟩
      ⟨hover.started, hover.bound, hover.called⟩ (by simp [hfreed])
    · exact haddress ▸ h.allocated old hmem
    · rw [TransactionContext.remove, removeTransaction_eq h.ascending h.addresses hlinked] at hother
      simpa using (List.mem_filter.1 hother).2
  · rw [if_neg (Ne.symm hat)]
    exact (hothers address hat).same (sameAt_remove h hlinked effect hat)

theorem Tidy.finish_stages (h : Tidy context)
    (hlinked : ∃ old ∈ context.transactionList,
      old.address = transacP.address ∧ old.mID = transacP.mID)
    (hidle : ¬ Running context transacP.address) (hcalled : effect.called = none)
    (hopened : Opened transacP.callback
      ((lives transacP.address).record transacP.address effect))
    (hothers : ∀ address, address ≠ transacP.address →
      Stage context address ((lives address).record address effect)) :
    ∃ context' effect', context.finish transacP false effect = .ok (context', effect') ∧
      (∀ address, Stage context' address ((lives address).record address effect')) ∧
      effect'.sent = effect.sent ∧ effect'.acknowledged = effect.acknowledged := by
  unfold TransactionContext.finish
  split
  · next hcallback =>
    refine ⟨_, _, rfl, fun address => ?_, rfl, rfl⟩
    rw [record_called hcalled]
    by_cases hat : address = transacP.address
    · subst hat
      refine .running ⟨transacP, false, false⟩ (by simp) rfl rfl
        ⟨hcallback ▸ hopened.started, hopened.bound, ?_⟩ hopened.freed
      simp [hopened.called]
    · rw [if_neg (Ne.symm hat)]
      exact (hothers address hat).same (sameAt_call ⟨transacP, false, false⟩ hat)
  · next hcallback =>
    have hnone : transacP.callback = false := by simpa using hcallback
    rw [if_neg Bool.false_ne_true]
    refine ⟨_, _, rfl, fun address => ?_, rfl, rfl⟩
    exact h.remove_stages lives effect hlinked hidle false
      ⟨hopened.started.trans (congrArg some hnone), hopened.bound, hopened.called⟩ hopened.freed
      hothers address

end

/-! ## The steps -/

structure StepKept (lives : Nat → Life) (call : TransactionCall Session)
    (context : TransactionContext Session) (effect : TransactionEffect) : Prop where
  stages : ∀ address, Stage context address ((lives address).record address effect)
  unacknowledged : ∀ address, effect.sent = some address →
    (lives address).acknowledged ≠ some true
  rearmed : ∀ address, (lives address).acknowledged = some true →
    effect.acknowledged = some (address, false) → Unauthorized call

def Kept (lives : Nat → Life) (call : TransactionCall Session)
    (result : Except Fault (TransactionContext Session × TransactionEffect)) : Prop :=
  ∃ context effect, result = .ok (context, effect) ∧ StepKept lives call context effect

section

variable {context : TransactionContext Session} {lives : Nat → Life}
variable {call : TransactionCall Session}

theorem Kept.none (hstages : ∀ address, Stage context address (lives address)) :
    Kept lives call (.ok (context, .none)) :=
  ⟨context, .none, rfl, fun address => (record_none _ _).symm ▸ hstages address, nofun, nofun⟩

theorem Stage.fresh (htidy : Tidy context) {life : Life}
    (h : Stage context context.allocations life) : life = .unborn := by
  cases h with
  | unborn _ hlife => exact hlife
  | pending transacP hmem hat _ _ =>
    exact absurd hat (Nat.ne_of_lt (htidy.allocated transacP hmem))
  | running frame hmem hat _ _ _ =>
    exact absurd hat (Nat.ne_of_lt (htidy.framesAllocated frame hmem))
  | gone _ hborn _ _ _ => exact absurd hborn (Nat.lt_irrefl _)

theorem transactionSendOutcome_new (context : TransactionContext Session)
    (transacP : Transaction Session) (serialized : Bool) (tvSec : Int) :
    serialized = false ∧
        transactionSendOutcome serialized tvSec (context.newTransaction transacP) = .failed ∨
      (∃ next, transactionSendOutcome serialized tvSec (context.newTransaction transacP) =
        .sent next ∧ SentOnce tvSec (context.newTransaction transacP) next) ∨
      tvSec < 0 ∧
        transactionSendOutcome serialized tvSec (context.newTransaction transacP) =
          .expired true := by
  cases serialized with
  | false => exact Or.inl ⟨rfl, transactionSendOutcome_failed rfl rfl⟩
  | true =>
    right
    rcases @transactionSendOutcome_cases _ true tvSec (context.newTransaction transacP)
        (Or.inr rfl) with hsent | ⟨hexpired, -, -, htime⟩ | hexpired
    · exact Or.inl hsent
    · exact Or.inr ⟨htime, hexpired⟩
    · unfold transactionSendOutcome at hexpired
      simp only [TransactionContext.newTransaction, Bool.false_eq_true, if_false, if_true] at hexpired
      split at hexpired <;> cases hexpired

variable {transacP : Transaction Session} {life : Life} {other address : Nat}

theorem SentOnce.awaits {tvSec : Int} {next : Transaction Session}
    (honce : SentOnce tvSec transacP next) (hawaits : Awaits transacP life) :
    Awaits next { life with sent := life.sent + 1 } := by
  have hsent := hawaits.sent
  have hcounter : life.sent + 1 + 1 = next.retransCounter.toNat ∧
      life.sent + 1 ≤ coapMaxRetransmit.toNat + 1 := by
    rcases honce.counter with ⟨hzero, -, -⟩ | ⟨-, hmax, hnext⟩
    · rw [hzero] at hsent
      cases hsent
    · have hle : transacP.retransCounter.toNat ≤ 5 := UInt8.le_iff_toNat_le.1 hmax
      have hone : (1 : UInt8).toNat = 1 := rfl
      have hbound : coapMaxRetransmit.toNat = 4 := rfl
      rw [hnext, UInt8.toNat_add, hone]
      omega
  exact ⟨hawaits.started.trans (congrArg some honce.callback.symm),
    hawaits.acknowledged.trans (honce.ackReceived.1.trans honce.ackReceived.2.symm),
    hcounter.1, by simp, hcounter.2, hawaits.called, hawaits.freed, honce.buffer⟩

theorem Awaits.unacknowledged (h : Awaits transacP life) (hopen : transacP.ackReceived = false) :
    life.acknowledged ≠ some true := by
  intro hack
  have := h.acknowledged
  rw [hack, hopen] at this
  cases this

theorem record_sent :
    life.record address { TransactionEffect.none with sent := some other } =
      if other = address then { life with sent := life.sent + 1 } else life := by
  split <;> simp_all [Life.record, TransactionEffect.none, about]

theorem Tidy.retry_kept (h : Tidy context) (hquiet : context.callbacks = [])
    (hstages : ∀ address, Stage context address (lives address)) (address : Nat)
    (currentTime tvSec : Int) :
    Kept lives call (context.retry address currentTime tvSec) := by
  unfold TransactionContext.retry
  cases hfind : context.transactionList.find? fun transacP => transacP.address == address with
  | none => exact Kept.none hstages
  | some transacP =>
    have hmem := List.mem_of_find?_eq_some hfind
    have hidle : ¬ Running context transacP.address := by simp [Running, hquiet]
    have hawaits := (hstages transacP.address).awaits h hmem hidle
    simp only [h.live transacP hmem, Bool.false_eq_true, if_false]
    by_cases htime : currentTime < transacP.retransTime
    · rw [if_pos htime]
      exact Kept.none hstages
    · rw [if_neg htime]
      have hfinish : Kept lives call (context.finish transacP false .none) := by
        obtain ⟨context', effect, hok, hnext, hsent, hack⟩ := h.finish_stages lives .none
          ⟨_, hmem, rfl, rfl⟩ hidle rfl ((record_none _ _).symm ▸ hawaits.opened)
          (fun other _ => (record_none _ _).symm ▸ hstages other)
        exact ⟨context', effect, hok, hnext, by simp [hsent, TransactionEffect.none],
          by simp [hack, TransactionEffect.none]⟩
      rcases transactionSendOutcome_cases tvSec transacP (Or.inl hawaits.buffer) with
        ⟨next, hsent, honce⟩ | ⟨-, -, hzero, -⟩ | hexpired
      · rw [hsent]
        refine ⟨_, _, rfl, fun other => ?_, fun other hother => ?_, fun _ _ hack => by cases hack⟩
        · rw [record_sent]
          by_cases hat : next.address = other
          · rw [if_pos hat, ← hat, honce.address]
            exact .pending next (setTransaction_mem ⟨transacP, hmem, honce.address.symm⟩)
              honce.address hidle (honce.awaits hawaits)
          · rw [if_neg hat]
            exact (hstages other).same (sameAt_set (Ne.symm hat))
        · obtain rfl := Option.some.inj hother
          rw [honce.address]
          exact hawaits.unacknowledged honce.ackReceived.1
      · have hsent := hawaits.sent
        rw [hzero] at hsent
        cases hsent
      · rw [hexpired]
        exact hfinish

theorem record_started {callback : Bool} {sent : Option Nat} :
    Life.unborn.record address
        { TransactionEffect.none with started := some (address, callback), sent } =
      ⟨some callback, none, if sent = some address then 1 else 0, 0, 0⟩ := by
  simp [Life.record, TransactionEffect.none, about, Life.unborn]

theorem record_started_other (hne : other ≠ address) {callback : Bool} {sent : Option Nat}
    (hsent : sent ≠ some address) :
    life.record address { TransactionEffect.none with started := some (other, callback), sent } =
      life := by
  simp [Life.record, TransactionEffect.none, about, hne, hsent]

theorem Tidy.start_kept (h : Tidy context) (hfree : IdFree context)
    (hstages : ∀ address, Stage context address (lives address)) (transacP : Transaction Session)
    {serialized : Bool} {tvSec : Int} {byLwm2mSend : Bool}
    (hserialized : serialized = false → transacP.callback = false ∧ byLwm2mSend = false)
    (htime : tvSec < 0 → byLwm2mSend = false) :
    Kept lives call (context.start transacP serialized tvSec byLwm2mSend) := by
  have hadd : Tidy (context.add (context.newTransaction transacP)) := h.add hfree rfl rfl rfl
  have hmem : context.newTransaction transacP ∈
      (context.add (context.newTransaction transacP)).transactionList :=
    (lwm2mListAdd_perm _ _).mem_iff.2 (by simp)
  have hidle : ¬ Running (context.add (context.newTransaction transacP)) context.allocations := by
    intro hrunning
    obtain ⟨frame, hframe, heq⟩ := hrunning
    exact absurd heq (Nat.ne_of_lt (h.framesAllocated frame hframe))
  have hfresh : lives context.allocations = .unborn := (hstages _).fresh h
  have hothers : ∀ sent : Option Nat, (∀ address, sent = some address →
      address = context.allocations) → ∀ address, address ≠ context.allocations →
      Stage (context.add (context.newTransaction transacP)) address
        ((lives address).record address { TransactionEffect.none with
          started := some (context.allocations, transacP.callback), sent }) := by
    intro sent hsent address hne
    rw [record_started_other (Ne.symm hne) fun heq => hne (hsent address heq)]
    exact (hstages address).same (sameAt_add rfl hne)
  have hborn : ∀ sent : Option Nat, (lives context.allocations).record context.allocations
      { TransactionEffect.none with
        started := some (context.allocations, transacP.callback), sent } =
          ⟨some transacP.callback, none, if sent = some context.allocations then 1 else 0, 0, 0⟩ := by
    intro sent
    rw [hfresh]
    exact record_started
  unfold TransactionContext.start
  simp only
  rcases transactionSendOutcome_new context transacP serialized tvSec with
    ⟨hfalse, hfailed⟩ | ⟨next, hsent, honce⟩ | ⟨hclock, hexpired⟩
  · obtain ⟨hnone, hsend⟩ := hserialized hfalse
    rw [hfailed]
    simp only [hsend, Bool.false_eq_true, if_false]
    refine ⟨_, _, rfl, fun address => ?_, nofun, nofun⟩
    refine @Tidy.remove_stages _ _ _ lives _ hadd ⟨_, hmem, rfl, rfl⟩ hidle false ?_ ?_
      (hothers none nofun) address
    · exact (congrArg (Over false) (hborn none)).mpr ⟨congrArg some hnone, Nat.zero_le _, rfl⟩
    · exact congrArg Life.freed (hborn none)
  · rw [hsent]
    have hat : next.address = context.allocations := honce.address
    refine ⟨_, _, rfl, fun address => ?_, fun address hsent => ?_, nofun⟩
    · by_cases hsame : address = context.allocations
      · subst hsame
        refine (congrArg (Stage _ _) (hborn (some next.address))).mpr ?_
        refine .pending next (setTransaction_mem ⟨_, hmem, hat.symm⟩) hat hidle ?_
        rw [if_pos (congrArg some hat)]
        refine ⟨congrArg some honce.callback.symm, honce.ackReceived.2.symm, ?_, Nat.le_refl _,
          Nat.succ_le_succ (Nat.zero_le _), rfl, rfl, honce.buffer⟩
        rcases honce.counter with ⟨-, -, hnext⟩ | ⟨hcounter, -, -⟩
        · rw [hnext]
          rfl
        · exact absurd rfl hcounter
      · refine (hothers (some next.address) (fun other hother => ?_) address hsame).same
          (sameAt_set (hat ▸ hsame))
        exact Option.some.inj hother ▸ hat
    · obtain rfl := Option.some.inj hsent
      rw [hat, hfresh]
      nofun
  · rw [hexpired, htime hclock]
    obtain ⟨context', effect, hok, hnext, hsent, hack⟩ := hadd.finish_stages lives
      { TransactionEffect.none with
        started := some (context.allocations, transacP.callback)
        sent := some context.allocations } ⟨_, hmem, rfl, rfl⟩ hidle rfl
      ((congrArg (Opened transacP.callback) (hborn (some context.allocations))).mpr
        ⟨rfl, by simp, rfl, rfl⟩)
      (hothers (some context.allocations) fun other hother => (Option.some.inj hother).symm)
    refine ⟨context', effect, hok, hnext, fun address haddress => ?_, fun address _ hfalse => ?_⟩
    · obtain rfl := Option.some.inj (hsent.symm.trans haddress)
      rw [hfresh]
      nofun
    · cases hack.symm.trans hfalse

theorem record_acknowledged {value : Bool} :
    life.record address
        { TransactionEffect.none with acknowledged := some (other, value) } =
      if other = address then { life with acknowledged := some value } else life := by
  split <;> simp_all [Life.record, TransactionEffect.none, about]

theorem Answered.awaits {message : CoapPacket} {next : Transaction Session}
    (hanswered : Answered message transacP next) (hawaits : Awaits transacP life) :
    Awaits next { life with acknowledged := some next.ackReceived } :=
  ⟨hawaits.started.trans (congrArg some hanswered.callback.symm), rfl,
    hawaits.sent.trans (congrArg UInt8.toNat hanswered.counter.symm), hawaits.once, hawaits.bound,
    hawaits.called, hawaits.freed, hanswered.buffer ▸ hawaits.buffer⟩

theorem Tidy.response_kept (h : Tidy context) (hquiet : context.callbacks = [])
    (hstages : ∀ address, Stage context address (lives address))
    (sessionIsEqual : Session → Session → Bool) (tvSec : Int) (fromSessionH : Session)
    (message : CoapPacket) :
    Kept lives (.response tvSec fromSessionH message)
      (context.response sessionIsEqual tvSec fromSessionH message) := by
  obtain ⟨outcome, hwalk, hcases⟩ := responseOutcome_cases sessionIsEqual tvSec
    fromSessionH message h.live
  unfold TransactionContext.response
  rw [hwalk]
  rcases hcases with rfl | ⟨transacP, hmem, next, hanswered, houtcome⟩
  · exact Kept.none hstages
  · have hset := h.change hmem hanswered.address hanswered.mID
      (hanswered.freed.trans (h.live transacP hmem))
    have hidle : ∀ address, ¬ Running (context.set next) address := by
      simp [Running, TransactionContext.set, hquiet]
    have hnext : next ∈ (context.set next).transactionList :=
      setTransaction_mem ⟨transacP, hmem, hanswered.address.symm⟩
    have hold := (hstages transacP.address).awaits h hmem (by simp [Running, hquiet])
    have hawaits := hanswered.awaits hold
    have hothers : ∀ address, address ≠ next.address → Stage (context.set next) address
        ((lives address).record address { TransactionEffect.none with
          acknowledged := some (next.address, next.ackReceived) }) := by
      intro address hne
      rw [record_acknowledged, if_neg (Ne.symm hne)]
      exact (hstages address).same (sameAt_set hne)
    have hrearmed : ∀ address, (lives address).acknowledged = some true →
        some (next.address, next.ackReceived) = some (address, false) →
        Unauthorized (.response tvSec fromSessionH message) := by
      intro address hack heq
      obtain ⟨rfl, hfalse⟩ := Prod.mk.inj (Option.some.inj heq)
      have htrue : transacP.ackReceived = true := by
        rw [← hold.acknowledged, ← hanswered.address, hack]
        rfl
      exact ⟨tvSec, fromSessionH, message, rfl, hanswered.rearmed htrue hfalse⟩
    rcases houtcome with rfl | rfl
    · refine ⟨_, _, rfl, fun address => ?_, fun _ hsent => (by cases hsent), hrearmed⟩
      by_cases hsame : address = next.address
      · subst hsame
        rw [record_acknowledged, if_pos rfl, hanswered.address]
        exact .pending next hnext hanswered.address (hidle _) hawaits
      · exact hothers address hsame
    · obtain ⟨context', effect, hok, hstages', hsent, hack⟩ := hset.finish_stages lives
        { TransactionEffect.none with
          acknowledged := some (next.address, next.ackReceived) } ⟨next, hnext, rfl, rfl⟩ (hidle _)
        rfl (by rw [record_acknowledged, if_pos rfl, hanswered.address]; exact hawaits.opened) hothers
      refine ⟨context', effect, hok, hstages', fun address haddress => ?_, fun address htrue heq => ?_⟩
      · cases hsent.symm.trans haddress
      · exact hrearmed address htrue (hack.symm.trans heq)

theorem removeClientLoop_kept {sessionIsEqual : Session → Session → Bool} {sessionH : Session}
    (next : List (Transaction Session)) :
    ∀ (context : TransactionContext Session) (effect : TransactionEffect), Tidy context →
      context.callbacks = [] →
      (∀ address, Stage context address ((lives address).record address effect)) →
      effect.sent = none → effect.acknowledged = none →
      (next.map Transaction.address).Nodup →
      (∀ transacP ∈ next, transacP ∈ context.transactionList ∧
        (sessionIsEqual transacP.peerH sessionH = true → transacP.callback = false)) →
      Kept lives call (removeClientLoop sessionIsEqual sessionH next (context, effect)) := by
  induction next with
  | nil =>
    intro context effect _ _ hstages hsent hack _ _
    exact ⟨context, effect, rfl, hstages, by simp [hsent], by simp [hack]⟩
  | cons transacP next ih =>
    intro context effect h hquiet hstages hsent hack hnodup hsub
    obtain ⟨hfresh, hnodup⟩ := List.nodup_cons.1 hnodup
    obtain ⟨hmem, hnone⟩ := hsub transacP (by simp)
    have hidle : ¬ Running context transacP.address := by simp [Running, hquiet]
    have hrest : ∀ other ∈ next, other ∈ context.transactionList ∧
        (sessionIsEqual other.peerH sessionH = true → other.callback = false) :=
      fun other hother => hsub other (List.mem_cons_of_mem _ hother)
    unfold removeClientLoop
    rw [if_neg (by simp [h.live transacP hmem])]
    split
    · next hequal =>
      have hawaits := (hstages transacP.address).awaits h hmem hidle
      have hlinked : ∃ old ∈ context.transactionList,
          old.address = transacP.address ∧ old.mID = transacP.mID := ⟨_, hmem, rfl, rfl⟩
      refine ih _ _ (h.remove hlinked hidle effect) hquiet
        (h.remove_stages lives effect hlinked hidle false
          ⟨hawaits.started.trans (congrArg some (hnone hequal)), hawaits.bound, hawaits.called⟩
          hawaits.freed fun address _ => hstages address) hsent hack hnodup fun other hother => ?_
      refine ⟨?_, (hrest other hother).2⟩
      refine ((sameAt_remove h hlinked effect fun heq => ?_).list other rfl).2 (hrest other hother).1
      exact hfresh (List.mem_map.2 ⟨other, hother, heq⟩)
    · exact ih context effect h hquiet hstages hsent hack hnodup hrest

theorem record_freed :
    life.record address { TransactionEffect.none with freed := [other] } =
      if other = address then { life with freed := life.freed + 1 } else life := by
  split <;> simp_all [Life.record, TransactionEffect.none, about]

theorem record_only_called :
    life.record address { TransactionEffect.none with called := some other } =
      if other = address then { life with called := life.called + 1 } else life := by
  split <;> simp_all [Life.record, TransactionEffect.none, about]

theorem Tidy.close_kept (h : Tidy context) (hquiet : context.callbacks = [])
    (hstages : ∀ address, Stage context address (lives address)) :
    Kept lives call context.close := by
  unfold TransactionContext.close
  cases hlist : context.transactionList with
  | nil => exact Kept.none hstages
  | cons transacP next =>
    have hmem : transacP ∈ context.transactionList := by simp [hlist]
    have hidle : ¬ Running context transacP.address := by simp [Running, hquiet]
    obtain ⟨-, hgone⟩ := h.tail hlist hidle
    have hawaits := (hstages transacP.address).awaits h hmem hidle
    simp only [h.live transacP hmem, Bool.false_eq_true, if_false]
    split
    · next hcallback =>
      refine ⟨_, _, rfl, fun address => ?_, fun _ hsent => (by cases hsent),
        fun _ _ hack => by cases hack⟩
      rw [record_only_called]
      by_cases hat : transacP.address = address
      · subst hat
        rw [if_pos rfl]
        exact .running ⟨transacP, true, false⟩ (by simp) rfl rfl
          ⟨hcallback ▸ hawaits.started, hawaits.bound, by simp [hawaits.called]⟩ hawaits.freed
      · rw [if_neg hat]
        exact ((hstages address).same (sameAt_tail hlist (Ne.symm hat))).same
          (sameAt_call ⟨transacP, true, false⟩ (Ne.symm hat))
    · next hcallback =>
      have hnone : transacP.callback = false := by simpa using hcallback
      refine ⟨_, _, rfl, fun address => ?_, fun _ hsent => (by cases hsent),
        fun _ _ hack => by cases hack⟩
      rw [record_freed]
      by_cases hat : transacP.address = address
      · subst hat
        rw [if_pos rfl]
        exact .gone false (h.allocated transacP hmem) ⟨hgone, hidle⟩
          ⟨hnone ▸ hawaits.started, hawaits.bound, hawaits.called⟩ (by simp [hawaits.freed])
      · rw [if_neg hat]
        exact (hstages address).same (sameAt_tail hlist (Ne.symm hat))

theorem Tidy.returns_kept (h : Tidy context)
    (hstages : ∀ address, Stage context address (lives address)) :
    Kept lives call context.returns := by
  unfold TransactionContext.returns
  cases hframes : context.callbacks with
  | nil => exact Kept.none hstages
  | cons frame callbacks =>
    have hframe : frame ∈ context.callbacks := by simp [hframes]
    obtain ⟨hpop, hidle⟩ := h.pop hframes
    obtain ⟨hclears, hover, hfreed⟩ := (hstages frame.transacP.address).over h hframe
    simp only [hclears, Bool.false_eq_true, if_false]
    split
    · next hunlinked =>
      refine ⟨_, _, rfl, fun address => ?_, nofun, nofun⟩
      rw [record_freed]
      by_cases hat : frame.transacP.address = address
      · subst hat
        rw [if_pos rfl]
        exact .gone true (h.framesAllocated frame hframe)
          ⟨h.unlinked frame hframe hunlinked, hidle⟩ ⟨hover.started, hover.bound, hover.called⟩
          (by simp [hfreed])
      · rw [if_neg hat]
        exact (hstages address).same (sameAt_pop hframes (Ne.symm hat))
    · next hlinked =>
      have hlinked := h.linked frame hframe (by simpa using hlinked)
      refine ⟨_, _, rfl, fun address => ?_, nofun, nofun⟩
      refine hpop.remove_stages lives .none hlinked hidle true ?_ ?_ ?_ address
      · exact (record_none _ _).symm ▸ hover
      · exact (congrArg Life.freed (record_none _ _)).trans hfreed
      · intro other hne
        rw [record_none]
        exact (hstages other).same (sameAt_pop hframes hne)

theorem transactionStep_kept (sessionIsEqual : Session → Session → Bool) (h : Tidy context)
    (hstages : ∀ address, Stage context address (lives address)) (call : TransactionCall Session)
    (hkept : LifeKept sessionIsEqual context call) :
    Kept lives call (transactionStep sessionIsEqual context call) := by
  have hwhen : ∀ {result}, (context.callbacks = [] → Kept lives call result) →
      Kept lives call (if context.callbacks.isEmpty then result else .ok (context, .none)) := by
    intro result hresult
    split
    · next hempty => exact hresult (List.isEmpty_iff.1 hempty)
    · exact Kept.none hstages
  cases call with
  | message =>
    refine ⟨_, _, rfl, fun address => ?_, nofun, nofun⟩
    rw [record_none]
    exact (hstages address).same ⟨fun _ _ => .rfl, fun _ _ => .rfl, .rfl⟩
  | start transacP serialized tvSec byLwm2mSend =>
    exact h.start_kept hkept.1 hstages transacP hkept.2.1 hkept.2.2
  | returns => exact h.returns_kept hstages
  | retry address currentTime tvSec =>
    exact hwhen fun hquiet => h.retry_kept hquiet hstages address currentTime tvSec
  | response tvSec fromSessionH message =>
    exact hwhen fun hquiet => h.response_kept hquiet hstages sessionIsEqual tvSec fromSessionH message
  | removeClient sessionH =>
    exact hwhen fun hquiet => removeClientLoop_kept context.transactionList context .none h hquiet
      (fun address => (record_none _ _).symm ▸ hstages address) rfl rfl h.addresses
      fun transacP hmem => ⟨hmem, hkept transacP hmem⟩
  | close => exact hwhen fun hquiet => h.close_kept hquiet hstages

end

/-! ## The run -/

structure Lived (past : List (TransactionCall Session × TransactionEffect))
    (context : TransactionContext Session) : Prop where
  tidy : Tidy context
  stages : ∀ address, Stage context address (lifeOf address past)
  rightly : EachEvent SentRightly [] past

theorem lifeOf_snoc (address : Nat) (past : List (TransactionCall Session × TransactionEffect))
    (event : TransactionCall Session × TransactionEffect) :
    lifeOf address (past ++ [event]) = (lifeOf address past).record address event.2 := by
  simp [lifeOf]

theorem LifeKept.startsFresh {sessionIsEqual : Session → Session → Bool}
    {call : TransactionCall Session} (h : LifeKept sessionIsEqual context call) :
    StartsFresh context call := by
  cases call <;> first | exact h.1 | trivial

theorem Lived.step {sessionIsEqual : Session → Session → Bool}
    {past : List (TransactionCall Session × TransactionEffect)} (h : Lived past context)
    {call : TransactionCall Session} (hkept : LifeKept sessionIsEqual context call) :
    ∃ context' effect, transactionStep sessionIsEqual context call = .ok (context', effect) ∧
      Lived (past ++ [(call, effect)]) context' := by
  obtain ⟨context', effect, hok, hstep⟩ :=
    transactionStep_kept sessionIsEqual h.tidy h.stages call hkept
  have htidy := (transactionStep_tidy sessionIsEqual h.tidy hkept.startsFresh context' effect hok).1
  refine ⟨context', effect, hok, htidy, fun address => ?_, ?_⟩
  · rw [lifeOf_snoc]
    exact hstep.stages address
  · rw [eachEvent_snoc]
    exact ⟨h.rightly, fun address hack =>
      ⟨fun hsent => hstep.unacknowledged address hsent hack, hstep.rearmed address hack⟩⟩

theorem Lived.lifeCycle {past : List (TransactionCall Session × TransactionEffect)}
    (h : Lived past context) : LifeCycle past context where
  transmissions address := (h.stages address).bound
  rightly := h.rightly
  pending transacP hmem hidle := by
    have hawaits := (h.stages transacP.address).awaits h.tidy hmem hidle
    exact ⟨hawaits.called, hawaits.freed⟩
  left address callback hstarted hleft := by
    cases h.stages address with
    | unborn _ hlife =>
      rw [hlife] at hstarted
      cases hstarted
    | pending transacP hmem hat _ _ => exact absurd hat (hleft.1 transacP hmem)
    | running frame hmem hat _ _ _ => exact absurd ⟨frame, hmem, hat⟩ hleft.2
    | gone other _ _ hover hfreed =>
      obtain rfl := Option.some.inj (hover.started.symm.trans hstarted)
      exact ⟨hover.called, hfreed⟩

/-- Over every run that meets the condition at each step, no step touches a freed transaction, and
in every state reached the transactions have kept to their life cycle. -/
theorem transactionRun_lifeCycle (sessionIsEqual : Session → Session → Bool) (nextMID : UInt16)
    (calls : List (TransactionCall Session))
    (hmeet : StepsMeet (transactionStep sessionIsEqual) (LifeKept sessionIsEqual)
      (startContext nextMID) calls) :
    (∃ final effects, run (transactionStep sessionIsEqual) (startContext nextMID) calls =
        .ok (final, effects)) ∧
      EachReached (transactionStep sessionIsEqual) LifeCycle [] (startContext nextMID) calls := by
  have hstart : Lived [] (startContext nextMID : TransactionContext Session) :=
    ⟨startContext_tidy nextMID, fun address => .unborn (Nat.zero_le address) rfl, trivial⟩
  have hstep : ∀ (past : List (TransactionCall Session × TransactionEffect))
      (context : TransactionContext Session) (call : TransactionCall Session),
      Lived past context → LifeKept sessionIsEqual context call → ∃ context' effect,
        transactionStep sessionIsEqual context call = .ok (context', effect) ∧
          Lived (past ++ [(call, effect)]) context' := by
    intro past context call h hkept
    exact h.step hkept
  have hafter := StepsMeet.after calls [] (startContext nextMID) hmeet
  obtain ⟨htotal, hreached⟩ := run_total_after hstep calls [] (startContext nextMID) hstart hafter
  exact ⟨htotal, EachReached.imp (fun past context h => h.lifeCycle) calls [] _ hreached⟩

/-- A request with a callback. -/
def callbackRequest : Transaction Unit := { plainRequest with callback := true }

def pendingCallback : Transaction Unit := { pendingRequest 0 7 with callback := true }

def answeredCallback : Transaction Unit := { pendingCallback with ackReceived := true }

theorem callbackRequest_starts :
    transactionStep (fun _ _ => true) (startContext 7) (.start callbackRequest true 0 false) =
      .ok (⟨8, [pendingCallback], [], 1⟩, ⟨some (0, true), some 0, none, none, [], []⟩) := rfl

theorem callbackRequest_kept :
    StepsMeet (transactionStep fun _ _ => true) (LifeKept fun _ _ => true) (startContext 7)
      [.start callbackRequest true 0 false, .response 1 () (coapInitMessage .ack coapContent 7),
        .returns] := by
  have hresponse : transactionStep (fun _ _ => true) ⟨8, [pendingCallback], [], 1⟩
      (.response 1 () (coapInitMessage .ack coapContent 7)) =
        .ok (⟨8, [answeredCallback], [⟨answeredCallback, false, false⟩], 1⟩,
          ⟨none, none, some (0, true), some 0, [], []⟩) := rfl
  have hfresh : LifeKept (fun _ _ => true) (startContext 7) (.start callbackRequest true 0 false) :=
    ⟨fun _ hmem => absurd hmem List.not_mem_nil, fun h => absurd h (by decide),
      fun h => absurd h (by decide)⟩
  exact StepsMeet.cons hfresh callbackRequest_starts
    (StepsMeet.cons trivial hresponse ⟨trivial, fun _ _ _ => trivial⟩)

theorem callbackRequest_lifeCycle :
    (∃ final effects, run (transactionStep fun _ _ => true) (startContext 7)
        [.start callbackRequest true 0 false, .response 1 () (coapInitMessage .ack coapContent 7),
          .returns] = .ok (final, effects)) ∧
      EachReached (transactionStep fun _ _ => true) LifeCycle [] (startContext 7)
        [.start callbackRequest true 0 false, .response 1 () (coapInitMessage .ack coapContent 7),
          .returns] :=
  transactionRun_lifeCycle (fun _ _ => true) 7 _ callbackRequest_kept

/-- A request is pending with a callback when its client is removed; a request with a callback is
not serialised; `lwm2m_send` starts one that is not serialised. -/
theorem removedRequest_notCalled :
    ¬ EachReached (transactionStep fun _ _ => true) LifeCycle [] (startContext 7)
        [.start callbackRequest true 0 false, .removeClient ()] ∧
      ¬ EachReached (transactionStep fun _ _ => true) LifeCycle [] (startContext 7)
        [.start callbackRequest false 0 false] ∧
      transactionStep (fun _ _ => true) (startContext 7) (.start callbackRequest false 0 true) =
        .error .useAfterFree := by
  have hremove : transactionStep (fun _ _ => true) ⟨8, [pendingCallback], [], 1⟩
      (.removeClient ()) = .ok (⟨8, [], [], 1⟩, ⟨none, none, none, none, [(0, some 0)], [0]⟩) := rfl
  have hfailed : transactionStep (fun _ _ => true) (startContext 7)
      (.start callbackRequest false 0 false) =
        .ok (⟨8, [], [], 1⟩, ⟨some (0, true), none, none, none, [(0, some 0)], [0]⟩) := rfl
  have hleft : Left (⟨8, [], [], 1⟩ : TransactionContext Unit) 0 :=
    ⟨fun _ hmem => absurd hmem List.not_mem_nil, fun ⟨_, hmem, _⟩ => absurd hmem List.not_mem_nil⟩
  refine ⟨fun h => ?_, fun h => ?_, rfl⟩
  · have hlast := ((h _ _ callbackRequest_starts).2 _ _ hremove).1
    exact absurd (hlast.left 0 true rfl hleft).1 (by decide)
  · have hlast := (h _ _ hfailed).1
    exact absurd (hlast.left 0 true rfl hleft).1 (by decide)

end Wakaama
