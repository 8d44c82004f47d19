import Wakaama.Coap.TransactionContext
import Wakaama.Core.Proofs.SortedList
import Wakaama.Misc.Run
import Mathlib.Tactic.ByContra

/-!
# The message ids of pending transactions

`transaction_remove` unlinks by message id. As long as no pending transaction has the id of a new
one, the ids in `contextP->transactionList` are apart, and what is unlinked is what is freed.
-/

namespace Wakaama

variable {Session : Type}

/-- No pending transaction has the message id that is drawn next. -/
def IdFree (context : TransactionContext Session) : Prop :=
  ∀ transacP ∈ context.transactionList, transacP.mID ≠ context.nextMID

/-- A transaction is started only when its message id is free. -/
def StartsFresh (context : TransactionContext Session) : TransactionCall Session → Prop
  | .start .. => IdFree context
  | _ => True

/-- The message ids are apart, no pending transaction is freed, and every `transaction_remove` has
unlinked what it has freed. -/
structure IdsApart (past : List (TransactionCall Session × TransactionEffect))
    (context : TransactionContext Session) : Prop where
  apart : (context.transactionList.map Transaction.mID).Nodup
  live : ∀ transacP ∈ context.transactionList, transacP.freed = false
  removed : ∀ event ∈ past, ∀ removal ∈ event.2.removed, removal.2 = some removal.1

/-- A callback runs for the transaction at the address. -/
def Running (context : TransactionContext Session) (address : Nat) : Prop :=
  ∃ frame ∈ context.callbacks, frame.transacP.address = address

structure Tidy (context : TransactionContext Session) : Prop where
  ascending : Ascending Transaction.mID context.transactionList
  live : ∀ transacP ∈ context.transactionList, transacP.freed = false
  addresses : (context.transactionList.map Transaction.address).Nodup
  allocated : ∀ transacP ∈ context.transactionList, transacP.address < context.allocations
  frames : (context.callbacks.map fun frame => frame.transacP.address).Nodup
  framesAllocated : ∀ frame ∈ context.callbacks, frame.transacP.address < context.allocations
  linked : ∀ frame ∈ context.callbacks, frame.unlinked = false →
    ∃ transacP ∈ context.transactionList, transacP.address = frame.transacP.address ∧
      transacP.mID = frame.transacP.mID
  unlinked : ∀ frame ∈ context.callbacks, frame.unlinked = true →
    ∀ transacP ∈ context.transactionList, transacP.address ≠ frame.transacP.address

theorem startContext_tidy (nextMID : UInt16) :
    Tidy (startContext nextMID : TransactionContext Session) where
  ascending := ascending_nil
  live _ h := nomatch h
  addresses := List.nodup_nil
  allocated _ h := nomatch h
  frames := List.nodup_nil
  framesAllocated _ h := nomatch h
  linked _ h := nomatch h
  unlinked _ h := nomatch h

/-! ## The list -/

/-- The address and the message id, which nothing changes while a transaction is in the list. -/
def identities (transactionList : List (Transaction Session)) : List (Nat × UInt16) :=
  transactionList.map fun transacP => (transacP.address, transacP.mID)

theorem addresses_eq (transactionList : List (Transaction Session)) :
    transactionList.map Transaction.address = (identities transactionList).map Prod.fst := by
  simp [identities]

variable {transactionList : List (Transaction Session)} {transacP next : Transaction Session}
  {context : TransactionContext Session}

theorem ascending_iff_identities :
    Ascending Transaction.mID transactionList ↔
      (identities transactionList).Pairwise fun a b => a.2 < b.2 := by
  simp [Ascending, identities, List.pairwise_map]

theorem address_inj (h : (transactionList.map Transaction.address).Nodup)
    {other : Transaction Session} (hmem : transacP ∈ transactionList)
    (hother : other ∈ transactionList) (heq : transacP.address = other.address) :
    transacP = other :=
  List.inj_on_of_nodup_map h hmem hother heq

theorem setTransaction_identities (h : (transactionList.map Transaction.address).Nodup)
    (hmem : transacP ∈ transactionList) (haddress : next.address = transacP.address)
    (hmid : next.mID = transacP.mID) :
    identities (setTransaction next transactionList) = identities transactionList := by
  unfold identities setTransaction
  rw [List.map_map]
  refine List.map_congr_left fun other hother => ?_
  by_cases hsame : other.address = next.address
  · obtain rfl := address_inj h hother hmem (hsame.trans haddress)
    simp [haddress, hmid]
  · simp [hsame]

theorem mem_setTransaction {other : Transaction Session}
    (h : other ∈ setTransaction next transactionList) :
    other = next ∨ other ∈ transactionList ∧ other.address ≠ next.address := by
  obtain ⟨old, hmem, heq⟩ := List.mem_map.1 h
  split at heq
  · exact Or.inl heq.symm
  · next hne => exact Or.inr (heq ▸ ⟨hmem, hne⟩)

theorem setTransaction_mem (h : ∃ transacP ∈ transactionList, transacP.address = next.address) :
    next ∈ setTransaction next transactionList := by
  obtain ⟨transacP, hmem, haddress⟩ := h
  exact List.mem_map.2 ⟨transacP, hmem, if_pos haddress⟩

theorem removeTransaction_eq (hasc : Ascending Transaction.mID transactionList)
    (hnodup : (transactionList.map Transaction.address).Nodup)
    (hlinked : ∃ old ∈ transactionList, old.address = transacP.address ∧ old.mID = transacP.mID) :
    removeTransaction transacP transactionList =
      (transactionList.filter fun other => other.address != transacP.address,
        some transacP.address) := by
  obtain ⟨old, hmem, haddress, hmid⟩ := hlinked
  have hset : identities (setTransaction { transacP with freed := true } transactionList) =
      identities transactionList :=
    setTransaction_identities hnodup hmem haddress.symm hmid.symm
  have hasc' : Ascending Transaction.mID
      (setTransaction { transacP with freed := true } transactionList) := by
    rw [ascending_iff_identities, hset, ← ascending_iff_identities]
    exact hasc
  have hfind : lwm2mListFind Transaction.mID transacP.mID
      (setTransaction { transacP with freed := true } transactionList) =
        some { transacP with freed := true } :=
    (lwm2mListFind_eq_some_iff hasc').2 ⟨setTransaction_mem ⟨old, hmem, haddress⟩, rfl⟩
  unfold removeTransaction
  rw [lwm2mListRemove_eq hasc', hfind]
  -- the node with the id is the one at the address
  have hfilter : (setTransaction { transacP with freed := true } transactionList).filter
      (fun other => other.mID != transacP.mID) =
        transactionList.filter fun other => other.address != transacP.address := by
    unfold setTransaction
    rw [List.filter_map]
    have hsame : ∀ other ∈ transactionList,
        ((fun other : Transaction Session => other.mID != transacP.mID) ∘ fun other =>
          if other.address = transacP.address then { transacP with freed := true } else other)
            other = (other.address != transacP.address) := by
      intro other hother
      by_cases hsame : other.address = transacP.address
      · simp [hsame]
      · have hne : other.mID ≠ transacP.mID := by
          intro heq
          have h1 := (lwm2mListFind_eq_some_iff hasc).2 ⟨hother, heq⟩
          have h2 := (lwm2mListFind_eq_some_iff hasc).2 ⟨hmem, hmid⟩
          obtain rfl := Option.some.inj (h1.symm.trans h2)
          exact hsame haddress
        simp [hsame, bne_iff_ne.2 hne, bne_iff_ne.2 hsame]
    rw [List.filter_congr hsame]
    refine (List.map_congr_left fun other hother => ?_).trans (List.map_id _)
    have hne : other.address ≠ transacP.address := by simpa using (List.mem_filter.1 hother).2
    simp [hne]
  simp [hfilter]

/-! ## What a step does to the list -/

namespace Tidy

variable {context : TransactionContext Session}

variable {transacP : Transaction Session}

theorem change (h : Tidy context) {next : Transaction Session}
    (hmem : transacP ∈ context.transactionList) (haddress : next.address = transacP.address)
    (hmid : next.mID = transacP.mID) (hlive : next.freed = false) : Tidy (context.set next) := by
  have hset : identities (context.set next).transactionList = identities context.transactionList :=
    setTransaction_identities h.addresses hmem haddress hmid
  refine ⟨?_, ?_, ?_, ?_, h.frames, h.framesAllocated, ?_, ?_⟩
  · rw [ascending_iff_identities, hset, ← ascending_iff_identities]
    exact h.ascending
  · intro other hother
    rcases mem_setTransaction hother with rfl | ⟨hold, -⟩
    · exact hlive
    · exact h.live other hold
  · rw [addresses_eq, hset, ← addresses_eq]
    exact h.addresses
  · intro other hother
    rcases mem_setTransaction hother with rfl | ⟨hold, -⟩
    · exact haddress ▸ h.allocated transacP hmem
    · exact h.allocated other hold
  · intro frame hframe hunlinked
    obtain ⟨old, hold, heq, hid⟩ := h.linked frame hframe hunlinked
    by_cases hsame : old.address = next.address
    · obtain rfl := address_inj h.addresses hold hmem (hsame.trans haddress)
      exact ⟨next, setTransaction_mem ⟨old, hold, hsame⟩, haddress.trans heq, hmid.trans hid⟩
    · exact ⟨old, List.mem_map.2 ⟨old, hold, if_neg hsame⟩, heq, hid⟩
  · intro frame hframe hunlinked other hother
    rcases mem_setTransaction hother with rfl | ⟨hold, -⟩
    · exact haddress ▸ h.unlinked frame hframe hunlinked transacP hmem
    · exact h.unlinked frame hframe hunlinked other hold

theorem remove (h : Tidy context)
    (hlinked : ∃ old ∈ context.transactionList, old.address = transacP.address ∧ old.mID = transacP.mID)
    (hidle : ¬ Running context transacP.address) (effect : TransactionEffect) :
    Tidy (context.remove transacP effect).1 := by
  rw [TransactionContext.remove, removeTransaction_eq h.ascending h.addresses hlinked]
  refine ⟨h.ascending.filter _, ?_, ?_, ?_, h.frames, h.framesAllocated, ?_, ?_⟩
  · exact fun other hother => h.live other (List.mem_filter.1 hother).1
  · exact h.addresses.sublist (List.filter_sublist.map _)
  · exact fun other hother => h.allocated other (List.mem_filter.1 hother).1
  · intro frame hframe hunlinked
    obtain ⟨old, hold, heq, hid⟩ := h.linked frame hframe hunlinked
    have hne : old.address ≠ transacP.address := fun hsame =>
      hidle ⟨frame, hframe, heq.symm.trans hsame⟩
    exact ⟨old, List.mem_filter.2 ⟨hold, by simpa using hne⟩, heq, hid⟩
  · exact fun frame hframe hunlinked other hother =>
      h.unlinked frame hframe hunlinked other (List.mem_filter.1 hother).1

theorem call (h : Tidy context)
    (hlinked : ∃ old ∈ context.transactionList, old.address = transacP.address ∧ old.mID = transacP.mID)
    (hidle : ¬ Running context transacP.address) (clears : Bool) :
    Tidy { context with
      callbacks := { transacP, unlinked := false, clears } :: context.callbacks } := by
  obtain ⟨old, hold, haddress, hmid⟩ := hlinked
  refine ⟨h.ascending, h.live, h.addresses, h.allocated, ?_, ?_, ?_, ?_⟩
  · refine List.nodup_cons.2 ⟨fun hmem => hidle ?_, h.frames⟩
    obtain ⟨frame, hframe, heq⟩ := List.mem_map.1 hmem
    exact ⟨frame, hframe, heq⟩
  · intro frame hframe
    rcases List.mem_cons.1 hframe with rfl | hframe
    · exact haddress ▸ h.allocated old hold
    · exact h.framesAllocated frame hframe
  · intro frame hframe hunlinked
    rcases List.mem_cons.1 hframe with rfl | hframe
    · exact ⟨old, hold, haddress, hmid⟩
    · exact h.linked frame hframe hunlinked
  · intro frame hframe hunlinked
    rcases List.mem_cons.1 hframe with rfl | hframe
    · cases hunlinked
    · exact h.unlinked frame hframe hunlinked

theorem pop (h : Tidy context) {frame : CallbackFrame Session}
    {callbacks : List (CallbackFrame Session)} (hframes : context.callbacks = frame :: callbacks) :
    Tidy { context with callbacks } ∧ ¬ Running { context with callbacks } frame.transacP.address := by
  have hsub : ∀ other ∈ callbacks, other ∈ context.callbacks := fun other hother => by
    rw [hframes]
    exact List.mem_cons_of_mem _ hother
  have hnodup := h.frames
  rw [hframes] at hnodup
  obtain ⟨hfresh, hrest⟩ := List.nodup_cons.1 hnodup
  refine ⟨⟨h.ascending, h.live, h.addresses, h.allocated, hrest, ?_, ?_, ?_⟩, ?_⟩
  · exact fun other hother => h.framesAllocated other (hsub other hother)
  · exact fun other hother => h.linked other (hsub other hother)
  · exact fun other hother => h.unlinked other (hsub other hother)
  · intro hrunning
    obtain ⟨other, hother, heq⟩ := hrunning
    exact hfresh (List.mem_map.2 ⟨other, hother, heq⟩)

theorem add (h : Tidy context) (hfree : IdFree context)
    (haddress : transacP.address = context.allocations) (hmid : transacP.mID = context.nextMID)
    (hlive : transacP.freed = false) : Tidy (context.add transacP) := by
  have hperm := @lwm2mListAdd_perm _ Transaction.mID context.transactionList transacP
  have hmem : ∀ other, other ∈ lwm2mListAdd Transaction.mID context.transactionList transacP ↔
      other = transacP ∨ other ∈ context.transactionList := fun other => by
    rw [hperm.mem_iff, List.mem_cons]
  refine ⟨?_, ?_, ?_, ?_, h.frames, ?_, ?_, ?_⟩
  · exact lwm2mListAdd_ascending h.ascending fun other hother => hmid ▸ hfree other hother
  · intro other hother
    rcases (hmem other).1 hother with rfl | hold
    · exact hlive
    · exact h.live other hold
  · refine ((hperm.map Transaction.address).nodup_iff).2 ?_
    rw [List.map_cons, List.nodup_cons]
    refine ⟨fun hold => ?_, h.addresses⟩
    obtain ⟨other, hother, heq⟩ := List.mem_map.1 hold
    have := h.allocated other hother
    omega
  · intro other hother
    rcases (hmem other).1 hother with rfl | hold
    · exact Nat.lt_succ_of_le (Nat.le_of_eq haddress)
    · exact Nat.lt_succ_of_lt (h.allocated other hold)
  · exact fun frame hframe => Nat.lt_succ_of_lt (h.framesAllocated frame hframe)
  · intro frame hframe hunlinked
    obtain ⟨old, hold, heq⟩ := h.linked frame hframe hunlinked
    exact ⟨old, (hmem old).2 (Or.inr hold), heq⟩
  · intro frame hframe hunlinked other hother
    rcases (hmem other).1 hother with rfl | hold
    · have := h.framesAllocated frame hframe
      omega
    · exact h.unlinked frame hframe hunlinked other hold

theorem tail (h : Tidy context) {next : List (Transaction Session)}
    (hlist : context.transactionList = transacP :: next)
    (hidle : ¬ Running context transacP.address) :
    Tidy { context with transactionList := next } ∧
      ∀ other ∈ next, other.address ≠ transacP.address := by
  have hsub : ∀ other ∈ next, other ∈ context.transactionList := fun other hother => by
    rw [hlist]
    exact List.mem_cons_of_mem _ hother
  have hasc := h.ascending
  rw [hlist] at hasc
  have hnodup := h.addresses
  rw [hlist] at hnodup
  obtain ⟨hfresh, hrest⟩ := List.nodup_cons.1 hnodup
  refine ⟨⟨(ascending_cons.1 hasc).2, fun other hother => h.live other (hsub other hother), hrest,
    fun other hother => h.allocated other (hsub other hother), h.frames, h.framesAllocated,
    fun frame hframe hunlinked => ?_, fun frame hframe hunlinked other hother =>
      h.unlinked frame hframe hunlinked other (hsub other hother)⟩, fun other hother heq => ?_⟩
  · obtain ⟨old, hold, heq, hid⟩ := h.linked frame hframe hunlinked
    rw [hlist] at hold
    rcases List.mem_cons.1 hold with rfl | hold
    · exact absurd ⟨frame, hframe, heq.symm⟩ hidle
    · exact ⟨old, hold, heq, hid⟩
  · exact hfresh (List.mem_map.2 ⟨other, hother, heq⟩)

end Tidy

/-! ## The steps -/

/-- What `transaction_send` leaves of a transaction that it has sent. -/
structure SentOnce (tvSec : Int) (transacP next : Transaction Session) : Prop where
  address : next.address = transacP.address
  mID : next.mID = transacP.mID
  freed : next.freed = transacP.freed
  callback : next.callback = transacP.callback
  ackReceived : transacP.ackReceived = false ∧ next.ackReceived = false
  buffer : next.buffer ≠ none
  counter : transacP.retransCounter = 0 ∧ 0 ≤ tvSec ∧ next.retransCounter = 2 ∨
    transacP.retransCounter ≠ 0 ∧ transacP.retransCounter ≤ coapMaxRetransmit + 1 ∧
      next.retransCounter = transacP.retransCounter + 1

theorem transactionSendOutcome_cases {serialized : Bool} (tvSec : Int)
    (transacP : Transaction Session) (h : transacP.buffer ≠ none ∨ serialized = true) :
    (∃ next, transactionSendOutcome serialized tvSec transacP = .sent next ∧
        SentOnce tvSec transacP next) ∨
      (transactionSendOutcome serialized tvSec transacP = .expired true ∧
        transacP.ackReceived = false ∧ transacP.retransCounter = 0 ∧ tvSec < 0) ∨
      transactionSendOutcome serialized tvSec transacP = .expired false := by
  unfold transactionSendOutcome
  split
  · next hbuffer => simp [hbuffer] at h
  · by_cases hack : transacP.ackReceived = true
    · right
      right
      simp only [if_pos hack]
    · have hopen : transacP.ackReceived = false := by simpa using hack
      simp only [if_neg hack]
      by_cases hzero : transacP.retransCounter = 0
      · simp only [if_pos hzero]
        by_cases htime : 0 ≤ tvSec
        · left
          simp only [if_pos htime]
          exact ⟨_, rfl, rfl, rfl, rfl, rfl, ⟨hopen, hopen⟩, nofun, Or.inl ⟨hzero, htime, rfl⟩⟩
        · right
          left
          simp only [if_neg htime]
          exact ⟨trivial, hopen, hzero, Int.not_le.1 htime⟩
      · simp only [if_neg hzero]
        by_cases hmax : transacP.retransCounter ≤ coapMaxRetransmit + 1
        · left
          simp only [if_pos hmax]
          exact ⟨_, rfl, rfl, rfl, rfl, rfl, ⟨hopen, hopen⟩, nofun, Or.inr ⟨hzero, hmax, rfl⟩⟩
        · right
          right
          simp only [if_neg hmax]

theorem transactionSendOutcome_failed {serialized : Bool} {tvSec : Int}
    (hbuffer : transacP.buffer = none) (hserialized : serialized = false) :
    transactionSendOutcome serialized tvSec transacP = .failed := by
  simp [transactionSendOutcome, hbuffer, hserialized]

/-- What `transaction_handleResponse` leaves of a transaction that it has changed. -/
structure Answered (message : CoapPacket) (transacP next : Transaction Session) : Prop where
  address : next.address = transacP.address
  mID : next.mID = transacP.mID
  freed : next.freed = transacP.freed
  callback : next.callback = transacP.callback
  buffer : next.buffer = transacP.buffer
  counter : next.retransCounter = transacP.retransCounter
  rearmed : transacP.ackReceived = true → next.ackReceived = false →
    message.code = coapUnauthorized

theorem responseOutcome_cases (sessionIsEqual : Session → Session → Bool) (tvSec : Int)
    (fromSessionH : Session) (message : CoapPacket)
    (hlive : ∀ transacP ∈ transactionList, transacP.freed = false) :
    ∃ outcome,
      responseOutcome sessionIsEqual tvSec fromSessionH message transactionList = .ok outcome ∧
      (outcome = .ignored ∨ ∃ transacP ∈ transactionList, ∃ next, Answered message transacP next ∧
        (outcome = .waiting next ∨ outcome = .finished next)) := by
  induction transactionList with
  | nil => exact ⟨.ignored, rfl, Or.inl rfl⟩
  | cons transacP next ih =>
    obtain ⟨outcome, hwalk, hcases⟩ := ih fun other hother =>
      hlive other (List.mem_cons_of_mem _ hother)
    have hrest : outcome = .ignored ∨ ∃ other ∈ transacP :: next, ∃ changed,
        Answered message other changed ∧ (outcome = .waiting changed ∨ outcome = .finished changed) := by
      rcases hcases with hignored | ⟨other, hother, changed⟩
      · exact Or.inl hignored
      · exact Or.inr ⟨other, List.mem_cons_of_mem _ hother, changed⟩
    have hhere : ∀ {changed : Transaction Session} {outcome : ResponseOutcome Session},
        outcome = .waiting changed ∨ outcome = .finished changed → Answered message transacP changed →
        outcome = .ignored ∨ ∃ other ∈ transacP :: next, ∃ changed, Answered message other changed ∧
          (outcome = .waiting changed ∨ outcome = .finished changed) :=
      fun houtcome hanswered => Or.inr ⟨transacP, by simp, _, hanswered, houtcome⟩
    unfold responseOutcome
    rw [if_neg (by simp [hlive transacP (by simp)])]
    split
    · simp only
      split
      · split
        · next hunauthorized =>
          simp only [Bool.and_eq_true, beq_iff_eq] at hunauthorized
          exact ⟨_, rfl, hhere (Or.inl rfl)
            ⟨rfl, rfl, rfl, rfl, rfl, rfl, fun _ _ => hunauthorized.1.2⟩⟩
        · exact ⟨_, rfl, hhere (Or.inr rfl) ⟨rfl, rfl, rfl, rfl, rfl, rfl, by simp +contextual⟩⟩
      · split
        · exact ⟨_, rfl, hhere (Or.inl rfl) ⟨rfl, rfl, rfl, rfl, rfl, rfl, by simp +contextual⟩⟩
        · exact ⟨outcome, hwalk, hrest⟩
    · exact ⟨outcome, hwalk, hrest⟩

def Matches (effect : TransactionEffect) : Prop :=
  ∀ removal ∈ effect.removed, removal.2 = some removal.1

def KeepsTidy (result : Except Fault (TransactionContext Session × TransactionEffect)) : Prop :=
  ∀ context effect, result = .ok (context, effect) → Tidy context ∧ Matches effect

theorem KeepsTidy.ok {effect : TransactionEffect} (htidy : Tidy context)
    (heffect : Matches effect) : KeepsTidy (.ok (context, effect)) := by
  intro context' effect' heq
  obtain ⟨rfl, rfl⟩ := Prod.mk.inj (Except.ok.inj heq)
  exact ⟨htidy, heffect⟩

section

variable {context : TransactionContext Session}

variable {transacP : Transaction Session} {effect : TransactionEffect}

theorem Tidy.remove_matches (h : Tidy context)
    (hlinked : ∃ old ∈ context.transactionList, old.address = transacP.address ∧ old.mID = transacP.mID)
    (heffect : Matches effect) : Matches (context.remove transacP effect).2 := by
  rw [TransactionContext.remove, removeTransaction_eq h.ascending h.addresses hlinked]
  intro removal hremoval
  rcases List.mem_append.1 hremoval with hold | hnew
  · exact heffect removal hold
  · obtain rfl := List.mem_singleton.1 hnew
    rfl

theorem Tidy.remove_keeps (h : Tidy context)
    (hlinked : ∃ old ∈ context.transactionList, old.address = transacP.address ∧ old.mID = transacP.mID)
    (hidle : ¬ Running context transacP.address) (heffect : Matches effect) :
    KeepsTidy (.ok (context.remove transacP effect)) :=
  KeepsTidy.ok (h.remove hlinked hidle effect) (h.remove_matches hlinked heffect)

theorem Tidy.finish (h : Tidy context)
    (hlinked : ∃ old ∈ context.transactionList, old.address = transacP.address ∧ old.mID = transacP.mID)
    (hidle : ¬ Running context transacP.address) (clears : Bool) (heffect : Matches effect) :
    KeepsTidy (context.finish transacP clears effect) := by
  unfold TransactionContext.finish
  split
  · exact KeepsTidy.ok (h.call hlinked hidle clears) heffect
  · split
    · exact nofun
    · exact h.remove_keeps hlinked hidle heffect

theorem matches_none : Matches TransactionEffect.none := nofun

theorem Tidy.start (h : Tidy context) (hfree : IdFree context) (transacP : Transaction Session)
    (serialized : Bool) (tvSec : Int) (byLwm2mSend : Bool) :
    KeepsTidy (context.start transacP serialized tvSec byLwm2mSend) := by
  have hadd : Tidy (context.add (context.newTransaction transacP)) := h.add hfree rfl rfl rfl
  have hmem : context.newTransaction transacP ∈
      (context.add (context.newTransaction transacP)).transactionList :=
    (lwm2mListAdd_perm _ _).mem_iff.2 (by simp)
  have hidle : ¬ Running (context.add (context.newTransaction transacP))
      (context.newTransaction transacP).address := by
    intro hrunning
    obtain ⟨frame, hframe, heq⟩ := hrunning
    exact absurd heq (Nat.ne_of_lt (h.framesAllocated frame hframe))
  unfold TransactionContext.start
  simp only
  split
  · split
    · exact nofun
    · exact hadd.remove_keeps ⟨_, hmem, rfl, rfl⟩ hidle nofun
  · next next hsent =>
    have hserialized : (context.newTransaction transacP).buffer ≠ none ∨ serialized = true := by
      by_contra hnot
      obtain ⟨-, hfalse⟩ := not_or.1 hnot
      rw [transactionSendOutcome_failed rfl (by simpa using hfalse)] at hsent
      cases hsent
    rcases transactionSendOutcome_cases tvSec _ hserialized with
      ⟨other, heq, honce⟩ | ⟨heq, -⟩ | heq
    · obtain rfl := SendOutcome.sent.inj (heq.symm.trans hsent)
      exact KeepsTidy.ok (hadd.change hmem honce.address honce.mID honce.freed) nofun
    · cases heq.symm.trans hsent
    · cases heq.symm.trans hsent
  · exact hadd.finish ⟨_, hmem, rfl, rfl⟩ hidle byLwm2mSend nofun

theorem Tidy.retry (h : Tidy context) (hquiet : context.callbacks = []) (address : Nat)
    (currentTime tvSec : Int) : KeepsTidy (context.retry address currentTime tvSec) := by
  unfold TransactionContext.retry
  cases hfind : context.transactionList.find? fun transacP => transacP.address == address with
  | none => exact KeepsTidy.ok h matches_none
  | some transacP =>
    have hmem := List.mem_of_find?_eq_some hfind
    have hidle : ¬ Running context transacP.address := by simp [Running, hquiet]
    simp only
    split
    · exact nofun
    · split
      · exact KeepsTidy.ok h matches_none
      · rcases @transactionSendOutcome_cases _ true tvSec transacP (Or.inr rfl) with
          ⟨next, hsent, honce⟩ | ⟨hexpired, -⟩ | hexpired
        · rw [hsent]
          exact KeepsTidy.ok (h.change hmem honce.address honce.mID
            (honce.freed.trans (h.live transacP hmem))) nofun
        · rw [hexpired]
          exact h.finish ⟨_, hmem, rfl, rfl⟩ hidle false nofun
        · rw [hexpired]
          exact h.finish ⟨_, hmem, rfl, rfl⟩ hidle false nofun

theorem Tidy.response (h : Tidy context) (hquiet : context.callbacks = [])
    (sessionIsEqual : Session → Session → Bool) (tvSec : Int) (fromSessionH : Session)
    (message : CoapPacket) :
    KeepsTidy (context.response sessionIsEqual tvSec fromSessionH message) := by
  obtain ⟨outcome, hwalk, hcases⟩ := responseOutcome_cases sessionIsEqual tvSec
    fromSessionH message h.live
  unfold TransactionContext.response
  rw [hwalk]
  rcases hcases with rfl | ⟨transacP, hmem, next, hanswered, houtcome⟩
  · exact KeepsTidy.ok h matches_none
  · have hset := h.change hmem hanswered.address hanswered.mID
      (hanswered.freed.trans (h.live transacP hmem))
    rcases houtcome with rfl | rfl
    · exact KeepsTidy.ok hset nofun
    · exact hset.finish ⟨next, setTransaction_mem ⟨transacP, hmem, hanswered.address.symm⟩, rfl, rfl⟩
        (by simp [Running, TransactionContext.set, hquiet]) false nofun

theorem Tidy.close (h : Tidy context) (hquiet : context.callbacks = []) :
    KeepsTidy context.close := by
  unfold TransactionContext.close
  cases hlist : context.transactionList with
  | nil => exact KeepsTidy.ok h matches_none
  | cons transacP next =>
    have hidle : ¬ Running context transacP.address := by simp [Running, hquiet]
    obtain ⟨htail, hgone⟩ := h.tail hlist hidle
    simp only
    split
    · exact nofun
    · split
      · refine KeepsTidy.ok ⟨htail.ascending, htail.live, htail.addresses, htail.allocated, ?_, ?_,
          ?_, ?_⟩ nofun
        · simp [hquiet]
        · intro frame hframe
          obtain rfl : frame = _ := by simpa [hquiet] using hframe
          exact h.allocated transacP (by simp [hlist])
        · intro frame hframe hunlinked
          obtain rfl : frame = _ := by simpa [hquiet] using hframe
          cases hunlinked
        · intro frame hframe _ other hother
          obtain rfl : frame = _ := by simpa [hquiet] using hframe
          exact hgone other hother
      · exact KeepsTidy.ok htail nofun

theorem Tidy.returns (h : Tidy context) : KeepsTidy context.returns := by
  unfold TransactionContext.returns
  cases hframes : context.callbacks with
  | nil => exact KeepsTidy.ok h matches_none
  | cons frame callbacks =>
    obtain ⟨hpop, hidle⟩ := h.pop hframes
    simp only
    split
    · exact nofun
    · split
      · exact KeepsTidy.ok hpop nofun
      · next hlinked =>
        have hlinked := h.linked frame (by simp [hframes]) (by simpa using hlinked)
        exact hpop.remove_keeps hlinked hidle matches_none

end

theorem removeClientLoop_tidy {sessionIsEqual : Session → Session → Bool} {sessionH : Session}
    (next : List (Transaction Session)) :
    ∀ (context : TransactionContext Session) (effect : TransactionEffect), Tidy context →
      context.callbacks = [] → Matches effect → (next.map Transaction.address).Nodup →
      (∀ transacP ∈ next, transacP ∈ context.transactionList) →
      KeepsTidy (removeClientLoop sessionIsEqual sessionH next (context, effect)) := by
  induction next with
  | nil => exact fun _ _ h _ heffect _ _ => KeepsTidy.ok h heffect
  | cons transacP next ih =>
    intro context effect h hquiet heffect hnodup hsub
    obtain ⟨hfresh, hnodup⟩ := List.nodup_cons.1 hnodup
    have hmem := hsub transacP (by simp)
    unfold removeClientLoop
    split
    · exact nofun
    · split
      · have hidle : ¬ Running context transacP.address := by simp [Running, hquiet]
        refine ih (context.remove transacP effect).1 (context.remove transacP effect).2
          (h.remove ⟨_, hmem, rfl, rfl⟩ hidle effect) hquiet
          (h.remove_matches ⟨_, hmem, rfl, rfl⟩ heffect) hnodup fun other hother => ?_
        have hrest : (context.remove transacP effect).1.transactionList =
            context.transactionList.filter fun other => other.address != transacP.address :=
          congrArg Prod.fst (removeTransaction_eq h.ascending h.addresses ⟨_, hmem, rfl, rfl⟩)
        rw [hrest]
        refine List.mem_filter.2 ⟨hsub other (List.mem_cons_of_mem _ hother), ?_⟩
        rw [bne_iff_ne]
        exact fun heq => hfresh (List.mem_map.2 ⟨other, hother, heq⟩)
      · exact ih context effect h hquiet heffect hnodup fun other hother =>
          hsub other (List.mem_cons_of_mem _ hother)

theorem KeepsTidy.whenQuiet (h : Tidy context)
    {result : Except Fault (TransactionContext Session × TransactionEffect)}
    (hresult : context.callbacks = [] → KeepsTidy result) :
    KeepsTidy (if context.callbacks.isEmpty then result else .ok (context, .none)) := by
  split
  · next hempty => exact hresult (List.isEmpty_iff.1 hempty)
  · exact KeepsTidy.ok h matches_none

theorem transactionStep_tidy (sessionIsEqual : Session → Session → Bool) (h : Tidy context)
    {call : TransactionCall Session} (hfresh : StartsFresh context call) :
    KeepsTidy (transactionStep sessionIsEqual context call) := by
  cases call with
  | message =>
    exact KeepsTidy.ok ⟨h.ascending, h.live, h.addresses, h.allocated, h.frames, h.framesAllocated,
      h.linked, h.unlinked⟩ matches_none
  | start transacP serialized tvSec byLwm2mSend =>
    exact h.start hfresh transacP serialized tvSec byLwm2mSend
  | returns => exact h.returns
  | retry address currentTime tvSec =>
    exact KeepsTidy.whenQuiet h fun hquiet => h.retry hquiet address currentTime tvSec
  | response tvSec fromSessionH message =>
    exact KeepsTidy.whenQuiet h fun hquiet =>
      h.response hquiet sessionIsEqual tvSec fromSessionH message
  | removeClient sessionH =>
    exact KeepsTidy.whenQuiet h fun hquiet =>
      removeClientLoop_tidy _ context .none h hquiet matches_none h.addresses fun _ hmem => hmem
  | close => exact KeepsTidy.whenQuiet h fun hquiet => h.close hquiet

theorem Tidy.apart (h : Tidy context) : (context.transactionList.map Transaction.mID).Nodup := by
  rw [List.nodup_iff_pairwise_ne, List.pairwise_map]
  exact h.ascending.imp fun hlt heq => absurd (heq ▸ hlt) (uint16_lt_irrefl _)

def TidyRun (past : List (TransactionCall Session × TransactionEffect))
    (context : TransactionContext Session) : Prop :=
  Tidy context ∧ ∀ event ∈ past, Matches event.2

theorem TidyRun.step {sessionIsEqual : Session → Session → Bool}
    {past : List (TransactionCall Session × TransactionEffect)}
    {context' : TransactionContext Session} (h : TidyRun past context)
    {call : TransactionCall Session} (hfresh : StartsFresh context call)
    {effect : TransactionEffect}
    (hok : transactionStep sessionIsEqual context call = .ok (context', effect)) :
    TidyRun (past ++ [(call, effect)]) context' := by
  obtain ⟨htidy, heffect⟩ := transactionStep_tidy sessionIsEqual h.1 hfresh context' effect hok
  refine ⟨htidy, fun event hmem => ?_⟩
  rcases List.mem_append.1 hmem with hold | hnew
  · exact h.2 event hold
  · obtain rfl := List.mem_singleton.1 hnew
    exact heffect

/-- Over every run that starts transactions under free message ids only, the ids of the pending
ones are apart, none of them is freed, and what `transaction_remove` unlinks is what it frees. -/
theorem transactionRun_idsApart (sessionIsEqual : Session → Session → Bool) (nextMID : UInt16)
    (calls : List (TransactionCall Session))
    (hmeet : StepsMeet (transactionStep sessionIsEqual) StartsFresh (startContext nextMID) calls) :
    EachReached (transactionStep sessionIsEqual) IdsApart [] (startContext nextMID) calls := by
  have hstart : TidyRun [] (startContext nextMID : TransactionContext Session) :=
    ⟨startContext_tidy nextMID, fun _ hmem => absurd hmem List.not_mem_nil⟩
  have hstep : ∀ (past : List (TransactionCall Session × TransactionEffect))
      (context : TransactionContext Session) (call : TransactionCall Session)
      (context' : TransactionContext Session) (effect : TransactionEffect),
      TidyRun past context → StartsFresh context call →
      transactionStep sessionIsEqual context call = .ok (context', effect) →
      TidyRun (past ++ [(call, effect)]) context' := by
    intro past context call context' effect h hfresh hok
    exact h.step hfresh hok
  have hafter := StepsMeet.after calls [] (startContext nextMID) hmeet
  have hreached := eachReached_of_invariant hstep calls [] (startContext nextMID) hstart hafter
  exact EachReached.imp (fun past context h => ⟨h.1.apart, h.1.live, h.2⟩) calls [] _ hreached

/-! ## When the ids come round -/

/-- A request without a callback. -/
def plainRequest : Transaction Unit := transactionNew 0 () coapGet 0 []

/-- The request when it is sent for the first time, at the time 0. -/
def pendingRequest (address : Nat) (mID : UInt16) : Transaction Unit :=
  { plainRequest with
    address
    mID
    retransCounter := 2
    retransTime := 2
    message := { plainRequest.message with mid := mID }
    buffer := some { plainRequest.message with mid := mID } }

/-- Two requests with a message between them, and the response to the first one. -/
def twoRequests : List (TransactionCall Unit) :=
  [.start plainRequest true 0 false, .message, .start plainRequest true 0 false,
    .response 1 () (coapInitMessage .ack coapContent 7)]

theorem twoRequests_fresh :
    StepsMeet (transactionStep fun _ _ => true) StartsFresh (startContext 7) twoRequests := by
  have hfirst : transactionStep (fun _ _ => true) (startContext 7)
      (.start plainRequest true 0 false) =
        .ok (⟨8, [pendingRequest 0 7], [], 1⟩, ⟨some (0, false), some 0, none, none, [], []⟩) := rfl
  have hmessage : transactionStep (fun _ _ => true) ⟨8, [pendingRequest 0 7], [], 1⟩ .message =
      .ok (⟨9, [pendingRequest 0 7], [], 1⟩, .none) := rfl
  have hsecond : transactionStep (fun _ _ => true) ⟨9, [pendingRequest 0 7], [], 1⟩
      (.start plainRequest true 0 false) =
        .ok (⟨10, [pendingRequest 0 7, pendingRequest 1 9], [], 2⟩,
          ⟨some (1, false), some 1, none, none, [], []⟩) := rfl
  refine StepsMeet.cons (fun _ hmem => absurd hmem List.not_mem_nil) hfirst (StepsMeet.cons trivial hmessage
    (StepsMeet.cons ?_ hsecond ⟨trivial, fun _ _ _ => trivial⟩))
  intro transacP hmem
  obtain rfl := List.mem_singleton.1 hmem
  decide

theorem twoRequests_apart :
    EachReached (transactionStep fun _ _ => true) IdsApart [] (startContext 7) twoRequests :=
  transactionRun_idsApart (fun _ _ => true) 7 twoRequests twoRequests_fresh

theorem messages_run {Session : Type} {sessionIsEqual : Session → Session → Bool} (n : Nat) :
    ∀ context : TransactionContext Session,
      ∃ effects, run (transactionStep sessionIsEqual) context (List.replicate n .message) =
        .ok ({ context with nextMID := context.nextMID + UInt16.ofNat n }, effects) := by
  induction n with
  | zero => exact fun context => ⟨[], by simp [run]⟩
  | succ n ih =>
    intro context
    obtain ⟨effects, hrun⟩ := ih { context with nextMID := context.nextMID + 1 }
    refine ⟨.none :: effects, ?_⟩
    rw [List.replicate_succ, run_cons_ok rfl, hrun, UInt16.ofNat_add, UInt16.add_comm (UInt16.ofNat n),
      ← UInt16.add_assoc]
    rfl

/-- A request is pending while 65535 messages are sent: the next one gets its id. -/
theorem wrappedIds_notApart :
    ¬ EachReached (transactionStep fun _ _ => true) IdsApart [] (startContext 0)
      (.start plainRequest true 0 false :: List.replicate 65535 .message ++
        [.start plainRequest true 0 false]) := by
  intro h
  obtain ⟨effects, hmessages⟩ :=
    @messages_run Unit (fun _ _ => true) 65535 ⟨1, [pendingRequest 0 0], [], 1⟩
  have hfirst : transactionStep (fun _ _ => true) (startContext 0)
      (.start plainRequest true 0 false) =
        .ok (⟨1, [pendingRequest 0 0], [], 1⟩, ⟨some (0, false), some 0, none, none, [], []⟩) := rfl
  have hrun := (run_cons_ok hfirst (List.replicate 65535 .message)).trans
    (congrArg (Except.map _) hmessages)
  have hsecond : transactionStep (fun _ _ => true) ⟨1 + UInt16.ofNat 65535, [pendingRequest 0 0], [], 1⟩
      (.start plainRequest true 0 false) =
        .ok (⟨1, [pendingRequest 0 0, pendingRequest 1 0], [], 2⟩,
          ⟨some (1, false), some 1, none, none, [], []⟩) := rfl
  have hlast := EachReached.last hsecond _ _ _ _ h hrun
  exact absurd hlast.apart (by decide)

end Wakaama
