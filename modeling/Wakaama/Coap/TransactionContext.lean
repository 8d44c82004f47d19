import Wakaama.Coap.Transaction
import Wakaama.Misc.UpdateAt

/-!
# The life of transactions (`coap/transaction.c`, `core/liblwm2m.c`)

`contextP->nextMID` and `contextP->transactionList`, with everything that adds, sends and removes
a transaction. A callback is code of the user or of another module that may start transactions of
its own, so that the steps around it are separate: the function that calls it stops there, and
goes on when the callback returns. The address of a transaction is the number of its allocation.
-/

namespace Wakaama

variable {Session : Type}

/-- What `transaction_send` does with a transaction: it cannot serialise the message, it has sent
it, or it gives up, possibly having sent it once more. -/
inductive SendOutcome (Session : Type) where
  | failed
  | sent (transacP : Transaction Session)
  | expired (sent : Bool)

/-- `transaction_send` up to the callback; `serialized` says whether the message can be serialised
and has room in the memory. -/
def transactionSendOutcome (serialized : Bool) (tvSec : Int) (transacP : Transaction Session) :
    SendOutcome Session :=
  match transacP.buffer, serialized with
  | none, false => .failed
  | _, _ =>
    let transacP := { transacP with buffer := some (transacP.buffer.getD transacP.message) }
    if transacP.ackReceived then .expired false
    else if transacP.retransCounter = 0 then
      if 0 ≤ tvSec then
        .sent { transacP with retransTime := tvSec + coapResponseTimeout, retransCounter := 2 }
      else .expired true
    else if transacP.retransCounter ≤ coapMaxRetransmit + 1 then
      .sent { transacP with
        retransTime := transacP.retransTime +
          coapResponseTimeout * 2 ^ (transacP.retransCounter.toNat - 1)
        retransCounter := transacP.retransCounter + 1 }
    else .expired false

/-- What `transaction_handleResponse` does up to the callback: it finds no transaction, it changes
one, which waits on, or it is done with one. -/
inductive ResponseOutcome (Session : Type) where
  | ignored
  | waiting (transacP : Transaction Session)
  | finished (transacP : Transaction Session)

/-- The walk of `transaction_handleResponse` up to the callback. -/
def responseOutcome (sessionIsEqual : Session → Session → Bool) (tvSec : Int)
    (fromSessionH : Session) (message : CoapPacket) :
    List (Transaction Session) → Except Fault (ResponseOutcome Session)
  | [] => .ok .ignored
  | transacP :: next =>
    if transacP.freed then .error .useAfterFree
    else if sessionIsEqual fromSessionH transacP.peerH then
      let found := !transacP.ackReceived && (message.type == .ack || message.type == .rst) &&
        transacP.mID == message.mid
      let reset := found && message.type == .rst
      let marked := { transacP with ackReceived := transacP.ackReceived || found }
      if reset || prvCheckFinished marked message then
        if !reset && message.code == coapUnauthorized &&
            marked.retransCounter < coapMaxRetransmit then
          .ok (.waiting { marked with
            ackReceived := false
            retransTime := marked.retransTime + coapResponseTimeout })
        else .ok (.finished marked)
      else if found then
        .ok (.waiting { marked with retransTime := retransTimeAfter tvSec marked message })
      else responseOutcome sessionIsEqual tvSec fromSessionH message next
    else responseOutcome sessionIsEqual tvSec fromSessionH message next

/-- A callback that runs. Behind it the transaction is removed, or freed where
`prv_deleteTransactionList` has already taken it from the list; `clears` says that `lwm2m_send`
then clears the payload of its message. -/
structure CallbackFrame (Session : Type) where
  transacP : Transaction Session
  unlinked : Bool
  clears : Bool

/-- `lwm2m_context_t`, as far as transactions go, with the callbacks that run, the innermost one
first. -/
structure TransactionContext (Session : Type) where
  nextMID : UInt16
  transactionList : List (Transaction Session)
  callbacks : List (CallbackFrame Session)
  allocations : Nat

/-- What a step does to transactions, given by their addresses: it starts one with or without a
callback, transmits it, changes whether it counts as acknowledged, calls its callback, or frees it.
`removed` has what each `transaction_remove` frees and what it unlinks. -/
structure TransactionEffect where
  started : Option (Nat × Bool)
  sent : Option Nat
  acknowledged : Option (Nat × Bool)
  called : Option Nat
  removed : List (Nat × Option Nat)
  freed : List Nat
  deriving DecidableEq, Repr

/-- Nothing. -/
def TransactionEffect.none : TransactionEffect := ⟨.none, .none, .none, .none, [], []⟩

/-- The steps: a message that is no transaction is sent; a transaction is started, by `lwm2m_send`
or by another function; `transaction_step` comes to a transaction; a response arrives; a client is
removed; `lwm2m_close` takes the next transaction; a callback returns. -/
inductive TransactionCall (Session : Type) where
  | message
  | start (transacP : Transaction Session) (serialized : Bool) (tvSec : Int) (byLwm2mSend : Bool)
  | retry (address : Nat) (currentTime tvSec : Int)
  | response (tvSec : Int) (fromSessionH : Session) (message : CoapPacket)
  | removeClient (sessionH : Session)
  | close
  | returns

/-- The list with a transaction changed at its address. -/
def setTransaction (transacP : Transaction Session) (transactionList : List (Transaction Session)) :
    List (Transaction Session) :=
  transactionList.map fun other => if other.address = transacP.address then transacP else other

/-- `transaction_remove`: what is unlinked is the first transaction with the message id, what is
freed is the given one. -/
def removeTransaction (transacP : Transaction Session)
    (transactionList : List (Transaction Session)) : List (Transaction Session) × Option Nat :=
  let (rest, node) := lwm2mListRemove Transaction.mID transacP.mID
    (setTransaction { transacP with freed := true } transactionList)
  (rest, node.map Transaction.address)

/-- The context behind the removal of a transaction. -/
def TransactionContext.remove (context : TransactionContext Session)
    (transacP : Transaction Session) (effect : TransactionEffect) :
    TransactionContext Session × TransactionEffect :=
  let (transactionList, unlinked) := removeTransaction transacP context.transactionList
  ({ context with transactionList },
    { effect with
      removed := effect.removed ++ [(transacP.address, unlinked)]
      freed := effect.freed ++ [transacP.address] })

/-- The end of a transaction: its callback is called, if it has one, and it is removed behind it. -/
def TransactionContext.finish (context : TransactionContext Session)
    (transacP : Transaction Session) (clears : Bool) (effect : TransactionEffect) :
    Except Fault (TransactionContext Session × TransactionEffect) :=
  if transacP.callback then
    .ok ({ context with
        callbacks := { transacP, unlinked := false, clears } :: context.callbacks },
      { effect with called := some transacP.address })
  else if clears then .error .useAfterFree
  else .ok (context.remove transacP effect)

/-- The transaction that `transaction_new` makes with the next message id. The fields that it does
not set are the caller's. -/
def TransactionContext.newTransaction (context : TransactionContext Session)
    (transacP : Transaction Session) : Transaction Session :=
  { transacP with
    address := context.allocations
    mID := context.nextMID
    ackReceived := false
    retransCounter := 0
    retransTime := 0
    message := { transacP.message with mid := context.nextMID }
    buffer := none
    freed := false }

/-- The context behind `contextP->nextMID++` and `LWM2M_LIST_ADD`. -/
def TransactionContext.add (context : TransactionContext Session)
    (transacP : Transaction Session) : TransactionContext Session :=
  { context with
    nextMID := context.nextMID + 1
    transactionList := lwm2mListAdd Transaction.mID context.transactionList transacP
    allocations := context.allocations + 1 }

/-- The context with a transaction changed. -/
def TransactionContext.set (context : TransactionContext Session)
    (transacP : Transaction Session) : TransactionContext Session :=
  { context with transactionList := setTransaction transacP context.transactionList }

/-- A transaction is made, put into the list and sent. -/
def TransactionContext.start (context : TransactionContext Session)
    (transacP : Transaction Session) (serialized : Bool) (tvSec : Int) (byLwm2mSend : Bool) :
    Except Fault (TransactionContext Session × TransactionEffect) :=
  let transacP := context.newTransaction transacP
  let context := context.add transacP
  let effect := { TransactionEffect.none with
    started := some (transacP.address, transacP.callback) }
  match transactionSendOutcome serialized tvSec transacP with
  | .failed => if byLwm2mSend then .error .useAfterFree else .ok (context.remove transacP effect)
  | .sent transacP =>
    .ok (context.set transacP, { effect with sent := some transacP.address })
  | .expired sent =>
    context.finish transacP byLwm2mSend
      { effect with sent := if sent then some transacP.address else none }

/-- `transaction_step` at one transaction. -/
def TransactionContext.retry (context : TransactionContext Session) (address : Nat)
    (currentTime tvSec : Int) : Except Fault (TransactionContext Session × TransactionEffect) :=
  match context.transactionList.find? fun transacP => transacP.address == address with
  | none => .ok (context, .none)
  | some transacP =>
    if transacP.freed then .error .useAfterFree
    else if currentTime < transacP.retransTime then .ok (context, .none)
    else
      match transactionSendOutcome true tvSec transacP with
      | .failed => .ok (context.remove transacP .none)
      | .sent transacP =>
        .ok (context.set transacP,
          { TransactionEffect.none with sent := some transacP.address })
      | .expired sent =>
        context.finish transacP false
          { TransactionEffect.none with sent := if sent then some transacP.address else none }

/-- `transaction_handleResponse`. -/
def TransactionContext.response (context : TransactionContext Session)
    (sessionIsEqual : Session → Session → Bool) (tvSec : Int) (fromSessionH : Session)
    (message : CoapPacket) : Except Fault (TransactionContext Session × TransactionEffect) :=
  match responseOutcome sessionIsEqual tvSec fromSessionH message context.transactionList with
  | .error fault => .error fault
  | .ok .ignored => .ok (context, .none)
  | .ok (.waiting transacP) =>
    .ok (context.set transacP,
      { TransactionEffect.none with
        acknowledged := some (transacP.address, transacP.ackReceived) })
  | .ok (.finished transacP) =>
    (context.set transacP).finish transacP false
      { TransactionEffect.none with
        acknowledged := some (transacP.address, transacP.ackReceived) }

/-- The loop of `transaction_remove_client` over the transactions that were in the list. -/
def removeClientLoop (sessionIsEqual : Session → Session → Bool) (sessionH : Session) :
    List (Transaction Session) → TransactionContext Session × TransactionEffect →
      Except Fault (TransactionContext Session × TransactionEffect)
  | [], result => .ok result
  | transacP :: next, (context, effect) =>
    if transacP.freed then .error .useAfterFree
    else if sessionIsEqual transacP.peerH sessionH then
      removeClientLoop sessionIsEqual sessionH next (context.remove transacP effect)
    else removeClientLoop sessionIsEqual sessionH next (context, effect)

/-- One round of `prv_deleteTransactionList`. -/
def TransactionContext.close (context : TransactionContext Session) :
    Except Fault (TransactionContext Session × TransactionEffect) :=
  match context.transactionList with
  | [] => .ok (context, .none)
  | transacP :: next =>
    if transacP.freed then .error .useAfterFree
    else
      let context := { context with transactionList := next }
      if transacP.callback then
        .ok ({ context with
            callbacks := { transacP, unlinked := true, clears := false } :: context.callbacks },
          { TransactionEffect.none with called := some transacP.address })
      else .ok (context, { TransactionEffect.none with freed := [transacP.address] })

/-- The innermost callback returns. -/
def TransactionContext.returns (context : TransactionContext Session) :
    Except Fault (TransactionContext Session × TransactionEffect) :=
  match context.callbacks with
  | [] => .ok (context, .none)
  | frame :: callbacks =>
    let context := { context with callbacks }
    if frame.clears then .error .useAfterFree
    else if frame.unlinked then
      .ok (context, { TransactionEffect.none with freed := [frame.transacP.address] })
    else .ok (context.remove frame.transacP .none)

/-- One step. A callback starts transactions, but none of them calls into the loops that drive
them. -/
def transactionStep (sessionIsEqual : Session → Session → Bool)
    (context : TransactionContext Session) :
    TransactionCall Session → Except Fault (TransactionContext Session × TransactionEffect)
  | .message => .ok ({ context with nextMID := context.nextMID + 1 }, .none)
  | .start transacP serialized tvSec byLwm2mSend =>
    context.start transacP serialized tvSec byLwm2mSend
  | .returns => context.returns
  | .retry address currentTime tvSec =>
    if context.callbacks.isEmpty then context.retry address currentTime tvSec
    else .ok (context, .none)
  | .response tvSec fromSessionH message =>
    if context.callbacks.isEmpty then
      context.response sessionIsEqual tvSec fromSessionH message
    else .ok (context, .none)
  | .removeClient sessionH =>
    if context.callbacks.isEmpty then
      removeClientLoop sessionIsEqual sessionH context.transactionList (context, .none)
    else .ok (context, .none)
  | .close => if context.callbacks.isEmpty then context.close else .ok (context, .none)

/-- The context that `lwm2m_init` makes. -/
def startContext (nextMID : UInt16) : TransactionContext Session := ⟨nextMID, [], [], 0⟩

end Wakaama
