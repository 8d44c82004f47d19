import Wakaama.Coap.Packet
import Wakaama.Core.List
import Wakaama.Misc.Fault

/-!
# Transactions (`coap/transaction.c`)

`contextP->transactionList`: the requests that wait for an answer, in ascending order of their
message ids. A pointer to a node is modelled by the node with the nodes before and after it. A
node that is freed while it is still linked stays in the list, marked. What is sent, and what
a callback does when it is called, is not part of the list and is left to the caller.
-/

namespace Wakaama

variable {Session : Type}

/-- `COAP_RESPONSE_TIMEOUT`. -/
def coapResponseTimeout : Int := 2

/-- `COAP_SEPARATE_TIMEOUT`. -/
def coapSeparateTimeout : Int := 15

/-- `COAP_MAX_RETRANSMIT`. -/
def coapMaxRetransmit : UInt8 := 4

/-- `lwm2m_transaction_t` at its address. `buffer` is the message that `coap_serialize_message`
wrote there, as `coap_parse_message` reads it back. -/
structure Transaction (Session : Type) where
  address : Nat
  mID : UInt16
  peerH : Session
  ackReceived : Bool
  retransCounter : UInt8
  retransTime : Int
  message : CoapPacket
  buffer : Option CoapPacket
  payload : List UInt8
  callback : Bool
  userData : Nat
  freed : Bool
  deriving DecidableEq, Repr

/-- `prv_checkFinished`. -/
def prvCheckFinished (transacP : Transaction Session) (receivedMessage : CoapPacket) : Bool :=
  let transactionMessage := transacP.message
  if transactionMessage.mid = receivedMessage.mid ∧
      (coapDelete < transactionMessage.code ∨ transactionMessage.token = none) then
    transacP.ackReceived
  else
    match transactionMessage.token with
    | none => false
    | some token =>
      transactionMessage.code ≤ coapDelete && token == coapGetHeaderToken receivedMessage

/-- `transaction_new` with a token that is given; `address` is the memory it gets. -/
def transactionNew (address : Nat) (sessionH : Session) (method : UInt8) (mID : UInt16)
    (token : List UInt8) : Transaction Session where
  address := address
  mID := mID
  peerH := sessionH
  ackReceived := false
  retransCounter := 0
  retransTime := 0
  message :=
    if token = [] then coapInitMessage .con method mID
    else coapSetHeaderToken (coapInitMessage .con method mID) token
  buffer := none
  payload := []
  callback := false
  userData := 0
  freed := false

/-- `transaction_remove`: what is unlinked is the first transaction with the message id, what
is freed is the given one. -/
def transactionRemove (before : List (Transaction Session)) (transacP : Transaction Session)
    (after : List (Transaction Session)) : List (Transaction Session) :=
  (lwm2mListRemove Transaction.mID transacP.mID
    (before ++ { transacP with freed := true } :: after)).1

/-- What `transaction_handleResponse` returns, and the transaction whose callback it calls. -/
structure Handled (Session : Type) where
  result : Bool
  notified : Option (Transaction Session)
  deriving DecidableEq, Repr

/-- The transaction that has its callback called, if it has one. -/
def Transaction.notify (transacP : Transaction Session) : Option (Transaction Session) :=
  if transacP.callback then some transacP else none

/-- The retransmission time of a transaction that waits on after an acknowledgement. -/
def retransTimeAfter (tvSec : Int) (transacP : Transaction Session) (message : CoapPacket) : Int :=
  let retransTime := if 0 ≤ tvSec then tvSec else transacP.retransTime
  if message.code = coapEmptyMessageCode then retransTime + coapSeparateTimeout
  else retransTime + coapResponseTimeout * transacP.retransCounter.toNat

/-- The walk of `transaction_handleResponse` behind the transactions `before`. -/
def handleResponseFrom (sessionIsEqual : Session → Session → Bool) (tvSec : Int)
    (fromSessionH : Session) (message : CoapPacket) (before : List (Transaction Session)) :
    List (Transaction Session) → Except Fault (List (Transaction Session) × Handled Session)
  | [] => .ok (before, { result := false, notified := none })
  | transacP :: next =>
    if transacP.freed then .error .useAfterFree
    else if sessionIsEqual fromSessionH transacP.peerH then
      let found := !transacP.ackReceived && (message.type == .ack || message.type == .rst) &&
        transacP.mID == message.mid
      let reset := found && message.type == .rst
      let marked := { transacP with ackReceived := transacP.ackReceived || found }
      if reset || prvCheckFinished marked message then
        if !reset && message.code == coapUnauthorized &&
            marked.retransCounter < coapMaxRetransmit then
          .ok (before ++ { marked with
              ackReceived := false
              retransTime := marked.retransTime + coapResponseTimeout } :: next,
            { result := true, notified := none })
        else
          .ok (transactionRemove before marked next, { result := true, notified := marked.notify })
      else if found then
        .ok (before ++ { marked with retransTime := retransTimeAfter tvSec marked message } :: next,
          { result := true, notified := none })
      else handleResponseFrom sessionIsEqual tvSec fromSessionH message (before ++ [transacP]) next
    else handleResponseFrom sessionIsEqual tvSec fromSessionH message (before ++ [transacP]) next

/-- `transaction_handleResponse`; `tvSec` is what `lwm2m_gettime` returns. -/
def transactionHandleResponse (sessionIsEqual : Session → Session → Bool) (tvSec : Int)
    (fromSessionH : Session) (message : CoapPacket)
    (transactionList : List (Transaction Session)) :
    Except Fault (List (Transaction Session) × Handled Session) :=
  handleResponseFrom sessionIsEqual tvSec fromSessionH message [] transactionList

/-- `transaction_set_payload` on the message of a new transaction; `blockSize` is
`lwm2m_get_coap_block_size()`. -/
def transactionSetPayload (blockSize : UInt16) (transaction : Transaction Session)
    (buffer : List UInt8) : Transaction Session :=
  let message :=
    if blockSize.toNat < buffer.length then
      coapSetHeaderBlock1 transaction.message 0 true blockSize
    else transaction.message
  { transaction with
    payload := buffer
    message := { message with payload := buffer.take blockSize.toNat } }

/-- `transaction_send`: the transaction with the fields it then has, or `none` where it is
removed. `alloc` says whether the buffer can be allocated. -/
def transactionSend (alloc : Bool) (tvSec : Int) (transacP : Transaction Session) :
    Option (Transaction Session) :=
  match transacP.buffer, alloc with
  | none, false => none
  | _, _ =>
    let transacP := { transacP with buffer := some (transacP.buffer.getD transacP.message) }
    if transacP.ackReceived then none
    else if transacP.retransCounter = 0 then
      if 0 ≤ tvSec then
        some { transacP with retransTime := tvSec + coapResponseTimeout, retransCounter := 2 }
      else none
    else if transacP.retransCounter ≤ coapMaxRetransmit + 1 then
      some { transacP with
        retransTime := transacP.retransTime +
          coapResponseTimeout * 2 ^ (transacP.retransCounter.toNat - 1)
        retransCounter := transacP.retransCounter + 1 }
    else none

end Wakaama
