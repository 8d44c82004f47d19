import Wakaama.Coap.Block
import Wakaama.Coap.Transaction

/-!
# Incoming packets (`core/packet.c`)

`lwm2m_handle_packet` on responses, with the block transfers that answers to the own requests
continue. The lists of servers and bootstrap servers, or of clients, are one list of peers with
their `blockData`. What is sent besides transactions is left out, and so are the notifications
of `observe_handleNotify` and the cancellations of `handle_reset`, which touch none of it.
-/

namespace Wakaama

variable {Session : Type}

/-- What goes wrong, in the transactions or in the block data of a peer. -/
inductive PacketFault where
  | transaction (fault : Fault)
  | blockData (fault : Fault)
  deriving DecidableEq, Repr

/-- A peer as far as packets are concerned. -/
structure Peer (Session : Type) where
  sessionH : Session
  blockData : List BlockData

/-- The block sizes `validate_block_size` accepts. -/
def validBlockSizes : List UInt16 := [16, 32, 64, 128, 256, 512, 1024]

/-- `coap_block_size`, which `lwm2m_set_coap_block_size` sets to valid sizes only. -/
structure CoapBlockSize where
  size : UInt16
  valid : size ∈ validBlockSizes

/-- `lwm2m_context_t`. -/
structure PacketContext (Session : Type) where
  transactionList : List (Transaction Session)
  nextMID : UInt16
  peers : List (Peer Session)

/-- The platform while one packet is handled: the sessions, the configured block size and
message size, the time, and what the allocator does. `clone` is the memory of a new
transaction, `buffer` says whether its serialised message can be allocated. -/
structure PacketEnv (Session : Type) where
  sessionIsEqual : Session → Session → Bool
  blockSize : UInt16
  maxMessageSize : Nat
  tvSec : Int
  clone : Option Nat
  buffer : Bool
  blockAlloc : Alloc

/-- `prv_get_transaction`. -/
def prvGetTransaction (sessionIsEqual : Session → Session → Bool) (sessionH : Session)
    (mid : UInt16) : List (Transaction Session) → Except PacketFault (Option (Transaction Session))
  | [] => .ok none
  | transaction :: next =>
    if transaction.freed then .error (.transaction .useAfterFree)
    else if sessionIsEqual sessionH transaction.peerH && transaction.mID == mid then
      .ok (some transaction)
    else prvGetTransaction sessionIsEqual sessionH mid next

/-- `prv_create_next_block_transaction`; options other than Observe are not modelled. -/
def prvCreateNextBlockTransaction (env : PacketEnv Session) (transaction : Transaction Session)
    (nextMID : UInt16) : Option (Transaction Session) :=
  match transaction.buffer, env.clone with
  | some message, some address =>
    let clone := transactionNew address transaction.peerH message.code nextMID
      (coapGetHeaderToken message)
    some { clone with
      message := { clone.message with observe := message.observe }
      payload := transaction.payload
      callback := transaction.callback
      userData := transaction.userData }
  | _, _ => none

/-- `LWM2M_LIST_ADD` of a new transaction, then `transaction_send`, which removes it again by
its message id when it cannot be sent. -/
def prvAddAndSend (env : PacketEnv Session) (context : PacketContext Session)
    (next : Transaction Session) : PacketContext Session :=
  match transactionSend env.buffer env.tvSec next with
  | some sent =>
    { context with
      transactionList := lwm2mListAdd Transaction.mID context.transactionList sent }
  | none =>
    { context with
      transactionList := (lwm2mListRemove Transaction.mID next.mID
        (lwm2mListAdd Transaction.mID context.transactionList { next with freed := true })).1 }

/-- The Block1 header and the payload of the request for block `blockNum`. The offset in the
payload is computed in 32 bits. -/
def prvSetBlock1 (next : Transaction Session) (blockNum : UInt32) (blockSize : UInt16) :
    Transaction Session :=
  let remainingPayloadLength := next.payload.length - blockNum.toNat * blockSize.toNat
  let newBlockStart := (blockNum * blockSize.toUInt32).toNat
  let message := coapSetHeaderBlock1 next.message blockNum
    (blockSize.toNat < remainingPayloadLength) blockSize
  { next with
    message := { message with
      payload := (next.payload.drop newBlockStart).take
        (min blockSize.toNat remainingPayloadLength) } }

/-- `prv_send_new_block1`; `previous` may be NULL. -/
def prvSendNewBlock1 (env : PacketEnv Session) (context : PacketContext Session)
    (previous : Option (Transaction Session)) (blockNum : UInt32) (blockSize : UInt16) :
    Except PacketFault (PacketContext Session) :=
  match previous with
  | none => .error (.transaction .nullDeref)
  | some previous =>
    if previous.payload.length ≤ blockNum.toNat * blockSize.toNat then .ok context
    else
      let nextMID := context.nextMID
      let context := { context with nextMID := nextMID + 1 }
      match prvCreateNextBlockTransaction env previous nextMID with
      | none => .ok context
      | some next => .ok (prvAddAndSend env context (prvSetBlock1 next blockNum blockSize))

/-- The block number and size that follow a request, for a block size the peer asks for. -/
def prvNextBlock1 (message : CoapPacket) (blockSize : UInt16) :
    Except PacketFault (UInt32 × UInt16) :=
  let blockSize :=
    if message.block1Size < blockSize ∨ blockSize = 0 then message.block1Size else blockSize
  if message.block1Num = 0 then
    if blockSize = 0 then .error (.transaction .divByZero)
    else .ok ((message.block1Size / blockSize).toUInt32, blockSize)
  else .ok (message.block1Num + 1, blockSize)

/-- `prv_send_next_block1`. -/
def prvSendNextBlock1 (env : PacketEnv Session) (context : PacketContext Session)
    (sessionH : Session) (mid : UInt16) (blockSize : UInt16) :
    Except PacketFault (PacketContext Session) :=
  match prvGetTransaction env.sessionIsEqual sessionH mid context.transactionList with
  | .error fault => .error fault
  | .ok none => .ok context
  | .ok (some transaction) =>
    match prvNextBlock1 transaction.message blockSize with
    | .error fault => .error fault
    | .ok (blockNum, blockSize) =>
      prvSendNewBlock1 env context (some transaction) blockNum blockSize

/-- The loop of `prv_change_to_block1` from `16 << n` on. -/
def largestBlockSize (size : UInt16) : Nat → Nat → UInt16 → UInt16
  | 0, _, blockSize => blockSize
  | fuel + 1, n, blockSize =>
    if 16 <<< n ≤ size.toNat then largestBlockSize size fuel (n + 1) (16 <<< n).toUInt16
    else blockSize

/-- `prv_change_to_block1`; what `prv_get_transaction` returns is used unchecked. -/
def prvChangeToBlock1 (env : PacketEnv Session) (context : PacketContext Session)
    (sessionH : Session) (mid : UInt16) (size : UInt32) :
    Except PacketFault (PacketContext Session) :=
  match prvGetTransaction env.sessionIsEqual sessionH mid context.transactionList with
  | .error fault => .error fault
  | .ok transaction =>
    -- `16 << 12` is past every 16-bit size
    let blockSize := largestBlockSize size.toUInt16 12 1 16
    prvSendNewBlock1 env context transaction 0 (min blockSize env.blockSize)

/-- `prv_retry_block1`. -/
def prvRetryBlock1 (env : PacketEnv Session) (context : PacketContext Session)
    (sessionH : Session) (mid : UInt16) (blockSize : UInt16) :
    Except PacketFault (PacketContext Session) :=
  match prvGetTransaction env.sessionIsEqual sessionH mid context.transactionList with
  | .error fault => .error fault
  | .ok none => .ok context
  | .ok (some transaction) =>
    let message := transaction.message
    if message.block1 = none then prvSendNewBlock1 env context (some transaction) 0 blockSize
    else
      let blockSize :=
        if blockSize = message.block1Size ∧ 16 < blockSize then blockSize / 2 else blockSize
      if message.block1Size ≤ blockSize ∨ blockSize = 0 then .ok context
      else prvSendNewBlock1 env context (some transaction) message.block1Num blockSize

/-- The first peer with an equal session: `utils_findServer` and its siblings. -/
def findPeer (sessionIsEqual : Session → Session → Bool) (fromSessionH : Session)
    (peers : List (Peer Session)) : Option (Peer Session) :=
  peers.find? fun peer => sessionIsEqual peer.sessionH fromSessionH

/-- The peers with the block data of the one that is found replaced. -/
def putBlockData (sessionIsEqual : Session → Session → Bool) (fromSessionH : Session)
    (blockData : List BlockData) : List (Peer Session) → List (Peer Session)
  | [] => []
  | peer :: next =>
    if sessionIsEqual peer.sessionH fromSessionH then { peer with blockData } :: next
    else peer :: putBlockData sessionIsEqual fromSessionH blockData next

/-- `prv_send_get_block2`, with the block data of the peer. -/
def prvSendGetBlock2 (env : PacketEnv Session) (context : PacketContext Session)
    (sessionH : Session) (blockDataHead : List BlockData) (currentMID : UInt16)
    (block2Num : UInt32) (block2Size : UInt16) : Except PacketFault (PacketContext Session) :=
  match prvGetTransaction env.sessionIsEqual sessionH currentMID context.transactionList with
  | .error fault => .error fault
  | .ok none => .ok context
  | .ok (some transaction) =>
    if block2Num = 0 ∧ transaction.message.block2 ≠ none then .ok context
    else
      let nextMID := context.nextMID
      let context := { context with nextMID := nextMID + 1 }
      match prvCreateNextBlockTransaction env transaction nextMID with
      | none => .ok context
      | some next =>
        let next := { next with
          message := coapSetHeaderBlock2 next.message block2Num false
            (min block2Size env.blockSize) }
        match coapBlock2SetExpectedMid currentMID nextMID blockDataHead with
        | .error fault => .error (.blockData fault)
        | .ok blockData =>
          .ok (prvAddAndSend env
            { context with
              peers := putBlockData env.sessionIsEqual sessionH blockData context.peers } next)

/-- `transaction_handleResponse` on the list of the context. -/
def contextHandleResponse (env : PacketEnv Session) (context : PacketContext Session)
    (fromSessionH : Session) (message : CoapPacket) :
    Except PacketFault (PacketContext Session × Handled Session) :=
  match transactionHandleResponse env.sessionIsEqual env.tvSec fromSessionH message
      context.transactionList with
  | .error fault => .error (.transaction fault)
  | .ok (transactionList, handled) => .ok ({ context with transactionList }, handled)

/-- A step of the packet handler that is followed by `transaction_handleResponse`. -/
def thenHandleResponse (env : PacketEnv Session) (fromSessionH : Session) (message : CoapPacket)
    (sent : Except PacketFault (PacketContext Session)) :
    Except PacketFault (PacketContext Session) :=
  match sent with
  | .error fault => .error fault
  | .ok context =>
    match contextHandleResponse env context fromSessionH message with
    | .error fault => .error fault
    | .ok (context, _) => .ok context

/-- The request for a block of an answer that is too large for one message. -/
def retryAsBlock2 (env : PacketEnv Session) (context : PacketContext Session)
    (fromSessionH : Session) (message : CoapPacket) : Except PacketFault (PacketContext Session) :=
  match findPeer env.sessionIsEqual fromSessionH context.peers with
  | none => .ok context
  | some peerP =>
    prvSendGetBlock2 env context fromSessionH peerP.blockData message.mid 0 env.blockSize

/-- `lwm2m_handle_packet` on an ACK with a Block1 option. -/
def handleBlock1Ack (env : PacketEnv Session) (context : PacketContext Session)
    (fromSessionH : Session) (message : CoapPacket) (block1 : BlockOption) :
    Except PacketFault (PacketContext Session) :=
  thenHandleResponse env fromSessionH message
    (if message.code = coapCreated ∨ message.code = coapChanged ∨ message.code = coapContinue then
      prvSendNextBlock1 env context fromSessionH message.mid block1.size
    else if message.code = coapEntityTooLarge ∧ block1.num = 0 then
      prvRetryBlock1 env context fromSessionH message.mid block1.size
    else .ok context)

/-- `lwm2m_handle_packet` on an ACK with a Block2 option. -/
def handleBlock2Ack (env : PacketEnv Session) (context : PacketContext Session)
    (fromSessionH : Session) (message : CoapPacket) (block2 : BlockOption) :
    Except PacketFault (PacketContext Session) :=
  match findPeer env.sessionIsEqual fromSessionH context.peers with
  | none => .ok context
  | some peerP =>
    let block : Block :=
      { buffer := message.payload
        blockSize := block2.size.toNat
        blockNum := block2.num.toNat
        blockMore := block2.more }
    match coapBlock2Handler env.maxMessageSize env.blockAlloc message.mid block
        peerP.blockData with
    | .error fault => .error (.blockData fault)
    | .ok (blockData, reply) =>
      let context := { context with
        peers := putBlockData env.sessionIsEqual fromSessionH blockData context.peers }
      if reply.code = .noError then
        match thenHandleResponse env fromSessionH message (.ok context) with
        | .error fault => .error fault
        | .ok context =>
          match block2Delete message.mid blockData with
          | .error fault => .error (.blockData fault)
          | .ok blockData =>
            .ok { context with
              peers := putBlockData env.sessionIsEqual fromSessionH blockData context.peers }
      else if reply.code = .continue231 then
        thenHandleResponse env fromSessionH message
          (prvSendGetBlock2 env context fromSessionH blockData message.mid (block2.num + 1)
            block2.size)
      else .ok context

/-- `lwm2m_handle_packet` on a parsed message that is not a request. -/
def handleResponse (env : PacketEnv Session) (context : PacketContext Session)
    (fromSessionH : Session) (message : CoapPacket) : Except PacketFault (PacketContext Session) :=
  let tooLarge := env.blockSize.toNat < message.payload.length
  match message.type with
  | .non | .con =>
    if tooLarge then
      thenHandleResponse env fromSessionH message (retryAsBlock2 env context fromSessionH message)
    else thenHandleResponse env fromSessionH message (.ok context)
  | .rst => thenHandleResponse env fromSessionH message (.ok context)
  | .ack =>
    if tooLarge then
      thenHandleResponse env fromSessionH message (retryAsBlock2 env context fromSessionH message)
    else
      match message.block1, message.block2 with
      | some block1, _ => handleBlock1Ack env context fromSessionH message block1
      | none, some block2 => handleBlock2Ack env context fromSessionH message block2
      | none, none =>
        if message.code = coapEntityTooLarge then
          thenHandleResponse env fromSessionH message
            (prvChangeToBlock1 env context fromSessionH message.mid message.size)
        else thenHandleResponse env fromSessionH message (.ok context)

/-- `lwm2m_handle_packet` on what `coap_parse_message` makes of a packet, `none` where it is
refused. `handleRequest` stands for the handling of a request. -/
def lwm2mHandlePacket (env : PacketEnv Session)
    (handleRequest : PacketContext Session → CoapPacket → PacketContext Session)
    (context : PacketContext Session) (fromSessionH : Session) (message : Option CoapPacket) :
    Except PacketFault (PacketContext Session) :=
  match message with
  | none => .ok context
  | some message =>
    if coapGet ≤ message.code ∧ message.code ≤ coapDelete then .ok (handleRequest context message)
    else handleResponse env context fromSessionH message

end Wakaama
