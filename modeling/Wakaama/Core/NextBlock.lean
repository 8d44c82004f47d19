import Wakaama.Coap.Message

/-!
# The requests of a block transfer (`core/packet.c`)

`prv_create_next_block_transaction` on the messages themselves: the request of a transaction is
parsed again from its buffer, and its options are copied one by one into the next request.
-/

namespace Wakaama

/-- A string that is copied to an array of the block that sets the option: the array is gone when
the message is sent. -/
def copiedToBlock (string : Option CoapString) : Option CoapString := string.map fun _ => .ended

/-- `coap_set_header_observe`. -/
def coapSetHeaderObserve (observe : UInt32) : UInt32 := 0x00FFFFFF &&& observe

/-- The message that `prv_create_next_block_transaction` makes of the one it has parsed. -/
def nextBlockMessage (message : CoapMessage) (nextMID : UInt16) : CoapMessage where
  type := .con
  code := message.code
  mid := nextMID
  token := message.token
  options :=
    { ifMatch := message.options.ifMatch
      uriHost := copiedToBlock message.options.uriHost
      etag := message.options.etag
      ifNoneMatch := message.options.ifNoneMatch
      observe := message.options.observe.map coapSetHeaderObserve
      uriPort := message.options.uriPort
      locationPath := message.options.locationPath
      uriPath := message.options.uriPath
      -- set from the message type, and again where the option is present
      contentType := some (message.options.contentType.getD message.type.bits.toUInt16)
      maxAge := none
      uriQuery := message.options.uriQuery
      accept := message.options.accept
      locationQuery := copiedToBlock message.options.locationQuery
      size := none
      proxyUri := copiedToBlock message.options.proxyUri }
  block1 := none
  block2 := none
  payload := []

/-- `prv_create_next_block_transaction`, from the bytes in the buffer of a transaction. -/
def createNextBlockMessage (buffer : List UInt8) (nextMID : UInt16) : Option CoapMessage :=
  match coapParseMessage buffer with
  | .error _ => none
  | .ok message => some (nextBlockMessage message nextMID)

/-- The buffer of a transaction; its length is a `uint16_t`, and a message that is longer is written
over the end of the memory it gets. -/
def transactionBuffer (message : CoapMessage) : Except Fault (List UInt8) :=
  match coapSerializeMessage message with
  | .error fault => .error fault
  | .ok buffer => if buffer.length < 2 ^ 16 then .ok buffer else .error .outOfBounds

/-- What the callers set in the next request: its message id, and the block option with the
payload. -/
structure NextRequest where
  mid : UInt16
  block1 : Option BlockOption
  block2 : Option BlockOption
  payload : List UInt8

/-- The message with what the callers set. -/
def NextRequest.set (block : NextRequest) (message : CoapMessage) : CoapMessage :=
  { message with
    mid := block.mid
    block1 := block.block1
    block2 := block.block2
    payload := block.payload }

/-- The requests of a transfer, each made from the buffer of the one before. -/
def blockTransfer (request : CoapMessage) : List NextRequest → Option (List CoapMessage)
  | [] => some []
  | block :: blocks =>
    match transactionBuffer request with
    | .error _ => none
    | .ok buffer =>
      match createNextBlockMessage buffer block.mid with
      | none => none
      | some next =>
        (blockTransfer (block.set next) blocks).map fun requests => block.set next :: requests

end Wakaama
