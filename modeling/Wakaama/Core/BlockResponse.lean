import Wakaama.Core.Packet

/-!
# Block2 responses (`core/packet.c`)

The part of `lwm2m_handle_packet` that cuts a response to the block a request asks for, or to the
first one where the response is too large.
-/

namespace Wakaama

/-- `COAP_402_BAD_OPTION`. -/
def coapBadOption : UInt8 := 0x82

/-- `block2_offset`, as `coap_parse_message` computes it from the value of the option. -/
def coapParseBlockOffset (value : UInt32) : UInt32 :=
  (value &&& ~~~0x0F) <<< (value &&& 0x07)

/-- The payload of `COAP_402_BAD_OPTION`. -/
def blockOutOfScope : List UInt8 := "BlockOutOfScope".toUTF8.toList

/-- What `lwm2m_handle_packet` makes of the response of a handled request, by the value of the
Block2 option of the request. -/
def respondBlockwise (coapBlockSize : CoapBlockSize) (block2 : Option UInt32)
    (response : CoapPacket) : CoapPacket :=
  let payloadLen := response.payload.length
  match block2 with
  | some value =>
    let blockOffset := (coapParseBlockOffset value).toNat
    let blockSize := min (coapParseBlock value).size coapBlockSize.size
    if payloadLen ≤ blockOffset then
      { response with code := coapBadOption, payload := blockOutOfScope }
    else
      { coapSetHeaderBlock2 response (coapParseBlock value).num
          (blockSize.toNat < payloadLen - blockOffset) blockSize with
        payload := (response.payload.drop blockOffset).take
          (min (payloadLen - blockOffset) blockSize.toNat) }
  | none =>
    if coapBlockSize.size.toNat < payloadLen then
      { coapSetHeaderBlock2 response 0 (coapBlockSize.size.toNat < payloadLen)
          coapBlockSize.size with
        payload := response.payload.take coapBlockSize.size.toNat }
    else response

/-- A 2.05 response of a handler: none of them sets the Block2 option. -/
def contentResponse (response : CoapPacket) (payload : List UInt8) : CoapPacket :=
  { response with code := coapContent, block2 := none, payload := payload }

/-- The value of the Block2 option in a request for a block: its number and its size exponent. -/
def block2Request (num : Nat) (szx : Fin 8) : UInt32 := UInt32.ofNat (num * 16 + szx.val)

/-- The numbers that fit a Block2 option. -/
def blockNumbers : Nat := 2 ^ 20

/-- A client that asks for the blocks in turn with one size exponent. It takes a block that starts,
by the number and the size the response tells, where the bytes received so far end, and is done with
the one behind which there are no more. -/
def receiveBlocks (coapBlockSize : CoapBlockSize) (szx : Fin 8) (response : CoapPacket) :
    Nat → Nat → List UInt8 → Option (List UInt8)
  | 0, _, _ => none
  | left + 1, num, received =>
    let sent := respondBlockwise coapBlockSize (some (block2Request num szx)) response
    match sent.block2 with
    | none => none
    | some block =>
      if block.num.toNat * block.size.toNat ≠ received.length then none
      else if block.more then
        receiveBlocks coapBlockSize szx response left (num + 1) (received ++ sent.payload)
      else some (received ++ sent.payload)

end Wakaama
