/-!
# CoAP packets (`coap/er-coap-13/er-coap-13.c`)

The fields of `coap_packet_t` that transactions and block transfers read and write. An option
and its bit in `options` are one optional field; codes are the bytes of the wire.
-/

namespace Wakaama

/-- `coap_message_type_t`. -/
inductive CoapMessageType where
  | con
  | non
  | ack
  | rst
  deriving DecidableEq, Repr

/-- `block1_num`, `block1_more` and `block1_size`, or those of Block2. -/
structure BlockOption where
  num : UInt32
  more : Bool
  size : UInt16
  deriving DecidableEq, Repr

/-- `coap_packet_t`. -/
structure CoapPacket where
  type : CoapMessageType
  code : UInt8
  mid : UInt16
  token : Option (List UInt8)
  observe : Option UInt32
  block1 : Option BlockOption
  block2 : Option BlockOption
  size : UInt32
  payload : List UInt8
  deriving DecidableEq, Repr

/-- `COAP_EMPTY_MESSAGE_CODE`. -/
def coapEmptyMessageCode : UInt8 := 0x00

/-- `COAP_GET`. -/
def coapGet : UInt8 := 0x01

/-- `COAP_DELETE`, the last of the request codes. -/
def coapDelete : UInt8 := 0x04

/-- `COAP_201_CREATED`. -/
def coapCreated : UInt8 := 0x41

/-- `COAP_204_CHANGED`. -/
def coapChanged : UInt8 := 0x44

/-- `COAP_205_CONTENT`. -/
def coapContent : UInt8 := 0x45

/-- `COAP_231_CONTINUE`. -/
def coapContinue : UInt8 := 0x5F

/-- `COAP_401_UNAUTHORIZED`. -/
def coapUnauthorized : UInt8 := 0x81

/-- `COAP_413_ENTITY_TOO_LARGE`. -/
def coapEntityTooLarge : UInt8 := 0x8D

/-- `coap_init_message`. -/
def coapInitMessage (type : CoapMessageType) (code : UInt8) (mid : UInt16) : CoapPacket where
  type := type
  code := code
  mid := mid
  token := none
  observe := none
  block1 := none
  block2 := none
  size := 0
  payload := []

/-- `COAP_TOKEN_LEN`. -/
def coapTokenLen : Nat := 8

/-- `coap_set_header_token`. -/
def coapSetHeaderToken (packet : CoapPacket) (token : List UInt8) : CoapPacket :=
  { packet with token := some (token.take coapTokenLen) }

/-- The bytes `coap_get_header_token` points to, none without the option. -/
def coapGetHeaderToken (packet : CoapPacket) : List UInt8 := packet.token.getD []

/-- The checks of `coap_set_header_block1` and `coap_set_header_block2`. -/
def blockOptionFits (num : UInt32) (size : UInt16) : Bool :=
  16 ≤ size && size ≤ 2048 && num ≤ 0x0FFFFF

/-- `coap_set_header_block1`; a number or size that does not fit leaves the packet as it is. -/
def coapSetHeaderBlock1 (packet : CoapPacket) (num : UInt32) (more : Bool) (size : UInt16) :
    CoapPacket :=
  if blockOptionFits num size then { packet with block1 := some { num, more, size } } else packet

/-- `coap_set_header_block2`. -/
def coapSetHeaderBlock2 (packet : CoapPacket) (num : UInt32) (more : Bool) (size : UInt16) :
    CoapPacket :=
  if blockOptionFits num size then { packet with block2 := some { num, more, size } } else packet

/-- What `coap_parse_message` makes of the value of a Block1 or Block2 option. -/
def coapParseBlock (value : UInt32) : BlockOption where
  num := value >>> 4
  more := value &&& 0x08 != 0
  size := 16 <<< (value &&& 0x07).toUInt16

/-- `block1_num`, zero without the option. -/
def CoapPacket.block1Num (packet : CoapPacket) : UInt32 := (packet.block1.map BlockOption.num).getD 0

/-- `block1_size`, zero without the option. -/
def CoapPacket.block1Size (packet : CoapPacket) : UInt16 :=
  (packet.block1.map BlockOption.size).getD 0

end Wakaama
