import Wakaama.Coap.Packet
import Wakaama.Misc.Fault

/-!
# CoAP messages (`coap/er-coap-13/er-coap-13.c`)

`coap_packet_t` with all its options, `coap_serialize_message` and `coap_parse_message`. An option
and its bit in `options` are one optional field; an option that may be repeated is set where its
list is not empty. The memory that the segments of a path are kept in is always granted.
-/

namespace Wakaama

/-- An array of at most `size` bytes. -/
abbrev Bytes (size : Nat) : Type := { bytes : List UInt8 // bytes.length ≤ size }

/-- The first `size` bytes. -/
def Bytes.cut (size : Nat) (bytes : List UInt8) : Bytes size :=
  ⟨bytes.take size, by rw [List.length_take]; omega⟩

/-- `COAP_ETAG_LEN`. -/
def coapEtagLen : Nat := 8

/-- `COAP_MAX_ACCEPT_NUM`. -/
def coapMaxAcceptNum : Nat := 2

/-- One `multi_option_t`; its length is a `uint8_t`. -/
abbrev Segment : Type := Bytes 255

/-- What `coap_add_multi_option` keeps of an option. -/
def Segment.ofOption (option : List UInt8) : Segment :=
  ⟨option.take option.length.toUInt8.toNat, by
    have := option.length.toUInt8.toNat_lt
    rw [List.length_take]
    omega⟩

/-- A string that a packet points to; the block that it was an array of may have ended. -/
inductive CoapString where
  | text (bytes : List UInt8)
  | ended
  deriving DecidableEq, Repr

/-- The bytes of a string that is still there. -/
def CoapString.read : CoapString → Except Fault (List UInt8)
  | .text bytes => .ok bytes
  | .ended => .error .useAfterFree

/-- The options of `coap_packet_t` besides those of block transfers. -/
structure CoapOptions where
  ifMatch : Option (Bytes coapEtagLen)
  uriHost : Option CoapString
  etag : Option (Bytes coapEtagLen)
  ifNoneMatch : Bool
  observe : Option UInt32
  uriPort : Option UInt16
  locationPath : List Segment
  uriPath : List Segment
  contentType : Option UInt16
  maxAge : Option UInt32
  uriQuery : List Segment
  accept : { types : List UInt16 // types.length ≤ coapMaxAcceptNum }
  locationQuery : Option CoapString
  size : Option UInt32
  proxyUri : Option CoapString
  deriving DecidableEq, Repr

/-- No option is set. -/
def CoapOptions.none : CoapOptions where
  ifMatch := Option.none
  uriHost := Option.none
  etag := Option.none
  ifNoneMatch := false
  observe := Option.none
  uriPort := Option.none
  locationPath := []
  uriPath := []
  contentType := Option.none
  maxAge := Option.none
  uriQuery := []
  accept := ⟨[], Nat.zero_le _⟩
  locationQuery := Option.none
  size := Option.none
  proxyUri := Option.none

/-- `coap_packet_t`. -/
structure CoapMessage where
  type : CoapMessageType
  code : UInt8
  mid : UInt16
  token : Bytes coapTokenLen
  options : CoapOptions
  block1 : Option BlockOption
  block2 : Option BlockOption
  payload : List UInt8
  deriving DecidableEq, Repr

/-- The fields of a message that transactions and block transfers read. -/
def CoapMessage.packet (message : CoapMessage) : CoapPacket where
  type := message.type
  code := message.code
  mid := message.mid
  token := if message.token.val = [] then Option.none else some message.token.val
  observe := message.options.observe
  block1 := message.block1
  block2 := message.block2
  size := message.options.size.getD 0
  payload := message.payload

/-- An option as it is written: its number and its value. -/
structure CodedOption where
  number : UInt32
  value : List UInt8
  deriving DecidableEq, Repr

/-- `coap_option_nibble`. -/
def coapOptionNibble (value : UInt32) : UInt8 :=
  if value < 13 then value.toUInt8
  else if value ≤ 0xFF + 13 then 13
  else 14

/-- `coap_set_option_header_extended`. -/
def coapSetOptionHeaderExtended (value : UInt32) : List UInt8 :=
  if 269 ≤ value then [((value - 269) >>> 8).toUInt8, (value - 269).toUInt8]
  else if 13 ≤ value then [(value - 269).toUInt8]
  else []

/-- `coap_set_option_header`. -/
def coapSetOptionHeader (delta length : UInt32) : List UInt8 :=
  (coapOptionNibble delta <<< 4 ||| coapOptionNibble length) ::
    (coapSetOptionHeaderExtended delta ++ coapSetOptionHeaderExtended length)

/-- The value that `coap_serialize_int_option` writes. -/
def coapIntBytes (value : UInt32) : List UInt8 :=
  (if value &&& 0xFF000000 ≠ 0 then [(value >>> 24).toUInt8] else []) ++
  (if value &&& 0xFFFF0000 ≠ 0 then [(value >>> 16).toUInt8] else []) ++
  (if value &&& 0xFFFFFF00 ≠ 0 then [(value >>> 8).toUInt8] else []) ++
  (if value &&& 0xFFFFFFFF ≠ 0 then [value.toUInt8] else [])

/-- The parts `coap_serialize_array_option` cuts an array into behind `part`. The byte behind a
splitter is not looked at. -/
def coapSplitArray (splitChar : UInt8) (part : List UInt8) : List UInt8 → List (List UInt8)
  | [] => [part]
  | byte :: rest =>
    if byte = splitChar then
      match rest with
      | [] => [part]
      | next :: rest => part :: coapSplitArray splitChar [next] rest
    else coapSplitArray splitChar (part ++ [byte]) rest

/-- `uint32_t block` of `COAP_SERIALIZE_BLOCK_OPTION`. -/
def coapBlockValue (block : BlockOption) : UInt32 :=
  block.num <<< 4 ||| (if block.more then 8 else 0) |||
    ((0x0F : UInt32) &&& (Nat.log2 (block.size.toNat / 16)).toUInt32)

/-- `COAP_SERIALIZE_BYTE_OPTION`, and `COAP_SERIALIZE_STRING_OPTION` without a splitter. -/
def byteOption (number : UInt32) (field : Option (List UInt8)) : List CodedOption :=
  field.toList.map fun value => { number, value }

/-- `COAP_SERIALIZE_INT_OPTION`. -/
def intOption (number : UInt32) (field : Option UInt32) : List CodedOption :=
  byteOption number (field.map coapIntBytes)

/-- `COAP_SERIALIZE_MULTI_OPTION`. -/
def multiOption (number : UInt32) (field : List Segment) : List CodedOption :=
  field.map fun segment => { number, value := segment.val }

/-- `COAP_SERIALIZE_ACCEPT_OPTION`. -/
def acceptOption (number : UInt32) (field : List UInt16) : List CodedOption :=
  field.map fun type => { number, value := coapIntBytes type.toUInt32 }

/-- `COAP_SERIALIZE_BLOCK_OPTION`. -/
def blockOption (number : UInt32) (field : Option BlockOption) : List CodedOption :=
  intOption number (field.map coapBlockValue)

/-- The options of a message in the order of their numbers, with its three strings as they are
read. -/
def codedOptions (message : CoapMessage) (uriHost locationQuery proxyUri : Option (List UInt8)) :
    List CodedOption :=
  let options := message.options
  byteOption 1 (options.ifMatch.map Subtype.val) ++
  byteOption 3 uriHost ++
  byteOption 4 (options.etag.map Subtype.val) ++
  intOption 5 (if options.ifNoneMatch then some 0 else none) ++
  intOption 6 options.observe ++
  intOption 7 (options.uriPort.map UInt16.toUInt32) ++
  multiOption 8 options.locationPath ++
  multiOption 11 options.uriPath ++
  intOption 12 (options.contentType.map UInt16.toUInt32) ++
  intOption 14 options.maxAge ++
  multiOption 15 options.uriQuery ++
  acceptOption 17 options.accept.val ++
  (locationQuery.toList.flatMap (coapSplitArray 0x26 [])).map (CodedOption.mk 20) ++
  blockOption 23 message.block2 ++
  blockOption 27 message.block1 ++
  intOption 28 options.size ++
  byteOption 35 proxyUri

/-- The options one behind the other; `currentNumber` is the number of the one before. -/
def serializeOptions (currentNumber : UInt32) : List CodedOption → List UInt8
  | [] => []
  | option :: rest =>
    coapSetOptionHeader (option.number - currentNumber) option.value.length.toUInt32 ++
      option.value ++ serializeOptions option.number rest

/-- The two bits of a message type. -/
def CoapMessageType.bits : CoapMessageType → UInt8
  | .con => 0
  | .non => 1
  | .ack => 2
  | .rst => 3

/-- The first byte of a message: the version 1, the type and the length of the token. -/
def coapFirstByte (type : CoapMessageType) (tokenLen : UInt8) : UInt8 :=
  ((0xC0 : UInt8) &&& 1 <<< (6 : UInt8)) ||| ((0x30 : UInt8) &&& type.bits <<< (4 : UInt8)) |||
    ((0x0F : UInt8) &&& tokenLen)

/-- `coap_serialize_message`. -/
def coapSerializeMessage (message : CoapMessage) : Except Fault (List UInt8) := do
  let uriHost ← message.options.uriHost.mapM CoapString.read
  let locationQuery ← message.options.locationQuery.mapM CoapString.read
  let proxyUri ← message.options.proxyUri.mapM CoapString.read
  let header := [coapFirstByte message.type message.token.val.length.toUInt8, message.code,
    (message.mid >>> 8).toUInt8, message.mid.toUInt8]
  return header ++ message.token.val ++
    serializeOptions 0 (codedOptions message uriHost locationQuery proxyUri) ++
    (if message.payload = [] then [] else 0xFF :: message.payload)

/-- `COAP_HEADER_LEN`. -/
def coapHeaderLen : Nat := 4

/-- `COAP_MAX_OPTION_HEADER_LEN`. -/
def coapMaxOptionHeaderLen : Nat := 5

/-- What an option adds to the size, `length` being the bytes counted for its value. -/
def optionSize : Option Nat → Nat
  | none => 0
  | some length => coapMaxOptionHeaderLen + length

/-- What the options of a path or a query add to the size. -/
def multiOptionSize (field : List Segment) : Nat :=
  field.foldr (fun segment length => coapMaxOptionHeaderLen + segment.val.length + length) 0

/-- `coap_serialize_get_size`; the lengths of the three strings are fields of their own. -/
def coapSerializeGetSize (message : CoapMessage)
    (uriHostLen locationQueryLen proxyUriLen : Option Nat) : Nat :=
  let options := message.options
  coapHeaderLen + message.payload.length + message.token.val.length +
  optionSize (options.ifMatch.map fun value => value.val.length) +
  optionSize uriHostLen +
  optionSize (options.etag.map fun value => value.val.length) +
  optionSize (if options.ifNoneMatch then some 0 else none) +
  optionSize (options.observe.map fun _ => 0) +
  optionSize (options.uriPort.map fun _ => 0) +
  multiOptionSize options.locationPath +
  multiOptionSize options.uriPath +
  optionSize (options.contentType.map fun _ => 0) +
  optionSize (options.maxAge.map fun _ => 0) +
  multiOptionSize options.uriQuery +
  options.accept.val.length * coapMaxOptionHeaderLen +
  optionSize locationQueryLen +
  optionSize (message.block2.map fun _ => 0) +
  optionSize (message.block1.map fun _ => 0) +
  optionSize (options.size.map fun _ => 0) +
  optionSize proxyUriLen +
  (if message.payload.length ≠ 0 then 1 else 0)

/-- `BAD_REQUEST_4_00`. -/
def badRequest400 : UInt8 := 128

/-- `BAD_OPTION_4_02`. -/
def badOption402 : UInt8 := 130

/-- `PROXYING_NOT_SUPPORTED_5_05`. -/
def proxyingNotSupported505 : UInt8 := 165

/-- `coap_parse_int_option`. -/
def coapParseIntOption (bytes : List UInt8) : UInt32 :=
  bytes.foldl (fun var byte => var <<< 8 ||| byte.toUInt32) 0

/-- The value that a nibble and the bytes behind it stand for, and what is left. -/
def coapParseExtended (x : UInt32) (data : List UInt8) : Option (UInt32 × List UInt8) :=
  if x = 13 then
    match data with
    | byte :: rest => some (x + byte.toUInt32, rest)
    | [] => none
  else if x = 14 then
    match data with
    | high :: low :: rest => some (x + 255 + (high.toUInt32 <<< (8 : UInt32)) + low.toUInt32, rest)
    | _ => none
  else some (x, data)

/-- `coap_merge_multi_option`. -/
def coapMergeMultiOption (dst : List UInt8) (option : List UInt8) (separator : UInt8) :
    List UInt8 :=
  if dst ≠ [] then dst ++ separator :: option else option

/-- The bytes of a string field, none where it is not set. -/
def CoapString.bytes : Option CoapString → List UInt8
  | some (.text bytes) => bytes
  | _ => []

/-- The `switch` of `coap_parse_message` on the number of an option. -/
def coapParseOption (message : CoapMessage) (number : UInt32) (value : List UInt8) :
    Except UInt8 CoapMessage :=
  let options := message.options
  match number with
  | 1 => .ok { message with options := { options with ifMatch := some (Bytes.cut _ value) } }
  | 3 => .ok { message with options := { options with uriHost := some (.text value) } }
  | 4 => .ok { message with options := { options with etag := some (Bytes.cut _ value) } }
  | 5 => .ok { message with options := { options with ifNoneMatch := true } }
  | 6 => .ok { message with options := { options with observe := some (coapParseIntOption value) } }
  | 7 => .ok { message with
      options := { options with uriPort := some (coapParseIntOption value).toUInt16 } }
  | 8 => .ok { message with
      options := { options with
        locationPath := options.locationPath ++ [Segment.ofOption value] } }
  | 11 => .ok { message with
      options := { options with uriPath := options.uriPath ++ [Segment.ofOption value] } }
  | 12 =>
    if 2 < value.length then .error badRequest400
    else .ok { message with
      options := { options with contentType := some (coapParseIntOption value).toUInt16 } }
  | 14 => .ok { message with options := { options with maxAge := some (coapParseIntOption value) } }
  | 15 => .ok { message with
      options := { options with uriQuery := options.uriQuery ++ [Segment.ofOption value] } }
  | 17 =>
    if h : options.accept.val.length < coapMaxAcceptNum then
      .ok { message with
        options := { options with
          accept := ⟨options.accept.val ++ [(coapParseIntOption value).toUInt16], by
            rw [List.length_append]
            exact h⟩ } }
    else .ok message
  | 20 => .ok { message with
      options := { options with
        locationQuery := some (.text
          (coapMergeMultiOption (CoapString.bytes options.locationQuery) value 0x26)) } }
  | 23 => .ok { message with block2 := some (coapParseBlock (coapParseIntOption value)) }
  | 27 => .ok { message with block1 := some (coapParseBlock (coapParseIntOption value)) }
  | 28 => .ok { message with options := { options with size := some (coapParseIntOption value) } }
  | 35 => .error proxyingNotSupported505
  | _ => if number &&& 1 ≠ 0 then .error badOption402 else .ok message

/-- The loop of `coap_parse_message` behind the options of a message. Every turn takes a byte, so
the number of bytes is a bound on the turns. -/
def coapParseOptions : Nat → UInt32 → CoapMessage → List UInt8 → Except UInt8 CoapMessage
  | 0, _, message, _ => .ok message
  | _ + 1, _, message, [] => .ok message
  | turns + 1, optionNumber, message, current :: data =>
    if current = 0xFF then
      if data = [] then .error badRequest400 else .ok { message with payload := data }
    else
      let optionDelta := (current >>> 4).toUInt32
      let optionLength := (current &&& 0x0F).toUInt32
      if optionDelta = 0x0F ∨ optionLength = 0x0F then .error badRequest400
      else
        match coapParseExtended optionDelta data with
        | none => .error badRequest400
        | some (optionDelta, data) =>
          match coapParseExtended optionLength data with
          | none => .error badRequest400
          | some (optionLength, data) =>
            if data.length < optionLength.toNat then .error badRequest400
            else
              match coapParseOption message (optionNumber + optionDelta)
                  (data.take optionLength.toNat) with
              | .error status => .error status
              | .ok message =>
                coapParseOptions turns (optionNumber + optionDelta) message
                  (data.drop optionLength.toNat)

/-- The message type that two bits stand for. -/
def CoapMessageType.ofBits (bits : UInt8) : CoapMessageType :=
  if bits = 0 then .con
  else if bits = 1 then .non
  else if bits = 2 then .ack
  else .rst

/-- `coap_parse_message`. -/
def coapParseMessage (data : List UInt8) : Except UInt8 CoapMessage :=
  match data with
  | first :: code :: high :: low :: rest =>
    let version := (0xC0 &&& first) >>> 6
    let tokenLen := 0x0F &&& first
    if version ≠ 1 then .error badRequest400
    else if code = coapEmptyMessageCode ∧ rest ≠ [] then .error badRequest400
    else if coapTokenLen < tokenLen.toNat then .error badRequest400
    else if rest.length < tokenLen.toNat then .error badRequest400
    else
      coapParseOptions (rest.length - tokenLen.toNat) 0
        { type := .ofBits ((0x30 &&& first) >>> 4)
          code
          mid := high.toUInt16 <<< 8 ||| low.toUInt16
          token := Bytes.cut _ (rest.take tokenLen.toNat)
          options := .none
          block1 := none
          block2 := none
          payload := [] }
        (rest.drop tokenLen.toNat)
  | _ => .error badRequest400

end Wakaama
