import Wakaama.Data.Decode

/-!
# CBOR (`data/cbor.c`)

A writer is given the length of the buffer it writes to and returns the bytes that it has put at
its start; a write that leaves the buffer is a fault. A reader is given the rest of a buffer and
returns how much of it it has used; a read that leaves the buffer is a fault.
-/

namespace Wakaama

/-- `cbor_type_t`. -/
inductive CborType where
  | unknown
  | unsignedInteger
  | negativeInteger
  | float
  | semanticTag
  | simpleValue
  | break
  | byteString
  | textString
  | array
  | map
  deriving DecidableEq, Repr

def cborUnsignedInteger : UInt8 := 0
def cborNegativeInteger : UInt8 := 1
def cborByteString : UInt8 := 2
def cborTextString : UInt8 := 3
def cborArray : UInt8 := 4
def cborMap : UInt8 := 5
def cborSemanticTag : UInt8 := 6
def cborFloatingOrSimple : UInt8 := 7

def cborAiOneByteValue : UInt8 := 24
def cborAiTwoByteValue : UInt8 := 25
def cborAiFourByteValue : UInt8 := 26
def cborAiEightByteValue : UInt8 := 27
def cborAiIndefiniteOrBreak : UInt8 := 31

def cborSimpleFalse : UInt64 := 20
def cborSimpleTrue : UInt64 := 21

/-- `(int)n` of a `size_t`. -/
def intOfSize (n : Nat) : Int := (n : Int).bmod (2 ^ 32)

/-- The bytes that `utils_copyValue` stores for the low `n` bytes of a value: network order. -/
def bigEndian : Nat → UInt64 → List UInt8
  | 0, _ => []
  | n + 1, val => (val >>> (8 * n).toUInt64).toUInt8 :: bigEndian n val

/-- A write of `bytes` at `offset` of a buffer of `bufferLen` bytes. -/
def storeAt (bufferLen offset : Nat) (bytes : List UInt8) : Except Fault (List UInt8) :=
  if bytes = [] ∨ offset + bytes.length ≤ bufferLen then .ok bytes else .error .outOfBounds

/-- The first byte of an item: major type and additional information. -/
def initialByte (mt ai : UInt8) : UInt8 := (mt <<< 5) ||| ai

/-- One branch of `prv_serialize_value`: `needed` bytes, the value in all but the first. -/
def serializeHead (bufferLen : Nat) (mt ai : UInt8) (val : UInt64) (needed : Nat) :
    Except Fault (List UInt8) :=
  if bufferLen < needed then .ok []
  else storeAt bufferLen 0 (initialByte mt ai :: bigEndian (needed - 1) val)

/-- `prv_serialize_value`; its result is the number of the bytes. -/
def prvSerializeValue (bufferLen : Nat) (mt : UInt8) (val : UInt64) :
    Except Fault (List UInt8) :=
  if val < 0xff then
    if val.toUInt8 < 24 then serializeHead bufferLen mt val.toUInt8 val 1
    else serializeHead bufferLen mt cborAiOneByteValue val 2
  else if val < 0xffff then serializeHead bufferLen mt cborAiTwoByteValue val 3
  else if val < 0xffffffff then serializeHead bufferLen mt cborAiFourByteValue val 5
  else serializeHead bufferLen mt cborAiEightByteValue val 9

/-- The sign bit, the exponent field and the mantissa of a double. -/
def doubleSign (bits : UInt64) : UInt64 := bits >>> 63
def doubleExponent (bits : UInt64) : Nat := ((bits >>> 52) &&& 0x7ff).toNat
def doubleMantissa (bits : UInt64) : Nat := (bits &&& 0xfffffffffffff).toNat

/-- `(float)val` where the conversion is exact, that is where `fval - val` is zero. -/
def exactSingle (bits : UInt64) : Option UInt32 :=
  let sign : Nat := (doubleSign bits).toNat <<< 31
  let exponent := doubleExponent bits
  let mantissa := doubleMantissa bits
  if exponent = 0 then if mantissa = 0 then some sign.toUInt32 else none
  else if 1023 - 126 ≤ exponent ∧ exponent ≤ 1023 + 127 then
    if mantissa % 2 ^ 29 = 0 then
      some (sign + (exponent - (1023 - 127)) <<< 23 + mantissa >>> 29).toUInt32
    else none
  else if 1023 - 149 ≤ exponent ∧ exponent < 1023 - 126 then
    -- subnormal in single precision: the hidden bit becomes a mantissa bit
    let shift := 30 + (1023 - 127 - exponent)
    if (2 ^ 52 + mantissa) % 2 ^ shift = 0 then
      some (sign + (2 ^ 52 + mantissa) >>> shift).toUInt32
    else none
  else none

/-- The branches of `prv_serialize_float` for a value of single precision. -/
def serializeSingle (bufferLen : Nat) (uval : UInt32) : Except Fault (List UInt8) :=
  let half (high low : UInt8) : Except Fault (List UInt8) :=
    storeAt bufferLen 0 [initialByte cborFloatingOrSimple cborAiTwoByteValue, high, low]
  let mant := (uval &&& 0x7fffff).toNat
  let exp : Int := ((uval >>> 23) &&& 0xff).toNat - 127
  let sign := ((uval &&& 0x80000000) >>> 24).toUInt8
  if exp = 0xff - 127 then half (sign ||| 0x7c) 0
  else if mant = 0 ∧ exp = -127 then half sign 0
  else if mant &&& 0x7ff = 0 ∧ -14 ≤ exp ∧ exp ≤ 15 then
    let mant := mant >>> 13
    half (sign ||| (((exp + 15).toNat <<< 2) &&& 0x7c).toUInt8 ||| ((mant >>> 8) &&& 0x3).toUInt8)
      (mant &&& 0xff).toUInt8
  else if -24 ≤ exp ∧ exp ≤ -14 ∧ mant &&& ((1 <<< (1 - exp).toNat) - 1) = 0 then
    let mant := (mant + 0x800000) >>> (-1 - exp).toNat
    half (sign ||| ((mant >>> 8) &&& 0x3).toUInt8) (mant &&& 0xff).toUInt8
  else if bufferLen < 5 then .ok []
  else storeAt bufferLen 0
    (initialByte cborFloatingOrSimple cborAiFourByteValue :: bigEndian 4 uval.toUInt64)

/-- `prv_serialize_float`. -/
def prvSerializeFloat (bufferLen : Nat) (bits : UInt64) : Except Fault (List UInt8) :=
  let half (high low : UInt8) : Except Fault (List UInt8) :=
    storeAt bufferLen 0 [initialByte cborFloatingOrSimple cborAiTwoByteValue, high, low]
  if bufferLen < 3 then .ok []
  else if doubleExponent bits = 0x7ff ∧ doubleMantissa bits ≠ 0 then half 0x7e 0
  else if doubleExponent bits = 0x7ff then half (if doubleSign bits = 1 then 0xfc else 0x7c) 0
  else
    match exactSingle bits with
    | some uval => serializeSingle bufferLen uval
    | none =>
      if bufferLen < 9 then .ok []
      else storeAt bufferLen 0
        (initialByte cborFloatingOrSimple cborAiEightByteValue :: bigEndian 8 bits)

/-- `cbor_put_type_and_value`; its result is the number of the bytes. -/
def cborPutTypeAndValue (bufferLen : Nat) (type : CborType) (val : UInt64) :
    Except Fault (List UInt8) :=
  if bufferLen < 1 then .ok []
  else
    match type with
    | .float => prvSerializeFloat bufferLen val
    | .unsignedInteger => prvSerializeValue bufferLen cborUnsignedInteger val
    | .negativeInteger => prvSerializeValue bufferLen cborNegativeInteger (~~~val)
    | .semanticTag => prvSerializeValue bufferLen cborSemanticTag val
    | .simpleValue =>
      if val > 255 then .ok [] else prvSerializeValue bufferLen cborFloatingOrSimple val
    | .break => storeAt bufferLen 0 [cborFloatingOrSimple ||| 31]
    | .byteString => prvSerializeValue bufferLen cborByteString val
    | .textString => prvSerializeValue bufferLen cborTextString val
    | .array => prvSerializeValue bufferLen cborArray val
    | .map => prvSerializeValue bufferLen cborMap val
    | .unknown => .ok []

/-- The string types of `cbor_put_singular`: the head, and an unchecked copy behind it. -/
def putBuffer (bufferLen : Nat) (mt : UInt8) (buffer : List UInt8) :
    Except Fault (Int × List UInt8) := do
  let head ← prvSerializeValue bufferLen mt buffer.length.toUInt64
  if buffer = [] then return (head.length, head)
  else if head = [] then return (0, [])
  else
    let copied ← storeAt bufferLen head.length buffer
    let res := intOfSize buffer.length
    if res ≤ 0 then return (0, head ++ copied)
    else return ((head.length + res).bmod (2 ^ 32), head ++ copied)

/-- `%u` -/
def decimal (n : Nat) : List UInt8 := (Nat.toDigits 10 n).map fun digit => digit.toNat.toUInt8

/-- `%u:%u` -/
def objLinkText (link : UInt16 × UInt16) : List UInt8 :=
  decimal link.1.toNat ++ 58 :: decimal link.2.toNat

/-- `SIZE_MAX` -/
def sizeMax : Nat := 0xffffffffffffffff

/-- `bufferLen - 1` as a `size_t`. -/
def sizeBehindFirst (bufferLen : Nat) : Nat :=
  if bufferLen = 0 then sizeMax else (bufferLen - 1) % (sizeMax + 1)

/-- `snprintf` to the second byte of a buffer: as much of the text as there is room for, and a
NUL, if its `size_t` argument is not 0. -/
def snprintfBehindFirst (bufferLen : Nat) (text : List UInt8) : Except Fault (List UInt8) :=
  if sizeBehindFirst bufferLen = 0 then .ok []
  else storeAt bufferLen 1 (text.take (sizeBehindFirst bufferLen - 1) ++ [0])

/-- The object links of `cbor_put_singular`: the text is printed before the head is written. -/
def putObjLink (bufferLen : Nat) (text : List UInt8) : Except Fault (Int × List UInt8) := do
  let _ ← snprintfBehindFirst bufferLen text
  if intOfSize (sizeBehindFirst bufferLen) > text.length then
    let head ← prvSerializeValue bufferLen cborTextString text.length.toUInt64
    if head.length = 1 then return (text.length + 1, head ++ text) else return (0, head)
  else return (0, [])

/-- `cbor_put_singular`: its result, and the bytes of the item at the start of the buffer. -/
def cborPutSingular (bufferLen : Nat) (data : Lwm2mData) : Except Fault (Int × List UInt8) :=
  let put (written : Except Fault (List UInt8)) : Except Fault (Int × List UInt8) :=
    written.map fun bytes => (bytes.length, bytes)
  match data.type with
  | .undefined | .object | .objectInstance | .multipleResource => .ok (0, [])
  | .string | .coreLink => putBuffer bufferLen cborTextString data.asBuffer
  | .opaqueBytes => putBuffer bufferLen cborByteString data.asBuffer
  | .integer =>
    if data.asInteger < 0 then
      put (prvSerializeValue bufferLen cborNegativeInteger (~~~data.asInteger).toUInt64)
    else put (prvSerializeValue bufferLen cborUnsignedInteger data.asUnsigned)
  | .unsignedInteger => put (prvSerializeValue bufferLen cborUnsignedInteger data.asUnsigned)
  | .float => put (prvSerializeFloat bufferLen data.asFloat)
  | .boolean =>
    put (prvSerializeValue bufferLen cborFloatingOrSimple
      (if data.asBoolean then cborSimpleTrue else cborSimpleFalse))
  | .objectLink => putObjLink bufferLen (objLinkText data.asObjLink)

/-- A reader that returns what it has read, gives up (its result is not positive) or leaves its
buffer. -/
abbrev Get (α : Type) : Type := OptionT (Except Fault) α

/-- `buffer[index]`. -/
def readAt (buffer : List UInt8) (index : Nat) : Except Fault UInt8 :=
  match buffer[index]? with
  | some byte => .ok byte
  | none => .error .outOfBounds

/-- The `n` bytes at `&buffer[index]`. -/
def readBytes (buffer : List UInt8) (index n : Nat) : Except Fault (List UInt8) :=
  if index + n ≤ buffer.length then .ok ((buffer.drop index).take n) else .error .outOfBounds

/-- `buffer + offset`, to which `bufferLen - offset` bytes belong. -/
def behind (buffer : List UInt8) (offset : Int) : Except Fault (List UInt8) :=
  if 0 ≤ offset ∧ offset ≤ buffer.length then .ok (buffer.drop offset.toNat)
  else .error .outOfBounds

/-- The argument of a head with the additional information `ai`, and the number of its bytes. -/
def cborArgument (buffer : List UInt8) (ai : UInt8) : Get (UInt64 × Nat) :=
  let wide (n : Nat) : Get (UInt64 × Nat) :=
    if buffer.length < n + 1 then failure
    else do
      let bytes ← readBytes buffer 1 n
      return ((bigEndianValue bytes).toUInt64, n)
  if ai = cborAiOneByteValue then wide 1
  else if ai = cborAiTwoByteValue then wide 2
  else if ai = cborAiFourByteValue then wide 4
  else if ai = cborAiEightByteValue then wide 8
  else if ai = 28 ∨ ai = 29 ∨ ai = 30 then failure
  else return (ai.toUInt64, 0)

/-- The double `mantissa * 2 ^ exponent`, which is a normal one. -/
def scaledDouble (mantissa : Nat) (exponent : Int) : UInt64 :=
  if mantissa = 0 then 0
  else
    let width := mantissa.log2
    ((exponent + width + 1023).toNat <<< 52 + mantissa <<< (52 - width) - 1 <<< 52).toUInt64

def doubleInfinity : UInt64 := 0x7ff0000000000000
def doubleNan : UInt64 := 0x7ff8000000000000
def doubleSignBit : UInt64 := 0x8000000000000000

/-- The conversion of a half to a double. -/
def halfToDouble (half : UInt16) : UInt64 :=
  let exp := ((half >>> 10) &&& 0x1f).toNat
  let mant := (half &&& 0x3ff).toNat
  let magnitude :=
    if exp = 0 then scaledDouble mant (-24)
    else if exp ≠ 31 then scaledDouble (mant + 1024) (exp - 25)
    else if mant = 0 then doubleInfinity
    else doubleNan
  if half &&& 0x8000 ≠ 0 then magnitude ||| doubleSignBit else magnitude

/-- The conversion of a float to a double. -/
def singleToDouble (single : UInt32) : UInt64 :=
  let exp := ((single >>> 23) &&& 0xff).toNat
  let mant := (single &&& 0x7fffff).toNat
  let magnitude :=
    if exp = 0 then scaledDouble mant (-149)
    else if exp ≠ 255 then scaledDouble (mant + 0x800000) (exp - 150)
    else if mant = 0 then doubleInfinity
    else doubleNan ||| (mant <<< 29).toUInt64
  if single &&& 0x80000000 ≠ 0 then magnitude ||| doubleSignBit else magnitude

/-- The major types of `cbor_get_type_and_value`: `*type` and `*value`. -/
def cborTypeAndValue (mt ai : UInt8) (val : UInt64) : Option (CborType × UInt64) :=
  if mt = cborUnsignedInteger then some (.unsignedInteger, val)
  else if mt = cborNegativeInteger then
    if val >>> 63 ≠ 0 then none else some (.negativeInteger, ~~~val)
  else if mt = cborByteString then some (.byteString, val)
  else if mt = cborTextString then some (.textString, val)
  else if mt = cborArray then some (.array, val)
  else if mt = cborMap then some (.map, val)
  else if mt = cborSemanticTag then some (.semanticTag, val)
  else if ai = cborAiTwoByteValue then some (.float, halfToDouble val.toUInt16)
  else if ai = cborAiFourByteValue then some (.float, singleToDouble val.toUInt32)
  else if ai = cborAiEightByteValue then some (.float, val)
  else if ai = cborAiIndefiniteOrBreak then some (.break, 0)
  else some (.simpleValue, val)

/-- `cbor_get_type_and_value`: `*type`, `*value` and the result. -/
def cborGetTypeAndValue (buffer : List UInt8) : Get (CborType × UInt64 × Nat) :=
  if buffer.length < 1 then failure
  else do
    let first ← readAt buffer 0
    let ai := first &&& 0x1f
    let (val, width) ← cborArgument buffer ai
    match cborTypeAndValue (first >>> 5) ai val with
    | none => failure
    | some (type, value) => return (type, value, 1 + width)

/-- The string types of `cbor_get_singular`: the bytes behind the `result` bytes of the heads. The
sum with their number becomes an `int`. -/
def getBuffer (buffer : List UInt8) (type : DataType) (val : UInt64) (result : Nat) :
    Get (Lwm2mData × Int) :=
  if buffer.length - result < val.toNat then failure
  else do
    let bytes ← readBytes buffer result val.toNat
    return (.node type 0 (.asBuffer bytes), intOfSize (result + val.toNat))

/-- The types of `cbor_get_singular` but the tags. -/
def getUntagged (buffer : List UInt8) (type : CborType) (val : UInt64) (result : Nat) :
    Get (Lwm2mData × Int) :=
  match type with
  | .unsignedInteger => return (.node .unsignedInteger 0 (.asUnsigned val), result)
  | .negativeInteger => return (.node .integer 0 (.asInteger val.toInt64), result)
  | .float => return (.node .float 0 (.asFloat val), result)
  | .simpleValue =>
    if val = cborSimpleFalse then return (.node .boolean 0 (.asBoolean false), result)
    else if val = cborSimpleTrue then return (.node .boolean 0 (.asBoolean true), result)
    else failure
  | .byteString => getBuffer buffer .opaqueBytes val result
  | .textString => getBuffer buffer .string val result
  | .semanticTag | .break | .array | .map | .unknown => failure

/-- `cbor_get_singular`: the data and the result. One tag is skipped. -/
def cborGetSingular (buffer : List UInt8) : Get (Lwm2mData × Int) := do
  let (type, val, res) ← cborGetTypeAndValue buffer
  if type = .semanticTag then
    let (type, val, res') ← cborGetTypeAndValue (← behind buffer res)
    getUntagged buffer type val (res + res')
  else getUntagged buffer type val res

end Wakaama
