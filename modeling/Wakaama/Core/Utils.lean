import Wakaama.Misc.Fault

/-!
# Numbers as text (`core/utils.c`)
-/

namespace Wakaama

/-- The loop of `utils_uintToText`: the digits from the last one, while there is room. -/
def uintToTextLoop : Nat → UInt64 → List UInt8 → List UInt8
  | 0, _, _ => []
  | room + 1, data, text =>
    let text := (48 + data % 10).toUInt8 :: text
    if data / 10 = 0 then text else uintToTextLoop room (data / 10) text

/-- `utils_uintToText`: the text, empty when it does not fit. -/
def utilsUintToText (data : UInt64) (length : Nat) : List UInt8 := uintToTextLoop length data []

/-- `"-9223372036854775808"` -/
def int64MinText : List UInt8 :=
  [45, 57, 50, 50, 51, 51, 55, 50, 48, 51, 54, 56, 53, 52, 55, 55, 53, 56, 48, 56]

/-- `utils_intToText`. -/
def utilsIntToText (data : Int64) (length : Nat) : List UInt8 :=
  if data < 0 then
    if length = 0 then []
    else if data = Int64.minValue then
      if length ≤ int64MinText.length then [] else int64MinText
    else
      match utilsUintToText (-data).toUInt64 (length - 1) with
      | [] => []
      | text => 45 :: text
  else utilsUintToText data.toUInt64 length

/-- `'-'` and the characters of the digits. -/
def minusSign : UInt8 := 45

def digitZero : UInt8 := 48

def digitNine : UInt8 := 57

/-- The loop of `utils_textToInt` and `utils_textToUInt`. The bound that is checked leaves room
for the multiplication but not for the digit that is added. -/
def textToUIntLoop (result : UInt64) : List UInt8 → Option UInt64
  | [] => some result
  | character :: rest =>
    if digitZero ≤ character ∧ character ≤ digitNine then
      if 18446744073709551615 / 10 < result then none
      else textToUIntLoop (result * 10 + (character - digitZero).toUInt64) rest
    else none

/-- `utils_textToUInt`. -/
def utilsTextToUInt (buffer : List UInt8) : Option UInt64 :=
  if buffer.isEmpty then none else textToUIntLoop 0 buffer

/-- `utils_textToInt`. -/
def utilsTextToInt (buffer : List UInt8) : Option Int64 :=
  match buffer with
  | [] => none
  | first :: rest =>
    if first = minusSign then
      match textToUIntLoop 0 rest with
      | none => none
      | some result =>
        if 9223372036854775808 < result then none else some (0 - result).toInt64
    else
      match textToUIntLoop 0 (first :: rest) with
      | none => none
      | some result => if 9223372036854775807 < result then none else some result.toInt64

/-- `utils_textToObjLink`. -/
def utilsTextToObjLink (buffer : List UInt8) : Option (UInt16 × UInt16) :=
  let object := buffer.takeWhile fun character => character != 58
  if object.length = 0 ∨ object.length = buffer.length then none
  else
    match utilsTextToUInt object, utilsTextToUInt (buffer.drop (object.length + 1)) with
    | some object, some instanceId =>
      if 0xFFFF < object ∨ 0xFFFF < instanceId then none
      else some (object.toUInt16, instanceId.toUInt16)
    | _, _ => none

/-- `BINDING_UNKNOWN`. -/
def bindingUnknown : UInt8 := 0x01

/-- The bit of a character: `'N'`, `'Q'`, `'S'`, `'T'` or `'U'`. -/
def bindingBit (character : UInt8) : Option UInt8 :=
  if character = 78 then some 0x10
  else if character = 81 then some 0x20
  else if character = 83 then some 0x08
  else if character = 84 then some 0x04
  else if character = 85 then some 0x02
  else none

/-- The loop of `utils_stringToBinding`. -/
def stringToBindingLoop (binding : UInt8) : List UInt8 → UInt8
  | [] => binding
  | character :: rest =>
    match bindingBit character with
    | some bit => stringToBindingLoop (binding ||| bit) rest
    | none => bindingUnknown

/-- `utils_stringToBinding`. -/
def utilsStringToBinding (buffer : List UInt8) : UInt8 := stringToBindingLoop bindingUnknown buffer

end Wakaama
