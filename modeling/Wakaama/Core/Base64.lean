/-!
# Base64 (`core/utils.c`)
-/

namespace Wakaama

/-- `PRV_B64_PADDING`, `'='`. -/
def b64Padding : UInt8 := 61

/-- `b64Alphabet`. -/
def b64Alphabet (value : UInt8) : UInt8 :=
  if value < 26 then 65 + value
  else if value < 52 then 97 + (value - 26)
  else if value < 62 then 48 + (value - 52)
  else if value = 62 then 43
  else 47

/-- `utils_base64GetSize`. -/
def utilsBase64GetSize (dataLen : Nat) : Nat :=
  4 * (dataLen / 3) + if dataLen % 3 ≠ 0 then 4 else 0

/-- The loop of `utils_base64Encode`. -/
def base64EncodeLoop : List UInt8 → List UInt8
  | [] => []
  | [a] => [b64Alphabet (a >>> 2), b64Alphabet ((a &&& 0x03) <<< 4), b64Padding, b64Padding]
  | [a, b] =>
    [b64Alphabet (a >>> 2), b64Alphabet ((a &&& 0x03) <<< 4 ||| b >>> 4),
      b64Alphabet ((b &&& 0x0F) <<< 2), b64Padding]
  | a :: b :: c :: rest =>
    b64Alphabet (a >>> 2) :: b64Alphabet ((a &&& 0x03) <<< 4 ||| b >>> 4) ::
      b64Alphabet ((b &&& 0x0F) <<< 2 ||| c >>> 6) :: b64Alphabet (c &&& 0x3F) ::
      base64EncodeLoop rest

/-- `utils_base64Encode`: the text, empty when it does not fit. -/
def utilsBase64Encode (data : List UInt8) (bufferLen : Nat) : List UInt8 :=
  if bufferLen < utilsBase64GetSize data.length then [] else base64EncodeLoop data

/-- `utils_base64GetDecodedSize`. -/
def utilsBase64GetDecodedSize (data : List UInt8) : Nat :=
  let result := 3 * (data.length / 4)
  match data.length % 4 with
  | 0 =>
    if 0 < result then
      if data[data.length - 2]? = some b64Padding then result - 2
      else if data[data.length - 1]? = some b64Padding then result - 1
      else result
    else result
  | 2 => result + 1
  | 3 => result + 2
  | _ => result

/-- `prv_base64Value`. -/
def prvBase64Value (digit : UInt8) : UInt8 :=
  if 65 ≤ digit ∧ digit ≤ 90 then digit - 65
  else if 97 ≤ digit ∧ digit ≤ 122 then digit - 97 + 26
  else if 48 ≤ digit ∧ digit ≤ 57 then digit - 48 + 52
  else if digit = 43 then 62
  else if digit = 47 then 63
  else 0xFF

/-- A character that stands for six bits. -/
def base64Digit (digit : UInt8) : Option UInt8 :=
  if 64 ≤ prvBase64Value digit then none else some (prvBase64Value digit)

/-- The loop of `utils_base64Decode`, behind the bytes written so far. -/
def base64DecodeLoop (decodedSize : Nat) (buffer : List UInt8) : List UInt8 → Option (List UInt8)
  | [] => some buffer
  | [_] => none
  | c1 :: c2 :: rest => do
    let v1 ← base64Digit c1
    let v2 ← base64Digit c2
    let buffer := buffer ++ [(v1 <<< 2) + (v2 >>> 4)]
    match rest with
    | [] => some buffer
    | c3 :: rest =>
      if c3 ≠ b64Padding then
        let v3 ← base64Digit c3
        let buffer := buffer ++ [(v2 <<< 4) + (v3 >>> 2)]
        match rest with
        | [] => some buffer
        | c4 :: rest =>
          if c4 ≠ b64Padding then
            let v4 ← base64Digit c4
            base64DecodeLoop decodedSize (buffer ++ [(v3 <<< 6) + v4]) rest
          else if buffer.length ≠ decodedSize then none
          else base64DecodeLoop decodedSize buffer rest
      else if buffer.length ≠ decodedSize then none
      else
        -- the character behind the padding is not looked at
        match rest with
        | [] => some buffer
        | _ :: rest => base64DecodeLoop decodedSize buffer rest

theorem base64DecodeLoop_nil (decodedSize : Nat) (buffer : List UInt8) :
    base64DecodeLoop decodedSize buffer [] = some buffer := by
  rw [base64DecodeLoop]

/-- `utils_base64Decode` into a buffer of the decoded size; `none` is the result 0. -/
def utilsBase64Decode (data : List UInt8) : Option (List UInt8) :=
  match base64DecodeLoop (utilsBase64GetDecodedSize data) [] data with
  | none => none
  | some buffer => if utilsBase64GetDecodedSize data = 0 then none else some buffer

end Wakaama
