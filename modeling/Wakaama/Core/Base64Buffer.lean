import Wakaama.Core.Base64
import Wakaama.Misc.Memory

/-!
# Base64 in buffers (`core/utils.c`)

The encoder and the decoder on the memory that they read and write. The indices of the encoder are
of the type `unsigned int`, those of the decoder of the type `size_t`.
-/

namespace Wakaama

/-- A value converted to `unsigned int`. -/
def cUnsigned (value : Nat) : Nat := value % 2 ^ 32

/-- The characters that a round of `utils_base64Encode` writes for what is left of the data. -/
def base64Group : List UInt8 → List UInt8
  | [] => []
  | [a] => [b64Alphabet (a >>> 2), b64Alphabet ((a &&& 0x03) <<< 4), b64Padding, b64Padding]
  | [a, b] =>
    [b64Alphabet (a >>> 2), b64Alphabet ((a &&& 0x03) <<< 4 ||| b >>> 4),
      b64Alphabet ((b &&& 0x0F) <<< 2), b64Padding]
  | a :: b :: c :: _ =>
    [b64Alphabet (a >>> 2), b64Alphabet ((a &&& 0x03) <<< 4 ||| b >>> 4),
      b64Alphabet ((b &&& 0x0F) <<< 2 ||| c >>> 6), b64Alphabet (c &&& 0x3F)]

/-- The loop of `utils_base64Encode`; `none` is a loop that does not end in a number of rounds.
Behind a wrapped index the next byte of the data is only looked for with 2^32 + 1 bytes, where the
loop does not end either way. -/
def base64EncodeRounds (data : List UInt8) :
    Nat → Nat → Nat → List UInt8 → Except Fault (Option (List UInt8))
  | fuel, dataIndex, resultIndex, buffer =>
    if dataIndex < data.length then
      match fuel with
      | 0 => .ok none
      | fuel + 1 => do
        let buffer ← storeBytes buffer resultIndex (base64Group (data.drop dataIndex))
        base64EncodeRounds data fuel (cUnsigned (dataIndex + 3)) (cUnsigned (resultIndex + 4)) buffer
    else .ok (some buffer)

/-- `utils_base64Encode`: the buffer and the result. -/
def utilsBase64EncodeAt (fuel : Nat) (data buffer : List UInt8) :
    Except Fault (Option (List UInt8 × Nat)) :=
  if buffer.length < utilsBase64GetSize data.length then .ok (some (buffer, 0))
  else do
    let buffer ← base64EncodeRounds data fuel 0 0 buffer
    return buffer.map fun buffer => (buffer, utilsBase64GetSize data.length)

/-- The loop of `utils_base64Decode`: the buffer, and whether the text was taken. In every round
two characters at least are read. -/
def base64DecodeRounds (data : List UInt8) (decodedSize : Nat) :
    Nat → Nat → Nat → List UInt8 → Except Fault (List UInt8 × Bool)
  | fuel, dataIndex, bufferIndex, buffer =>
    if dataIndex < data.length then
      match fuel with
      | 0 => .error .endless
      | fuel + 1 =>
        if data.length - dataIndex < 2 then .ok (buffer, false)
        else do
          let c1 ← loadByte data dataIndex
          let v1 := prvBase64Value c1
          if 64 ≤ v1 then return (buffer, false)
          else
            let c2 ← loadByte data (dataIndex + 1)
            let v2 := prvBase64Value c2
            if 64 ≤ v2 then return (buffer, false)
            else
              let buffer ← storeByte buffer bufferIndex ((v1 <<< 2) + (v2 >>> 4))
              if dataIndex + 2 < data.length then
                let c3 ← loadByte data (dataIndex + 2)
                if c3 ≠ b64Padding then
                  let v3 := prvBase64Value c3
                  if 64 ≤ v3 then return (buffer, false)
                  else
                    let buffer ← storeByte buffer (bufferIndex + 1 : Nat) ((v2 <<< 4) + (v3 >>> 2))
                    if dataIndex + 3 < data.length then
                      let c4 ← loadByte data (dataIndex + 3)
                      if c4 ≠ b64Padding then
                        let v4 := prvBase64Value c4
                        if 64 ≤ v4 then return (buffer, false)
                        else
                          let buffer ← storeByte buffer (bufferIndex + 2 : Nat) ((v3 <<< 6) + v4)
                          base64DecodeRounds data decodedSize fuel (dataIndex + 4)
                            (bufferIndex + 3) buffer
                      else if bufferIndex + 2 ≠ decodedSize then return (buffer, false)
                      else
                        base64DecodeRounds data decodedSize fuel (dataIndex + 4) (bufferIndex + 2)
                          buffer
                    else
                      base64DecodeRounds data decodedSize fuel (dataIndex + 3) (bufferIndex + 2)
                        buffer
                else if bufferIndex + 1 ≠ decodedSize then return (buffer, false)
                else
                  base64DecodeRounds data decodedSize fuel (dataIndex + 4) (bufferIndex + 1) buffer
              else
                base64DecodeRounds data decodedSize fuel (dataIndex + 2) (bufferIndex + 1) buffer
    else .ok (buffer, true)

/-- `utils_base64Decode`: the buffer and the result. -/
def utilsBase64DecodeAt (data buffer : List UInt8) : Except Fault (List UInt8 × Nat) :=
  if buffer.length < utilsBase64GetDecodedSize data then .ok (buffer, 0)
  else do
    let (buffer, taken) ←
      base64DecodeRounds data (utilsBase64GetDecodedSize data) data.length 0 0 buffer
    return (buffer, if taken then utilsBase64GetDecodedSize data else 0)

/-- Data is encoded into any buffer with room for it, in a number of rounds, and decoded from the
text into any buffer with room for it; the sizes are those that are announced. -/
def Base64RoundTrips (data : List UInt8) : Prop :=
  ∀ buffer, utilsBase64GetSize data.length ≤ buffer.length →
    ∃ fuel text rest, utilsBase64EncodeAt fuel data buffer =
        .ok (some (text ++ rest, utilsBase64GetSize data.length)) ∧
      text.length = utilsBase64GetSize data.length ∧
      utilsBase64GetDecodedSize text = data.length ∧
      ∀ target, data.length ≤ target.length → ∃ rest',
        utilsBase64DecodeAt text target = .ok (data ++ rest', data.length)

/-- The decoder stays inside of a buffer, and its result is 0 or the decoded size. -/
def Base64DecodesInside (text buffer : List UInt8) : Prop :=
  ∃ buffer' n, utilsBase64DecodeAt text buffer = .ok (buffer', n) ∧
    buffer'.length = buffer.length ∧ (n = 0 ∨ n = utilsBase64GetDecodedSize text)

end Wakaama
