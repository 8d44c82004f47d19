import Wakaama.Core.Utils
import Wakaama.Misc.Memory

/-!
# Numbers written into buffers (`core/utils.c`)

The writers of numbers on the memory they write to: the digits are written from the end of the
buffer and moved to its start. The index into the buffer is an `int`.
-/

namespace Wakaama

/-- A value converted to `int`. -/
def cInt (value : Int) : Int := value.bmod (2 ^ 32)

/-- A value converted to `size_t`. -/
def sizeT (value : Int) : Nat := (value % 2 ^ 64).toNat

/-- `'0' + data%10` -/
def lastDigit (data : UInt64) : UInt8 := (48 + data % 10).toUInt8

/-- The `do` loop of `utils_uintToText` from an index into the buffer on: the memory, what is left
of the number, and the index in front of the digits. -/
def uintToTextDigits (string : Nat) :
    Nat → UInt64 → List UInt8 → Except Fault (List UInt8 × UInt64 × Int)
  | 0, data, memory => do
    let memory ← storeByte memory string (lastDigit data)
    return (memory, data / 10, -1)
  | index + 1, data, memory => do
    let memory ← storeByte memory (string + (index + 1) : Nat) (lastDigit data)
    if 0 < data / 10 then uintToTextDigits string index (data / 10) memory
    else return (memory, data / 10, index)

/-- The loop from any `int` on: behind a negative index it ends at once. -/
def uintToTextDo (string : Nat) (index : Int) (data : UInt64) (memory : List UInt8) :
    Except Fault (List UInt8 × UInt64 × Int) :=
  match index with
  | .ofNat index => uintToTextDigits string index data memory
  | .negSucc below => do
    let memory ← storeByte memory (string + .negSucc below) (lastDigit data)
    return (memory, data / 10, .negSucc (below + 1))

/-- `utils_uintToText`: the memory, and the result. -/
def utilsUintToTextAt (data : UInt64) (string length : Nat) (memory : List UInt8) :
    Except Fault (List UInt8 × Nat) :=
  if length = 0 then .ok (memory, 0)
  else do
    let (memory, data, index) ← uintToTextDo string (cInt (length - 1 : Nat)) data memory
    if 0 < data then return (memory, 0)
    else
      let index := index + 1
      let result := sizeT (length - index)
      if result < length then do
        let memory ← moveBytes memory string (string + index) result
        let memory ← storeByte memory (string + result : Nat) 0
        return (memory, result)
      else return (memory, result)

/-- `utils_intToText`. -/
def utilsIntToTextAt (data : Int64) (string length : Nat) (memory : List UInt8) :
    Except Fault (List UInt8 × Nat) :=
  if data < 0 then
    if length = 0 then .ok (memory, 0)
    else do
      let memory ← storeByte memory string minusSign
      if data = Int64.minValue then
        if length ≤ int64MinText.length then return (memory, 0)
        else do
          let memory ← storeBytes memory string int64MinText
          let memory ← storeByte memory (string + int64MinText.length : Nat) 0
          return (memory, int64MinText.length)
      else do
        let (memory, result) ←
          utilsUintToTextAt (-data).toUInt64 (string + 1) (length - 1) memory
        return (memory, if result ≠ 0 then sizeT (result + 1) else 0)
  else utilsUintToTextAt data.toUInt64 string length memory

/-- `utils_objLinkToText`. -/
def utilsObjLinkToTextAt (objectId objectInstanceId : UInt16) (string length : Nat)
    (memory : List UInt8) : Except Fault (List UInt8 × Nat) := do
  let (memory, head) ← utilsUintToTextAt objectId.toUInt64 string length memory
  if head = 0 then return (memory, 0)
  else if sizeT (length - head) < 1 then return (memory, 0)
  else do
    let memory ← storeByte memory (string + head : Nat) 58
    let head := head + 1
    let (memory, res) ←
      utilsUintToTextAt objectInstanceId.toUInt64 (string + head) (sizeT (length - head)) memory
    if res = 0 then return (memory, 0) else return (memory, sizeT (head + res))

end Wakaama
