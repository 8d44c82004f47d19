import Wakaama.Data.JsonCommon
import Wakaama.Misc.Memory

/-!
# Escaping in JSON (`data/json_common.c`)

`json_unescapeString` with every byte of the text that it reads, and `json_escapeString`.
-/

namespace Wakaama

/-- `'u'` and `'0'`. -/
def jsonNumberEscape : UInt8 := 117
def jsonZero : UInt8 := 48

/-- `len - 4` as a `size_t`. -/
def sizeLessFour (len : Nat) : Nat := if 4 ≤ len then len - 4 else 2 ^ 64 - 4 + len

/-- The loop of `json_unescapeString` from an index on, with what it has written; `none` is the
result 0. -/
def jsonUnescapeRounds (src : List UInt8) :
    Nat → Nat → List UInt8 → Except Fault (Option (List UInt8))
  | 0, _, _ => .error .endless
  | fuel + 1, i, dst =>
    if i < src.length then do
      let c ← loadByte src i
      if c = backslash then
        if src.length ≤ i + 1 then return none
        else
          let c ← loadByte src (i + 1)
          if c = jsonNumberEscape then
            if sizeLessFour src.length ≤ i + 2 then return none
            else
              let first ← loadByte src (i + 2)
              if first ≠ jsonZero then return none
              else
                let second ← loadByte src (i + 3)
                if second ≠ jsonZero then return none
                else
                  let high ← loadByte src (i + 4)
                  let v1 := prvHexValue high
                  if 15 < v1 then return none
                  else
                    let low ← loadByte src (i + 5)
                    let v2 := prvHexValue low
                    if 15 < v2 then return none
                    else jsonUnescapeRounds src fuel (i + 6) (dst ++ [(v1 <<< 4) + v2])
          else
            match unescapeCharacter c with
            | none => return none
            | some c => jsonUnescapeRounds src fuel (i + 2) (dst ++ [c])
      else jsonUnescapeRounds src fuel (i + 1) (dst ++ [c])
    else .ok (some dst)

/-- `json_unescapeString` of `len` bytes that end the memory. -/
def jsonUnescapeAt (src : List UInt8) : Except Fault (Option (List UInt8)) :=
  jsonUnescapeRounds src (src.length + 1) 0 []

/-- `prv_hexDigit`. -/
def prvHexDigit (value : UInt8) : UInt8 :=
  let value := value &&& 0xF
  if value < 10 then 48 + value else 65 + value - 10

/-- The bytes that a round of `json_escapeString` writes. -/
def escapeCharacter (c : UInt8) : List UInt8 :=
  if c < 0x20 then
    if c = 8 then [backslash, 98]
    else if c = 12 then [backslash, 102]
    else if c = 10 then [backslash, 110]
    else if c = 13 then [backslash, 114]
    else if c = 9 then [backslash, 116]
    else [backslash, jsonNumberEscape, jsonZero, jsonZero, prvHexDigit (c >>> 4), prvHexDigit c]
  else if c = jsonQuote then [backslash, jsonQuote]
  else if c = backslash then [backslash, backslash]
  else [c]

/-- The loop of `json_escapeString`, behind what it has written. -/
def jsonEscapeLoop (dstLen : Nat) (dst : List UInt8) : List UInt8 → Option (List UInt8)
  | [] => some dst
  | c :: src =>
    if dstLen - dst.length < (escapeCharacter c).length then none
    else jsonEscapeLoop dstLen (dst ++ escapeCharacter c) src

/-- `json_escapeString`; `none` is a text that does not fit. -/
def jsonEscapeString (dstLen : Nat) (src : List UInt8) : Option (List UInt8) :=
  jsonEscapeLoop dstLen [] src

/-- A text of plain characters and complete escapes, and the bytes that it stands for. -/
inductive Escaped : List UInt8 → List UInt8 → Prop
  | nil : Escaped [] []
  | plain {c : UInt8} {text bytes : List UInt8} (hc : c ≠ backslash) (h : Escaped text bytes) :
    Escaped (c :: text) (c :: bytes)
  | short {c byte : UInt8} {text bytes : List UInt8} (hc : unescapeCharacter c = some byte)
    (h : Escaped text bytes) : Escaped (backslash :: c :: text) (byte :: bytes)
  | number {high low : UInt8} {text bytes : List UInt8} (hhigh : prvHexValue high ≤ 15)
    (hlow : prvHexValue low ≤ 15) (h : Escaped text bytes) :
    Escaped (backslash :: jsonNumberEscape :: jsonZero :: jsonZero :: high :: low :: text)
      (((prvHexValue high <<< 4) + prvHexValue low) :: bytes)

/-- What `json_escapeString` writes completely, `json_unescapeString` makes the string of. -/
def JsonEscapeRoundTrips (s : List UInt8) : Prop :=
  ∀ dstLen text, jsonEscapeString dstLen s = some text → jsonUnescapeAt text = .ok (some s)

/-- `json_unescapeString` reads inside of the text, and takes it for some bytes exactly where all
of its escapes are complete and stand for them. -/
def JsonUnescapes (text : List UInt8) : Prop :=
  ∃ result, jsonUnescapeAt text = .ok result ∧ ∀ bytes, result = some bytes ↔ Escaped text bytes

/-- A byte that is escaped by its number. -/
def EscapedAsNumber (c : UInt8) : Prop :=
  c < 0x20 ∧ c ≠ 8 ∧ c ≠ 12 ∧ c ≠ 10 ∧ c ≠ 13 ∧ c ≠ 9

/-- Behind complete escapes the text does not end with a complete number, and, having less than
four characters, not with a `\u` or with the first digit behind it. -/
def JsonNumbersInside (text : List UInt8) : Prop :=
  ∀ front rest bytes, text = front ++ rest → Escaped front bytes →
    (∀ high low, prvHexValue high ≤ 15 → prvHexValue low ≤ 15 →
      rest ≠ [backslash, jsonNumberEscape, jsonZero, jsonZero, high, low]) ∧
    (text.length < 4 →
      rest ≠ [backslash, jsonNumberEscape] ∧ rest ≠ [backslash, jsonNumberEscape, jsonZero])

end Wakaama
