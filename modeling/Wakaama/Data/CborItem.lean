import Wakaama.Data.Proofs.CborReaders

/-!
# Single CBOR items

What `cbor_get_singular` is to take: a well-formed item of definite length, told without the reader.
-/

namespace Wakaama

/-- How many bytes of an argument follow an initial byte; none of 28 to 31 says that. -/
def plainWidth (ai : UInt8) : Option Nat :=
  if ai < 24 then some 0
  else if ai = 24 then some 1
  else if ai = 25 then some 2
  else if ai = 26 then some 4
  else if ai = 27 then some 8
  else none

/-- The number that a head holds. -/
def headValue (first : UInt8) (argument : List UInt8) : Nat :=
  if argument = [] then (first &&& 0x1f).toNat else bigEndianValue argument

/-- A head of definite length, its major type and its number. -/
inductive PlainHead : List UInt8 → UInt8 → Nat → Prop
  | mk {first : UInt8} {argument : List UInt8}
    (hwidth : plainWidth (first &&& 0x1f) = some argument.length) :
    PlainHead (first :: argument) (first >>> 5) (headValue first argument)

/-- An integer, a float, a boolean, or a string with all of its bytes. -/
inductive SupportedItem : List UInt8 → Prop
  | integer {head : List UInt8} {mt : UInt8} {value : Nat} (h : PlainHead head mt value)
    (hmt : mt = cborUnsignedInteger ∨ mt = cborNegativeInteger) : SupportedItem head
  | float {head : List UInt8} {value : Nat} (h : PlainHead head cborFloatingOrSimple value)
    (hwidth : 3 ≤ head.length) : SupportedItem head
  | boolean {first : UInt8} (h : first = 0xf4 ∨ first = 0xf5) : SupportedItem [first]
  | string {head content : List UInt8} {mt : UInt8} (h : PlainHead head mt content.length)
    (hmt : mt = cborByteString ∨ mt = cborTextString) : SupportedItem (head ++ content)

/-- An item with a tag or none. -/
inductive SupportedSingular : List UInt8 → Prop
  | untagged {item : List UInt8} (h : SupportedItem item) : SupportedSingular item
  | tagged {tag item : List UInt8} {value : Nat} (htag : PlainHead tag cborSemanticTag value)
    (h : SupportedItem item) : SupportedSingular (tag ++ item)

/-- `cbor_get_singular` stays inside of the buffer, and a result above 0 is the length of a single
supported item. -/
def CborTakesSupported (buffer : List UInt8) : Prop :=
  cborGetSingular buffer = failure ∨
    ∃ data res, cborGetSingular buffer = pure (data, res) ∧
      (0 < res → ∃ item rest, buffer = item ++ rest ∧ SupportedSingular item ∧
        res = (item.length : Int))

/-- The initial bytes of an indefinite length and of a simple value in two bytes. -/
def reservedForm : List UInt8 → Bool
  | [] => false
  | first :: _ => first &&& 0x1f = 31 ∨ first = 0xf8

/-- The tag and the item that the reader of heads makes of the start of the buffer are of no
reserved form, and have less than 2^31 bytes or a number of bytes that is no positive `int`. -/
def CborAvoidsReserved (buffer : List UInt8) : Prop :=
  ∀ tag item rest data, buffer = tag ++ item ++ rest →
    (tag = [] ∨ ∃ value, CborHead tag .semanticTag value) → CborUntagged item data →
    (tag ++ item).length % 2 ^ 32 ≠ 0 → (tag ++ item).length % 2 ^ 32 < 2 ^ 31 →
    reservedForm tag = false ∧ reservedForm item = false ∧ (tag ++ item).length < 2 ^ 31

end Wakaama
