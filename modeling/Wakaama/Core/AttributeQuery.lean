import Wakaama.Core.Observe
import Wakaama.Misc.Double

/-!
# Attributes in a query (`core/management.c`)

`lwm2m_dm_write_attributes` on the server puts the attributes into the Uri-Query of a request, and
`prv_readAttributes` on the client takes them out of the segments. The client compares a segment
with the keys before it looks at the length, so that the bytes behind the segment matter. How the
doubles are written and read is left to the caller.
-/

namespace Wakaama

/-- The attributes with a key, in the order in which they are written and compared. -/
inductive AttributeKey where
  | minPeriod
  | maxPeriod
  | greaterThan
  | lessThan
  | step
  deriving DecidableEq, Repr

/-- `ATTR_MIN_PERIOD_STR`, `ATTR_MAX_PERIOD_STR`, `ATTR_GREATER_THAN_STR`, `ATTR_LESS_THAN_STR` and
`ATTR_STEP_STR`. -/
def AttributeKey.text : AttributeKey → List UInt8
  | .minPeriod => [112, 109, 105, 110, 61]
  | .maxPeriod => [112, 109, 97, 120, 61]
  | .greaterThan => [103, 116, 61]
  | .lessThan => [108, 116, 61]
  | .step => [115, 116, 61]

/-- The key without the `=`: the segment that clears the attribute. -/
def AttributeKey.name (key : AttributeKey) : List UInt8 := key.text.take (key.text.length - 1)

/-- The flag of the attribute in `toSet` and `toClear`. -/
def AttributeKey.flag : AttributeKey → UInt8
  | .minPeriod => attrFlagMinPeriod
  | .maxPeriod => attrFlagMaxPeriod
  | .greaterThan => attrFlagGreaterThan
  | .lessThan => attrFlagLessThan
  | .step => attrFlagStep

/-- The attribute is a period. -/
def AttributeKey.isPeriod : AttributeKey → Bool
  | .minPeriod | .maxPeriod => true
  | .greaterThan | .lessThan | .step => false

def attributeKeys : List AttributeKey := [.minPeriod, .maxPeriod, .greaterThan, .lessThan, .step]

/-- `_PRV_BUFFER_SIZE`. -/
def attributeBufferSize : Nat := 32

/-- The period of a key. -/
def Lwm2mAttributes.period (attr : Lwm2mAttributes) : AttributeKey → UInt32
  | .minPeriod => attr.minPeriod
  | .maxPeriod => attr.maxPeriod
  | .greaterThan | .lessThan | .step => 0

/-- The threshold of a key. -/
def Lwm2mAttributes.threshold (attr : Lwm2mAttributes) : AttributeKey → UInt64
  | .greaterThan => attr.greaterThan
  | .lessThan => attr.lessThan
  | .step => attr.step
  | .minPeriod | .maxPeriod => 0

/-- The segment that sets an attribute, unless its number has no room in the buffer.
`floatToText` is `utils_floatToText`, whose text is empty when it fails. -/
def setSegment (floatToText : UInt64 → Nat → List UInt8) (attr : Lwm2mAttributes)
    (key : AttributeKey) : Option (List UInt8) :=
  let room := attributeBufferSize - key.text.length
  let number :=
    if key.isPeriod then utilsIntToText (attr.period key).toUInt64.toInt64 room
    else floatToText (attr.threshold key) room
  if number.isEmpty then none else some (key.text ++ number)

/-- The calls of `coap_add_multi_option` for the segments, from call `call` on: where there is no
memory, nothing is added. -/
def addOptions (alloc : Nat → Bool) : Nat → List (List UInt8) → List (List UInt8)
  | _, [] => []
  | call, segment :: segments =>
    if alloc call then segment :: addOptions alloc (call + 1) segments
    else addOptions alloc (call + 1) segments

/-- The segments for the attributes, those that are set in front of those that are cleared. -/
def attributeSegments (floatToText : UInt64 → Nat → List UInt8) (attr : Lwm2mAttributes) :
    Option (List (List UInt8)) :=
  ((attributeKeys.filter fun key => attr.toSet &&& key.flag != 0).mapM
    (setSegment floatToText attr)).map fun sets =>
      sets ++ (attributeKeys.filter fun key => attr.toClear &&& key.flag != 0).map AttributeKey.name

/-- `lwm2m_dm_write_attributes` up to the Uri-Query of its request; it has none where the call is
refused or goes wrong. `tooClose` is the comparison of the three thresholds. -/
def lwm2mDmWriteAttributes (floatToText : UInt64 → Nat → List UInt8)
    (tooClose : UInt64 → UInt64 → UInt64 → Bool) (alloc : Nat → Bool) (uri : Lwm2mUri)
    (attr : Lwm2mAttributes) : Option (List (List UInt8)) :=
  if attr.toSet &&& attr.toClear ≠ 0 then none
  else if attr.toSet &&& attrFlagNumeric ≠ 0 ∧ !uri.isSetResource then none
  else if attr.toSet &&& attrFlagNumeric = attrFlagNumeric ∧
      tooClose attr.lessThan attr.step attr.greaterThan then none
  else (attributeSegments floatToText attr).map (addOptions alloc 0)

/-- A Uri-Query segment where it is read: its text, and the memory behind it. -/
structure QuerySegment where
  text : List UInt8
  behind : Nat → UInt8

/-- `query->data[index]` -/
def QuerySegment.byte (query : QuerySegment) (index : Nat) : UInt8 :=
  (query.text[index]?).getD (query.behind (index - query.text.length))

/-- `lwm2m_strncmp` from an index on over the length of a key says that they are equal. -/
def QuerySegment.startsWith (query : QuerySegment) : Nat → List UInt8 → Bool
  | _, [] => true
  | index, character :: key => query.byte index == character && query.startsWith (index + 1) key

/-- The index behind the last byte that `lwm2m_strncmp` reads. -/
def QuerySegment.readsTo (query : QuerySegment) : Nat → List UInt8 → Nat
  | index, [] => index
  | index, character :: key =>
    if query.byte index = character then query.readsTo (index + 1) key else index + 1

/-- The comparison with a key reads inside the segment. -/
def QuerySegment.comparesInside (query : QuerySegment) (key : List UInt8) : Bool :=
  decide (query.readsTo 0 key ≤ query.text.length)

/-- The comparison that holds: the key, with its `=` or without. -/
def findAttribute (query : QuerySegment) : List AttributeKey → Option (AttributeKey × Bool)
  | [] => none
  | key :: keys =>
    if query.startsWith 0 key.text then some (key, true)
    else if query.startsWith 0 key.name then some (key, false)
    else findAttribute query keys

/-- The comparisons up to the one that holds read inside the segment. -/
def findsInside (query : QuerySegment) : List AttributeKey → Bool
  | [] => true
  | key :: keys =>
    query.comparesInside key.text &&
      (query.startsWith 0 key.text ||
        query.comparesInside key.name && (query.startsWith 0 key.name || findsInside query keys))

/-- `utils_textToInt` on what stands behind the key. With a length below 0 it looks for a sign, and
its loop ends at once. -/
def readPeriod (query : QuerySegment) (key : AttributeKey) : Option Int64 :=
  if query.text.length < key.text.length then some 0
  else utilsTextToInt (query.text.drop key.text.length)

/-- The period is stored. -/
def AttributeKey.setPeriod (key : AttributeKey) (period : UInt32) (attr : Lwm2mAttributes) :
    Lwm2mAttributes :=
  let attr := { attr with toSet := attr.toSet ||| key.flag }
  match key with
  | .minPeriod => { attr with minPeriod := period }
  | .maxPeriod => { attr with maxPeriod := period }
  | .greaterThan | .lessThan | .step => attr

/-- The threshold is stored. -/
def AttributeKey.setThreshold (key : AttributeKey) (threshold : UInt64) (attr : Lwm2mAttributes) :
    Lwm2mAttributes :=
  let attr := { attr with toSet := attr.toSet ||| key.flag }
  match key with
  | .greaterThan => { attr with greaterThan := threshold }
  | .lessThan => { attr with lessThan := threshold }
  | .step => { attr with step := threshold }
  | .minPeriod | .maxPeriod => attr

/-- The branch of a key with its `=`. `textToFloat` is `utils_textToFloat`, which is called once for
a key at most; with a length below 0 it copies past its memory. -/
def setAttribute (textToFloat : AttributeKey → List UInt8 → Option UInt64) (query : QuerySegment)
    (key : AttributeKey) (attr : Lwm2mAttributes) : Except Fault (Option Lwm2mAttributes) :=
  if (attr.toSet ||| attr.toClear) &&& key.flag ≠ 0 then .ok none
  else if query.text.length = key.text.length then .ok none
  else if key.isPeriod then
    match readPeriod query key with
    | none => .ok none
    | some value =>
      if value < 0 then .ok none else .ok (some (key.setPeriod value.toUInt64.toUInt32 attr))
  else if query.text.length < key.text.length then .error .outOfBounds
  else
    match textToFloat key (query.text.drop key.text.length) with
    | none => .ok none
    | some value =>
      if key = .step ∧ doubleLess value 0 then .ok none
      else .ok (some (key.setThreshold value attr))

/-- The branch of a key without its `=`. -/
def clearAttribute (query : QuerySegment) (key : AttributeKey) (attr : Lwm2mAttributes) :
    Option Lwm2mAttributes :=
  if (attr.toSet ||| attr.toClear) &&& key.flag ≠ 0 then none
  else if query.text.length ≠ key.text.length - 1 then none
  else some { attr with toClear := attr.toClear ||| key.flag }

/-- What a segment does to the attributes. -/
def readAttribute (textToFloat : AttributeKey → List UInt8 → Option UInt64) (query : QuerySegment)
    (attr : Lwm2mAttributes) : Except Fault (Option Lwm2mAttributes) :=
  match findAttribute query attributeKeys with
  | none => .ok none
  | some (key, true) => setAttribute textToFloat query key attr
  | some (key, false) => .ok (clearAttribute query key attr)

/-- The loop of `prv_readAttributes`: the attributes, none standing for -1, and whether everything
that is read is inside its segment. -/
def readAttributesLoop (textToFloat : AttributeKey → List UInt8 → Option UInt64) :
    List QuerySegment → Lwm2mAttributes → Except Fault (Option Lwm2mAttributes × Bool)
  | [], attr => .ok (some attr, true)
  | query :: next, attr =>
    let inside := findsInside query attributeKeys
    match readAttribute textToFloat query attr with
    | .error fault => .error fault
    | .ok none => .ok (none, inside)
    | .ok (some attr) =>
      (readAttributesLoop textToFloat next attr).map fun out => (out.1, inside && out.2)

/-- The attributes behind `memset`. -/
def noAttributes : Lwm2mAttributes where
  toSet := 0
  toClear := 0
  minPeriod := 0
  maxPeriod := 0
  greaterThan := 0
  lessThan := 0
  step := 0

/-- `prv_readAttributes`. -/
def prvReadAttributes (textToFloat : AttributeKey → List UInt8 → Option UInt64)
    (query : List QuerySegment) : Except Fault (Option Lwm2mAttributes × Bool) :=
  readAttributesLoop textToFloat query noAttributes

end Wakaama
