import Wakaama.Data.JsonCommon
import Wakaama.Data.Tlv
import Wakaama.Misc.Reading

/-!
# Scanning JSON in a buffer (`data/json_common.c`)

`json_skipSpace`, `json_split`, `json_itemLength` and `json_countItems` with every byte that they
read. They are given a pointer and a length; behind the pointer the buffer may be of another
length. The result -1 is that they give up.
-/

namespace Wakaama

/-- The loop of `json_skipSpace` from an index on. -/
def jsonSkipSpaceFrom (buffer : List UInt8) (bufferLen i : Nat) : Reading Nat :=
  if _h : i < bufferLen then do
    let sign ← peekAt buffer i
    if prvIsWhiteSpace sign then jsonSkipSpaceFrom buffer bufferLen (i + 1) else return i
  else return i
termination_by bufferLen - i

/-- `json_skipSpace`. -/
def jsonSkipSpaceAt (buffer : List UInt8) (bufferLen : Nat) : Reading Nat :=
  jsonSkipSpaceFrom buffer bufferLen 0

/-- `_GO_TO_NEXT_CHAR`: the next index. At the end it is `goto error`. -/
def goToNextChar (buffer : List UInt8) (bufferLen index : Nat) :
    Reading { next : Nat // index < next } := do
  let skipped ← jsonSkipSpaceAt (buffer.drop (index + 1)) (sizeLess bufferLen (index + 1))
  if index + 1 + skipped = bufferLen then throw .failed
  else return ⟨index + 1 + skipped, by omega⟩

/-- Where `json_split` finds a token and its value. -/
structure JsonRange where
  tokenStart : Nat
  tokenLen : Nat
  valueStart : Nat
  valueLen : Nat

/-- The switch of `json_split`: the next step, or `goto loop_exit`. -/
def jsonSplitStep (buffer : List UInt8) (step : ItemStep) (range : JsonRange) (index : Nat)
    (sign : UInt8) : Reading (Option (ItemStep × JsonRange)) :=
  match step with
  | .start =>
    if sign = jsonComma then .ok none
    else if sign ≠ jsonQuote then .error .failed
    else .ok (some (.token, { range with tokenStart := index + 1 }))
  | .token =>
    if sign = jsonComma then .ok none
    else if sign = jsonQuote then
      .ok (some (.anySeparator, { range with tokenLen := index - range.tokenStart }))
    else .ok (some (.token, range))
  | .anySeparator =>
    if sign = jsonComma then .ok none
    else if sign ≠ jsonColon then .error .failed
    else .ok (some (.separator, range))
  | .separator =>
    if sign = jsonComma then .ok none
    else if sign = jsonQuote then .ok (some (.quotedValue, { range with valueStart := index }))
    else if prvIsReserved sign then .error .failed
    else .ok (some (.value, { range with valueStart := index }))
  | .quotedValue =>
    if sign = jsonQuote then do
      let last ← peekAt buffer (sizeLess index 1)
      if last ≠ backslash then
        return some (.done, { range with valueLen := index - range.valueStart + 1 })
      else return some (.quotedValue, range)
    else .ok (some (.quotedValue, range))
  | .value =>
    if sign = jsonComma then .ok none
    else if prvIsWhiteSpace sign then
      .ok (some (.done, { range with valueLen := index - range.valueStart }))
    else .ok (some (.value, range))
  | .done => if sign = jsonComma then .ok none else .error .failed

/-- `json_split` behind `loop_exit`. -/
def jsonSplitExit (step : ItemStep) (range : JsonRange) (index : Nat) : Reading (JsonRange × Int) :=
  match step with
  | .value => .ok ({ range with valueLen := index - range.valueStart }, toInt index)
  | .done => .ok (range, toInt index)
  | _ => .error .failed

/-- The loop of `json_split` from an index on. -/
def jsonSplitRounds (buffer : List UInt8) (bufferLen : Nat) (step : ItemStep) (range : JsonRange)
    (index : Nat) : Reading (JsonRange × Int) :=
  if _h : index < bufferLen then do
    let sign ← peekAt buffer index
    match ← jsonSplitStep buffer step range index sign with
    | none => jsonSplitExit step range index
    | some (step, range) =>
      let skipped ←
        if step.skipsSpace then
          jsonSkipSpaceAt (buffer.drop (index + 1)) (sizeLess bufferLen (index + 1))
        else .ok 0
      jsonSplitRounds buffer bufferLen step range (index + 1 + skipped)
  else jsonSplitExit step range index
termination_by bufferLen - index

/-- `json_split`: the ranges and the index of the comma or of the end, as an `int`. -/
def jsonSplitAt (buffer : List UInt8) (bufferLen : Nat) : Reading (JsonRange × Int) := do
  let index ← jsonSkipSpaceAt buffer bufferLen
  if index = bufferLen then throw .failed
  else jsonSplitRounds buffer bufferLen .start ⟨0, 0, 0, 0⟩ index

/-- `in` of `json_itemLength`. -/
inductive ItemPlace where
  | before
  | item
  | string

/-- The loop of `json_itemLength` from an index on. -/
def itemLengthRounds (buffer : List UInt8) (bufferLen : Nat) (place : ItemPlace) (index : Nat) :
    Reading Int :=
  if _h : index < bufferLen then do
    let sign ← peekAt buffer index
    match place with
    | .before =>
      if sign ≠ jsonItemBegin then throw .failed
      else
        let next ← goToNextChar buffer bufferLen index
        itemLengthRounds buffer bufferLen .item next.val
    | .item =>
      if sign = jsonItemBegin then throw .failed
      else if sign = jsonItemEnd then return toInt (index + 1)
      else if sign = jsonQuote then
        let next ← goToNextChar buffer bufferLen index
        itemLengthRounds buffer bufferLen .string next.val
      else
        let next ← goToNextChar buffer bufferLen index
        itemLengthRounds buffer bufferLen .item next.val
    | .string =>
      if sign = jsonQuote then
        let next ← goToNextChar buffer bufferLen index
        itemLengthRounds buffer bufferLen .item next.val
      else if sign = backslash then
        if index + 1 = bufferLen then throw .failed
        else
          let next ← goToNextChar buffer bufferLen (index + 1)
          itemLengthRounds buffer bufferLen .string next.val
      else
        let next ← goToNextChar buffer bufferLen index
        itemLengthRounds buffer bufferLen .string next.val
  else throw .failed
termination_by bufferLen - index
decreasing_by all_goals have := next.property; omega

/-- `json_itemLength`. -/
def jsonItemLengthAt (buffer : List UInt8) (bufferLen : Nat) : Reading Int :=
  itemLengthRounds buffer bufferLen .before 0

/-- The loop of `json_countItems` from an index on. -/
def countItemsRounds (buffer : List UInt8) (bufferLen count index : Nat) : Reading Nat :=
  if _h : index < bufferLen then do
    let len ← jsonItemLengthAt (buffer.drop index) (sizeLess bufferLen index)
    if len ≤ 0 then throw .failed
    else
      let count ← countUp count
      let behind ← goToNextChar buffer bufferLen (index + (len - 1).toNat)
      let sign ← peekAt buffer behind.val
      if sign = jsonFooter then return count
      else if sign = jsonComma then
        let next ← goToNextChar buffer bufferLen behind.val
        countItemsRounds buffer bufferLen count next.val
      else throw .failed
  else return count
termination_by bufferLen - index
decreasing_by
  have := behind.property
  have := next.property
  omega

/-- `json_countItems`. -/
def jsonCountItemsAt (buffer : List UInt8) (bufferLen : Nat) : Reading Nat :=
  countItemsRounds buffer bufferLen 0 0

/-- The loop of a parser over the items of its array, of which there are so many more; `parse` is
its `prv_parseItem`, with what it leaves for the next item. -/
def jsonItemRounds {σ : Type} (parse : List UInt8 → Nat → σ → Reading σ) (buffer : List UInt8)
    (bufferLen : Nat) : Nat → Nat → σ → Reading (σ × Nat)
  | 0, index, state => do
    let sign ← peekAt buffer index
    if sign = jsonFooter then return (state, index) else throw .failed
  | left + 1, index, state => do
    let itemLen ← jsonItemLengthAt (buffer.drop index) (sizeLess bufferLen index)
    if itemLen < 0 then throw .failed
    else
      let state ← parse (buffer.drop (index + 1)) (sizeLess itemLen.toNat 2) state
      let behind ← goToNextChar buffer bufferLen (index + itemLen.toNat - 1)
      let sign ← peekAt buffer behind.val
      if sign = jsonComma then
        let next ← goToNextChar buffer bufferLen behind.val
        jsonItemRounds parse buffer bufferLen left next.val state
      else if sign = jsonFooter ∧ left = 0 then
        jsonItemRounds parse buffer bufferLen left behind.val state
      else throw .failed

/-- What is behind the first item, of a length that is positive as an `int`. -/
def jsonItemBehind (text : List UInt8) : Option (List UInt8) :=
  match jsonItemLength text with
  | none => none
  | some len => if toInt len ≤ 0 then none else some (text.drop (toInt len).toNat)

/-- The text begins with so many items, with a comma behind each but the last. -/
inductive JsonItemsFront : List UInt8 → Nat → Prop
  | one {text behind : List UInt8} (hitem : jsonItemBehind text = some behind) :
    JsonItemsFront text 1
  | more {text behind rest : List UInt8} {count : Nat} (hitem : jsonItemBehind text = some behind)
    (hcomma : jsonSkipSpace behind = jsonComma :: rest)
    (h : JsonItemsFront (jsonSkipSpace rest) count) : JsonItemsFront text (count + 1)

/-- The text begins with so many items, with a comma behind each but the last, and a `]` behind
that. -/
inductive JsonItems : List UInt8 → Nat → Prop
  | last {text behind rest : List UInt8} (hitem : jsonItemBehind text = some behind)
    (hfooter : jsonSkipSpace behind = jsonFooter :: rest) : JsonItems text 1
  | more {text behind rest : List UInt8} {count : Nat} (hitem : jsonItemBehind text = some behind)
    (hcomma : jsonSkipSpace behind = jsonComma :: rest) (h : JsonItems (jsonSkipSpace rest) count) :
    JsonItems text (count + 1)

/-- As many items that are taken, up to what is behind the `]`. What `taken` is asked of are the
texts from an item on and behind it. -/
inductive JsonItemsTaken (taken : List UInt8 → List UInt8 → Prop) :
    List UInt8 → Nat → List UInt8 → Prop
  | last {text behind rest : List UInt8} (hitem : jsonItemBehind text = some behind)
    (htaken : taken text behind) (hfooter : jsonSkipSpace behind = jsonFooter :: rest) :
    JsonItemsTaken taken text 1 rest
  | more {text behind rest rest' : List UInt8} {count : Nat}
    (hitem : jsonItemBehind text = some behind) (htaken : taken text behind)
    (hcomma : jsonSkipSpace behind = jsonComma :: rest)
    (h : JsonItemsTaken taken (jsonSkipSpace rest) count rest') :
    JsonItemsTaken taken text (count + 1) rest'

end Wakaama
