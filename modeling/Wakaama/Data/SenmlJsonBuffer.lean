import Wakaama.Data.JsonBuffer

/-!
# Parsing SenML-JSON in a buffer (`data/senml_json.c`)

`prv_parseItem` and `senml_json_parse` with every byte that they read, up to `prv_convertRecord`.
The fields compare and convert the token and the value that `json_split` finds, each within its
length. Allocations succeed.
-/

namespace Wakaama

section Floats

variable (textToFloat : List UInt8 → Option UInt64)

/-- The loop of `prv_parseItem` of `senml_json.c` from an index on. -/
def senmlItemRounds (buffer : List UInt8) (bufferLen : Nat) (state : JsonItemState) (index : Nat) :
    Reading JsonItemState := do
  let (range, next) ← jsonSplitAt (buffer.drop index) (sizeLess bufferLen index)
  if next < 0 then throw .failed
  else if range.tokenLen = 0 then throw .failed
  else
    let token ← sliceAt (buffer.drop index) range.tokenStart range.tokenLen
    let value ← sliceAt (buffer.drop index) range.valueStart range.valueLen
    match jsonParseField textToFloat state token value with
    | none => throw .failed
    | some state =>
      if _h : index + (next.toNat + 1) < bufferLen then
        senmlItemRounds buffer bufferLen state (index + (next.toNat + 1))
      else return state
termination_by bufferLen - index

/-- `prv_parseItem` of `senml_json.c` behind the records before and what they leave. -/
def senmlNextRecord (buffer : List UInt8) (bufferLen : Nat)
    (state : List SenmlRecord × BaseValues) : Reading (List SenmlRecord × BaseValues) := do
  let fields ← senmlItemRounds textToFloat buffer bufferLen (jsonStartItem state.2) 0
  match jsonFinishItem fields with
  | none => throw .failed
  | some record => return (state.1 ++ [record], fields.base)

/-- `senml_json_parse` up to `prv_convertRecord`. -/
def senmlJsonParseAt (buffer : List UInt8) : Reading (List SenmlRecord) := do
  let index ← jsonSkipSpaceAt buffer buffer.length
  if index = buffer.length then throw .failed
  else
    let sign ← peekAt buffer index
    if sign ≠ jsonArrayBegin then throw .failed
    else
      let first ← goToNextChar buffer buffer.length index
      let count ← jsonCountItemsAt (buffer.drop first.val) (sizeLess buffer.length first.val)
      if count = 0 then throw .failed
      else
        let (state, _) ← jsonItemRounds (senmlNextRecord textToFloat) buffer buffer.length count
          first.val ([], ⟨[], 0, .node .undefined 0 .zero⟩)
        return state.1

end Floats

/-- The array of the text does not have more items than an `int` counts. -/
def SenmlArrayCounts (text : List UInt8) : Prop :=
  ∀ rest, jsonSkipSpace text = jsonArrayBegin :: rest →
    ¬ JsonItemsFront (jsonSkipSpace rest) (2 ^ 31)

end Wakaama
