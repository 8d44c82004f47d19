import Wakaama.Core.UriDecode
import Wakaama.Data.Json
import Wakaama.Data.JsonScan
import Wakaama.Data.SenmlJsonParse

/-!
# Parsing JSON in a buffer (`data/json.c`)

`prv_parseItem` and `json_parse` with every byte that they read, up to `prv_convertRecord`, which
works on the values of the records. Allocations succeed.
-/

namespace Wakaama

/-- The digits of an id from an index on: the id and the index behind it. -/
def readIdAt (value : List UInt8) (valueLen i readId : Nat) : Reading (Nat × Nat) :=
  if _h : i < valueLen - 1 then do
    let sign ← peekAt value i
    if sign = 47 then return (readId, i)
    else if sign < 48 ∨ 57 < sign then throw .failed
    else
      let readId := readId * 10 + (sign - 48).toNat
      if lwm2mMaxId.toNat < readId then throw .failed
      else readIdAt value valueLen (i + 1) readId
  else return (readId, i)
termination_by valueLen - i

/-- The loop over the ids of a name, of which there may be so many more; `i` is in front of one. -/
def readIdsAt (value : List UInt8) (valueLen : Nat) : Nat → Nat → Reading (List Nat × Nat)
  | 0, i => .ok ([], i)
  | left + 1, i => do
    let (readId, i) ← readIdAt value valueLen (i + 1) 0
    if i < valueLen - 1 ∧ 0 < left then
      let sign ← peekAt value i
      if sign = 47 then
        let (ids, i) ← readIdsAt value valueLen left i
        return (readId :: ids, i)
      else return ([readId], i)
    else return ([readId], i)

/-- The ids of a name; what is not named stays. -/
def setIds (uri : Lwm2mUri) (ids : List Nat) : Lwm2mUri where
  objectId := (ids[0]?.map Nat.toUInt16).getD uri.objectId
  instanceId := (ids[1]?.map Nat.toUInt16).getD uri.instanceId
  resourceId := (ids[2]?.map Nat.toUInt16).getD uri.resourceId
  resourceInstanceId := (ids[3]?.map Nat.toUInt16).getD uri.resourceInstanceId

/-- The check for quotes around a value. -/
def checkQuotes (value : List UInt8) : Reading Unit :=
  if value.length < 2 then .error .failed
  else do
    let first ← peekAt value 0
    if first ≠ jsonQuote then throw .failed
    else
      let last ← peekAt value (value.length - 1)
      if last ≠ jsonQuote then throw .failed else return ()

/-- The ids of a name between its quotes, with the slash in front left out. -/
def nameIdsAt (uri : Lwm2mUri) (value : List UInt8) (valueLen : Nat) : Reading Lwm2mUri := do
  let (ids, i) ← readIdsAt value valueLen 4 0
  if i < valueLen - 1 then throw .failed else return setIds uri ids

/-- The case `'n'` of `prv_parseItem`. -/
def jsonNameAt (uri : Lwm2mUri) (value : List UInt8) : Reading Lwm2mUri := do
  checkQuotes value
  let second ← peekAt value 1
  if second = 47 then
    if value.length < 4 then throw .failed
    else nameIdsAt uri (value.drop 1) (value.length - 1)
  else nameIdsAt uri value value.length

/-- The text between the quotes of a value. -/
def quotedAt (value : List UInt8) : Reading (List UInt8) := do
  checkQuotes value
  sliceAt value 1 (value.length - 2)

/-- The switch of `prv_parseItem` on the length of the token. -/
def jsonPairAt (record : JsonRecord) (token value : List UInt8) : Reading JsonRecord :=
  match token with
  | [key] =>
    if key = 110 then
      if record.ids.objectId ≠ lwm2mMaxId then .error .failed
      else do
        let ids ← jsonNameAt record.ids value
        return { record with ids }
    else if key = 118 then
      if record.type ≠ .unset then .error .failed else .ok { record with type := .float, value }
    else if key = 116 then .ok record
    else .error .failed
  | [key, kind] =>
    if kind ≠ 118 then .error .failed
    else if key = 98 then
      if record.type ≠ .unset then .error .failed
      else if strncmpEqual jsonTrueString value then .ok { record with type := .true }
      else if strncmpEqual jsonFalseString value then .ok { record with type := .false }
      else .error .failed
    else if key = 111 then
      if record.type ≠ .unset then .error .failed
      else do
        let value ← quotedAt value
        return { record with type := .objectLink, value }
    else if key = 115 then
      if record.type ≠ .unset then .error .failed
      else do
        let value ← quotedAt value
        return { record with type := .string, value }
    else .error .failed
  | _ => .error .failed

/-- The loop of `prv_parseItem` from an index on. -/
def jsonRecordRounds (buffer : List UInt8) (bufferLen : Nat) (record : JsonRecord) (index : Nat) :
    Reading JsonRecord := do
  let (range, next) ← jsonSplitAt (buffer.drop index) (sizeLess bufferLen index)
  if next < 0 then throw .failed
  else
    let token ← sliceAt (buffer.drop index) range.tokenStart range.tokenLen
    let value ← sliceAt (buffer.drop index) range.valueStart range.valueLen
    let record ← jsonPairAt record token value
    if _h : index + (next.toNat + 1) < bufferLen then
      jsonRecordRounds buffer bufferLen record (index + (next.toNat + 1))
    else return record
termination_by bufferLen - index

/-- The record that `prv_parseItem` starts with. -/
def jsonNewRecord : JsonRecord := ⟨.reset, .unset, []⟩

/-- `prv_parseItem` of `json.c`. -/
def jsonRecordAt (buffer : List UInt8) (bufferLen : Nat) : Reading JsonRecord :=
  jsonRecordRounds buffer bufferLen jsonNewRecord 0

/-- `JSON_MIN_ARRAY_LEN` and `JSON_MIN_BX_LEN`. -/
def jsonMinArrayLen : Nat := 21
def jsonMinBxLen : Nat := 5

/-- `'['` -/
def jsonArrayBegin : UInt8 := 91

/-- `prv_parseItem` for the next record of the array. -/
def jsonNextRecord (buffer : List UInt8) (bufferLen : Nat) (records : List JsonRecord) :
    Reading (List JsonRecord) := do
  let record ← jsonRecordAt buffer bufferLen
  return records ++ [record]

/-- The case `'e'` of `json_parse` behind the key: the records and the index of the `]`. -/
def jsonArrayAt (buffer : List UInt8) (bufferLen index : Nat) :
    Reading (List JsonRecord × Nat) := do
  let colon ← goToNextChar buffer bufferLen index
  let sign ← peekAt buffer colon.val
  if sign ≠ jsonColon then throw .failed
  else
    let bracket ← goToNextChar buffer bufferLen colon.val
    let sign ← peekAt buffer bracket.val
    if sign ≠ jsonArrayBegin then throw .failed
    else
      let first ← goToNextChar buffer bufferLen bracket.val
      let count ← jsonCountItemsAt (buffer.drop first.val) (sizeLess bufferLen first.val)
      if count = 0 then throw .failed
      else jsonItemRounds jsonNextRecord buffer bufferLen count first.val []

/-- The end of a member, as the code looks for it. -/
def isMemberEnd (sign : UInt8) : Bool := sign == jsonComma || sign == jsonItemEnd

/-- The loop that skips the value of `"bt"`. -/
def skipTokenFrom (buffer : List UInt8) (bufferLen index : Nat) : Reading Nat :=
  if _h : index < bufferLen then do
    let sign ← peekAt buffer index
    if isMemberEnd sign then return index else skipTokenFrom buffer bufferLen (index + 1)
  else return index
termination_by bufferLen - index

/-- The case `"bt"` of `json_parse` behind the key. -/
def jsonTimeAt (buffer : List UInt8) (bufferLen index : Nat) : Reading Nat := do
  let index ← skipTokenFrom buffer bufferLen index
  if index = bufferLen then throw .failed else return index - 1

/-- The loop that looks for the end of `"bn"`; it reads a character in front of its check of the
index. -/
def itemLenFrom (buffer : List UInt8) (bufferLen index itemLen : Nat) : Reading Nat := do
  let sign ← peekAt buffer (index + itemLen)
  if isMemberEnd sign then return itemLen
  else if _h : index + itemLen < bufferLen then
    let _ ← countUp itemLen
    itemLenFrom buffer bufferLen index (itemLen + 1)
  else return itemLen
termination_by bufferLen - (index + itemLen)

/-- The case `"bn"` of `json_parse` from the quote in front of the key on: `bnStart` and `bnLen`, and
the index. -/
def jsonBaseNameAt (buffer : List UInt8) (bufferLen index : Nat) : Reading ((Nat × Nat) × Nat) := do
  let itemLen ← itemLenFrom buffer bufferLen index 0
  if index + itemLen = bufferLen then throw .failed
  else
    let (range, next) ← jsonSplitAt (buffer.drop index) itemLen
    if next < 0 then throw .failed
    else return ((range.valueStart + index, range.valueLen), index + next.toNat - 1)

/-- What `json_parse` has found. -/
structure JsonSeen where
  records : Option (List JsonRecord)
  base : Option (Nat × Nat)
  time : Bool

/-- How many of the members may still come. -/
def JsonSeen.left (seen : JsonSeen) : Nat :=
  (if seen.records = none then 1 else 0) + (if seen.base = none then 1 else 0) +
    (if seen.time = false then 1 else 0)

/-- A member of the object, whose key begins at an index, and the last index of it. -/
def jsonMemberAt (buffer : List UInt8) (bufferLen : Nat) (seen : JsonSeen) (key : UInt8)
    (index : Nat) : Reading ({ seen' : JsonSeen // seen'.left < seen.left } × Nat) :=
  if key = 101 then
    if sizeLess bufferLen index < jsonMinArrayLen then .error .failed
    else do
      let sign ← peekAt buffer (index + 1)
      if sign ≠ jsonQuote then throw .failed
      else if h : seen.records = none then
        let (records, last) ← jsonArrayAt buffer bufferLen (index + 1)
        return (⟨{ seen with records := some records }, by simp [JsonSeen.left, h]⟩, last)
      else throw .failed
  else if key = 98 then
    if sizeLess bufferLen index < jsonMinBxLen then .error .failed
    else do
      let kind ← peekAt buffer (index + 1)
      if kind = 116 then
        let sign ← peekAt buffer (index + 2)
        if sign ≠ jsonQuote then throw .failed
        else if h : seen.time = false then
          let last ← jsonTimeAt buffer bufferLen (index + 2)
          return (⟨{ seen with time := true }, by simp [JsonSeen.left, h]⟩, last)
        else throw .failed
      else if kind = 110 then
        let sign ← peekAt buffer (index + 2)
        if sign ≠ jsonQuote then throw .failed
        else if h : seen.base = none then
          let (base, last) ← jsonBaseNameAt buffer bufferLen (index + 2 - 3)
          return (⟨{ seen with base := some base }, by simp [JsonSeen.left, h]⟩, last)
        else throw .failed
      else throw .failed
  else .error .failed

/-- The loop of `json_parse`. The check behind the quote tests the index of the quote. -/
def jsonMembersAt (buffer : List UInt8) (bufferLen : Nat) (seen : JsonSeen) (index : Nat) :
    Reading JsonSeen := do
  let quote ← goToNextChar buffer bufferLen index
  let sign ← peekAt buffer quote.val
  if sign ≠ jsonQuote then throw .failed
  else if bufferLen ≤ quote.val then throw .failed
  else
    let key ← peekAt buffer (quote.val + 1)
    let (seen', last) ← jsonMemberAt buffer bufferLen seen key (quote.val + 1)
    let next ← goToNextChar buffer bufferLen last
    let sign ← peekAt buffer next.val
    if sign = jsonComma then jsonMembersAt buffer bufferLen seen'.val next.val
    else if sign = jsonItemEnd then return seen'.val
    else throw .failed
termination_by seen.left
decreasing_by exact seen'.property

/-- The base URI: that of the base name, or the URI of the request. -/
def jsonBaseUriAt (buffer : List UInt8) (uri : Option Lwm2mUri) :
    Option (Nat × Nat) → Reading (Option Lwm2mUri)
  | none => .ok uri
  | some (bnStart, bnLen) =>
    if bnLen < 3 then .error .failed
    else do
      let first ← peekAt buffer bnStart
      if first ≠ jsonQuote then throw .failed
      else
        let last ← peekAt buffer (bnStart + bnLen - 1)
        if last ≠ jsonQuote then throw .failed
        else if bnLen - 2 = 1 then
          let sign ← peekAt buffer (bnStart + 1)
          if sign ≠ 47 then throw .failed else return none
        else
          let last ← peekAt buffer (bnStart + 1 + (bnLen - 2) - 1)
          let bnLen := if last = 47 then bnLen - 2 - 1 else bnLen - 2
          let text ← sliceAt buffer (bnStart + 1) bnLen
          match lwm2mStringToUri text with
          | none => throw .failed
          | some base =>
            if lwm2mStringToUriHead text ≠ bnLen then throw .failed else return some base

/-- What `prv_convertRecord` is called with, if there is an array. -/
def jsonFinishAt (buffer : List UInt8) (uri : Option Lwm2mUri) (seen : JsonSeen) :
    Reading (Option (Option Lwm2mUri × List JsonRecord)) :=
  match seen.records with
  | none => .ok none
  | some records => do
    let base ← jsonBaseUriAt buffer uri seen.base
    return some (base, records)

/-- `json_parse` up to `prv_convertRecord`: the base URI and the records, if there is an array. -/
def jsonParseAt (uri : Option Lwm2mUri) (buffer : List UInt8) :
    Reading (Option (Option Lwm2mUri × List JsonRecord)) := do
  let index ← jsonSkipSpaceAt buffer buffer.length
  if index = buffer.length then throw .failed
  else
    let sign ← peekAt buffer index
    if sign ≠ jsonItemBegin then throw .failed
    else
      let seen ← jsonMembersAt buffer buffer.length ⟨none, none, false⟩ index
      jsonFinishAt buffer uri seen

/-- The pairs of an item as the record takes them. -/
def jsonParseRecord (record : JsonRecord) (text : List UInt8) : Reading JsonRecord :=
  match _hsplit : jsonSplit text with
  | none => .error .failed
  | some (token, value, rest) => do
    let record ← jsonPairAt record token value
    if rest = [] then return record else jsonParseRecord record rest
termination_by text.length
decreasing_by exact jsonSplit_rest _hsplit

/-- The pairs between the braces of the first item are those of a record. -/
def JsonRecordTaken (text behind : List UInt8) : Prop :=
  ∃ record, jsonParseRecord jsonNewRecord
    ((text.drop 1).take (text.length - behind.length - 2)) = .ok record

/-- The text is `"e"`, a colon and a `[`, with enough behind the quote, and the items begin. -/
inductive JsonArrayBegins : List UInt8 → List UInt8 → Prop
  | intro {more colon bracket : List UInt8} (hlen : jsonMinArrayLen ≤ more.length + 2)
    (hcolon : jsonSkipSpace more = jsonColon :: colon)
    (hbracket : jsonSkipSpace colon = jsonArrayBegin :: bracket)
    (hitems : jsonSkipSpace bracket ≠ []) :
    JsonArrayBegins (jsonQuote :: 101 :: jsonQuote :: more) (jsonSkipSpace bracket)

/-- The text is `"bt"` or `"bn"`, with `kind` the second letter, with enough behind the quote. -/
def JsonBaseBegins (kind : UInt8) (key more : List UInt8) : Prop :=
  key = jsonQuote :: 98 :: kind :: jsonQuote :: more ∧ jsonMinBxLen ≤ more.length + 3

/-- What the code takes for the end of a member, and what is in front of it. -/
def memberBehind (text : List UInt8) : List UInt8 := text.dropWhile fun sign => !isMemberEnd sign
def memberFront (text : List UInt8) : List UInt8 := text.takeWhile fun sign => !isMemberEnd sign

/-- The text behind the brace or the comma in front of a member: the members before are complete.
The flags say whether an array, a base name and a base time are among them. -/
inductive JsonReaches (text : List UInt8) : Bool → Bool → Bool → List UInt8 → Prop
  | start {rest : List UInt8} (h : jsonSkipSpace text = jsonItemBegin :: rest) :
    JsonReaches text false false false rest
  | array {base time : Bool} {rest items behind next : List UInt8} {count : Nat}
    (h : JsonReaches text false base time rest)
    (hbegins : JsonArrayBegins (jsonSkipSpace rest) items) (hcount : count < 2 ^ 31)
    (hrecords : JsonItemsTaken JsonRecordTaken items count behind)
    (hcomma : jsonSkipSpace behind = jsonComma :: next) : JsonReaches text true base time next
  | time {array base : Bool} {rest more next : List UInt8}
    (h : JsonReaches text array base false rest)
    (hbegins : JsonBaseBegins 116 (jsonSkipSpace rest) more)
    (hcomma : memberBehind more = jsonComma :: next) : JsonReaches text array base true next
  | base {array time : Bool} {rest more next : List UInt8}
    (h : JsonReaches text array false time rest)
    (hbegins : JsonBaseBegins 110 (jsonSkipSpace rest) more)
    (hname : jsonSplit (memberFront (jsonSkipSpace rest)) ≠ none)
    (hcount : (memberFront (jsonSkipSpace rest)).length < 2 ^ 31)
    (hcomma : memberBehind more = jsonComma :: next) : JsonReaches text array true time next

/-- No member that is reached is cut behind its first quote, a base name has an end, and it and the
array are not too long for an `int`. -/
def JsonMembersEnd (text : List UInt8) : Prop :=
  ∀ array base time rest, JsonReaches text array base time rest →
    jsonSkipSpace rest ≠ [jsonQuote] ∧
    (base = false → ∀ more, JsonBaseBegins 110 (jsonSkipSpace rest) more →
      memberBehind more ≠ [] ∧ (memberFront (jsonSkipSpace rest)).length < 2 ^ 31) ∧
    (array = false → ∀ items, JsonArrayBegins (jsonSkipSpace rest) items →
      ¬ JsonItemsFront items (2 ^ 31))

end Wakaama
