import Wakaama.Core.NumberBuffer
import Wakaama.Core.UriDecode

/-!
# URIs written into buffers (`core/uri.c`)

`lwm2m_uriToString` on the memory it writes to.
-/

namespace Wakaama

/-- One segment of `lwm2m_uriToString`: the memory and the new head, `none` is the result -1. -/
def uriSegmentAt (bufferLen : Nat) (id : UInt16) (head : Nat) (memory : List UInt8) :
    Except Fault (List UInt8 × Option Nat) :=
  if sizeT (bufferLen - 1) ≤ head then .ok (memory, none)
  else do
    let memory ← storeByte memory head 47
    let head := head + 1
    let (memory, result) ←
      utilsIntToTextAt id.toUInt64.toInt64 head (sizeT (bufferLen - head)) memory
    let res := cInt result
    if res ≤ 0 then return (memory, none) else return (memory, some (sizeT (head + res)))

/-- The segments one behind the other. -/
def uriSegmentsAt (bufferLen : Nat) :
    List UInt16 → Nat → List UInt8 → Except Fault (List UInt8 × Option Nat)
  | [], head, memory => .ok (memory, some head)
  | id :: ids, head, memory => do
    let (memory, behind) ← uriSegmentAt bufferLen id head memory
    match behind with
    | none => return (memory, none)
    | some head => uriSegmentsAt bufferLen ids head memory

/-- The ids that are set, each below one that is set, with the depth. -/
def Lwm2mUri.levels (uri : Lwm2mUri) : List UInt16 × UriDepth :=
  if uri.isSetObject then
    if uri.isSetInstance then
      if uri.isSetResource then
        if uri.isSetResourceInstance then
          ([uri.objectId, uri.instanceId, uri.resourceId, uri.resourceInstanceId],
            .resourceInstance)
        else ([uri.objectId, uri.instanceId, uri.resourceId], .resource)
      else ([uri.objectId, uri.instanceId], .objectInstance)
    else ([uri.objectId], .object)
  else ([], .none)

/-- `lwm2m_uriToString`: the memory, and the length of the text with the depth; `none` is the
result -1. -/
def lwm2mUriToStringAt (uri : Option Lwm2mUri) (bufferLen : Nat) (memory : List UInt8) :
    Except Fault (List UInt8 × Option (Int × UriDepth)) :=
  match uri with
  | none => .ok (memory, some (0, .none))
  | some uri =>
    if uri.isSetObject then do
      let (memory, head) ← uriSegmentsAt bufferLen uri.levels.1 0 memory
      return (memory, head.map fun (head : Nat) => (cInt head, uri.levels.2))
    else if sizeT (bufferLen - 1) ≤ 0 then .ok (memory, none)
    else do
      let memory ← storeByte memory 0 47
      return (memory, some (1, .none))

/-- The deepest id that is set. -/
def Lwm2mUri.depth (uri : Lwm2mUri) : UriDepth :=
  if uri.isSetResourceInstance then .resourceInstance
  else if uri.isSetResource then .resource
  else if uri.isSetInstance then .objectInstance
  else if uri.isSetObject then .object
  else .none

/-- `lwm2m_uriToString` writes a URI into a buffer of a length, whatever it holds: it writes inside
only, and either the result is -1, which does not happen in a buffer of `URI_MAX_STRING_LEN` bytes,
or `lwm2m_stringToUri` takes the whole text and gives the URI, whose depth is reported. -/
def WritesUri (uri : Lwm2mUri) (bufferLen : Nat) : Prop :=
  ∀ memory, memory.length = bufferLen → ∃ memory' result,
    lwm2mUriToStringAt (some uri) bufferLen memory = .ok (memory', result) ∧
      memory'.length = bufferLen ∧
      match result with
      | none => bufferLen ≠ uriMaxStringLen
      | some (n, depth) => 0 < n ∧ n ≤ bufferLen ∧ depth = uri.depth ∧
        (lwm2mStringToUriHead (memory'.take n.toNat) : Int) = n ∧
          lwm2mStringToUri (memory'.take n.toNat) = some uri

end Wakaama
