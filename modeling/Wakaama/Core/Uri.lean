import Wakaama.Core.Utils

/-!
# LwM2M URIs (`include/liblwm2m.h`, `core/uri.c`)

The ids of a path; a segment that is not there has the reserved id.
-/

namespace Wakaama

/-- `LWM2M_MAX_ID`. -/
def lwm2mMaxId : UInt16 := 0xFFFF

/-- `lwm2m_uri_t`. -/
structure Lwm2mUri where
  objectId : UInt16
  instanceId : UInt16
  resourceId : UInt16
  resourceInstanceId : UInt16
  deriving DecidableEq, Repr

namespace Lwm2mUri

/-- `LWM2M_URI_IS_SET_OBJECT`. -/
def isSetObject (uri : Lwm2mUri) : Bool := uri.objectId != lwm2mMaxId

/-- `LWM2M_URI_IS_SET_INSTANCE`. -/
def isSetInstance (uri : Lwm2mUri) : Bool := uri.instanceId != lwm2mMaxId

/-- `LWM2M_URI_IS_SET_RESOURCE`. -/
def isSetResource (uri : Lwm2mUri) : Bool := uri.resourceId != lwm2mMaxId

/-- `LWM2M_URI_IS_SET_RESOURCE_INSTANCE`. -/
def isSetResourceInstance (uri : Lwm2mUri) : Bool := uri.resourceInstanceId != lwm2mMaxId

end Lwm2mUri

/-- `uri_depth_t`. -/
inductive UriDepth where
  | none
  | object
  | objectInstance
  | resource
  | resourceInstance
  deriving DecidableEq, Repr

/-- The value of the enumerator: the number of ids. -/
def UriDepth.toNat : UriDepth → Nat
  | none => 0
  | object => 1
  | objectInstance => 2
  | resource => 3
  | resourceInstance => 4

/-- `URI_MAX_STRING_LEN`: /65535/65535/65535/65535. -/
def uriMaxStringLen : Nat := 24

/-- One segment of `lwm2m_uriToString`, behind the text `head`. -/
def uriSegment (bufferLen : Nat) (head : List UInt8) (id : UInt16) : Option (List UInt8) :=
  if bufferLen - 1 ≤ head.length then none
  else
    match utilsIntToText id.toUInt64.toInt64 (bufferLen - (head.length + 1)) with
    | [] => none
    | text => some (head ++ 47 :: text)

/-- `lwm2m_uriToString`: the text and how deep it goes; `none` is the result -1. -/
def lwm2mUriToString (uri : Option Lwm2mUri) (bufferLen : Nat) :
    Option (List UInt8 × UriDepth) :=
  match uri with
  | none => some ([], .none)
  | some uri =>
    if uri.isSetObject then do
      let text ← uriSegment bufferLen [] uri.objectId
      if uri.isSetInstance then
        let text ← uriSegment bufferLen text uri.instanceId
        if uri.isSetResource then
          let text ← uriSegment bufferLen text uri.resourceId
          if uri.isSetResourceInstance then
            let text ← uriSegment bufferLen text uri.resourceInstanceId
            return (text, .resourceInstance)
          else return (text, .resource)
        else return (text, .objectInstance)
      else return (text, .object)
    else if bufferLen - 1 ≤ 0 then none
    else some ([47], .none)

/-- The loop of `prv_parseNumber`, whose `int` wraps around: the number and what is left. -/
def parseNumberLoop (result : Int) : List UInt8 → Option (Int × List UInt8)
  | [] => some (result, [])
  | character :: rest =>
    if character = 47 then some (result, character :: rest)
    else if digitZero ≤ character ∧ character ≤ digitNine then
      parseNumberLoop
        (((result * 10).bmod (2 ^ 32) + (character - digitZero).toNat).bmod (2 ^ 32)) rest
    else none

/-- `prv_parseNumber` on a text that is not at its end, and the check of its result as an id. -/
def parseId (text : List UInt8) : Option (UInt16 × List UInt8) :=
  if text.head? = some 47 then none
  else
    match parseNumberLoop 0 text with
    | none => none
    | some (readNum, rest) =>
      if readNum < 0 ∨ lwm2mMaxId.toNat ≤ readNum then none
      else some (readNum.toNat.toUInt16, rest)

/-- `if (head < buffer_len && buffer[head] == '/') head += 1;` -/
def skipSlash : List UInt8 → List UInt8
  | [] => []
  | character :: rest => if character = 47 then rest else character :: rest

/-- `isspace`. -/
def isSpace (character : UInt8) : Bool := character == 32 || 9 ≤ character && character ≤ 13

/-- No id of a URI is set: `LWM2M_URI_RESET`. -/
def Lwm2mUri.reset : Lwm2mUri := ⟨lwm2mMaxId, lwm2mMaxId, lwm2mMaxId, lwm2mMaxId⟩

/-- `lwm2m_stringToUri`; `none` is the result 0. -/
def lwm2mStringToUri (buffer : List UInt8) : Option Lwm2mUri :=
  match buffer.dropWhile isSpace with
  | [] => none
  | character :: text =>
    if character ≠ 47 then none
    else if text = [] then some .reset
    else do
      let (objectId, text) ← parseId text
      let uri := { Lwm2mUri.reset with objectId }
      let text := skipSlash text
      if text = [] then return uri
      else
        let (instanceId, text) ← parseId text
        let uri := { uri with instanceId }
        let text := skipSlash text
        if text = [] then return uri
        else
          let (resourceId, text) ← parseId text
          let uri := { uri with resourceId }
          let text := skipSlash text
          if text = [] then return uri
          else
            let (resourceInstanceId, text) ← parseId text
            if text = [] then return { uri with resourceInstanceId } else none

end Wakaama
