import Wakaama.Core.UriPath
import Wakaama.Misc.Decimal

/-!
# URIs as they are read (`core/uri.c`)

`lwm2m_stringToUri` with the number it returns, and `uri_decode` with what it reads of the memory:
the byte behind an empty segment, and the bytes of the alternate path up to its terminator.
-/

namespace Wakaama

/-- `lwm2m_stringToUri`: the URI and what is left behind `head`. -/
def stringToUriRest (buffer : List UInt8) : Option (Lwm2mUri × List UInt8) :=
  match buffer.dropWhile isSpace with
  | [] => none
  | character :: text =>
    if character ≠ 47 then none
    else if text = [] then some (.reset, [])
    else do
      let (objectId, text) ← parseId text
      let uri := { Lwm2mUri.reset with objectId }
      let text := skipSlash text
      if text = [] then return (uri, text)
      else
        let (instanceId, text) ← parseId text
        let uri := { uri with instanceId }
        let text := skipSlash text
        if text = [] then return (uri, text)
        else
          let (resourceId, text) ← parseId text
          let uri := { uri with resourceId }
          let text := skipSlash text
          if text = [] then return (uri, text)
          else
            let (resourceInstanceId, text) ← parseId text
            if text = [] then return ({ uri with resourceInstanceId }, text) else none

/-- The number that `lwm2m_stringToUri` returns: `head`, or 0. -/
def lwm2mStringToUriHead (buffer : List UInt8) : Nat :=
  match stringToUriRest buffer with
  | none => 0
  | some (_, rest) => buffer.length - rest.length

/-- The comparison of a segment with the bytes of the alternate path behind its slash. -/
def altPathMatches : List UInt8 → List UInt8 → Except Fault Bool
  | [], _ => .ok true
  | _ :: _, [] => .error .outOfBounds
  | byte :: data, expected :: altPath =>
    if byte ≠ expected then .ok false else altPathMatches data altPath

/-- `uri_decode` where the first segment is not a reserved one, with what it reads of the alternate
path, a string with a terminator. -/
def uriDecodeAltPathRead (altPath : Option (List UInt8)) (uriPath : List MultiOption)
    (code : UInt8) : Except Fault (RequestType × Lwm2mUri) :=
  match altPath, uriPath with
  | none, _ => .ok (uriDecodeDm uriPath code)
  | some _, [] => .ok (.unknown, .reset)
  | some altPath, first :: uriPath =>
    (altPathMatches first.text ((altPath ++ [0]).drop 1)).map fun found =>
      if found then uriDecodeDm uriPath code else (.unknown, .reset)

/-- `uri_decode`, with what it reads. The location of a registration is read even if it is empty. -/
def uriDecodeRead (altPath : Option (List UInt8)) (uriPath : List MultiOption) (code : UInt8) :
    Except Fault (RequestType × Lwm2mUri) :=
  match uriPath with
  | [] => uriDecodeAltPathRead altPath [] code
  | first :: rest =>
    if first.isSegment uriRegistrationSegment then
      match rest with
      | [] => .ok (.registration, .reset)
      | object :: rest =>
        if object.len = 0 then .error .outOfBounds
        else
          match uriGetNumber object with
          | none => .ok (.unknown, .reset)
          | some objectId =>
            .ok (if rest = [] then (.registration, { Lwm2mUri.reset with objectId })
              else (.unknown, .reset))
    else if first.isSegment uriBootstrapSegment then
      .ok (if rest = [] then (.bootstrap, .reset) else (.unknown, .reset))
    else if first.isSegment uriSendSegment then
      .ok (if rest = [] then (.send, .reset) else (.unknown, .reset))
    else uriDecodeAltPathRead altPath uriPath code

/-- A numeral: digits, one at least. -/
structure IsNumeral (numeral : List UInt8) : Prop where
  nonempty : numeral ≠ []
  digits : ∀ character ∈ numeral, isDigit character = true

/-- What may stand behind the first slash of a URI: nothing, or as many numerals as there is room
for, with slashes between them and one behind a numeral that is not the last possible one. -/
inductive PathText : Nat → List UInt8 → List (List UInt8) → Prop where
  | empty (room : Nat) : PathText room [] []
  | last {room : Nat} {numeral : List UInt8} (hnumeral : IsNumeral numeral) :
    PathText (room + 1) numeral [numeral]
  | more {room : Nat} {numeral text : List UInt8} {numerals : List (List UInt8)}
    (hnumeral : IsNumeral numeral) (hnext : PathText (room + 1) text numerals) :
    PathText (room + 2) (numeral ++ 47 :: text) (numeral :: numerals)

/-- The text of a URI with these numerals. -/
def UriText (buffer : List UInt8) (numerals : List (List UInt8)) : Prop :=
  ∃ spaces text, (∀ character ∈ spaces, isSpace character = true) ∧
    buffer = spaces ++ 47 :: text ∧ PathText 4 text numerals

/-- The value of a numeral. -/
def numeralValue (numeral : List UInt8) : Nat := decimalFrom 0 numeral

/-- The URI with these ids; those that are not there are not set. -/
def uriOfIds (ids : List Nat) : Lwm2mUri where
  objectId := (ids.getD 0 65535).toUInt16
  instanceId := (ids.getD 1 65535).toUInt16
  resourceId := (ids.getD 2 65535).toUInt16
  resourceInstanceId := (ids.getD 3 65535).toUInt16

/-- `lwm2m_stringToUri` accepts the text if it is that of a URI whose numerals are all ids, and
only then, and reads the whole of it. -/
structure StringToUriRight (buffer : List UInt8) : Prop where
  accepts : lwm2mStringToUriHead buffer ≠ 0 ↔
    ∃ numerals, UriText buffer numerals ∧ ∀ numeral ∈ numerals, numeralValue numeral < 65535
  reads : ∀ numerals, UriText buffer numerals →
    (∀ numeral ∈ numerals, numeralValue numeral < 65535) →
      lwm2mStringToUriHead buffer = buffer.length ∧
        lwm2mStringToUri buffer = some (uriOfIds (numerals.map numeralValue))

/-- The text is that of a URI, and the `int` of `prv_parseNumber` wraps around to an id at each
numeral, at one of them at least because it wraps around. -/
def WrapsToUri (buffer : List UInt8) : Prop :=
  ∃ numerals, UriText buffer numerals ∧
    (∀ numeral ∈ numerals, numeralValue numeral % 2 ^ 32 < 65535) ∧
    ∃ numeral ∈ numerals, 65535 ≤ numeralValue numeral

/-- A segment that is an id. -/
def IsId (segment : List UInt8) : Prop := IsNumeral segment ∧ numeralValue segment < 65535

/-- The paths of requests. -/
inductive RequestPath (altPath : Option (List UInt8)) : List (List UInt8) → Prop where
  | registration : RequestPath altPath [uriRegistrationSegment]
  | location {id : List UInt8} (hid : IsId id) : RequestPath altPath [uriRegistrationSegment, id]
  | bootstrap : RequestPath altPath [uriBootstrapSegment]
  | send : RequestPath altPath [uriSendSegment]
  | ids {segments : List (List UInt8)} (hlength : segments.length ≤ 4)
    (hids : ∀ segment ∈ segments, segment = [] ∨ IsId segment) :
    RequestPath altPath ((altPath.toList.map fun altPath => altPath.drop 1) ++ segments)

/-- The ids of a URI. -/
def Lwm2mUri.ids (uri : Lwm2mUri) : List UInt16 :=
  [uri.objectId, uri.instanceId, uri.resourceId, uri.resourceInstanceId]

/-- The segments that the ids of a request come from. -/
def idSegments (altPath : Option (List UInt8)) (type : RequestType)
    (segments : List (List UInt8)) : List (List UInt8) :=
  if type = .registration then segments.drop 1 else segments.drop altPath.toList.length

/-- What `uri_decode` makes of a path is right: the type is known only for a path of a request, the
URI of any other path is reset, a segment is set only below one that is, and each id that is set is
that of its segment. -/
structure DecodedRight (altPath : Option (List UInt8)) (segments : List (List UInt8))
    (out : RequestType × Lwm2mUri) : Prop where
  listed : out.1 ≠ .unknown → RequestPath altPath segments
  reset : out.1 = .unknown → out.2 = .reset
  closed : out.2.PrefixClosed
  ids : ∀ (i : Nat) (id : UInt16), out.2.ids[i]? = some id → id ≠ lwm2mMaxId →
    ∃ segment, (idSegments altPath out.1 segments)[i]? = some segment ∧ IsId segment ∧
      id.toNat = numeralValue segment

/-- `uri_decode` reads nothing but the segments and the alternate path, and is right. -/
def UriDecodeRight (altPath : Option (List UInt8)) (uriPath : List MultiOption) (code : UInt8) :
    Prop :=
  ∃ out, uriDecodeRead altPath uriPath code = .ok out ∧
    DecodedRight altPath (uriPath.map MultiOption.text) out

/-- What `uri_getNumber` takes for an id: digits up to the end or a slash, with the value modulo
2^32. -/
def ReadsAs (segment : List UInt8) (id : UInt16) : Prop :=
  ∃ numeral rest, segment = numeral ++ rest ∧ IsNumeral numeral ∧
    (rest = [] ∨ rest.head? = some 47) ∧ numeralValue numeral % 2 ^ 32 < 65535 ∧
    id = (numeralValue numeral % 2 ^ 32).toUInt16

/-- The segments behind the alternate path that `uri_decode` accepts: anything behind a first
segment that is empty, else up to four segments that are taken for ids, with empty ones at the end
only. -/
def LooseIds (segments : List (List UInt8)) : Prop :=
  segments.head? = some [] ∨ segments.length ≤ 4 ∧
    (∀ segment ∈ segments, segment = [] ∨ ∃ id, ReadsAs segment id) ∧
    segments.Pairwise fun segment next => segment = [] → next = []

/-- The segments that are reserved. -/
def isReserved (segment : List UInt8) : Bool :=
  [uriRegistrationSegment, uriBootstrapSegment, uriSendSegment].contains segment

/-- The paths that `uri_decode` gets wrong: an empty location, a first segment that goes on behind
the terminator of the alternate path, and a path that is no request's but is accepted, as a
registration whose location is taken for an id, or as ids, behind a segment that the alternate path
and its terminator start with. -/
inductive MisreadPath (altPath : Option (List UInt8)) : List (List UInt8) → Prop where
  | emptyLocation (rest : List (List UInt8)) :
    MisreadPath altPath (uriRegistrationSegment :: [] :: rest)
  | behindAltPath {path first : List UInt8} (rest : List (List UInt8)) (haltPath : altPath = some path)
    (hfirst : isReserved first = false) (hlonger : (path ++ [0]).drop 1 <+: first)
    (hne : (path ++ [0]).drop 1 ≠ first) : MisreadPath altPath (first :: rest)
  | looseLocation {segment : List UInt8} (hlocation : ∃ id, ReadsAs segment id)
    (hother : ¬ RequestPath altPath [uriRegistrationSegment, segment]) :
    MisreadPath altPath [uriRegistrationSegment, segment]
  | looseIds {segments : List (List UInt8)} (haltPath : altPath = none)
    (hfirst : segments.head?.all fun first => !isReserved first) (hids : LooseIds segments)
    (hother : ¬ RequestPath altPath segments) : MisreadPath altPath segments
  | looseAltPath {path first : List UInt8} {segments : List (List UInt8)}
    (haltPath : altPath = some path) (hfirst : isReserved first = false)
    (hstarts : first <+: (path ++ [0]).drop 1) (hids : LooseIds segments)
    (hother : ¬ RequestPath altPath (first :: segments)) : MisreadPath altPath (first :: segments)

end Wakaama
