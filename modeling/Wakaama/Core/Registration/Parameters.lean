import Wakaama.Core.UriDecode
import Wakaama.Misc.Run

/-!
# The parameters of a registration (`core/registration.c`)

`prv_getParameters` on the server: the Uri-Query segments are compared with the keys one after the
other, and each key sets a parameter. Reading behind the end of a segment is a fault.
-/

namespace Wakaama

/-- `lwm2m_version_t`. -/
inductive Lwm2mVersion where
  | missing
  | unrecognized
  | version10
  | version11
  deriving DecidableEq, Repr

/-- `BINDING_T`. -/
def bindingT : UInt8 := 0x04

/-- `BINDING_N`. -/
def bindingN : UInt8 := 0x10

/-- `BINDING_Q`. -/
def bindingQ : UInt8 := 0x20

/-- `utils_stringToVersion`. -/
def utilsStringToVersion : List UInt8 → Lwm2mVersion
  | [] => .missing
  | [49, 46, 48] => .version10
  | [49, 46, 49] => .version11
  | _ => .unrecognized

/-- The keys of a registration's Uri-Query. -/
inductive QueryKey where
  | name
  | sms
  | lifetime
  | version
  | binding
  | queueMode
  deriving DecidableEq, Repr

/-- `QUERY_NAME`, `QUERY_SMS`, `QUERY_LIFETIME`, `QUERY_VERSION`, `QUERY_BINDING` and
`QUERY_QUEUE_MODE`. -/
def QueryKey.text : QueryKey → List UInt8
  | .name => [101, 112, 61]
  | .sms => [115, 109, 115, 61]
  | .lifetime => [108, 116, 61]
  | .version => [108, 119, 109, 50, 109, 61]
  | .binding => [98, 61]
  | .queueMode => [81]

/-- The keys in the order in which a segment is compared with them. -/
def queryKeys : List QueryKey := [.name, .sms, .lifetime, .version, .binding, .queueMode]

/-- `lwm2m_strncmp` over the length of a key, which is told as equality. It reads up to the first
byte that differs. -/
def lwm2mStrncmp : List UInt8 → List UInt8 → Except Fault Bool
  | _, [] => .ok true
  | [], _ :: _ => .error .outOfBounds
  | byte :: data, expected :: key =>
    if byte ≠ expected then .ok false else lwm2mStrncmp data key

/-- The first key that the segment starts with. -/
def findKey (segment : List UInt8) : List QueryKey → Except Fault (Option QueryKey)
  | [] => .ok none
  | key :: keys =>
    match lwm2mStrncmp segment key.text with
    | .error fault => .error fault
    | .ok true => .ok (some key)
    | .ok false => findKey segment keys

/-- What `prv_getParameters` returns through its pointers. -/
structure RegisterParameters where
  name : Option (List UInt8)
  lifetime : UInt32
  msisdn : Option (List UInt8)
  binding : UInt8
  version : Lwm2mVersion
  deriving DecidableEq, Repr

/-- The loop over the digits of a lifetime. -/
def readLifetime : List UInt8 → UInt32 → Option UInt32
  | [], lifetime => some lifetime
  | character :: data, lifetime =>
    if character < 48 ∨ 57 < character then none
    else readLifetime data (lifetime * 10 + (character - 48).toUInt32)

/-- The branch of a key, `value` being what stands behind it in the segment and `allocated` whether
`lwm2m_malloc` has memory for it. It has no result where it goes to `error`. -/
def setParameter (key : QueryKey) (value : List UInt8) (allocated : Bool)
    (parameters : RegisterParameters) : Option RegisterParameters :=
  match key with
  | .name =>
    if parameters.name ≠ none ∨ value = [] then none
    else some { parameters with name := if allocated then some value else none }
  | .sms =>
    if parameters.msisdn ≠ none ∨ value = [] then none
    else some { parameters with msisdn := if allocated then some value else none }
  | .lifetime =>
    if parameters.lifetime ≠ 0 ∨ value = [] then none
    else (readLifetime value parameters.lifetime).map fun lifetime => { parameters with lifetime }
  | .version =>
    if parameters.version ≠ .missing ∨ value = [] then none
    else some { parameters with version := utilsStringToVersion value }
  | .binding =>
    if parameters.binding &&& ~~~bindingQ ≠ 0 ∨ value = [] then none
    else some { parameters with binding := parameters.binding ||| utilsStringToBinding value }
  | .queueMode =>
    if parameters.binding &&& bindingQ ≠ 0 ∨ value ≠ [] then none
    else some { parameters with binding := parameters.binding ||| bindingQ }

/-- The loop over the segments, each with whether there is memory for its value. -/
def getParametersLoop : List (MultiOption × Bool) → RegisterParameters →
    Except Fault (Option RegisterParameters)
  | [], parameters => .ok (some parameters)
  | (option, allocated) :: query, parameters =>
    match findKey option.text queryKeys with
    | .error fault => .error fault
    | .ok none => getParametersLoop query parameters
    | .ok (some key) =>
      match setParameter key (option.text.drop key.text.length) allocated parameters with
      | none => .ok none
      | some parameters => getParametersLoop query parameters

/-- The parameters before the loop. -/
def noParameters : RegisterParameters where
  name := none
  lifetime := 0
  msisdn := none
  binding := 0
  version := .missing

/-- The end of `prv_getParameters`: the binding that was not specified, and those that LwM2M 1.0
does not have. -/
def checkParameters (parameters : RegisterParameters) : Option RegisterParameters :=
  let parameters :=
    if parameters.binding = 0 then { parameters with binding := bindingUnknown } else parameters
  if parameters.version = .version10 ∧ parameters.binding &&& (bindingT ||| bindingN) ≠ 0 then none
  else some parameters

/-- `prv_getParameters`; no result stands for -1. -/
def prvGetParameters (query : List (MultiOption × Bool)) :
    Except Fault (Option RegisterParameters) :=
  (getParametersLoop query noParameters).map fun out => out.bind checkParameters

/-- The segments of a query. -/
def querySegments (query : List (MultiOption × Bool)) : List (List UInt8) :=
  query.map fun segment => segment.1.text

/-- What stands behind the key in a segment. -/
def QueryKey.valueIn (key : QueryKey) (segment : List UInt8) : Option (List UInt8) :=
  if key.text.isPrefixOf segment then some (segment.drop key.text.length) else none

/-- What stands behind the key in the segments. -/
def QueryKey.valuesIn (key : QueryKey) (segments : List (List UInt8)) : List (List UInt8) :=
  segments.filterMap key.valueIn

/-- The value is one for the key: none for `Q`, a numeral below 2^32 for `lt`, and anything but the
empty text for the others. -/
def QueryKey.Fits (key : QueryKey) (value : List UInt8) : Prop :=
  match key with
  | .queueMode => value = []
  | .lifetime => IsNumeral value ∧ numeralValue value < 2 ^ 32
  | _ => value ≠ []

/-- A key occurs twice, or with a value that is none for it. -/
def MalformedQuery (segments : List (List UInt8)) : Prop :=
  ∃ key : QueryKey, 2 ≤ (key.valuesIn segments).length ∨
    ∃ value ∈ key.valuesIn segments, ¬ key.Fits value

/-- The query names version 1.0 and a binding that this version does not have. -/
def VersionExcludesBinding (segments : List (List UInt8)) : Prop :=
  (∃ value ∈ QueryKey.version.valuesIn segments, utilsStringToVersion value = .version10) ∧
    ∃ value ∈ QueryKey.binding.valuesIn segments,
      utilsStringToBinding value &&& (bindingT ||| bindingN) ≠ 0

/-- `prv_getParameters` reads the segments only, fails on a malformed query, and otherwise returns
what the segments say. -/
structure ParametersRight (query : List (MultiOption × Bool)) : Prop where
  inside : ∀ fault, prvGetParameters query ≠ .error fault
  refuses : MalformedQuery (querySegments query) → prvGetParameters query = .ok none
  accepts : (∀ segment ∈ query, segment.2 = true) → ¬ MalformedQuery (querySegments query) →
    ¬ VersionExcludesBinding (querySegments query) →
    ∃ parameters, prvGetParameters query = .ok (some parameters) ∧
      (∀ value, parameters.name = some value ↔
        value ∈ QueryKey.name.valuesIn (querySegments query)) ∧
      (∀ value, parameters.msisdn = some value ↔
        value ∈ QueryKey.sms.valuesIn (querySegments query)) ∧
      ∀ value ∈ QueryKey.lifetime.valuesIn (querySegments query),
        parameters.lifetime.toNat = numeralValue value

/-- The segment is the beginning of a key and ends before it. -/
def TruncatedKey (segment : List UInt8) : Prop :=
  ∃ key : QueryKey, segment <+: key.text ∧ segment ≠ key.text

/-- The values behind the key, each with whether there was memory for it. -/
def QueryKey.occurrences (key : QueryKey) (query : List (MultiOption × Bool)) :
    List (List UInt8 × Bool) :=
  query.filterMap fun segment => (key.valueIn segment.1.text).map fun value => (value, segment.2)

/-- The check of a key turns the value down behind these segments. -/
def ValueRefused (key : QueryKey) (before : List (MultiOption × Bool)) (value : List UInt8) : Prop :=
  match key with
  | .name | .sms => (∃ earlier ∈ key.occurrences before, earlier.2 = true) ∨ value = []
  | .lifetime =>
    (∃ earlier ∈ key.occurrences before, numeralValue earlier.1 % 2 ^ 32 ≠ 0) ∨ ¬ IsNumeral value
  | .version | .binding => key.occurrences before ≠ [] ∨ value = []
  | .queueMode =>
    key.occurrences before ≠ [] ∨
      (∃ earlier ∈ QueryKey.binding.occurrences before,
        utilsStringToBinding earlier.1 &&& bindingQ ≠ 0) ∨ value ≠ []

/-- A segment passes the checks behind the others: it is no truncated key, and its value is not
turned down. -/
def PassesBehind (before : List (MultiOption × Bool)) (segment : MultiOption × Bool) : Prop :=
  ¬ TruncatedKey segment.1.text ∧
    ∀ key : QueryKey, ∀ value ∈ key.valueIn segment.1.text, ¬ ValueRefused key before value

/-- The segments all pass. -/
def QueryPasses (query : List (MultiOption × Bool)) : Prop := EachEvent PassesBehind [] query

/-- A truncated key is compared. -/
def TruncatedKeyRead (query : List (MultiOption × Bool)) : Prop :=
  ∃ before segment rest, query = before ++ segment :: rest ∧ QueryPasses before ∧
    TruncatedKey segment.1.text

/-- All segments of a malformed query pass. -/
def MalformedPasses (query : List (MultiOption × Bool)) : Prop :=
  QueryPasses query ∧ MalformedQuery (querySegments query) ∧
    ¬ VersionExcludesBinding (querySegments query)

/-- `Q` stands behind a binding that has the flag already, and nothing else is wrong. -/
def QueueModeRefused (query : List (MultiOption × Bool)) : Prop :=
  (∀ segment ∈ query, segment.2 = true) ∧ ¬ MalformedQuery (querySegments query) ∧
    ¬ VersionExcludesBinding (querySegments query) ∧
    ∃ before segment rest, query = before ++ segment :: rest ∧
      segment.1.text = QueryKey.queueMode.text ∧
      ∃ binding ∈ QueryKey.binding.valuesIn (querySegments before),
        utilsStringToBinding binding &&& bindingQ ≠ 0

end Wakaama
