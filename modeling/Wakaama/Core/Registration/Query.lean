import Wakaama.Core.NumberBuffer
import Wakaama.Core.RegisterPayload
import Wakaama.Core.Registration.Parameters

/-!
# The query of a registration (`core/registration.c`, `coap/er-coap-13/er-coap-13.c`)

A client adds up the length of its Uri-Query, writes it into a buffer of that length, and
`coap_set_header_uri_query` cuts it into options; this is the build without
`LWM2M_VERSION_1_0`. A writer is given the text that is there already, as in
`object_getRegisterPayload`.
-/

namespace Wakaama

/-- `BINDING_U`. -/
def bindingU : UInt8 := 0x02

/-- `BINDING_S`. -/
def bindingS : UInt8 := 0x08

/-- `QUERY_STARTER`: `?`. -/
def queryStarter : UInt8 := 63

/-- `QUERY_DELIMITER`: `&`. -/
def queryDelimiter : UInt8 := 38

/-- `LWM2M_VERSION`: `1.1`. -/
def lwm2mVersionText : List UInt8 := [49, 46, 49]

/-- What the query tells of the client: `contextP->endpointName`, `contextP->msisdn`,
`server->binding` and `server->lifetime`, the texts being C strings. -/
structure QuerySource where
  endpointName : List UInt8
  msisdn : Option (List UInt8)
  binding : UInt8
  lifetime : Int64
  endpointName_string : 0 ∉ endpointName
  msisdn_string : ∀ text ∈ msisdn, 0 ∉ text

/-- `QUERY_STARTER QUERY_VERSION_FULL QUERY_DELIMITER QUERY_NAME`. -/
def queryFront : List UInt8 :=
  queryStarter :: (QueryKey.version.text ++ lwm2mVersionText ++ queryDelimiter :: QueryKey.name.text)

/-- `QUERY_DELIMITER` and a key. -/
def QueryKey.delimited (key : QueryKey) : List UInt8 := queryDelimiter :: key.text

/-- The flags of a binding with their letters, in the order in which they are written. -/
def bindingLetters : List (UInt8 × UInt8) :=
  [(bindingU, 85), (bindingT, 84), (bindingS, 83), (bindingN, 78)]

/-- The binding has a flag other than `BINDING_UNKNOWN` and `BINDING_Q`. -/
def hasLetters (binding : UInt8) : Bool := binding &&& ~~~(bindingUnknown ||| bindingQ) != 0

/-- `index += n`, `index` being an `int`. -/
def queryLengthAdd (index : Int) (n : Nat) : Int := cInt (index + n)

/-- One for each letter of the binding. -/
def lettersLength (binding : UInt8) : List (UInt8 × UInt8) → Int → Int
  | [], index => index
  | (flag, _) :: letters, index =>
    lettersLength binding letters (if binding &&& flag ≠ 0 then queryLengthAdd index 1 else index)

/-- The part of the msisdn. -/
def msisdnLength (msisdn : Option (List UInt8)) (index : Int) : Int :=
  match msisdn with
  | none => index
  | some msisdn =>
    queryLengthAdd (queryLengthAdd index QueryKey.sms.delimited.length) msisdn.length

/-- The part of the binding. -/
def bindingLength (binding : UInt8) (index : Int) : Int :=
  let index :=
    if hasLetters binding then
      lettersLength binding bindingLetters
        (queryLengthAdd index QueryKey.binding.delimited.length)
    else index
  if binding &&& bindingQ ≠ 0 then queryLengthAdd index QueryKey.queueMode.delimited.length
  else index

/-- The part of the lifetime, and the end: 0 when the lifetime does not fit the buffer in which it
is written on trial. -/
def lifetimeLength (lifetime : Int64) (index : Int) : Int :=
  if lifetime ≠ 0 then
    let index := queryLengthAdd index QueryKey.lifetime.delimited.length
    match utilsIntToText lifetime 21 with
    | [] => 0
    | text => queryLengthAdd (queryLengthAdd index text.length) 1
  else queryLengthAdd index 1

/-- `prv_getRegistrationQueryLength`. -/
def prvGetRegistrationQueryLength (source : QuerySource) : Int :=
  let index := queryLengthAdd 0 queryFront.length
  let index := queryLengthAdd index source.endpointName.length
  let index := msisdnLength source.msisdn index
  let index := bindingLength source.binding index
  lifetimeLength source.lifetime index

/-- The letters of the flags that are set. -/
def writeLetters (length : Nat) (binding : UInt8) :
    List (UInt8 × UInt8) → List UInt8 → Except WriteStop (List UInt8)
  | [], text => .ok text
  | (flag, letter) :: letters, text => do
    let text ← if binding &&& flag ≠ 0 then writeByte length letter text else .ok text
    writeLetters length binding letters text

/-- The msisdn with its key, if there is one. -/
def writeMsisdn (length : Nat) (msisdn : Option (List UInt8)) (text : List UInt8) :
    Except WriteStop (List UInt8) :=
  match msisdn with
  | none => .ok text
  | some msisdn => do
    let text ← writeString length QueryKey.sms.delimited text
    writeString length msisdn text

/-- The binding's letters with their key, and the flag for queue mode. -/
def writeBinding (length : Nat) (binding : UInt8) (text : List UInt8) :
    Except WriteStop (List UInt8) := do
  let text ←
    if hasLetters binding then do
      let text ← writeString length QueryKey.binding.delimited text
      writeLetters length binding bindingLetters text
    else .ok text
  if binding &&& bindingQ ≠ 0 then writeString length QueryKey.queueMode.delimited text
  else .ok text

/-- The lifetime with its key, unless it is the default. -/
def writeLifetime (length : Nat) (lifetime : Int64) (text : List UInt8) :
    Except WriteStop (List UInt8) :=
  if lifetime ≠ 0 then do
    let text ← writeString length QueryKey.lifetime.delimited text
    let room ← roomBehind length text
    match utilsIntToText lifetime room with
    | [] => .error .refused
    | digits => .ok (text ++ digits)
  else .ok text

/-- `prv_getRegistrationQuery`: the query with its NUL. The result is the length of both. -/
def prvGetRegistrationQuery (source : QuerySource) (length : Nat) :
    Except WriteStop (List UInt8) := do
  let text ← writeString length queryFront []
  let text ← writeString length source.endpointName text
  let text ← writeMsisdn length source.msisdn text
  let text ← writeBinding length source.binding text
  let text ← writeLifetime length source.lifetime text
  writeByte length 0 text

/-- The loop of `coap_set_header_uri_query`: the segments of a string, `segment` being the part of
the first one that was passed over. Behind a `&` at the end there is none. -/
def uriQuerySegments (segment : List UInt8) : List UInt8 → List (List UInt8)
  | [] => [segment]
  | character :: query =>
    if character = queryDelimiter then
      if query = [] then [segment] else segment :: uriQuerySegments [] query
    else uriQuerySegments (segment ++ [character]) query

/-- `coap_set_header_uri_query`, with memory for every option. -/
def coapSetHeaderUriQuery (query : List UInt8) : List MultiOption :=
  let query := if query.head? = some queryStarter then query.tail else query
  (uriQuerySegments [] query).map fun segment => { len := segment.length.toUInt8, data := segment }

/-- The flags that are told in the query: the letters and queue mode. -/
def bindingFlags : UInt8 := bindingU ||| bindingT ||| bindingS ||| bindingN ||| bindingQ

/-- What the options say is what the query was made of. -/
structure ParametersOf (source : QuerySource) (parameters : RegisterParameters) : Prop where
  name : parameters.name = some source.endpointName
  msisdn : parameters.msisdn = source.msisdn
  lifetime : (parameters.lifetime.toNat : Int) = source.lifetime.toInt
  version : parameters.version = .version11
  binding : parameters.binding &&& bindingFlags = source.binding &&& bindingFlags

/-- The query has the length that was added up, and its options are read back. -/
def QueryRoundTrip (source : QuerySource) : Prop :=
  ∃ query, prvGetRegistrationQuery source (prvGetRegistrationQueryLength source).toNat =
      .ok (query ++ [0]) ∧
    ((query ++ [0]).length : Int) = prvGetRegistrationQueryLength source ∧
    ∃ parameters,
      prvGetParameters ((coapSetHeaderUriQuery query).map fun option => (option, true)) =
        .ok (some parameters) ∧ ParametersOf source parameters

/-- The texts hold no `&`. -/
structure QuerySource.Undelimited (source : QuerySource) : Prop where
  endpointName : queryDelimiter ∉ source.endpointName
  msisdn : ∀ text ∈ source.msisdn, queryDelimiter ∉ text

/-- What the options can carry and the server takes: the texts are not empty, each fits an option
with its key, and a binding with flags of its own has a letter. -/
structure QuerySource.Carried (source : QuerySource) : Prop where
  endpointName : source.endpointName ≠ [] ∧
    (QueryKey.name.text ++ source.endpointName).length < 2 ^ 8
  msisdn : ∀ text ∈ source.msisdn, text ≠ [] ∧ (QueryKey.sms.text ++ text).length < 2 ^ 8
  binding : hasLetters source.binding = true →
    ∃ letter ∈ bindingLetters, source.binding &&& letter.1 ≠ 0

end Wakaama
