import Wakaama.Coap.Packet
import Wakaama.Core.Uri

/-!
# Paths of requests (`core/uri.c`, `coap/transaction.c`)

The Uri-Path options that `transaction_new` sets, and what `uri_decode` makes of such options.
-/

namespace Wakaama

/-- `lwm2m_request_type_t`. -/
inductive RequestType where
  | unknown
  | dm
  | registration
  | bootstrap
  | deleteAll
  | send
  deriving DecidableEq, Repr

/-- `multi_option_t`: the length has eight bits, whatever the data has. -/
structure MultiOption where
  len : UInt8
  data : List UInt8
  deriving DecidableEq, Repr

/-- The bytes that are read of an option. -/
def MultiOption.text (option : MultiOption) : List UInt8 := option.data.take option.len.toNat

/-- The option that `coap_set_header_uri_path_segment` adds. -/
def coapUriPathSegment (segment : List UInt8) : MultiOption := ⟨segment.length.toUInt8, segment⟩

/-- `URI_REGISTRATION_SEGMENT`, `"rd"`. -/
def uriRegistrationSegment : List UInt8 := [114, 100]

/-- `URI_BOOTSTRAP_SEGMENT`, `"bs"`. -/
def uriBootstrapSegment : List UInt8 := [98, 115]

/-- `URI_SEND_SEGMENT`, `"dp"`. -/
def uriSendSegment : List UInt8 := [100, 112]

/-- `LWM2M_STRING_ID_MAX_LEN`. -/
def lwm2mStringIdMaxLen : Nat := 6

/-- A character of an alternate path, behind the first one. -/
def isAltPathCharacter (character : UInt8) : Bool :=
  65 ≤ character && character ≤ 90 || 97 ≤ character && character ≤ 122 ||
    48 ≤ character && character ≤ 57 || [45, 46, 95, 126, 37].contains character

/-- `utils_isAltPathValid`. -/
def utilsIsAltPathValid : List UInt8 → Bool
  | [] => false
  | first :: rest => first == 47 && rest.all isAltPathCharacter

/-- The path that `lwm2m_configure` keeps; `none` is `COAP_400_BAD_REQUEST`. -/
def lwm2mConfigureAltPath (altPath : Option (List UInt8)) : Option (Option (List UInt8)) :=
  match altPath with
  | none => some none
  | some altPath =>
    if utilsIsAltPathValid altPath = false then none
    else if altPath.length = 1 then some none
    else some (some altPath)

/-- The segment of an id. -/
def idSegment (id : UInt16) : Option MultiOption :=
  match utilsIntToText id.toUInt64.toInt64 lwm2mStringIdMaxLen with
  | [] => none
  | text => some (coapUriPathSegment text)

/-- The Uri-Path options of `transaction_new`; `none` is its failure. -/
def transactionUriPath (altPath : Option (List UInt8)) (uri : Option Lwm2mUri) :
    Option (List MultiOption) := do
  let path := altPath.toList.map fun altPath => coapUriPathSegment (altPath.drop 1)
  match uri with
  | none => return path
  | some uri =>
    if uri.isSetObject then
      let object ← idSegment uri.objectId
      if uri.isSetInstance then
        let objectInstance ← idSegment uri.instanceId
        if uri.isSetResource then
          let resource ← idSegment uri.resourceId
          if uri.isSetResourceInstance then
            let resourceInstance ← idSegment uri.resourceInstanceId
            return path ++ [object, objectInstance, resource, resourceInstance]
          else return path ++ [object, objectInstance, resource]
        else return path ++ [object, objectInstance]
      else return path ++ [object]
    else return path

/-- The option is a segment that is reserved. -/
def MultiOption.isSegment (option : MultiOption) (segment : List UInt8) : Bool :=
  option.len.toNat == segment.length && option.text == segment

/-- `uri_getNumber`, and the check of its result. -/
def uriGetNumber (option : MultiOption) : Option UInt16 := (parseId option.text).map Prod.fst

/-- The ids of `uri_decode` from the object on; `none` is its error. -/
def uriDecodeIds : List MultiOption → Option Lwm2mUri
  | [] => some .reset
  | object :: uriPath => do
    let objectId ← uriGetNumber object
    let uri := { Lwm2mUri.reset with objectId }
    match uriPath with
    | [] => return uri
    | objectInstance :: uriPath =>
      let uri ←
        if objectInstance.len ≠ 0 then
          (uriGetNumber objectInstance).map fun instanceId => { uri with instanceId }
        else some uri
      match uriPath with
      | [] => return uri
      | resource :: uriPath =>
        let uri ←
          if resource.len ≠ 0 then
            if uri.isSetInstance = false then none
            else (uriGetNumber resource).map fun resourceId => { uri with resourceId }
          else some uri
        match uriPath with
        | [] => return uri
        | resourceInstance :: uriPath =>
          let uri ←
            if resourceInstance.len ≠ 0 then
              if uri.isSetResource = false then none
              else
                (uriGetNumber resourceInstance).map fun resourceInstanceId =>
                  { uri with resourceInstanceId }
            else some uri
          if uriPath = [] then return uri else none

/-- `uri_decode` behind the alternate path. -/
def uriDecodeDm (uriPath : List MultiOption) (code : UInt8) : RequestType × Lwm2mUri :=
  if uriPath.head?.all fun option => option.len == 0 then
    (if code = coapDelete then .deleteAll else .dm, .reset)
  else
    match uriDecodeIds uriPath with
    | none => (.unknown, .reset)
    | some uri => (.dm, uri)

/-- `uri_decode` where the first segment is not a reserved one. A segment that goes on behind the
end of the alternate path counts as a different one. -/
def uriDecodeAltPath (altPath : Option (List UInt8)) (uriPath : List MultiOption) (code : UInt8) :
    RequestType × Lwm2mUri :=
  match altPath, uriPath with
  | none, _ => uriDecodeDm uriPath code
  | some _, [] => (.unknown, .reset)
  | some altPath, first :: uriPath =>
    if first.text.isPrefixOf (altPath.drop 1) then uriDecodeDm uriPath code
    else (.unknown, .reset)

/-- `uri_decode`. -/
def uriDecode (altPath : Option (List UInt8)) (uriPath : List MultiOption) (code : UInt8) :
    RequestType × Lwm2mUri :=
  match uriPath with
  | [] => uriDecodeAltPath altPath [] code
  | first :: rest =>
    if first.isSegment uriRegistrationSegment then
      match rest with
      | [] => (.registration, .reset)
      | object :: rest =>
        match uriGetNumber object with
        | none => (.unknown, .reset)
        | some objectId =>
          if rest = [] then (.registration, { Lwm2mUri.reset with objectId })
          else (.unknown, .reset)
    else if first.isSegment uriBootstrapSegment then
      if rest = [] then (.bootstrap, .reset) else (.unknown, .reset)
    else if first.isSegment uriSendSegment then
      if rest = [] then (.send, .reset) else (.unknown, .reset)
    else uriDecodeAltPath altPath uriPath code

/-- A segment is set only below one that is. -/
def Lwm2mUri.PrefixClosed (uri : Lwm2mUri) : Prop :=
  (uri.isSetInstance → uri.isSetObject) ∧ (uri.isSetResource → uri.isSetInstance) ∧
    (uri.isSetResourceInstance → uri.isSetResource)

instance (uri : Lwm2mUri) : Decidable uri.PrefixClosed :=
  inferInstanceAs (Decidable (_ ∧ _ ∧ _))

/-- The alternate path is taken for one of the reserved segments. -/
def isReservedAltPath (altPath : List UInt8) : Bool :=
  [uriRegistrationSegment, uriBootstrapSegment, uriSendSegment].any
    (coapUriPathSegment (altPath.drop 1)).isSegment

end Wakaama
