import Wakaama.Core.BootstrapTimeout
import Wakaama.Core.Registration.Query

/-!
# The query of a bootstrap request (`core/bootstrap.c`, `core/utils.c`)

`prv_requestBootstrap` puts its query together in a buffer of 200 bytes, each piece with
`utils_stringCopy`; this is a build without `LWM2M_VERSION_1_0` and with one of the content formats
for `pct`.
-/

namespace Wakaama

/-- `utils_stringCopy`: the length that `utils_strncpy` returns, as an `int`. -/
def utilsStringCopy (length : Nat) (str : List UInt8) : Int :=
  intOfSize (utilsStrncpy length str).length

/-- `PRV_QUERY_BUFFER_LENGTH`. -/
def prvQueryBufferLength : Nat := 200

/-- `QUERY_PCT`: `pct=`. -/
def queryPct : List UInt8 := [112, 99, 116, 61]

/-- The content format that the build asks for. -/
inductive PctContent where
  | senmlCbor
  | senmlJson
  | tlv
  deriving DecidableEq

/-- `REG_ATTR_CONTENT_SENML_CBOR`, `REG_ATTR_CONTENT_SENML_JSON`, `REG_ATTR_CONTENT_TLV`. -/
def PctContent.text : PctContent → List UInt8
  | .senmlCbor => [49, 49, 50]
  | .senmlJson => [49, 49, 48]
  | .tlv => [49, 49, 53, 52, 50]

/-- The query in the buffer. -/
def bootstrapQuery (content : PctContent) (endpointName : List UInt8) :
    Except WriteStop (List UInt8) := do
  let query ← writeString prvQueryBufferLength (queryStarter :: QueryKey.name.text) []
  let query ← writeString prvQueryBufferLength endpointName query
  let query ← writeString prvQueryBufferLength (queryDelimiter :: queryPct) query
  writeString prvQueryBufferLength content.text query

/-- The rest of `prv_requestBootstrap`, for what is in the buffer: the server, and the query of the
message that is handed to `transaction_send`. -/
def requestWithQuery (written : Except WriteStop (List UInt8)) (env : BootstrapEnv)
    (bootstrapServer : Lwm2mServer) : Lwm2mServer × Option (List UInt8) :=
  match written with
  | .error _ => ({ bootstrapServer with status := .bsFailing }, none)
  | .ok query =>
    match bootstrapServer.sessionH.or env.connect with
    | none => ({ bootstrapServer with status := .bsFailed }, none)
    | some sessionH =>
      let bootstrapServer := { bootstrapServer with sessionH := some sessionH }
      if !env.transactionNew then ({ bootstrapServer with status := .bsFailing }, none)
      else if env.transactionSend then
        ({ bootstrapServer with status := .bsInitiated }, some query)
      else (bootstrapServer, some query)

/-- `prv_requestBootstrap` with its query. -/
def prvRequestBootstrapQuery (content : PctContent) (endpointName : List UInt8)
    (env : BootstrapEnv) (bootstrapServer : Lwm2mServer) : Lwm2mServer × Option (List UInt8) :=
  requestWithQuery (bootstrapQuery content endpointName) env bootstrapServer

/-- The whole string is copied and its length returned, or -1 is. -/
def CopiesOrRefuses (length : Nat) (str : List UInt8) : Prop :=
  utilsStrncpy length str = str ∧ utilsStringCopy length str = str.length ∨
    utilsStringCopy length str = -1

/-- `?ep=`, the name, `&pct=` and the content format. -/
def completeQuery (content : PctContent) (endpointName : List UInt8) : List UInt8 :=
  queryStarter :: QueryKey.name.text ++ endpointName ++ queryDelimiter :: queryPct ++ content.text

/-- A query that is sent is complete. Where none is, the server is in `STATE_BS_FAILING`, or there
is no session to it. -/
def RequestComplete (content : PctContent) (endpointName : List UInt8) (env : BootstrapEnv)
    (bootstrapServer : Lwm2mServer) : Prop :=
  let result := prvRequestBootstrapQuery content endpointName env bootstrapServer
  (∀ query ∈ result.2, query = completeQuery content endpointName) ∧
    (result.2 = none → result.1.status = .bsFailing ∨
      bootstrapServer.sessionH.or env.connect = none)

end Wakaama
