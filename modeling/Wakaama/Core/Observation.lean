import Wakaama.Coap.Code
import Wakaama.Coap.Packet
import Wakaama.Core.List
import Wakaama.Core.Uri

/-!
# Observations of the server (`core/observe.c`)

`lwm2m_observe` and `lwm2m_observe_cancel` on one registered client, with the callbacks that
the replies to their requests run. A request in flight is numbered, where the C code has a
transaction; it stays in flight while an answer leaves more blocks to fetch. Allocations
succeed and the clock does not fail; whether a message can be serialised is an input.
-/

namespace Wakaama

/-- The values of `lwm2m_status_t` an observation has. -/
inductive ObservationStatus where
  | registered
  | regPending
  | deregPending
  deriving DecidableEq, Repr

/-- `lwm2m_observation_t`; the callback goes with `userData`. -/
structure Observation where
  id : UInt16
  uri : Lwm2mUri
  status : ObservationStatus
  userData : Nat
  deriving DecidableEq, Repr

/-- `observation_data_t`. -/
structure ObservationData where
  id : UInt16
  uri : Lwm2mUri
  userData : Nat
  deriving DecidableEq, Repr

/-- `cancellation_data_t`. -/
structure CancellationData where
  uri : Lwm2mUri
  userDataP : Nat
  deriving DecidableEq, Repr

/-- A request in flight, by its callback: `prv_obsRequestCallback` or
`prv_obsCancelRequestCallback`. -/
inductive ObserveTransaction where
  | observe (data : ObservationData)
  | cancel (data : CancellationData)
  deriving DecidableEq, Repr

/-- What the callbacks read of an answer; `block2More` is the flag of its Block2 option. -/
structure ObserveAnswer where
  code : UInt8
  observe : Bool
  block2More : Option Bool
  deriving DecidableEq, Repr

/-- A call of the user's result callback. -/
structure ObservationReport where
  status : UInt8
  userData : Nat
  deriving DecidableEq, Repr

/-- The part of `lwm2m_client_t` that holds its observations, with the requests to it in
flight; `requests` were sent so far. -/
structure ObservedClient where
  observationId : UInt16
  observationList : List Observation
  transactionList : List (Nat × ObserveTransaction)
  requests : Nat
  deriving DecidableEq, Repr

/-- `prv_findObservationByURI`. -/
def prvFindObservationByUri (uri : Lwm2mUri) (observationList : List Observation) :
    Option Observation :=
  observationList.find? fun observation => observation.uri == uri

/-- `targetP->status = status` on the observation that `prv_findObservationByURI` returns. -/
def setStatus (uri : Lwm2mUri) (status : ObservationStatus) :
    List Observation → List Observation
  | [] => []
  | observation :: next =>
    if observation.uri == uri then { observation with status } :: next
    else observation :: setStatus uri status next

/-- `observe_remove`. -/
def observeRemove (observation : Observation) (observationList : List Observation) :
    List Observation :=
  (lwm2mListRemove Observation.id observation.id observationList).1

/-- `COAP_202_DELETED` and the error codes the callbacks make up. -/
def coapDeleted : UInt8 := 0x42

def coapBadRequest : UInt8 := 0x80

def coapMethodNotAllowed : UInt8 := 0x85

def coapServiceUnavailable : UInt8 := 0xA3

/-- The code `prv_obsRequestCallback` goes by. -/
def obsRequestCode (found : Option Observation) (message : Option ObserveAnswer) : UInt8 :=
  if (found.map Observation.status) = some .deregPending then coapBadRequest
  else
    match message with
    | none => coapServiceUnavailable
    | some packet =>
      if packet.code = coapContent ∧ packet.observe = false then coapMethodNotAllowed
      else packet.code

/-- `prv_obsRequestCallback` of a registered client. -/
def prvObsRequestCallback (data : ObservationData) (message : Option ObserveAnswer)
    (observationList : List Observation) : List Observation × List ObservationReport :=
  let found := prvFindObservationByUri data.uri observationList
  let code := obsRequestCode found message
  let report (status : UInt8) : ObservationReport := { status, userData := data.userData }
  if code ≠ coapContent then (observationList, [report code])
  else if (message.bind ObserveAnswer.block2More) = some true then
    (observationList, [report code])
  else
    let registered : Observation :=
      { id := data.id, uri := data.uri, status := .registered, userData := data.userData }
    match found with
    | none => (lwm2mListAdd Observation.id observationList registered, [report 0])
    | some observation =>
      (lwm2mListAdd Observation.id (observeRemove observation observationList) registered,
        [report coapDeleted, report 0])

/-- `prv_obsCancelRequestCallback` of a registered client. -/
def prvObsCancelRequestCallback (data : CancellationData) (message : Option ObserveAnswer)
    (observationList : List Observation) :
    Except Fault (List Observation × List ObservationReport) :=
  let report (status : UInt8) : ObservationReport := { status, userData := data.userDataP }
  match message with
  | none => .ok (observationList, [report coapServiceUnavailable])
  | some packet =>
    if packet.code ≠ coapContent then .ok (observationList, [report packet.code])
    else if packet.block2More = some true then .ok (observationList, [report 0])
    else
      -- what the look-up found is not checked
      match prvFindObservationByUri data.uri observationList with
      | none => .error .nullDeref
      | some observation => .ok (observeRemove observation observationList, [report 0])

/-- What the user makes happen or the network brings. `sent` is whether the request can be
serialised; an answer `none` is a timeout. -/
inductive ObservationCall where
  | observe (uri : Lwm2mUri) (userData : Nat) (sent : Bool)
  | cancel (uri : Lwm2mUri) (userData : Nat) (sent : Bool)
  | reply (request : Nat) (message : Option ObserveAnswer)
  deriving DecidableEq, Repr

/-- The result of a call, with the request it sent, or the one a reply was for. -/
structure ObservationEffect where
  code : CoapCode
  request : Option Nat
  reports : List ObservationReport
  deriving DecidableEq, Repr

/-- An effect without request and reports. -/
def ObservationEffect.only (code : CoapCode) : ObservationEffect :=
  { code, request := none, reports := [] }

/-- `LWM2M_LIST_ADD` of a transaction and `transaction_send`, which removes it again where the
message cannot be serialised. -/
def sendRequest (client : ObservedClient) (transaction : ObserveTransaction) (sent : Bool) :
    ObservedClient × ObservationEffect :=
  if sent then
    ({ client with
        transactionList := client.transactionList ++ [(client.requests, transaction)]
        requests := client.requests + 1 },
      { code := .noError, request := some client.requests, reports := [] })
  else (client, .only .internalServerError500)

/-- `prv_lwm2m_observe`. -/
def prvLwm2mObserve (client : ObservedClient) (uri : Lwm2mUri) (userData : Nat) (sent : Bool) :
    ObservedClient × ObservationEffect :=
  if !uri.isSetInstance && uri.isSetResource then (client, .only .badRequest400)
  else
    let id := client.observationId + 1
    let client := { client with observationId := id }
    match lwm2mListFind Observation.id id client.observationList with
    | some _ => (client, .only .internalServerError500)
    | none =>
      sendRequest
        { client with
          observationList := setStatus uri .regPending client.observationList }
        (.observe { id, uri, userData }) sent

/-- `prv_lwm2m_observe_cancel`. -/
def prvLwm2mObserveCancel (client : ObservedClient) (uri : Lwm2mUri) (userData : Nat)
    (sent : Bool) : ObservedClient × ObservationEffect :=
  match prvFindObservationByUri uri client.observationList with
  | none => (client, .only .notFound404)
  | some observation =>
    let removed := { client with
      observationList := observeRemove observation client.observationList }
    match observation.status with
    | .registered =>
      sendRequest
        { client with
          observationList := setStatus uri .deregPending client.observationList }
        (.cancel { uri, userDataP := userData }) sent
    | .regPending => (removed, .only .changed204)
    | .deregPending => (removed, .only .ignore)

/-- The callback of a request. -/
def observationCallback (transaction : ObserveTransaction) (message : Option ObserveAnswer)
    (observationList : List Observation) :
    Except Fault (List Observation × List ObservationReport) :=
  match transaction with
  | .observe data => .ok (prvObsRequestCallback data message observationList)
  | .cancel data => prvObsCancelRequestCallback data message observationList

/-- The answer leaves no more blocks to fetch. -/
def isFinal (message : Option ObserveAnswer) : Bool :=
  (message.bind ObserveAnswer.block2More) != some true

/-- One call of the user or one reply; a reply to no request in flight is dropped. -/
def observationStep (client : ObservedClient) : ObservationCall →
    Except Fault (ObservedClient × ObservationEffect)
  | .observe uri userData sent => .ok (prvLwm2mObserve client uri userData sent)
  | .cancel uri userData sent => .ok (prvLwm2mObserveCancel client uri userData sent)
  | .reply request message =>
    match client.transactionList.lookup request with
    | none => .ok (client, .only .ignore)
    | some transaction =>
      match observationCallback transaction message client.observationList with
      | .error fault => .error fault
      | .ok (observationList, reports) =>
        .ok ({ client with
            observationList
            transactionList :=
              if isFinal message then
                client.transactionList.filter fun other => other.1 != request
              else client.transactionList },
          { code := .noError, request := some request, reports })

end Wakaama
