import Wakaama.Coap.Message
import Wakaama.Coap.Transaction
import Wakaama.Core.Registration.Update

/-!
# Replies to device management requests (`core/management.c`, `coap/transaction.c`)

`prv_makeOperation` puts a request with a `dm_data_t` into the list of transactions, the blocks of
its transfer share these data, and `prv_resultCallback` hands a reply to the user. The callback of
the user leaves the context alone. `dmData` has the `dm_data_t` that are allocated, by their
addresses.
-/

namespace Wakaama

variable {Session : Type}

/-- `dm_data_t`; there is always a callback in it. -/
structure DmData where
  uri : Lwm2mUri
  clientID : UInt16
  userData : Nat
  deriving DecidableEq, Repr

/-- The part of `lwm2m_context_t` that the requests use. No transaction in the list is freed. -/
structure DmContext (Session : Type) where
  nextMID : UInt16
  transactionList : List (Transaction Session)
  dmData : Nat → Option DmData
  live : ∀ transacP ∈ transactionList, transacP.freed = false

/-- A call of the user's callback. -/
structure ResultReport where
  clientID : UInt16
  uri : Lwm2mUri
  status : UInt8
  blockInfo : Option BlockOption
  format : UInt16
  data : List UInt8
  userData : Nat
  deriving DecidableEq, Repr

/-- What `prv_makeOperation` gets from `lwm2m_malloc`: the addresses of the transaction and of the
`dm_data_t`, or NULL, and whether there is memory for the payload. -/
structure OperationAlloc where
  transaction : Option Nat
  dmData : Option Nat
  payload : Bool

/-- The payload of a request that is no GET. The media type is no part of the transaction. -/
def setOperationPayload (alloc : Bool) (blockSize : UInt16) (method : UInt8)
    (buffer : Option (List UInt8)) (transaction : Transaction Session) :
    Option (Transaction Session) :=
  match buffer with
  | none => some transaction
  | some buffer =>
    if method = coapGet then some transaction
    else if alloc then some (transactionSetPayload blockSize transaction buffer)
    else none

/-- `prv_makeOperation` up to `transaction_send`, with a callback of the user: the transaction, and
the allocated data. `clientP` is the client that is found, and `token` what `transaction_new`
generates. -/
def prvMakeOperation (alloc : OperationAlloc) (blockSize : UInt16)
    (clientP : Option (RegisteredClient Session)) (uri : Lwm2mUri) (method : UInt8)
    (token : List UInt8) (buffer : Option (List UInt8)) (userData : Nat)
    (context : DmContext Session) : Except CoapCode (Transaction Session × (Nat → Option DmData)) :=
  match clientP, alloc.transaction with
  | none, _ => .error .notFound404
  | some _, none => .error .internalServerError500
  | some clientP, some address =>
    let transaction := transactionNew address clientP.sessionH method context.nextMID token
    match setOperationPayload alloc.payload blockSize method buffer transaction, alloc.dmData with
    | some transaction, some dataP =>
      .ok ({ transaction with callback := true, userData := dataP },
        fun other =>
          if other = dataP then some { uri, clientID := clientP.internalID, userData }
          else context.dmData other)
    | _, _ => .error .internalServerError500

/-- `coap_get_multi_option_as_path_string`, as the string that `strlen` finds; `alloc` says whether
there is memory for it. -/
def coapPathString (alloc : Bool) (option : List Segment) : Option (List UInt8) :=
  if alloc then
    some ((option.flatMap fun segment => 47 :: segment.val).takeWhile fun byte => byte != 0)
  else none

/-- The checks of `prv_resultCallback` on the location of a new instance. -/
def resultLocation (alloc : Bool) (objectId : UInt16) (locationPath : List Segment) :
    Option Lwm2mUri :=
  match coapPathString alloc locationPath with
  | none => none
  | some locationString =>
    match lwm2mStringToUri locationString with
    | none => none
    | some locationUri =>
      if !locationUri.isSetObject || !locationUri.isSetInstance || locationUri.isSetResource ||
          locationUri.objectId != objectId then none
      else some locationUri

/-- The media types that `utils_convertMediaType` knows. -/
def mediaTypes : List UInt16 := [0, 42, 1542, 11542, 1543, 11543, 110, 60, 112, 40]

/-- `utils_convertMediaType`. -/
def utilsConvertMediaType (type : UInt16) : UInt16 :=
  if type ∈ mediaTypes then type else lwm2mContentText

/-- What the callback is told without a message. -/
def timeoutReport (dataP : DmData) : ResultReport where
  clientID := dataP.clientID
  uri := dataP.uri
  status := coapServiceUnavailable
  blockInfo := none
  format := lwm2mContentText
  data := []
  userData := dataP.userData

/-- What the callback is told of a message. -/
def messageReport (dataP : DmData) (packet : CoapMessage) : ResultReport where
  clientID := dataP.clientID
  uri := dataP.uri
  status := packet.code
  blockInfo := packet.block2
  format := utilsConvertMediaType (packet.options.contentType.getD 0)
  data := packet.payload
  userData := dataP.userData

/-- The loop of `transaction_free_userData`: another transaction has the same data. -/
def sharesUserData (transaction : Transaction Session) :
    List (Transaction Session) → Except Fault Bool
  | [] => .ok false
  | target :: next =>
    if target.freed then .error .useAfterFree
    else if target.userData = transaction.userData ∧ target.address ≠ transaction.address then
      .ok true
    else sharesUserData transaction next

/-- `transaction_free_userData`. -/
def transactionFreeUserData (transaction : Transaction Session) (context : DmContext Session) :
    Except Fault (DmContext Session) :=
  (sharesUserData transaction context.transactionList).map fun shared =>
    if shared then context
    else
      { context with
        dmData := fun other =>
          if other = transaction.userData then none else context.dmData other }

/-- The end of `prv_resultCallback`. -/
def reportAndFree (transacP : Transaction Session) (report : ResultReport)
    (context : DmContext Session) : Except Fault (DmContext Session × List ResultReport) :=
  (transactionFreeUserData transacP context).map fun context => (context, [report])

/-- `prv_resultCallback`; without a message the request has timed out. -/
def prvResultCallback (alloc : Bool) (message : Option CoapMessage)
    (transacP : Transaction Session) (context : DmContext Session) :
    Except Fault (DmContext Session × List ResultReport) :=
  match context.dmData transacP.userData with
  | none => .error .useAfterFree
  | some dataP =>
    match message with
    | none => reportAndFree transacP (timeoutReport dataP) context
    | some packet =>
      if packet.code = coapCreated ∧ packet.options.locationPath ≠ [] then
        match resultLocation alloc dataP.uri.objectId packet.options.locationPath with
        | none => .ok (context, [])
        | some locationUri =>
          let dataP := { dataP with uri := locationUri }
          reportAndFree transacP (messageReport dataP packet)
            { context with
              dmData := fun other =>
                if other = transacP.userData then some dataP else context.dmData other }
      else reportAndFree transacP (messageReport dataP packet) context

end Wakaama
