import Wakaama.Core.Observation

/-!
# Observations of registered clients (`core/observe.c`, `core/registration.c`)

The observations of all clients of a server, with what removes them beside the user and the
replies: an update of a registration, and the end of one. The list of the clients is given by
their `internalID`; a request in flight has the session it was sent to and the number of the client
it was sent for.
-/

namespace Wakaama

/-- The part of `lwm2m_client_t` that is about observations. -/
structure ObserverClient (Session : Type) where
  sessionH : Session
  observationId : UInt16
  observationList : List Observation

/-- A request in flight. -/
structure PendingObservation (Session : Type) where
  number : Nat
  peerH : Session
  client : UInt16
  transaction : ObserveTransaction

/-- `lwm2m_context_t`; `requests` were sent so far. -/
structure ObserverContext (Session : Type) where
  clientList : UInt16 → Option (ObserverClient Session)
  transactionList : List (PendingObservation Session)
  requests : Nat

/-- What the user makes happen, or the network, or a lifetime that is over. The objects of an
update are the ids of its object list, each with those of its instances. -/
inductive ObserverCall (Session : Type) where
  | observe (clientID : UInt16) (uri : Lwm2mUri) (userData : Nat) (sent : Bool)
  | cancel (clientID : UInt16) (uri : Lwm2mUri) (userData : Nat) (sent : Bool)
  | reply (request : Nat) (message : Option ObserveAnswer)
  | register (internalID : UInt16) (fromSessionH : Session)
  | update (clientID : UInt16) (fromSessionH : Session)
      (objects : Option (List (UInt16 × List UInt16)))
  | remove (clientID : UInt16)

variable {Session : Type}

/-- The context with a client in its list. -/
def ObserverContext.setClient (context : ObserverContext Session) (internalID : UInt16)
    (client : Option (ObserverClient Session)) : ObserverContext Session :=
  { context with
    clientList := fun other => if other = internalID then client else context.clientList other }

/-- A call for one client, and the request it sends. -/
def ObserverContext.request (context : ObserverContext Session) (clientID : UInt16)
    (call : ObservedClient → ObservedClient × ObservationEffect) :
    ObserverContext Session × ObservationEffect :=
  match context.clientList clientID with
  | none => (context, .only .notFound404)
  | some clientP =>
    let (client, effect) := call
      { observationId := clientP.observationId
        observationList := clientP.observationList
        transactionList := []
        requests := context.requests }
    ({ context.setClient clientID
        (some { clientP with
          observationId := client.observationId
          observationList := client.observationList }) with
        transactionList := context.transactionList ++ client.transactionList.map
          fun (number, transaction) =>
            { number, peerH := clientP.sessionH, client := clientID, transaction }
        requests := client.requests }, effect)

/-- The observation is on an object or an instance that is not in the list. -/
def isDropped (objects : List (UInt16 × List UInt16)) (observation : Observation) : Bool :=
  match objects.find? fun object => object.1 == observation.uri.objectId with
  | none => true
  | some object =>
    observation.uri.isSetInstance && !object.2.contains observation.uri.instanceId

/-- The loop of `registration_handleRequest` over the observations at an update. -/
def dropObservations (objects : List (UInt16 × List UInt16)) (observationList : List Observation) :
    List Observation :=
  observationList.foldl
    (fun kept observation => if isDropped objects observation then observeRemove observation kept
      else kept) observationList

/-- `prv_obsRequestCallback` and `prv_obsCancelRequestCallback` of a request, with the look-up of
its client. -/
def ObserverContext.callback (context : ObserverContext Session)
    (pending : PendingObservation Session) (message : Option ObserveAnswer) :
    Except Fault (ObserverContext Session) :=
  match context.clientList pending.client with
  | none => .ok context
  | some clientP =>
    match observationCallback pending.transaction message clientP.observationList with
    | .error fault => .error fault
    | .ok (observationList, _) =>
      .ok (context.setClient pending.client (some { clientP with observationList }))

/-- `registration_freeClient`, with `transaction_remove_client`. -/
def registrationFreeClient (sessionIsEqual : Session → Session → Bool)
    (context : ObserverContext Session) (clientID : UInt16) : ObserverContext Session :=
  match context.clientList clientID with
  | none => context
  | some clientP =>
    { context.setClient clientID none with
      transactionList := context.transactionList.filter fun pending =>
        !sessionIsEqual pending.peerH clientP.sessionH }

/-- One event; a reply to no request in flight is dropped. A client that registers with its name
again keeps its number and its observations. -/
def observerStep (sessionIsEqual : Session → Session → Bool) (context : ObserverContext Session) :
    ObserverCall Session → Except Fault (ObserverContext Session × Unit)
  | .observe clientID uri userData sent =>
    .ok ((context.request clientID fun client => prvLwm2mObserve client uri userData sent).1, ())
  | .cancel clientID uri userData sent =>
    .ok ((context.request clientID fun client =>
      prvLwm2mObserveCancel client uri userData sent).1, ())
  | .reply request message =>
    match context.transactionList.find? fun pending => pending.number == request with
    | none => .ok (context, ())
    | some pending =>
      match context.callback pending message with
      | .error fault => .error fault
      | .ok context =>
        .ok ({ context with
            transactionList :=
              if isFinal message then
                context.transactionList.filter fun other => other.number != request
              else context.transactionList }, ())
  | .register internalID fromSessionH =>
    match context.clientList internalID with
    | some clientP =>
      .ok (context.setClient internalID (some { clientP with sessionH := fromSessionH }), ())
    | none =>
      .ok (context.setClient internalID
        (some { sessionH := fromSessionH, observationId := 0, observationList := [] }), ())
  | .update clientID fromSessionH objects =>
    match context.clientList clientID with
    | none => .ok (context, ())
    | some clientP =>
      let observationList :=
        match objects with
        | none => clientP.observationList
        | some objects => dropObservations objects clientP.observationList
      .ok (context.setClient clientID
        (some { clientP with sessionH := fromSessionH, observationList }), ())
  | .remove clientID => .ok (registrationFreeClient sessionIsEqual context clientID, ())

end Wakaama
