import Wakaama.Coap.Transaction
import Wakaama.Core.ListSweep
import Wakaama.Core.Registration.Update

/-!
# Client expiry (`core/registration.c`, `coap/transaction.c`)

The part of `registration_step` that removes the clients whose lifetime is over, with their
pending transactions. Times are `time_t`s as integers. The monitoring callback leaves the lists
alone.
-/

namespace Wakaama

variable {Session : Type}

/-- A node of `contextP->clientList`. -/
structure ClientNode (Session : Type) where
  client : RegisteredClient Session
  freed : Bool
  deriving DecidableEq

/-- `clientP->internalID`. -/
def ClientNode.id (clientP : ClientNode Session) : UInt16 := clientP.client.internalID

/-- The clients as the nodes of a list. -/
def clientMarks : NodeMarks (ClientNode Session) where
  id := ClientNode.id
  freed := ClientNode.freed
  free clientP := { clientP with freed := true }
  id_free _ := rfl
  freed_free _ := rfl

/-- The transactions as the nodes of a list. -/
def transactionMarks : NodeMarks (Transaction Session) where
  id := Transaction.mID
  freed := Transaction.freed
  free transacP := { transacP with freed := true }
  id_free _ := rfl
  freed_free _ := rfl

/-- `transaction_remove_client`. -/
def transactionRemoveClient (sessionIsEqual : Session → Session → Bool) (sessionH : Session)
    (transactionList : List (Transaction Session)) : Except Fault (List (Transaction Session)) :=
  transactionMarks.sweep (fun transacP => sessionIsEqual transacP.peerH sessionH) [] transactionList

/-- What happens to a client, in order: the monitoring callback is called for it, it is freed. -/
inductive ExpiryEvent (Session : Type) where
  | monitored (clientID : UInt16) (status : UInt8)
  | freed (clientP : RegisteredClient Session)
  deriving DecidableEq

/-- The removal of a client; `monitorCallback` says that there is a callback. -/
def expiryEvents (monitorCallback : Bool) (clientP : RegisteredClient Session) :
    List (ExpiryEvent Session) :=
  if monitorCallback then [.monitored clientP.internalID coapDeleted, .freed clientP]
  else [.freed clientP]

/-- The lists of the context and `*timeoutP` behind the step. -/
structure ExpiryResult (Session : Type) where
  clientList : List (ClientNode Session)
  transactionList : List (Transaction Session)
  timeoutP : Int
  events : List (ExpiryEvent Session)
  deriving DecidableEq

/-- The loop of `registration_step` over the clients, behind the clients `before`. -/
def expireClients (sessionIsEqual : Session → Session → Bool) (monitorCallback : Bool)
    (currentTime : Int) :
    List (ClientNode Session) → List (ClientNode Session) → List (Transaction Session) → Int →
      Except Fault (ExpiryResult Session)
  | before, [], transactionList, timeoutP =>
    .ok { clientList := before, transactionList, timeoutP, events := [] }
  | before, clientP :: nextP, transactionList, timeoutP =>
    if clientP.freed then .error .useAfterFree
    else if clientP.client.endOfLife ≤ currentTime then
      match clientMarks.remove before clientP with
      | .error fault => .error fault
      | .ok before =>
        -- `registration_freeClient`
        match transactionRemoveClient sessionIsEqual clientP.client.sessionH transactionList with
        | .error fault => .error fault
        | .ok transactionList =>
          match expireClients sessionIsEqual monitorCallback currentTime before nextP
              transactionList timeoutP with
          | .error fault => .error fault
          | .ok result =>
            .ok { result with
              events := expiryEvents monitorCallback clientP.client ++ result.events }
    else
      let interval := clientP.client.endOfLife - currentTime
      expireClients sessionIsEqual monitorCallback currentTime (before ++ [clientP]) nextP
        transactionList (if interval < timeoutP then interval else timeoutP)

/-- The server's part of `registration_step`. -/
def registrationStepClients (sessionIsEqual : Session → Session → Bool) (monitorCallback : Bool)
    (currentTime : Int) (clientList : List (ClientNode Session))
    (transactionList : List (Transaction Session)) (timeoutP : Int) :
    Except Fault (ExpiryResult Session) :=
  expireClients sessionIsEqual monitorCallback currentTime [] clientList transactionList timeoutP

end Wakaama
