/-!
# Servers of the client (`include/liblwm2m.h`)

`lwm2m_server_t`, as far as registration and bootstrap look at it. Times are in seconds.
-/

namespace Wakaama

/-- `lwm2m_status_t`. -/
inductive ServerStatus where
  | deregistered
  | regHoldOff
  | regPending
  | registered
  | regFailed
  | regUpdatePending
  | regUpdateNeeded
  | regFullUpdateNeeded
  | deregPending
  | bsHoldOff
  | bsInitiated
  | bsPending
  | bsFinishing
  | bsFinished
  | bsFailing
  | bsFailed
  deriving DecidableEq, Repr

/-- `lwm2m_client_state_t`. -/
inductive ClientState where
  | initial
  | bootstrapRequired
  | bootstrapping
  | registerRequired
  | registering
  | ready
  deriving DecidableEq, Repr

/-- `lwm2m_server_t`; `sessionH` is NULL or some session, `binding` the bits of a
`lwm2m_binding_t`. -/
structure Lwm2mServer where
  secObjInstID : UInt16
  shortID : UInt16
  lifetime : Int
  registration : Int
  sessionH : Option Nat
  status : ServerStatus
  dirty : Bool
  servObjInstID : UInt16 := 0xFFFF
  binding : UInt8 := 0
  deriving DecidableEq, Repr

end Wakaama
