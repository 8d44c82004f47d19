/-!
# Response codes

The one-byte codes of `include/liblwm2m.h` that the modelled functions return, with the
three internal ones (`COAP_NO_ERROR`, `COAP_IGNORE`, `COAP_RETRANSMISSION`).
-/

namespace Wakaama

/-- The `COAP_*` constants. -/
inductive CoapCode where
  | noError
  | ignore
  | retransmission
  | created201
  | deleted202
  | changed204
  | content205
  | continue231
  | badRequest400
  | unauthorized401
  | notFound404
  | methodNotAllowed405
  | notAcceptable406
  | reqEntityIncomplete408
  | preconditionFailed412
  | entityTooLarge413
  | internalServerError500
  | notImplemented501
  | serviceUnavailable503
  deriving DecidableEq, Repr

/-- The code is a client or a server error: 4.xx or 5.xx. -/
def CoapCode.isError : CoapCode → Bool
  | .badRequest400 | .unauthorized401 | .notFound404 | .methodNotAllowed405 | .notAcceptable406
  | .reqEntityIncomplete408 | .preconditionFailed412 | .entityTooLarge413
  | .internalServerError500 | .notImplemented501 | .serviceUnavailable503 => true
  | _ => false

end Wakaama
