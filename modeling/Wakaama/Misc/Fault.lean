import Mathlib.Algebra.Group.Int.Defs
import Mathlib.Algebra.Group.Nat.Defs

/-!
# Faults

C code that goes wrong does not return an error; the modelled functions report it as a fault.
-/

namespace Wakaama

/-- What the C code does instead of returning: it follows NULL, reads or frees through a
pointer that was never set, uses memory it has freed, reads or writes outside a buffer,
reads an arm of a union that was not the one written, divides by zero, or goes round a loop
for ever. -/
inductive Fault where
  | nullDeref
  | wildRead
  | wildFree
  | useAfterFree
  | outOfBounds
  | wrongArm
  | divByZero
  | endless
  deriving DecidableEq, Repr

end Wakaama
