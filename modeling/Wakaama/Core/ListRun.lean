import Wakaama.Core.List
import Wakaama.Misc.Fault
import Mathlib.Logic.Function.Basic

/-!
# Calls on a sorted list (`core/list.c`)

The functions of `core/list.c` as calls on one list, and the registry that the list stands for: a
partial map from the ids to the nodes.
-/

namespace Wakaama

variable {α : Type}

/-- A call of `lwm2m_list_add`, `lwm2m_list_remove` or `lwm2m_list_find`. -/
inductive ListCall (α : Type) where
  | add (node : α)
  | remove (key : UInt16)
  | find (key : UInt16)

/-- The list behind a call, and the node that the call reports. -/
def listStep (id : α → UInt16) (head : List α) : ListCall α → Except Fault (List α × Option α)
  | .add node => .ok (lwm2mListAdd id head node, none)
  | .remove key => .ok (lwm2mListRemove id key head)
  | .find key => .ok (head, lwm2mListFind id key head)

/-- A node that is added has an id that is not in the list. -/
def ListCall.Fresh (id : α → UInt16) (head : List α) : ListCall α → Prop
  | .add node => ∀ b ∈ head, id b ≠ id node
  | _ => True

/-- What a call makes of the registry, and what it reports. -/
def registryStep (id : α → UInt16) (held : UInt16 → Option α) :
    ListCall α → (UInt16 → Option α) × Option α
  | .add node => (Function.update held (id node) (some node), none)
  | .remove key => (Function.update held key none, held key)
  | .find key => (held, held key)

/-- What the calls make of the registry, and what they report. -/
def registryRun (id : α → UInt16) :
    (UInt16 → Option α) → List (ListCall α) → (UInt16 → Option α) × List (Option α)
  | held, [] => (held, [])
  | held, call :: calls =>
    let (held, reply) := registryStep id held call
    let (held, replies) := registryRun id held calls
    (held, reply :: replies)

/-- The list holds exactly the nodes of the registry, in ascending order. -/
structure ListHolds (id : α → UInt16) (head : List α) (held : UInt16 → Option α) : Prop where
  ascending : head.Pairwise fun a b => id a < id b
  nodes : ∀ key node, held key = some node ↔ node ∈ head ∧ id node = key

end Wakaama
