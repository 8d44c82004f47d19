import Wakaama.Core.DeleteAll
import Wakaama.Core.Observe

/-!
# Deleting observed instances (`core/objects.c`, `core/observe.c`)

`object_delete` with the observations that it clears, and `observe_clear` on the nodes of the list.
The loop over the instances of an object reads the id of an instance once more behind the
`deleteFunc` that has removed it; `read` says what becomes of that.
-/

namespace Wakaama

variable {Node : Type}

/-- `prv_unlinkObserved`; a node is given with its address. -/
def prvUnlinkObserved (observedP : Nat) : List (Nat × Observed) → List (Nat × Observed)
  | [] => []
  | parentP :: next =>
    if parentP.1 = observedP then next else parentP :: prvUnlinkObserved observedP next

/-- The entry is one that `observe_clear` removes. -/
def clearedBy (uri : Lwm2mUri) (observed : Observed) : Bool :=
  observed.uri.objectId == uri.objectId &&
    (!uri.isSetInstance || observed.uri.instanceId == uri.instanceId)

/-- The loop of `observe_clear` from a node on; `observedList` is the list as it is linked. -/
def observeClearNodes (uri : Lwm2mUri) (observedList : List (Nat × Observed)) :
    List (Nat × Observed) → Except Fault (List (Nat × Observed))
  | [] => .ok observedList
  | observedP :: nextP =>
    if observedP.2.freed then .error .useAfterFree
    else if clearedBy uri observedP.2 then
      observeClearNodes uri (prvUnlinkObserved observedP.1 observedList) nextP
    else observeClearNodes uri observedList nextP

/-- What a deletion leaves, and the calls of `deleteFunc` with their answers. -/
structure DeleteOutcome (Node : Type) where
  instanceList : List Node
  observedList : List Observed
  calls : List (UInt16 × CoapCode)
  result : CoapCode

/-- The loop of `object_delete`, behind some calls. -/
def deleteObserved (ident : Node → UInt16) (read : Node → Except Fault UInt16)
    (delete : UInt16 → List Node → List Node × CoapCode) (uri : Lwm2mUri) :
    Nat → List Node → List Observed → List (UInt16 × CoapCode) →
      Except Fault (DeleteOutcome Node)
  | _, [], observedList, calls =>
    .ok { instanceList := [], observedList, calls, result := .deleted202 }
  | 0, _ :: _, _, _ => .error .endless
  | rounds + 1, instanceP :: next, observedList, calls =>
    let (instanceList, result) := delete (ident instanceP) (instanceP :: next)
    let calls := calls ++ [(ident instanceP, result)]
    if result = .deleted202 then
      match read instanceP with
      | .error fault => .error fault
      | .ok id =>
        match observeClear { uri with instanceId := id } observedList with
        | .error fault => .error fault
        | .ok observedList =>
          deleteObserved ident read delete uri rounds instanceList observedList calls
    else .ok { instanceList, observedList, calls, result }

/-- `object_delete` of an object that has a `deleteFunc`. -/
def objectDeleteObserved (ident : Node → UInt16) (read : Node → Except Fault UInt16)
    (delete : UInt16 → List Node → List Node × CoapCode) (uri : Lwm2mUri) (rounds : Nat)
    (nodes : List Node) (observedList : List Observed) : Except Fault (DeleteOutcome Node) :=
  if uri.isSetInstance then
    let (instanceList, result) := delete uri.instanceId nodes
    let calls := [(uri.instanceId, result)]
    if result = .deleted202 then
      (observeClear uri observedList).map fun observedList =>
        { instanceList, observedList, calls, result }
    else .ok { instanceList, observedList, calls, result }
  else deleteObserved ident read delete uri rounds nodes observedList []

/-- The memory of an instance is given back by its `deleteFunc`. -/
def readFreed (_ : Node) : Except Fault UInt16 := .error .useAfterFree

/-- It is not, and the instance has its id still. -/
def readUnlinked (ident : Node → UInt16) (node : Node) : Except Fault UInt16 := .ok (ident node)

/-- A `deleteFunc` that answers 2.02 has removed the instance that it was given. -/
def RemovesGiven (ident : Node → UInt16) (delete : UInt16 → List Node → List Node × CoapCode) :
    Prop :=
  ∀ id nodes, (delete id nodes).2 = .deleted202 →
    ∃ before node after, nodes = before ++ node :: after ∧ ident node = id ∧
      (delete id nodes).1 = before ++ after

/-- The entry is the one of an instance that was deleted, or below it. -/
def belowDeleted (objectId : UInt16) (calls : List (UInt16 × CoapCode)) (observed : Observed) :
    Bool :=
  observed.uri.objectId == objectId && calls.contains (observed.uri.instanceId, .deleted202)

/-- The deletion ends, reads nothing that was removed, and has removed the entries of the instances
that were deleted and no others; the result is the answer of the last call. -/
def ClearsDeleted (ident : Node → UInt16) (read : Node → Except Fault UInt16)
    (delete : UInt16 → List Node → List Node × CoapCode) (uri : Lwm2mUri) (nodes : List Node)
    (observedList : List Observed) : Prop :=
  ∃ out, (∀ rounds, nodes.length ≤ rounds →
      objectDeleteObserved ident read delete uri rounds nodes observedList = .ok out) ∧
    out.observedList = observedList.filter (fun observed =>
      !belowDeleted uri.objectId out.calls observed) ∧
    out.result = (out.calls.getLast?.map Prod.snd).getD .deleted202

/-- The answer of the first `deleteFunc` that is called, if one is. -/
def firstAnswer (ident : Node → UInt16) (delete : UInt16 → List Node → List Node × CoapCode)
    (uri : Lwm2mUri) (nodes : List Node) : Option CoapCode :=
  if uri.isSetInstance then some (delete uri.instanceId nodes).2
  else nodes.head?.map fun node => (delete (ident node) nodes).2

end Wakaama
