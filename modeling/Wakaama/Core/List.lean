/-!
# Sorted lists (`core/list.c`)

The nodes of a `lwm2m_list_t` carry a 16-bit id and are kept in ascending order of it. The
node type is arbitrary, `id` reads a node's id; a list is the nodes from its head on.
-/

namespace Wakaama

variable {α : Type}

/-- The walk of `lwm2m_list_add` behind the head: `node` goes in front of the first node
whose id is not smaller. -/
def listInsert (id : α → UInt16) (node : α) : List α → List α
  | [] => [node]
  | target :: next =>
    if id target < id node then target :: listInsert id node next else node :: target :: next

/-- `lwm2m_list_add`. -/
def lwm2mListAdd (id : α → UInt16) (head : List α) (node : α) : List α :=
  match head with
  | [] => [node]
  | first :: next =>
    if id node < id first then node :: first :: next else first :: listInsert id node next

/-- `lwm2m_list_find`. -/
def lwm2mListFind (id : α → UInt16) (key : UInt16) : List α → Option α
  | [] => none
  | head :: next =>
    if id head < key then lwm2mListFind id key next
    else if id head = key then some head else none

/-- The walk of `lwm2m_list_remove` behind the head. -/
def listUnlink (id : α → UInt16) (key : UInt16) : List α → List α × Option α
  | [] => ([], none)
  | target :: next =>
    if id target < key then
      let (next, node) := listUnlink id key next
      (target :: next, node)
    else if id target = key then (next, some target) else (target :: next, none)

/-- `lwm2m_list_remove`: the new list and `*nodeP`. -/
def lwm2mListRemove (id : α → UInt16) (key : UInt16) (head : List α) : List α × Option α :=
  match head with
  | [] => ([], none)
  | first :: next =>
    if id first = key then (next, some first)
    else
      let (next, node) := listUnlink id key next
      (first :: next, node)

/-- The loop of `lwm2m_list_newId`; the increment wraps at 16 bits. -/
def newIdFrom (id : α → UInt16) (candidate : UInt16) : List α → UInt16
  | [] => candidate
  | target :: next =>
    if candidate = id target then newIdFrom id (id target + 1) next else candidate

/-- `lwm2m_list_newId`. -/
def lwm2mListNewId (id : α → UInt16) (head : List α) : UInt16 := newIdFrom id 0 head

end Wakaama
