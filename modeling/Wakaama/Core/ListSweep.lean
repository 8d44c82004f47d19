import Wakaama.Core.List
import Wakaama.Misc.Fault

/-!
# Loops that free nodes of a list (`core/list.c` and its callers)

A loop over a list that unlinks the nodes it selects with `lwm2m_list_remove` and frees them. The
removal goes by the id. A node that is freed while it is still linked stays in the list, marked.
-/

namespace Wakaama

variable {α : Type}

/-- Where a node has its id, and how it is marked as freed. -/
structure NodeMarks (α : Type) where
  id : α → UInt16
  freed : α → Bool
  free : α → α
  id_free : ∀ node, id (free node) = id node
  freed_free : ∀ node, freed (free node) = true

/-- The walk of `lwm2m_list_remove` behind the head reads a node that is freed. -/
def NodeMarks.walkReadsFreed (marks : NodeMarks α) (key : UInt16) : List α → Bool
  | [] => false
  | target :: next =>
    marks.freed target || (decide (marks.id target < key) && marks.walkReadsFreed key next)

/-- `lwm2m_list_remove` reads a node that is freed. -/
def NodeMarks.removeReadsFreed (marks : NodeMarks α) (key : UInt16) : List α → Bool
  | [] => false
  | head :: next => marks.freed head || (marks.id head != key && marks.walkReadsFreed key next)

/-- A node behind the nodes `before` is removed by its id and freed: the walk ends at the node
itself at the latest, and unlinks the first one with the id. -/
def NodeMarks.remove (marks : NodeMarks α) (before : List α) (node : α) : Except Fault (List α) :=
  if marks.removeReadsFreed (marks.id node) before then .error .useAfterFree
  else .ok (lwm2mListRemove marks.id (marks.id node) (before ++ [marks.free node])).1

/-- The loop behind the nodes `before`: what is left of the list. The next node is read before a
node is freed. -/
def NodeMarks.sweep (marks : NodeMarks α) (selected : α → Bool) :
    List α → List α → Except Fault (List α)
  | before, [] => .ok before
  | before, node :: next =>
    if marks.freed node then .error .useAfterFree
    else if selected node then
      match marks.remove before node with
      | .error fault => .error fault
      | .ok before => marks.sweep selected before next
    else marks.sweep selected (before ++ [node]) next

end Wakaama
