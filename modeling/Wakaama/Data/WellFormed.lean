import Mathlib.Data.List.Nodup
import Wakaama.Data.Data

/-!
# Well-formed data trees

Objects hold instances, instances hold resources, and no two children of a node have the same id.
-/

namespace Wakaama

/-- The children of a node: no two have the same id, and each is as it should be. -/
def Siblings (P : Lwm2mData → Prop) (array : List Lwm2mData) : Prop :=
  (array.map Lwm2mData.id).Nodup ∧ ∀ child ∈ array, P child

/-- A node of the type whose children are as they should be. -/
def Parent (type : DataType) (P : Lwm2mData → Prop) (data : Lwm2mData) : Prop :=
  data.type = type ∧ ∃ array, data.value = .asChildren array ∧ Siblings P array

/-- A plain value. -/
def PlainValue (data : Lwm2mData) : Prop := data.type.hasChildren = false

/-- A resource has a plain value or several of them. -/
def WellFormedResource (data : Lwm2mData) : Prop :=
  PlainValue data ∨ Parent .multipleResource PlainValue data

/-- Objects with instances with resources. -/
def WellFormedTree (tree : List Lwm2mData) : Prop :=
  Siblings (Parent .object (Parent .objectInstance WellFormedResource)) tree

end Wakaama
