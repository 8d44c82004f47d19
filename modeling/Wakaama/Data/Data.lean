/-!
# LwM2M data trees (`include/liblwm2m.h`)

`lwm2m_data_t`: a type tag, an id and a union. Which arm of the union was written last is
recorded by the constructor of `DataValue`; the code selects an arm by the type tag.
-/

namespace Wakaama

/-- `lwm2m_data_type_t`. -/
inductive DataType where
  | undefined
  | object
  | objectInstance
  | multipleResource
  | string
  | opaqueBytes
  | integer
  | unsignedInteger
  | float
  | boolean
  | objectLink
  | coreLink
  deriving DecidableEq, Repr

/-- The types of `value.asChildren`. -/
def DataType.hasChildren : DataType → Bool
  | .object | .objectInstance | .multipleResource => true
  | _ => false

/-- The union of `lwm2m_data_t`. A double is given by its bits; a counted array is the list of
its elements. `zero` is the union as `lwm2m_data_new` leaves it, which every arm reads as 0. -/
inductive DataValue (α : Type) where
  | zero
  | asBoolean (value : Bool)
  | asInteger (value : Int64)
  | asUnsigned (value : UInt64)
  | asFloat (bits : UInt64)
  | asBuffer (buffer : List UInt8)
  | asChildren (array : List α)
  | asObjLink (objectId objectInstanceId : UInt16)
  deriving DecidableEq, Repr

/-- `lwm2m_data_t`. -/
inductive Lwm2mData where
  | node (type : DataType) (id : UInt16) (value : DataValue Lwm2mData)
  deriving Repr

namespace Lwm2mData

/-- Induction over a tree: what holds of a node as soon as it holds of its children. -/
theorem induct {P : Lwm2mData → Prop}
    (step : ∀ type id value,
      (∀ array, value = .asChildren array → ∀ child ∈ array, P child) → P (node type id value)) :
    ∀ data, P data :=
  @Lwm2mData.rec P (fun value => ∀ array, value = .asChildren array → ∀ child ∈ array, P child)
    (fun array => ∀ child ∈ array, P child)
    (fun type id value ih => step type id value ih)
    (by simp) (by simp) (by simp) (by simp) (by simp) (by simp)
    (fun array ih _ h => by cases h; exact ih)
    (by simp) (by simp)
    (fun head tail ihead itail child hmem => by
      rcases List.mem_cons.mp hmem with rfl | hmem
      · exact ihead
      · exact itail child hmem)

def type : Lwm2mData → DataType
  | node type _ _ => type

def id : Lwm2mData → UInt16
  | node _ id _ => id

def value : Lwm2mData → DataValue Lwm2mData
  | node _ _ value => value

/-- `value.asChildren` of a node whose type says that it has children. -/
def children (data : Lwm2mData) : List Lwm2mData :=
  match data.value with
  | .asChildren array => array
  | _ => []

/-- The other arms, of a node whose type names them; a new node reads as 0 or as empty. -/
def asBuffer (data : Lwm2mData) : List UInt8 :=
  match data.value with
  | .asBuffer buffer => buffer
  | _ => []

def asInteger (data : Lwm2mData) : Int64 :=
  match data.value with
  | .asInteger value => value
  | _ => 0

def asUnsigned (data : Lwm2mData) : UInt64 :=
  match data.value with
  | .asUnsigned value => value
  | .asInteger value => value.toUInt64
  | _ => 0

def asFloat (data : Lwm2mData) : UInt64 :=
  match data.value with
  | .asFloat bits => bits
  | _ => 0

def asBoolean (data : Lwm2mData) : Bool :=
  match data.value with
  | .asBoolean value => value
  | _ => false

def asObjLink (data : Lwm2mData) : UInt16 × UInt16 :=
  match data.value with
  | .asObjLink objectId objectInstanceId => (objectId, objectInstanceId)
  | _ => (0, 0)

end Lwm2mData

end Wakaama
