import Wakaama.Data.SenmlCommon

/-!
# `senml_dataStrip` in memory (`data/senml_common.c`)

The nodes together with the allocations that hold their strings, and an allocator that may refuse
each array on its own. `allocates n` tells whether the allocation number `n` succeeds.
-/

namespace Wakaama

/-- The types of `value.asBuffer`. -/
def DataType.hasBuffer : DataType → Bool
  | .string | .opaqueBytes | .coreLink => true
  | _ => false

/-- The arms of the union that own no memory. -/
def DataValue.ownsNothing {α : Type} : DataValue α → Bool
  | .asBuffer _ | .asChildren _ => false
  | _ => true

/-- The union of a node in memory. A buffer is `NULL` or an allocation and what it holds; an array
is counted, or it is `NULL` with a count. -/
inductive MemoryValue (α : Type) where
  | other (value : { value : DataValue Lwm2mData // value.ownsNothing = true })
  | asBuffer (buffer : Option (Nat × List UInt8))
  | asChildren (array : List α)
  | nullChildren (count : Nat)

/-- `lwm2m_data_t` in memory. -/
inductive MemoryData where
  | node (type : DataType) (id : UInt16) (value : MemoryValue MemoryData)

/-- A node as `lwm2m_data_new` leaves it. -/
def MemoryData.zero : MemoryData := .node .undefined 0 (.other ⟨.zero, rfl⟩)

mutual

/-- What a node in memory says. -/
def MemoryData.contents : MemoryData → Lwm2mData
  | .node type id value => .node type id (valueContents value)

def valueContents : MemoryValue MemoryData → DataValue Lwm2mData
  | .other value => value.1
  | .asBuffer none => .asBuffer []
  | .asBuffer (some (_, bytes)) => .asBuffer bytes
  | .asChildren array => .asChildren (arrayContents array)
  | .nullChildren _ => .asChildren []

def arrayContents : List MemoryData → List Lwm2mData
  | [] => []
  | data :: rest => data.contents :: arrayContents rest

end

mutual

/-- The buffers that `lwm2m_data_free` frees with a node. -/
def MemoryData.ownedBuffers : MemoryData → List Nat
  | .node type _ value => valueBuffers type value

def valueBuffers (type : DataType) : MemoryValue MemoryData → List Nat
  | .asChildren array => if type.hasChildren then arrayBuffers array else []
  | .asBuffer (some (buffer, _)) => if type.hasBuffer then [buffer] else []
  | _ => []

def arrayBuffers : List MemoryData → List Nat
  | [] => []
  | data :: rest => data.ownedBuffers ++ arrayBuffers rest

end

/-- One turn of the loop of `senml_dataStrip`: whether the slot stays, what has been written to it,
what has become of the node, and the number of the next allocation. -/
structure ItemStrip where
  copied : Bool
  slot : MemoryData
  source : MemoryData
  next : Nat

/-- The whole loop: the last `j`, all slots of the new array and all nodes of the old one. -/
structure ItemsStrip where
  filled : Nat
  slots : List MemoryData
  source : List MemoryData
  next : Nat

/-- A call of `senml_dataStrip`: what it returns and stores in `*resultP`, the last `j`, and the
nodes it has been given. -/
structure DataStrip where
  returned : Int
  result : Option (List MemoryData)
  filled : Nat
  source : List MemoryData
  next : Nat

/-- A turn in front of the others. The next one writes the slot that is skipped once more, and
the slots that are left over at the end have never been written. -/
def ItemsStrip.after (item : ItemStrip) (rest : ItemsStrip) : ItemsStrip where
  filled := if item.copied then rest.filled + 1 else rest.filled
  slots :=
    if item.copied then item.slot :: rest.slots
    else if rest.slots.isEmpty then [item.slot]
    else rest.slots ++ [.zero]
  source := item.source :: rest.source
  next := rest.next

/-- `senml_dataStrip` with its loop as an argument. It returns the size of the array. -/
def dataStripWith (allocated : Bool) (next : Nat) (data : List MemoryData)
    (items : Except Fault ItemsStrip) : Except Fault DataStrip :=
  if data.isEmpty then .ok { returned := -1, result := none, filled := 0, source := data, next }
  else if allocated then
    items.map fun items =>
      { returned := data.length, result := some items.slots, filled := items.filled
        source := items.source, next := items.next }
  else .ok { returned := -1, result := none, filled := 0, source := data, next := next + 1 }

/-- The turn for a node whose array is not empty. -/
def containerStrip (type : DataType) (id : UInt16) (strip : DataStrip) : ItemStrip where
  copied := 0 < strip.returned
  slot :=
    match strip.result with
    | some array => .node type id (.asChildren array)
    | none => .node type id (.nullChildren strip.source.length)
  source := .node type id (.asChildren strip.source)
  next := strip.next

mutual

def stripItem (allocates : Nat → Bool) (next : Nat) : MemoryData → Except Fault ItemStrip
  | .node type id value =>
    if type.hasChildren then stripChildren allocates next type id value
    else
      let slot : MemoryData := .node type id value
      let source := if type.hasBuffer then .node type id (.asBuffer none) else slot
      .ok { copied := true, slot, source, next }

/-- The case of the types with children. -/
def stripChildren (allocates : Nat → Bool) (next : Nat) (type : DataType) (id : UInt16) :
    MemoryValue MemoryData → Except Fault ItemStrip
  | .asChildren array =>
    if array.isEmpty then
      let slot : MemoryData := .node type id (.asChildren array)
      .ok { copied := true, slot, source := slot, next }
    else
      (dataStripWith (allocates next) next array (stripItems allocates (next + 1) array)).map
        (containerStrip type id)
  | .nullChildren count =>
    let slot : MemoryData := .node type id (.nullChildren count)
    if count = 0 then .ok { copied := true, slot, source := slot, next }
    else if allocates next then .error .nullDeref
    else .ok { copied := false, slot, source := slot, next := next + 1 }
  | .other ⟨.zero, h⟩ =>
    let slot : MemoryData := .node type id (.other ⟨.zero, h⟩)
    .ok { copied := true, slot, source := slot, next }
  | _ => .error .wrongArm

def stripItems (allocates : Nat → Bool) (next : Nat) : List MemoryData → Except Fault ItemsStrip
  | [] => .ok { filled := 0, slots := [], source := [], next }
  | data :: rest => do
    let item ← stripItem allocates next data
    let items ← stripItems allocates item.next rest
    return .after item items

end

/-- `senml_dataStrip`. -/
def senmlDataStripAt (allocates : Nat → Bool) (next : Nat) (data : List MemoryData) :
    Except Fault DataStrip :=
  dataStripWith (allocates next) next data (stripItems allocates (next + 1) data)

end Wakaama
