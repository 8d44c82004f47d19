import Wakaama.Coap.Block

/-!
# The list of block-wise transfers in both builds (`coap/block.c`)

With `LWM2M_RAW_BLOCK1_REQUESTS` a node has one more field, `mid`, and Block1 requests go to
`prv_coap_raw_block_handler`, which stores no payload; Block2 responses are assembled in
either build. Every allocation of a call may fail on its own.
-/

namespace Wakaama

/-- Whether `LWM2M_RAW_BLOCK1_REQUESTS` is defined. -/
inductive BlockBuild where
  | assembling
  | raw
  deriving DecidableEq, Repr

/-- `peerP->blockData`; `mids` holds the field `mid` of the nodes, which only the raw build has
and only its handler reads. -/
structure BlockList where
  nodes : List BlockData
  mids : List UInt16
  deriving DecidableEq, Repr

/-- The list of a new peer. -/
def BlockList.empty : BlockList := { nodes := [], mids := [] }

/-- What the allocator does during one call, the field `mid` of the fresh node included. What
the buffer field of a fresh node happens to hold is not an allocation of its own. -/
structure NodeAlloc extends Alloc where
  mid : UInt16
  fresh_not_live : ∀ fields ∈ entry, ∀ bytes, fields.1 ≠ .live bytes

/-- The nodes a function that does not write `mid` leaves, with the field of those there
before; at most one node is new, and it is linked in front of the head. -/
def BlockList.withNodes (list : BlockList) (mid : UInt16) (nodes : List BlockData) : BlockList :=
  { nodes
    mids := if list.nodes.length < nodes.length then mid :: list.mids else list.mids }

/-- `block1_delete` and `block2_delete` with the field `mid` of the nodes that stay. -/
def BlockList.delete (identifier : BlockKey) (list : BlockList) : Except Fault BlockList :=
  match findBlockData identifier list.nodes with
  | .error fault => .error fault
  | .ok none => .ok list
  | .ok (some (before, _, _)) =>
    (prvBlockDataDelete identifier list.nodes).map fun nodes =>
      { nodes, mids := list.mids.eraseIdx before.length }

/-- `block1_create` and `block2_create`; the pointer they return is the head. -/
def BlockList.create (alloc : NodeAlloc) (identifier : BlockKey) (list : BlockList) : BlockList :=
  match prvBlockInsert alloc.toAlloc identifier with
  | none => list
  | some blockData => list.withNodes alloc.mid (blockData :: list.nodes)

/-- The end of `prv_coap_raw_block_handler`. -/
def rawBlockAnswer (identifier : BlockKey) (blockMore : Bool) (list : BlockList) :
    Except Fault (BlockList × CoapCode) :=
  if blockMore then .ok (list, .continue231)
  else (list.delete identifier).map fun list => (list, .noError)

/-- `prv_coap_raw_block_handler`. -/
def prvCoapRawBlockHandler (alloc : NodeAlloc) (identifier : BlockKey) (mid : UInt16)
    (block : Block) (list : BlockList) : Except Fault (BlockList × CoapCode) :=
  match findBlockData identifier list.nodes with
  | .error fault => .error fault
  | .ok none =>
    if block.blockNum = 0 then
      match prvBlockInsert alloc.toAlloc identifier with
      | none => .error .nullDeref
      | some blockData =>
        rawBlockAnswer identifier block.blockMore
          { nodes := { blockData with blockNum := block.blockNum } :: list.nodes
            mids := mid :: list.mids }
    else .ok (list, .reqEntityIncomplete408)
  | .ok (some (before, blockData, after)) =>
    if block.blockNum = 0 ∧ list.mids[before.length]? = some mid then .ok (list, .ignore)
    else if block.blockNum ≠ 0 ∧ block.blockNum ≤ blockData.blockNum then .ok (list, .ignore)
    else
      rawBlockAnswer identifier block.blockMore
        { nodes := before ++ { blockData with blockNum := block.blockNum } :: after
          mids := list.mids.set before.length mid }

/-- The calls made on one peer's list. -/
inductive BlockListCall where
  | block1 (uri : String) (mid : UInt16) (block : Block) (alloc : NodeAlloc)
  | block2 (mid : UInt16) (block : Block) (alloc : NodeAlloc)
  | create1 (uri : String) (alloc : NodeAlloc)
  | create2 (mid : UInt16) (alloc : NodeAlloc)
  | setExpectedMid (currentMid expectedMid : UInt16)
  | delete1 (uri : String)
  | delete2 (mid : UInt16)

/-- The identifier the call names. -/
def BlockListCall.key : BlockListCall → BlockKey
  | .block1 uri _ _ _ | .create1 uri _ | .delete1 uri => .uri uri
  | .block2 mid _ _ | .create2 mid _ | .setExpectedMid mid _ | .delete2 mid => .mid mid

/-- The assembling handler on the list. -/
def assembleStep (maxMessageSize : Nat) (alloc : NodeAlloc) (identifier : BlockKey)
    (block : Block) (list : BlockList) : Except Fault (BlockList × Option CoapCode) :=
  (prvCoapBlockHandler maxMessageSize alloc.toAlloc identifier block list.nodes).map
    fun (nodes, reply) => (list.withNodes alloc.mid nodes, some reply.code)

/-- The call acting on the list. -/
def blockListStep (build : BlockBuild) (maxMessageSize : Nat) (list : BlockList) :
    BlockListCall → Except Fault (BlockList × Option CoapCode)
  | .block1 uri mid block alloc =>
    match build with
    | .assembling => assembleStep maxMessageSize alloc (.uri uri) block list
    | .raw =>
      (prvCoapRawBlockHandler alloc (.uri uri) mid block list).map fun (list, code) =>
        (list, some code)
  | .block2 mid block alloc => assembleStep maxMessageSize alloc (.mid mid) block list
  | .create1 uri alloc => .ok (list.create alloc (.uri uri), none)
  | .create2 mid alloc => .ok (list.create alloc (.mid mid), none)
  | .setExpectedMid currentMid expectedMid =>
    (coapBlock2SetExpectedMid currentMid expectedMid list.nodes).map fun nodes =>
      ({ list with nodes }, none)
  | .delete1 uri => (list.delete (.uri uri)).map fun list => (list, none)
  | .delete2 mid => (list.delete (.mid mid)).map fun list => (list, none)

end Wakaama
