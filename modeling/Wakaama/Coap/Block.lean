import Wakaama.Coap.Code
import Wakaama.Misc.Fault

/-!
# Block-wise transfers (`coap/block.c`)

The list `peerP->blockData` of one peer, in the build that assembles the payload
(`LWM2M_RAW_BLOCK1_REQUESTS` not defined). One list holds the Block1 transfers, keyed by the
request URI, and the Block2 transfers, keyed by a message id, the key being the union
`block_data_identifier_t`. A pointer to a list node is modelled by the node with the nodes
before and after it.

`size_t` is taken to be 64 bits wide and the union to be laid out little-endian, so `mid` is
its low half.
-/

namespace Wakaama

/-- `block_type_t`. -/
inductive BlockType where
  | block1
  | block2
  deriving DecidableEq, Repr

/-- A `uint8_t *` that is NULL, points to a live allocation with the given bytes, or holds
whatever a fresh, uninitialised structure held. -/
inductive Buffer where
  | null
  | live (bytes : List UInt8)
  | wild
  deriving DecidableEq, Repr

/-- `block_data_identifier_t` inside a list node: the eight bytes of the union read as a
pointer and, where they are the pointer `lwm2m_strdup` returned, the string there. -/
structure Identifier where
  word : Nat
  uri : Option String
  deriving DecidableEq, Repr

/-- `lwm2m_block_data_t`. -/
structure BlockData where
  blockType : BlockType
  identifier : Identifier
  blockBuffer : Buffer
  blockBufferSize : Nat
  blockNum : Nat
  deriving DecidableEq, Repr

/-- The identifier a wrapper fills in before a look-up: `coap_block1_handler` and
`block1_delete` write the `uri` arm, the Block2 functions the `mid` arm. -/
inductive BlockKey where
  | uri (uri : String)
  | mid (mid : UInt16)
  deriving DecidableEq, Repr

/-- The `blockType` argument each wrapper passes along with its identifier. -/
def BlockKey.blockType : BlockKey → BlockType
  | .uri _ => .block1
  | .mid _ => .block2

/-- What the allocator does during one call: the fields of the fresh list node, if it gets
one, before the code writes them; the address `lwm2m_strdup` returns, 0 for NULL; whether
the buffer of the call is allocated; and the half of the union that writing `mid` leaves as
it was on the stack. -/
structure Alloc where
  entry : Option (Buffer × Nat × Nat)
  uri : Nat
  buffer : Bool
  high : Nat

/-- `*outputBuffer` and `*outputLength`. -/
structure Output where
  buffer : Buffer
  length : Nat
  deriving DecidableEq, Repr

/-- What a handler returns; `output` is set only with `NO_ERROR`. -/
structure BlockReply where
  code : CoapCode
  output : Option Output
  deriving DecidableEq, Repr

/-- One block as the handlers receive it. -/
structure Block where
  buffer : List UInt8
  blockSize : Nat
  blockNum : Nat
  blockMore : Bool
  deriving DecidableEq, Repr

/-- `identifier.mid`, an `int32_t`. -/
def Identifier.mid (identifier : Identifier) : Nat := identifier.word % 2 ^ 32

/-- Writing `identifier.mid`. -/
def Identifier.setMid (identifier : Identifier) (mid : UInt16) : Identifier :=
  let word := identifier.word / 2 ^ 32 * 2 ^ 32 + mid.toNat
  { word, uri := if word = identifier.word then identifier.uri else none }

/-- `prv_matchBlock1`: the NULL test reads only the pointer, `strcmp` what it points to. -/
def prvMatchBlock1 (uri : String) (blockData : BlockData) : Except Fault Bool :=
  if blockData.identifier.word = 0 then .ok false
  else
    match blockData.identifier.uri with
    | some stored => .ok (uri == stored)
    | none => .error .wildRead

/-- `prv_matchBlock2`. -/
def prvMatchBlock2 (mid : UInt16) (blockData : BlockData) : Except Fault Bool :=
  .ok (mid.toNat == blockData.identifier.mid)

/-- `prv_get_matcher`, applied to the identifier. -/
def prvGetMatcher : BlockKey → BlockData → Except Fault Bool
  | .uri uri => prvMatchBlock1 uri
  | .mid mid => prvMatchBlock2 mid

/-- `find_block_data`: the first node that matches, between the nodes before and after it.
The node's `blockType` is not looked at. -/
def findBlockData (identifier : BlockKey) :
    List BlockData → Except Fault (Option (List BlockData × BlockData × List BlockData))
  | [] => .ok none
  | blockData :: next =>
    match prvGetMatcher identifier blockData with
    | .error fault => .error fault
    | .ok true => .ok (some ([], blockData, next))
    | .ok false =>
      match findBlockData identifier next with
      | .error fault => .error fault
      | .ok none => .ok none
      | .ok (some (before, found, after)) => .ok (some (blockData :: before, found, after))

/-- The union of a new node: a copy of the caller's, in which Block1 replaces the pointer by
that of its own copy of the string. -/
def newIdentifier (alloc : Alloc) : BlockKey → Identifier
  | .uri uri => { word := alloc.uri, uri := if alloc.uri = 0 then none else some uri }
  | .mid mid => { word := alloc.high * 2 ^ 32 + mid.toNat, uri := none }

/-- `prv_block_insert`, less the linking in front of the head; the buffer, its size and the
block number stay as the allocator returned them. -/
def prvBlockInsert (alloc : Alloc) (identifier : BlockKey) : Option BlockData :=
  alloc.entry.map fun (blockBuffer, blockBufferSize, blockNum) =>
    { blockType := identifier.blockType
      identifier := newIdentifier alloc identifier
      blockBuffer, blockBufferSize, blockNum }

/-- `lwm2m_free` of a buffer pointer. -/
def freeBuffer : Buffer → Except Fault Unit
  | .wild => .error .wildFree
  | _ => .ok ()

/-- `free_block_data`. -/
def freeBlockData (blockData : BlockData) : Except Fault Unit :=
  match freeBuffer blockData.blockBuffer with
  | .error fault => .error fault
  | .ok () =>
    if blockData.blockType = .block1 ∧ blockData.identifier.word ≠ 0 ∧
        blockData.identifier.uri = none then .error .wildFree
    else .ok ()

/-- `prv_block_data_delete`. -/
def prvBlockDataDelete (identifier : BlockKey) (head : List BlockData) :
    Except Fault (List BlockData) :=
  match findBlockData identifier head with
  | .error fault => .error fault
  | .ok none => .ok head
  | .ok (some (before, removed, after)) => (freeBlockData removed).map fun _ => before ++ after

/-- The bytes `memcpy` reads when it copies `size` bytes out of a buffer. -/
def readBuffer (size : Nat) : Buffer → Except Fault (List UInt8)
  | .live bytes => if size ≤ bytes.length then .ok (bytes.take size) else .error .wildRead
  | .null => if size = 0 then .ok [] else .error .nullDeref
  | .wild => if size = 0 then .ok [] else .error .wildRead

/-- The end of `prv_coap_block_handler`, for a block that was not turned away. -/
def blockAnswer (blockData : BlockData) (blockMore : Bool) : BlockReply :=
  if blockMore then { code := .continue231, output := none }
  else
    { code := .noError
      output := some { buffer := blockData.blockBuffer, length := blockData.blockBufferSize } }

/-- `prv_coap_block_handler` on block 0, `blockData` being the node found or the new one. -/
def prvFirstBlock (alloc : Alloc) (block : Block) (before after : List BlockData)
    (blockData : Option BlockData) : Except Fault (List BlockData × BlockReply) :=
  if alloc.buffer then
    match blockData with
    | none => .error .nullDeref
    | some blockData =>
      let blockData := { blockData with
        blockBuffer := .live block.buffer
        blockBufferSize := block.buffer.length
        blockNum := block.blockNum }
      .ok (before ++ blockData :: after, blockAnswer blockData block.blockMore)
  else .ok (before ++ blockData.toList ++ after, { code := .internalServerError500, output := none })

/-- `prv_coap_block_handler` on a later block of a transfer whose node was found. -/
def prvNextBlock (maxMessageSize : Nat) (alloc : Alloc) (block : Block)
    (before after : List BlockData) (blockData : BlockData) :
    Except Fault (List BlockData × BlockReply) :=
  let unchanged (code : CoapCode) : Except Fault (List BlockData × BlockReply) :=
    .ok (before ++ blockData :: after, { code, output := none })
  if block.blockNum ≤ blockData.blockNum then unchanged .retransmission
  else if block.blockNum = blockData.blockNum + 1 then
    if blockData.blockBufferSize ≠ block.blockSize * block.blockNum then
      unchanged .reqEntityIncomplete408
    else if maxMessageSize < blockData.blockBufferSize + block.buffer.length then
      unchanged .entityTooLarge413
    else
      let newSize := blockData.blockBufferSize + block.buffer.length
      if alloc.buffer then
        match readBuffer blockData.blockBufferSize blockData.blockBuffer with
        | .error fault => .error fault
        | .ok bytes =>
          let blockData := { blockData with
            blockBuffer := .live (bytes ++ block.buffer)
            blockBufferSize := newSize
            blockNum := block.blockNum }
          .ok (before ++ blockData :: after, blockAnswer blockData block.blockMore)
      else
        .ok (before ++ { blockData with blockBuffer := .null, blockBufferSize := newSize } :: after,
          { code := .internalServerError500, output := none })
  -- no branch of the source handles a block number past `blockData->blockNum + 1`
  else .ok (before ++ blockData :: after, blockAnswer blockData block.blockMore)

/-- `prv_coap_block_handler`. -/
def prvCoapBlockHandler (maxMessageSize : Nat) (alloc : Alloc) (identifier : BlockKey)
    (block : Block) (head : List BlockData) : Except Fault (List BlockData × BlockReply) :=
  match findBlockData identifier head with
  | .error fault => .error fault
  | .ok none =>
    if block.blockNum = 0 then
      prvFirstBlock alloc block [] head (prvBlockInsert alloc identifier)
    else .ok (head, { code := .reqEntityIncomplete408, output := none })
  | .ok (some (before, blockData, after)) =>
    if block.blockNum = 0 then
      match freeBuffer blockData.blockBuffer with
      | .error fault => .error fault
      | .ok () =>
        prvFirstBlock alloc block before after
          (some { blockData with blockBuffer := .null, blockBufferSize := 0 })
    else prvNextBlock maxMessageSize alloc block before after blockData

/-- `coap_block1_handler`. -/
def coapBlock1Handler (maxMessageSize : Nat) (alloc : Alloc) (uri : String) (block : Block) :
    List BlockData → Except Fault (List BlockData × BlockReply) :=
  prvCoapBlockHandler maxMessageSize alloc (.uri uri) block

/-- `coap_block2_handler`. -/
def coapBlock2Handler (maxMessageSize : Nat) (alloc : Alloc) (mid : UInt16) (block : Block) :
    List BlockData → Except Fault (List BlockData × BlockReply) :=
  prvCoapBlockHandler maxMessageSize alloc (.mid mid) block

/-- `block1_delete`. -/
def block1Delete (uri : String) : List BlockData → Except Fault (List BlockData) :=
  prvBlockDataDelete (.uri uri)

/-- `block2_delete`. -/
def block2Delete (mid : UInt16) : List BlockData → Except Fault (List BlockData) :=
  prvBlockDataDelete (.mid mid)

/-- `coap_block2_set_expected_mid`. -/
def coapBlock2SetExpectedMid (currentMid expectedMid : UInt16) (head : List BlockData) :
    Except Fault (List BlockData) :=
  match findBlockData (.mid currentMid) head with
  | .error fault => .error fault
  | .ok none => .ok head
  | .ok (some (before, blockData, after)) =>
    .ok (before ++ { blockData with
      identifier := blockData.identifier.setMid expectedMid } :: after)

/-- The allocator serving every request of a call, with what its memory happens to hold. -/
structure Grant where
  entry : Buffer × Nat × Nat
  uri : Nat
  uri_ne_zero : uri ≠ 0
  high : Nat

/-- A grant as the allocator's behaviour during one call. -/
def Grant.alloc (grant : Grant) : Alloc where
  entry := some grant.entry
  uri := grant.uri
  buffer := true
  high := grant.high

end Wakaama
