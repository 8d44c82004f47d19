import Wakaama.Coap.BlockList
import Wakaama.Misc.Run

/-!
# The buffers of the block-wise transfers

`prv_block_insert` leaves the buffer of a new node and its size as the allocator returned
them, and the handlers update the two around an allocation that may fail. Between two calls
every node has an empty or a live buffer, and the refusals leave it alone, exactly as long as
each call gets the memory it needs.
-/

namespace Wakaama

/-- The bytes stored in a buffer. -/
def Buffer.bytes : Buffer → List UInt8
  | .live bytes => bytes
  | .null | .wild => []

/-- The node's buffer is NULL with size 0 or a live allocation of `blockBufferSize` bytes, and
what `free_block_data` hands to `free` is NULL or an allocation. -/
structure NodeFine (blockData : BlockData) : Prop where
  buffer : blockData.blockBuffer = .null ∧ blockData.blockBufferSize = 0 ∨
    ∃ bytes, blockData.blockBuffer = .live bytes ∧ blockData.blockBufferSize = bytes.length
  freed : freeBlockData blockData = .ok ()

/-- Every node of the list is fine. -/
def NodesFine (nodes : List BlockData) : Prop := ∀ blockData ∈ nodes, NodeFine blockData

/-- The bytes stored for the transfer, as the code looks it up. -/
def storedBytes (identifier : BlockKey) (nodes : List BlockData) : List UInt8 :=
  match findBlockData identifier nodes with
  | .ok (some (_, blockData, _)) => blockData.blockBuffer.bytes
  | _ => []

/-- 4.08, 4.13 and 5.00. -/
def CoapCode.refusesBlock : CoapCode → Bool
  | .reqEntityIncomplete408 | .entityTooLarge413 | .internalServerError500 => true
  | _ => false

/-- The call frees only NULL or live allocations and returns, every node is fine afterwards, and
a refusal leaves the stored bytes of the transfer as they were. -/
def KeepsBuffers (build : BlockBuild) (maxMessageSize : Nat) (list : BlockList)
    (call : BlockListCall) : Prop :=
  ∃ list' code, blockListStep build maxMessageSize list call = .ok (list', code) ∧
    NodesFine list'.nodes ∧
    ((code.any CoapCode.refusesBlock) = true →
      storedBytes call.key list'.nodes = storedBytes call.key list.nodes)

/-! ### When a call gets what it needs -/

/-- No node is allocated, or its memory happens to hold NULL and 0. -/
def FreshEmpty (alloc : Alloc) : Prop :=
  ∀ fields ∈ alloc.entry, fields.1 = .null ∧ fields.2.1 = 0

/-- The buffer a block needs is allocated, or it would hold no byte and none is given up for
it; a node inserted for a buffer is allocated with it. -/
def HandlerServed (maxMessageSize : Nat) (alloc : Alloc) (identifier : BlockKey) (block : Block)
    (nodes : List BlockData) : Prop :=
  match findBlockData identifier nodes with
  | .error _ => False
  | .ok none =>
    block.blockNum = 0 →
      if alloc.buffer then alloc.entry.isSome = true else FreshEmpty alloc
  | .ok (some (_, blockData, _)) =>
    alloc.buffer = false →
      (block.blockNum = 0 → blockData.blockBufferSize = 0) ∧
      (block.blockNum = blockData.blockNum + 1 →
        blockData.blockBufferSize = block.blockSize * block.blockNum →
        blockData.blockBufferSize + block.buffer.length ≤ maxMessageSize →
        blockData.blockBufferSize + block.buffer.length = 0)

/-- The raw handler inserts no node, or gets one whose memory happens to hold NULL and, unless
the node is deleted again at once, 0. -/
def RawHandlerServed (alloc : Alloc) (identifier : BlockKey) (block : Block)
    (nodes : List BlockData) : Prop :=
  match findBlockData identifier nodes with
  | .error _ => False
  | .ok none =>
    block.blockNum = 0 → ∃ fields ∈ alloc.entry, fields.1 = .null ∧
      (fields.2.1 = 0 ∨ block.blockMore = false ∧ alloc.uri ≠ 0)
  | .ok (some _) => True

/-- The look-up for a message id finds no Block1 node, or leaves its pointer as it is or NULL. -/
def RenameServed (currentMid expectedMid : UInt16) (nodes : List BlockData) : Prop :=
  match findBlockData (.mid currentMid) nodes with
  | .ok (some (_, blockData, _)) =>
    blockData.blockType = .block1 →
      expectedMid = currentMid ∨ blockData.identifier.word < 2 ^ 32 ∧ expectedMid = 0
  | _ => True

/-- The call gets the memory it needs in the list it finds, and its look-up reads no message id
as a pointer. -/
def MemoryServed (build : BlockBuild) (maxMessageSize : Nat) (list : BlockList) :
    BlockListCall → Prop
  | .block1 uri _ block alloc =>
    match build with
    | .assembling => HandlerServed maxMessageSize alloc.toAlloc (.uri uri) block list.nodes
    | .raw => RawHandlerServed alloc.toAlloc (.uri uri) block list.nodes
  | .block2 mid block alloc =>
    HandlerServed maxMessageSize alloc.toAlloc (.mid mid) block list.nodes
  | .create1 _ alloc | .create2 _ alloc => FreshEmpty alloc.toAlloc
  | .setExpectedMid currentMid expectedMid => RenameServed currentMid expectedMid list.nodes
  | .delete1 uri => ∃ found, findBlockData (.uri uri) list.nodes = .ok found
  | .delete2 _ => True

/-! ### Look-ups -/

variable {blockData : BlockData} {after before nodes : List BlockData} {identifier : BlockKey}
  {found : Option (List BlockData × BlockData × List BlockData)} {list : BlockList}

theorem prvGetMatcher_identifier (identifier : BlockKey) {blockData' : BlockData}
    (hsame : blockData'.identifier = blockData.identifier) :
    prvGetMatcher identifier blockData' = prvGetMatcher identifier blockData := by
  cases identifier <;> simp [prvGetMatcher, prvMatchBlock1, prvMatchBlock2, hsame]

theorem findBlockData_split
    (hfind : findBlockData identifier nodes = .ok (some (before, blockData, after))) :
    nodes = before ++ blockData :: after ∧ prvGetMatcher identifier blockData = .ok true := by
  induction nodes generalizing before with
  | nil => simp [findBlockData] at hfind
  | cons first next ih =>
    simp only [findBlockData] at hfind
    cases hmatch : prvGetMatcher identifier first with
    | error fault => simp [hmatch] at hfind
    | ok matched =>
      cases matched with
      | true =>
        simp only [hmatch, Except.ok.injEq, Option.some.injEq, Prod.mk.injEq] at hfind
        obtain ⟨rfl, rfl, rfl⟩ := hfind
        exact ⟨rfl, hmatch⟩
      | false =>
        cases hrest : findBlockData identifier next with
        | error fault => simp [hmatch, hrest] at hfind
        | ok found =>
          cases found with
          | none => simp [hmatch, hrest] at hfind
          | some found =>
            simp only [hmatch, hrest, Except.ok.injEq, Option.some.injEq, Prod.mk.injEq] at hfind
            obtain ⟨rfl, rfl, rfl⟩ := hfind
            obtain ⟨hnodes, hmatched⟩ := ih hrest
            exact ⟨by simp [hnodes], hmatched⟩

theorem findBlockData_replaced (blockData' : BlockData)
    (hfind : findBlockData identifier nodes = .ok (some (before, blockData, after)))
    (hsame : blockData'.identifier = blockData.identifier) :
    findBlockData identifier (before ++ blockData' :: after) =
      .ok (some (before, blockData', after)) := by
  induction nodes generalizing before with
  | nil => simp [findBlockData] at hfind
  | cons first next ih =>
    simp only [findBlockData] at hfind
    cases hmatch : prvGetMatcher identifier first with
    | error fault => simp [hmatch] at hfind
    | ok matched =>
      cases matched with
      | true =>
        simp only [hmatch, Except.ok.injEq, Option.some.injEq, Prod.mk.injEq] at hfind
        obtain ⟨rfl, rfl, rfl⟩ := hfind
        simp [findBlockData, prvGetMatcher_identifier identifier hsame, hmatch]
      | false =>
        cases hrest : findBlockData identifier next with
        | error fault => simp [hmatch, hrest] at hfind
        | ok found =>
          cases found with
          | none => simp [hmatch, hrest] at hfind
          | some found =>
            simp only [hmatch, hrest, Except.ok.injEq, Option.some.injEq, Prod.mk.injEq] at hfind
            obtain ⟨rfl, rfl, rfl⟩ := hfind
            simp [findBlockData, hmatch, ih hrest]

theorem storedBytes_found
    (hfind : findBlockData identifier nodes = .ok (some (before, blockData, after))) :
    storedBytes identifier nodes = blockData.blockBuffer.bytes := by
  simp [storedBytes, hfind]

theorem findBlockData_mid_ok (mid : UInt16) (nodes : List BlockData) :
    ∃ found, findBlockData (.mid mid) nodes = .ok found := by
  induction nodes with
  | nil => exact ⟨none, rfl⟩
  | cons first next ih =>
    obtain ⟨found, hfound⟩ := ih
    simp only [findBlockData, prvGetMatcher, prvMatchBlock2, hfound]
    cases mid.toNat == first.identifier.mid <;> cases found <;> simp

/-! ### Nodes -/

theorem NodesFine.replace {blockData' : BlockData}
    (hfine : NodesFine (before ++ blockData :: after)) (hnode : NodeFine blockData') :
    NodesFine (before ++ blockData' :: after) := by
  intro other hother
  rcases List.mem_append.mp hother with hbefore | hrest
  · exact hfine other (List.mem_append_left _ hbefore)
  · rcases List.mem_cons.mp hrest with rfl | hafter
    · exact hnode
    · exact hfine other (List.mem_append_right _ (List.mem_cons_of_mem _ hafter))

theorem NodesFine.remove (hfine : NodesFine (before ++ blockData :: after)) :
    NodesFine (before ++ after) := by
  intro other hother
  rcases List.mem_append.mp hother with hbefore | hafter
  · exact hfine other (List.mem_append_left _ hbefore)
  · exact hfine other (List.mem_append_right _ (List.mem_cons_of_mem _ hafter))

theorem nodesFine_cons : NodesFine (blockData :: nodes) ↔ NodeFine blockData ∧ NodesFine nodes := by
  simp [NodesFine]

theorem freeBlockData_eq_ok (blockData : BlockData) :
    freeBlockData blockData = .ok () ↔ blockData.blockBuffer ≠ .wild ∧
      (blockData.blockType = .block1 → blockData.identifier.word ≠ 0 →
        blockData.identifier.uri ≠ none) := by
  rw [freeBlockData]
  cases blockData.blockBuffer <;> simp [freeBuffer]

theorem NodeFine.bytes_length (hfine : NodeFine blockData) :
    blockData.blockBuffer.bytes.length = blockData.blockBufferSize := by
  rcases hfine.buffer with ⟨hbuffer, hsize⟩ | ⟨bytes, hbuffer, hsize⟩
  · simp [hbuffer, hsize, Buffer.bytes]
  · simp [hbuffer, hsize, Buffer.bytes]

theorem NodeFine.freeBuffer_ok (hfine : NodeFine blockData) :
    freeBuffer blockData.blockBuffer = .ok () := by
  rcases hfine.buffer with ⟨hbuffer, -⟩ | ⟨bytes, hbuffer, -⟩ <;> rw [hbuffer] <;> rfl

theorem NodeFine.store (hfine : NodeFine blockData) (bytes : List UInt8) {size : Nat}
    (hsize : size = bytes.length) (blockNum : Nat) :
    NodeFine { blockData with
      blockBuffer := .live bytes, blockBufferSize := size, blockNum := blockNum } :=
  { buffer := Or.inr ⟨bytes, rfl, hsize⟩
    freed := by
      have hfreed := (freeBlockData_eq_ok blockData).mp hfine.freed
      exact (freeBlockData_eq_ok _).mpr ⟨by simp, hfreed.2⟩ }

theorem NodeFine.clear_iff (hfine : NodeFine blockData) (size : Nat) :
    NodeFine { blockData with blockBuffer := .null, blockBufferSize := size } ↔ size = 0 := by
  constructor
  · intro hclear
    simpa using hclear.buffer
  · intro hsize
    have hfreed := (freeBlockData_eq_ok blockData).mp hfine.freed
    exact
      { buffer := Or.inl ⟨rfl, hsize⟩
        freed := (freeBlockData_eq_ok _).mpr ⟨by simp, hfreed.2⟩ }

theorem NodeFine.setBlockNum (hfine : NodeFine blockData) (blockNum : Nat) :
    NodeFine { blockData with blockNum := blockNum } :=
  { buffer := hfine.buffer
    freed := by
      have hfreed := (freeBlockData_eq_ok blockData).mp hfine.freed
      exact (freeBlockData_eq_ok _).mpr hfreed }

theorem newIdentifier_freed (alloc : Alloc) (identifier : BlockKey)
    (htype : identifier.blockType = .block1)
    (hword : (newIdentifier alloc identifier).word ≠ 0) :
    (newIdentifier alloc identifier).uri ≠ none := by
  cases identifier with
  | uri uri =>
    have haddress : alloc.uri ≠ 0 := hword
    simp [newIdentifier, haddress]
  | mid mid => cases htype

theorem nodeFine_inserted_iff (alloc : NodeAlloc) (identifier : BlockKey)
    (hinsert : prvBlockInsert alloc.toAlloc identifier = some blockData) :
    NodeFine blockData ↔ FreshEmpty alloc.toAlloc := by
  obtain ⟨fields, hentry, rfl⟩ := Option.map_eq_some_iff.mp hinsert
  obtain ⟨buffer, size, blockNum⟩ := fields
  have hlive := alloc.fresh_not_live _ hentry
  simp only [FreshEmpty, hentry, Option.mem_some_iff, forall_eq']
  constructor
  · intro hfine
    rcases hfine.buffer with hempty | ⟨bytes, hbuffer, -⟩
    · exact hempty
    · exact absurd hbuffer (hlive bytes)
  · intro hempty
    exact
      { buffer := Or.inl hempty
        freed := (freeBlockData_eq_ok _).mpr
          ⟨by simp [hempty.1], newIdentifier_freed alloc.toAlloc identifier⟩ }

theorem nodeFine_inserted_store (alloc : Alloc) (identifier : BlockKey)
    (hinsert : prvBlockInsert alloc identifier = some blockData) (bytes : List UInt8)
    (blockNum : Nat) :
    NodeFine { blockData with
      blockBuffer := .live bytes, blockBufferSize := bytes.length, blockNum := blockNum } := by
  obtain ⟨fields, -, rfl⟩ := Option.map_eq_some_iff.mp hinsert
  exact
    { buffer := Or.inr ⟨bytes, rfl, rfl⟩
      freed := (freeBlockData_eq_ok _).mpr ⟨by simp, newIdentifier_freed alloc identifier⟩ }

/-! ### The assembling handler -/

/-- The handler returns, every node is fine, and a refusal leaves the stored bytes alone. -/
def HandlerKeeps (identifier : BlockKey) (nodes : List BlockData)
    (result : Except Fault (List BlockData × BlockReply)) : Prop :=
  ∃ nodes' reply, result = .ok (nodes', reply) ∧ NodesFine nodes' ∧
    (reply.code.refusesBlock = true →
      storedBytes identifier nodes' = storedBytes identifier nodes)

theorem handlerKeeps_ok {nodes' : List BlockData} {reply : BlockReply} :
    HandlerKeeps identifier nodes (.ok (nodes', reply)) ↔ NodesFine nodes' ∧
      (reply.code.refusesBlock = true →
        storedBytes identifier nodes' = storedBytes identifier nodes) := by
  constructor
  · intro hkeeps
    obtain ⟨nodes'', reply', hok, hrest⟩ := hkeeps
    cases hok
    exact hrest
  · intro hrest
    exact ⟨nodes', reply, rfl, hrest⟩

theorem not_handlerKeeps_error {fault : Fault} :
    ¬ HandlerKeeps identifier nodes (.error fault) := by
  intro hkeeps
  obtain ⟨nodes', reply, hok, -⟩ := hkeeps
  cases hok

theorem HandlerKeeps.unchanged (hfine : NodesFine nodes) (reply : BlockReply) :
    HandlerKeeps identifier nodes (.ok (nodes, reply)) :=
  handlerKeeps_ok.mpr ⟨hfine, fun _ => rfl⟩

theorem blockAnswer_refusesBlock (blockData : BlockData) (blockMore : Bool) :
    (blockAnswer blockData blockMore).code.refusesBlock = false := by
  cases blockMore <;> rfl

theorem HandlerKeeps.stored {nodes' : List BlockData} (hfine : NodesFine nodes')
    (blockData : BlockData) (blockMore : Bool) :
    HandlerKeeps identifier nodes (.ok (nodes', blockAnswer blockData blockMore)) :=
  handlerKeeps_ok.mpr ⟨hfine, by simp [blockAnswer_refusesBlock]⟩

theorem storedBytes_inserted (hfind : findBlockData identifier nodes = .ok none)
    (hbuffer : blockData.blockBuffer = .null) :
    storedBytes identifier (blockData :: nodes) = storedBytes identifier nodes := by
  simp only [storedBytes, findBlockData, hfind]
  cases prvGetMatcher identifier blockData with
  | error fault => rfl
  | ok matched => cases matched <;> simp [hbuffer, Buffer.bytes]

theorem prvFirstBlock_inserted_iff (alloc : NodeAlloc) (block : Block) (hfine : NodesFine nodes)
    (hfind : findBlockData identifier nodes = .ok none) :
    HandlerKeeps identifier nodes
        (prvFirstBlock alloc.toAlloc block [] nodes (prvBlockInsert alloc.toAlloc identifier)) ↔
      if alloc.buffer then alloc.entry.isSome = true else FreshEmpty alloc.toAlloc := by
  cases hinsert : prvBlockInsert alloc.toAlloc identifier with
  | none =>
    have hentry : alloc.entry = none := by simpa [prvBlockInsert] using hinsert
    cases hbuffer : alloc.buffer with
    | true => simpa [prvFirstBlock, hbuffer, hentry] using not_handlerKeeps_error
    | false =>
      have hkeeps : HandlerKeeps identifier nodes
          (.ok (nodes, { code := .internalServerError500, output := none })) :=
        HandlerKeeps.unchanged hfine _
      simpa [prvFirstBlock, hbuffer, hentry, FreshEmpty] using hkeeps
  | some blockData =>
    have hentry : alloc.entry.isSome = true := by
      obtain ⟨fields, hfields, -⟩ := Option.map_eq_some_iff.mp hinsert
      simp [hfields]
    cases hbuffer : alloc.buffer with
    | true =>
      simp only [prvFirstBlock, hbuffer, if_true, hentry, iff_true]
      refine HandlerKeeps.stored ?_ _ _
      exact nodesFine_cons.mpr
        ⟨nodeFine_inserted_store alloc.toAlloc identifier hinsert block.buffer block.blockNum, hfine⟩
    | false =>
      simp only [prvFirstBlock, hbuffer, Bool.false_eq_true, if_false, Option.toList_some,
        List.nil_append, List.singleton_append, handlerKeeps_ok, nodesFine_cons,
        nodeFine_inserted_iff alloc identifier hinsert]
      constructor
      · intro hkeeps
        exact hkeeps.1.1
      · intro hempty
        refine ⟨⟨hempty, hfine⟩, fun _ => storedBytes_inserted hfind ?_⟩
        obtain ⟨fields, hfields, rfl⟩ := Option.map_eq_some_iff.mp hinsert
        exact (hempty fields hfields).1

theorem prvFirstBlock_found_iff (alloc : Alloc) (block : Block) (hfine : NodesFine nodes)
    (hfind : findBlockData identifier nodes = .ok (some (before, blockData, after))) :
    HandlerKeeps identifier nodes
        (prvFirstBlock alloc block before after
          (some { blockData with blockBuffer := .null, blockBufferSize := 0 })) ↔
      (alloc.buffer = false → blockData.blockBufferSize = 0) := by
  obtain ⟨rfl, -⟩ := findBlockData_split hfind
  have hnode : NodeFine blockData := hfine blockData (by simp)
  cases hbuffer : alloc.buffer with
  | true =>
    simp only [prvFirstBlock, hbuffer, if_true, reduceCtorEq, false_implies, iff_true]
    exact HandlerKeeps.stored (hfine.replace (hnode.store block.buffer rfl block.blockNum)) _ _
  | false =>
    have hcleared := findBlockData_replaced
      { blockData with blockBuffer := .null, blockBufferSize := 0 } hfind rfl
    simp only [prvFirstBlock, hbuffer, Bool.false_eq_true, if_false, Option.toList_some,
      List.append_assoc, List.singleton_append, handlerKeeps_ok, forall_const,
      storedBytes_found hcleared, storedBytes_found hfind, ← hnode.bytes_length]
    constructor
    · intro hkeeps
      rw [← hkeeps.2 rfl]
      rfl
    · intro hempty
      refine ⟨hfine.replace ((hnode.clear_iff 0).mpr rfl), fun _ => ?_⟩
      exact (List.length_eq_zero_iff.mp hempty).symm

theorem prvNextBlock_iff (maxMessageSize : Nat) (alloc : Alloc) (block : Block)
    (hfine : NodesFine nodes)
    (hfind : findBlockData identifier nodes = .ok (some (before, blockData, after))) :
    HandlerKeeps identifier nodes
        (prvNextBlock maxMessageSize alloc block before after blockData) ↔
      (alloc.buffer = false → block.blockNum = blockData.blockNum + 1 →
        blockData.blockBufferSize = block.blockSize * block.blockNum →
        blockData.blockBufferSize + block.buffer.length ≤ maxMessageSize →
        blockData.blockBufferSize + block.buffer.length = 0) := by
  obtain ⟨rfl, -⟩ := findBlockData_split hfind
  have hnode : NodeFine blockData := hfine blockData (by simp)
  rw [prvNextBlock]
  split_ifs with hretrans hnext hmismatch hlarge hbuffer
  · exact iff_of_true (HandlerKeeps.unchanged hfine _) (by omega)
  · exact iff_of_true (HandlerKeeps.unchanged hfine _) (fun _ _ hsize => absurd hsize hmismatch)
  · exact iff_of_true (HandlerKeeps.unchanged hfine _) (by omega)
  · have hread : readBuffer blockData.blockBufferSize blockData.blockBuffer =
        .ok blockData.blockBuffer.bytes := by
      rcases hnode.buffer with ⟨hnull, hsize⟩ | ⟨bytes, hlive, hsize⟩
      · simp [readBuffer, hnull, hsize, Buffer.bytes]
      · simp [readBuffer, hlive, hsize, Buffer.bytes]
    simp only [hread]
    refine iff_of_true (HandlerKeeps.stored (hfine.replace (hnode.store _ ?_ _)) _ _)
      (by simp [hbuffer])
    simp [hnode.bytes_length]
  · have hcleared := findBlockData_replaced
      { blockData with
        blockBuffer := .null, blockBufferSize := blockData.blockBufferSize + block.buffer.length }
      hfind rfl
    simp only [handlerKeeps_ok, storedBytes_found hcleared, storedBytes_found hfind]
    constructor
    · intro hkeeps _ _ _ _
      exact (hnode.clear_iff _).mp (hkeeps.1 _ (by simp))
    · intro hserved
      have hzero := hserved (by simpa using hbuffer) hnext (by simpa using hmismatch) (by omega)
      refine ⟨hfine.replace ((hnode.clear_iff _).mpr hzero), fun _ => ?_⟩
      have hlength := hnode.bytes_length
      exact (List.length_eq_zero_iff.mp (by omega)).symm
  · exact iff_of_true (HandlerKeeps.stored hfine _ _) (by omega)

theorem prvCoapBlockHandler_keeps_iff (maxMessageSize : Nat) (alloc : NodeAlloc)
    (identifier : BlockKey) (block : Block) (hfine : NodesFine nodes) :
    HandlerKeeps identifier nodes
        (prvCoapBlockHandler maxMessageSize alloc.toAlloc identifier block nodes) ↔
      HandlerServed maxMessageSize alloc.toAlloc identifier block nodes := by
  rw [prvCoapBlockHandler, HandlerServed]
  cases hfind : findBlockData identifier nodes with
  | error fault => exact iff_of_false not_handlerKeeps_error id
  | ok found =>
    cases found with
    | none =>
      by_cases hzero : block.blockNum = 0
      · simpa only [hzero, if_true, forall_const] using
          prvFirstBlock_inserted_iff alloc block hfine hfind
      · simp only [hzero, if_false, false_implies, iff_true]
        exact HandlerKeeps.unchanged hfine _
    | some found =>
      obtain ⟨before, blockData, after⟩ := found
      have hnode : NodeFine blockData := by
        obtain ⟨rfl, -⟩ := findBlockData_split hfind
        exact hfine blockData (by simp)
      by_cases hzero : block.blockNum = 0
      · simp only [hzero, if_true, hnode.freeBuffer_ok, forall_const]
        rw [prvFirstBlock_found_iff alloc.toAlloc block hfine hfind]
        refine forall_congr' fun _ => ?_
        simp
      · simp only [hzero, if_false, false_implies, true_and]
        exact prvNextBlock_iff maxMessageSize alloc.toAlloc block hfine hfind

/-! ### The raw handler -/

theorem prvBlockDataDelete_fine (hfine : NodesFine nodes)
    (hfind : findBlockData identifier nodes = .ok found) :
    ∃ nodes', prvBlockDataDelete identifier nodes = .ok nodes' ∧ NodesFine nodes' := by
  cases found with
  | none => exact ⟨nodes, by simp [prvBlockDataDelete, hfind], hfine⟩
  | some found =>
    obtain ⟨before, blockData, after⟩ := found
    obtain ⟨rfl, -⟩ := findBlockData_split hfind
    have hfreed := (hfine blockData (by simp)).freed
    exact ⟨before ++ after, by simp [prvBlockDataDelete, hfind, hfreed, Except.map], hfine.remove⟩

theorem BlockList.delete_fine (hfine : NodesFine list.nodes)
    (hfind : findBlockData identifier list.nodes = .ok found) :
    ∃ list', list.delete identifier = .ok list' ∧ NodesFine list'.nodes := by
  obtain ⟨nodes', hdelete, hfine'⟩ := prvBlockDataDelete_fine hfine hfind
  cases found with
  | none => exact ⟨list, by simp [BlockList.delete, hfind], hfine⟩
  | some found =>
    refine ⟨{ nodes := nodes', mids := list.mids.eraseIdx found.1.length }, ?_, hfine'⟩
    simp [BlockList.delete, hfind, hdelete, Except.map]

/-- The raw handler returns, every node is fine, and a refusal leaves the stored bytes alone. -/
def RawHandlerKeeps (identifier : BlockKey) (nodes : List BlockData)
    (result : Except Fault (BlockList × CoapCode)) : Prop :=
  ∃ list' code, result = .ok (list', code) ∧ NodesFine list'.nodes ∧
    (code.refusesBlock = true → storedBytes identifier list'.nodes = storedBytes identifier nodes)

theorem RawHandlerKeeps.unchanged (hfine : NodesFine list.nodes) (code : CoapCode) :
    RawHandlerKeeps identifier list.nodes (.ok (list, code)) :=
  ⟨list, code, rfl, hfine, fun _ => rfl⟩

theorem not_rawHandlerKeeps_error {fault : Fault} :
    ¬ RawHandlerKeeps identifier nodes (.error fault) := by
  intro hkeeps
  obtain ⟨list', code, hok, -⟩ := hkeeps
  cases hok

theorem rawBlockAnswer_fine (blockMore : Bool) (hfine : NodesFine list.nodes)
    (hfind : findBlockData identifier list.nodes = .ok found) :
    RawHandlerKeeps identifier nodes (rawBlockAnswer identifier blockMore list) := by
  cases blockMore with
  | true => exact ⟨list, .continue231, rfl, hfine, nofun⟩
  | false =>
    obtain ⟨list', hdelete, hfine'⟩ := BlockList.delete_fine hfine hfind
    exact ⟨list', .noError, by simp [rawBlockAnswer, hdelete, Except.map], hfine', nofun⟩

theorem findBlockData_inserted {alloc : Alloc} (blockData' : BlockData)
    (hfind : findBlockData identifier nodes = .ok none)
    (hinsert : prvBlockInsert alloc identifier = some blockData)
    (hsame : blockData'.identifier = blockData.identifier) :
    findBlockData identifier (blockData' :: nodes) =
      .ok (if identifier.blockType = .block1 ∧ alloc.uri = 0 then none
        else some ([], blockData', nodes)) := by
  obtain ⟨fields, -, rfl⟩ := Option.map_eq_some_iff.mp hinsert
  cases identifier with
  | uri uri =>
    by_cases haddress : alloc.uri = 0
    · simp [findBlockData, prvGetMatcher, prvMatchBlock1, hsame, newIdentifier, haddress, hfind,
        BlockKey.blockType]
    · simp [findBlockData, prvGetMatcher, prvMatchBlock1, hsame, newIdentifier, haddress,
        BlockKey.blockType]
  | mid mid =>
    simp [findBlockData, prvGetMatcher, prvMatchBlock2, hsame, newIdentifier, Identifier.mid,
      BlockKey.blockType]

theorem nodeFine_setBlockNum_iff (blockData : BlockData) (blockNum : Nat) :
    NodeFine { blockData with blockNum := blockNum } ↔ NodeFine blockData :=
  ⟨fun hfine => hfine.setBlockNum blockData.blockNum, fun hfine => hfine.setBlockNum blockNum⟩

theorem rawHandlerKeeps_ok {code : CoapCode} (hcode : code.refusesBlock = false) :
    RawHandlerKeeps identifier nodes (.ok (list, code)) ↔ NodesFine list.nodes := by
  constructor
  · intro hkeeps
    obtain ⟨list', code', hok, hfine, -⟩ := hkeeps
    cases hok
    exact hfine
  · intro hfine
    exact ⟨list, code, rfl, hfine, by simp [hcode]⟩

theorem rawBlockAnswer_inserted_iff (alloc : NodeAlloc) {uri : String} (block : Block)
    (mid : UInt16) (hfine : NodesFine list.nodes)
    (hfind : findBlockData (.uri uri) list.nodes = .ok none)
    (hinsert : prvBlockInsert alloc.toAlloc (.uri uri) = some blockData) :
    RawHandlerKeeps (.uri uri) list.nodes
        (rawBlockAnswer (.uri uri) block.blockMore
          { nodes := { blockData with blockNum := block.blockNum } :: list.nodes
            mids := mid :: list.mids }) ↔
      ∃ fields ∈ alloc.entry, fields.1 = .null ∧
        (fields.2.1 = 0 ∨ block.blockMore = false ∧ alloc.uri ≠ 0) := by
  have hfresh := (nodeFine_setBlockNum_iff blockData block.blockNum).trans
    (nodeFine_inserted_iff alloc (.uri uri) hinsert)
  have hlookup := findBlockData_inserted { blockData with blockNum := block.blockNum } hfind
    hinsert rfl
  have hfreed : freeBlockData { blockData with blockNum := block.blockNum } = .ok () ↔
      blockData.blockBuffer ≠ .wild := by
    obtain ⟨fields, -, rfl⟩ := Option.map_eq_some_iff.mp hinsert
    rw [freeBlockData_eq_ok]
    exact and_iff_left (newIdentifier_freed alloc.toAlloc (.uri uri))
  obtain ⟨fields, hentry, rfl⟩ := Option.map_eq_some_iff.mp hinsert
  obtain ⟨buffer, size, blockNum⟩ := fields
  have hlive := alloc.fresh_not_live _ hentry
  simp only [FreshEmpty, hentry, Option.mem_some_iff, forall_eq', exists_eq_left'] at hfresh ⊢
  cases hmore : block.blockMore with
  | true =>
    rw [rawBlockAnswer, if_pos rfl, rawHandlerKeeps_ok rfl, nodesFine_cons, hfresh]
    simp [hfine]
  | false =>
    by_cases haddress : alloc.uri = 0
    · -- the node without a string is not found again
      have hmissed := hlookup.trans (by rw [if_pos ⟨rfl, haddress⟩])
      rw [rawBlockAnswer, if_neg Bool.false_ne_true, BlockList.delete]
      simp only [hmissed, Except.map]
      rw [rawHandlerKeeps_ok rfl, nodesFine_cons, hfresh]
      simp [hfine, haddress]
    · have hfound := hlookup.trans (by rw [if_neg (by simp [haddress])])
      rw [rawBlockAnswer, if_neg Bool.false_ne_true, BlockList.delete]
      simp only [hfound, prvBlockDataDelete]
      cases hfree : freeBlockData _ with
      | error fault =>
        refine iff_of_false not_rawHandlerKeeps_error ?_
        intro hnull
        have hok := hfreed.mpr (by simp [hnull.1])
        rw [hfree] at hok
        cases hok
      | ok _ =>
        have hwild := hfreed.mp hfree
        have hnull : buffer = .null := by
          cases buffer with
          | null => rfl
          | live bytes => exact absurd rfl (hlive bytes)
          | wild => exact absurd rfl hwild
        simp only [Except.map]
        rw [rawHandlerKeeps_ok rfl]
        simpa [hnull, haddress] using hfine

theorem prvCoapRawBlockHandler_keeps_iff (alloc : NodeAlloc) (uri : String) (mid : UInt16)
    (block : Block) (hfine : NodesFine list.nodes) :
    RawHandlerKeeps (.uri uri) list.nodes
        (prvCoapRawBlockHandler alloc (.uri uri) mid block list) ↔
      RawHandlerServed alloc.toAlloc (.uri uri) block list.nodes := by
  rw [prvCoapRawBlockHandler, RawHandlerServed]
  cases hfind : findBlockData (.uri uri) list.nodes with
  | error fault => exact iff_of_false not_rawHandlerKeeps_error id
  | ok found =>
    cases found with
    | none =>
      by_cases hzero : block.blockNum = 0
      · simp only [hzero, if_true, forall_const]
        cases hinsert : prvBlockInsert alloc.toAlloc (.uri uri) with
        | none =>
          have hentry : alloc.entry = none := by simpa [prvBlockInsert] using hinsert
          exact iff_of_false not_rawHandlerKeeps_error (by simp [hentry])
        | some blockData =>
          simpa only [hzero] using
            rawBlockAnswer_inserted_iff alloc block mid hfine hfind hinsert
      · simp only [hzero, if_false, false_implies, iff_true]
        exact RawHandlerKeeps.unchanged hfine _
    | some found =>
      obtain ⟨before, blockData, after⟩ := found
      simp only [iff_true]
      split_ifs
      · exact RawHandlerKeeps.unchanged hfine _
      · exact RawHandlerKeeps.unchanged hfine _
      · obtain ⟨hnodes, -⟩ := findBlockData_split hfind
        rw [hnodes] at hfine
        have hnode : NodeFine blockData := hfine blockData (by simp)
        exact rawBlockAnswer_fine _ (hfine.replace (hnode.setBlockNum block.blockNum))
          (findBlockData_replaced _ hfind rfl)

/-! ### Renaming -/

theorem nodeFine_setMid_iff (hfine : NodeFine blockData) {currentMid : UInt16}
    (hmatch : prvMatchBlock2 currentMid blockData = .ok true) (expectedMid : UInt16) :
    NodeFine { blockData with identifier := blockData.identifier.setMid expectedMid } ↔
      (blockData.blockType = .block1 →
        expectedMid = currentMid ∨ blockData.identifier.word < 2 ^ 32 ∧ expectedMid = 0) := by
  have hmid : currentMid.toNat = blockData.identifier.word % 2 ^ 32 := by
    simpa [prvMatchBlock2, Identifier.mid] using hmatch
  have hfreed := (freeBlockData_eq_ok blockData).mp hfine.freed
  have hsame : expectedMid = currentMid ↔ expectedMid.toNat = currentMid.toNat :=
    UInt16.toNat_inj.symm
  have hzero : expectedMid = 0 ↔ expectedMid.toNat = 0 := UInt16.toNat_inj.symm
  constructor
  · intro hrenamed htype
    have hfreed' := ((freeBlockData_eq_ok _).mp hrenamed.freed).2 htype
    simp only [Identifier.setMid, ne_eq, ite_eq_right_iff, Classical.not_imp] at hfreed'
    by_cases hword : blockData.identifier.word / 2 ^ 32 * 2 ^ 32 + expectedMid.toNat = 0
    · exact Or.inr ⟨by omega, hzero.mpr (by omega)⟩
    · exact Or.inl (hsame.mpr (by have := (hfreed' hword).1; omega))
  · intro hserved
    refine { buffer := hfine.buffer, freed := (freeBlockData_eq_ok _).mpr ⟨hfreed.1, ?_⟩ }
    intro htype hword
    simp only [Identifier.setMid] at hword ⊢
    rcases hserved htype with rfl | ⟨hlow, rfl⟩
    · have hunchanged : blockData.identifier.word / 2 ^ 32 * 2 ^ 32 + expectedMid.toNat =
          blockData.identifier.word := by omega
      rw [if_pos hunchanged]
      exact hfreed.2 htype (by omega)
    · exact absurd hword (by simp; omega)

theorem coapBlock2SetExpectedMid_keeps_iff (currentMid expectedMid : UInt16)
    (hfine : NodesFine nodes) :
    (∃ nodes', coapBlock2SetExpectedMid currentMid expectedMid nodes = .ok nodes' ∧
        NodesFine nodes') ↔
      RenameServed currentMid expectedMid nodes := by
  obtain ⟨found, hfind⟩ := findBlockData_mid_ok currentMid nodes
  rw [coapBlock2SetExpectedMid, RenameServed]
  cases found with
  | none => simpa [hfind] using hfine
  | some found =>
    obtain ⟨before, blockData, after⟩ := found
    obtain ⟨rfl, hmatch⟩ := findBlockData_split hfind
    have hnode : NodeFine blockData := hfine blockData (by simp)
    simp only [hfind, Except.ok.injEq, exists_eq_left']
    rw [← nodeFine_setMid_iff hnode hmatch expectedMid]
    exact ⟨fun hkept => hkept _ (by simp), fun hrenamed => hfine.replace hrenamed⟩

/-! ### Runs -/

/-- One call keeps the buffers of a list of fine nodes exactly when it gets the memory it
needs. -/
theorem blockListStep_keeps_iff (build : BlockBuild) (maxMessageSize : Nat) (call : BlockListCall)
    (hfine : NodesFine list.nodes) :
    KeepsBuffers build maxMessageSize list call ↔ MemoryServed build maxMessageSize list call := by
  have assembles : ∀ (alloc : NodeAlloc) (identifier : BlockKey) (block : Block),
      (∃ list' code, assembleStep maxMessageSize alloc identifier block list = .ok (list', code) ∧
        NodesFine list'.nodes ∧ (code.any CoapCode.refusesBlock = true →
          storedBytes identifier list'.nodes = storedBytes identifier list.nodes)) ↔
      HandlerServed maxMessageSize alloc.toAlloc identifier block list.nodes := by
    intro alloc identifier block
    rw [← prvCoapBlockHandler_keeps_iff maxMessageSize alloc identifier block hfine, assembleStep,
      HandlerKeeps]
    cases prvCoapBlockHandler maxMessageSize alloc.toAlloc identifier block list.nodes with
    | error fault => simp [Except.map]
    | ok out =>
      obtain ⟨nodes', reply⟩ := out
      simp [Except.map, BlockList.withNodes]
  have creates : ∀ (alloc : NodeAlloc) (identifier : BlockKey),
      NodesFine (list.create alloc identifier).nodes ↔ FreshEmpty alloc.toAlloc := by
    intro alloc identifier
    rw [BlockList.create]
    cases hinsert : prvBlockInsert alloc.toAlloc identifier with
    | none =>
      have hentry : alloc.entry = none := by simpa [prvBlockInsert] using hinsert
      simpa [FreshEmpty, hentry] using hfine
    | some blockData =>
      simp [BlockList.withNodes, nodesFine_cons, hfine, nodeFine_inserted_iff alloc _ hinsert]
  cases call with
  | block1 uri mid block alloc =>
    cases build with
    | assembling => exact assembles alloc (.uri uri) block
    | raw =>
      rw [MemoryServed, ← prvCoapRawBlockHandler_keeps_iff alloc uri mid block hfine, KeepsBuffers,
        blockListStep, RawHandlerKeeps]
      cases prvCoapRawBlockHandler alloc (.uri uri) mid block list with
      | error fault => simp [Except.map]
      | ok out =>
        obtain ⟨list', code⟩ := out
        simp [Except.map, BlockListCall.key]
  | block2 mid block alloc => exact assembles alloc (.mid mid) block
  | create1 uri alloc => simpa [KeepsBuffers, blockListStep, MemoryServed] using creates alloc _
  | create2 mid alloc => simpa [KeepsBuffers, blockListStep, MemoryServed] using creates alloc _
  | setExpectedMid currentMid expectedMid =>
    rw [MemoryServed, ← coapBlock2SetExpectedMid_keeps_iff currentMid expectedMid hfine,
      KeepsBuffers, blockListStep]
    cases coapBlock2SetExpectedMid currentMid expectedMid list.nodes <;> simp [Except.map]
  | delete1 uri =>
    rw [MemoryServed, KeepsBuffers, blockListStep]
    cases hfind : findBlockData (.uri uri) list.nodes with
    | error fault => simp [BlockList.delete, hfind, Except.map]
    | ok found =>
      obtain ⟨list', hdelete, hfine'⟩ := BlockList.delete_fine hfine hfind
      simp [hdelete, hfine', Except.map]
  | delete2 mid =>
    obtain ⟨found, hfind⟩ := findBlockData_mid_ok mid list.nodes
    obtain ⟨list', hdelete, hfine'⟩ := BlockList.delete_fine hfine hfind
    simp [MemoryServed, KeepsBuffers, blockListStep, hdelete, hfine', Except.map]

/-- In every run, in either build, all calls keep the buffers if and only if each gets the
memory it needs in the list it finds. -/
theorem blockBuffers_iff (build : BlockBuild) (maxMessageSize : Nat)
    (calls : List BlockListCall) :
    StepsMeet (blockListStep build maxMessageSize) (KeepsBuffers build maxMessageSize)
        BlockList.empty calls ↔
      StepsMeet (blockListStep build maxMessageSize) (MemoryServed build maxMessageSize)
        BlockList.empty calls := by
  have hempty : NodesFine BlockList.empty.nodes := by simp [NodesFine, BlockList.empty]
  have hkept : ∀ list call list' code, NodesFine list.nodes →
      KeepsBuffers build maxMessageSize list call →
      blockListStep build maxMessageSize list call = .ok (list', code) →
      NodesFine list'.nodes := by
    intro list call list' code _ hkeeps hstep
    obtain ⟨list'', code', hstep', hfine', -⟩ := hkeeps
    obtain ⟨rfl, -⟩ : list'' = list' ∧ code' = code := by simpa [hstep'] using hstep
    exact hfine'
  constructor
  · exact StepsMeet.imp hkept
      (fun list call hfine => (blockListStep_keeps_iff build maxMessageSize call hfine).mp)
      calls BlockList.empty hempty
  · refine StepsMeet.imp ?_
      (fun list call hfine => (blockListStep_keeps_iff build maxMessageSize call hfine).mpr)
      calls BlockList.empty hempty
    intro list call list' code hfine hserved
    exact hkept list call list' code hfine
      ((blockListStep_keeps_iff build maxMessageSize call hfine).mpr hserved)

/-- An allocator whose fresh nodes hold garbage, with or without memory for the buffer. -/
def garbageAlloc (buffer : Bool) : NodeAlloc where
  entry := some (.wild, 0, 0)
  uri := 0x100000008
  buffer
  high := 0
  mid := 0
  fresh_not_live := by
    intro fields hfields bytes
    obtain rfl := Option.mem_some_iff.mp hfields
    exact Buffer.noConfusion

/-- Block 0 of a transfer of two blocks. -/
def openingBlock : Block := { buffer := [1, 2], blockSize := 2, blockNum := 0, blockMore := true }

/-- Its block 1. -/
def closingBlock : Block := { buffer := [3], blockSize := 2, blockNum := 1, blockMore := false }

/-- A transfer of one block. -/
def soleBlock : Block := { buffer := [1, 2], blockSize := 2, blockNum := 0, blockMore := false }

/-- Without memory for the buffer of block 0 the node keeps the pointer its memory held, and
deleting it frees that; the raw build frees such a pointer with every allocation granted. Without
memory for the buffer of block 1 the node has no buffer but the size 3, and when block 0 is sent
again the stored bytes are gone, though both are answered 5.00. -/
theorem refusedBuffers_lost :
    run (blockListStep .assembling 2048) BlockList.empty
        [.block1 "/1/0/1" 7 openingBlock (garbageAlloc false), .delete1 "/1/0/1"] =
      .error .wildFree ∧
    run (blockListStep .raw 2048) BlockList.empty
        [.block1 "/1/0/1" 7 soleBlock (garbageAlloc true)] = .error .wildFree ∧
    (∃ list, run (blockListStep .assembling 2048) BlockList.empty
        [.block1 "/1/0/1" 7 openingBlock (garbageAlloc true),
          .block1 "/1/0/1" 8 closingBlock (garbageAlloc false)] =
        .ok (list, [some .continue231, some .internalServerError500]) ∧
      list.nodes.map (fun blockData => (blockData.blockBuffer, blockData.blockBufferSize)) =
        [(.null, 3)]) ∧
    (∃ list, run (blockListStep .assembling 2048) BlockList.empty
        [.block1 "/1/0/1" 7 openingBlock (garbageAlloc true),
          .block1 "/1/0/1" 8 openingBlock (garbageAlloc false)] =
        .ok (list, [some .continue231, some .internalServerError500]) ∧
      storedBytes (.uri "/1/0/1") list.nodes = []) ∧
    ¬ StepsMeet (blockListStep .raw 2048) (KeepsBuffers .raw 2048) BlockList.empty
        [.block1 "/1/0/1" 7 soleBlock (garbageAlloc true)] := by
  refine ⟨by decide +kernel, by decide +kernel, ⟨_, rfl, rfl⟩, ⟨_, rfl, rfl⟩, ?_⟩
  intro hmeet
  obtain ⟨list', code, hstep, -⟩ := hmeet.1
  have hfault : blockListStep .raw 2048 BlockList.empty
      (.block1 "/1/0/1" 7 soleBlock (garbageAlloc true)) = .error .wildFree := by decide +kernel
  rw [hfault] at hstep
  cases hstep

end Wakaama
