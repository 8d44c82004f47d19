import Wakaama.Coap.Block
import Wakaama.Misc.Run

/-!
# Reassembly of a Block1 request

What `coap_block1_handler` hands to the request handler when it is driven over the blocks of
one URI, whatever blocks arrive. The blocks of the current transfer are judged by the replies
they got: a block is accepted when it was answered `2.31` or `NO_ERROR`. The handler
reassembles exactly as long as no block skips ahead of the node's `blockNum`; a block that
does is not stored and yet answered like an accepted one.
-/

namespace Wakaama

/-- One call of `coap_block1_handler`. -/
structure Block1Call where
  block : Block
  grant : Grant

/-- A call and its reply. -/
abbrev Block1Event := Block1Call × BlockReply

/-- `coap_block1_handler` for one URI, as a step of the list. -/
def block1Step (maxMessageSize : Nat) (uri : String) (head : List BlockData)
    (call : Block1Call) : Except Fault (List BlockData × BlockReply) :=
  coapBlock1Handler maxMessageSize call.grant.alloc uri call.block head

/-- The events from the latest block 0 on. -/
def currentTransfer (past : List Block1Event) : List Block1Event :=
  past.foldl (fun transfer event =>
    if event.1.block.blockNum = 0 then [event] else transfer ++ [event]) []

/-- The block was answered `2.31` or `NO_ERROR`. -/
def isAccepted (event : Block1Event) : Bool :=
  event.2.code == .continue231 || event.2.code == .noError

/-- The accepted blocks of the current transfer, in the order they came. -/
def accepted (past : List Block1Event) : List Block1Event :=
  (currentTransfer past).filter isAccepted

/-- Their payloads, one after the other. -/
def acceptedBytes (past : List Block1Event) : List UInt8 :=
  (accepted past).flatMap fun event => event.1.block.buffer

/-- Their block numbers. -/
def acceptedNums (past : List Block1Event) : List Nat :=
  (accepted past).map fun event => event.1.block.blockNum

/-- The block's number is past the last accepted one by more than one; with nothing accepted
yet, it is not block 0. -/
def SkipsAhead (past : List Block1Event) (block : Block) : Prop :=
  match (acceptedNums past).getLast? with
  | none => block.blockNum ≠ 0
  | some last => last + 1 < block.blockNum

/-- The reply to one block is right: with `NO_ERROR` the output is the payloads of blocks
0, 1, .., n of the current transfer, each accepted once and n being this block; and a block
that skips ahead is answered neither `2.31` nor `NO_ERROR`. -/
def EventExact (past : List Block1Event) (event : Block1Event) : Prop :=
  (event.2.code = .noError →
    acceptedNums (past ++ [event]) = List.range (event.1.block.blockNum + 1) ∧
    event.2.output = some
      { buffer := .live (acceptedBytes (past ++ [event]))
        length := (acceptedBytes (past ++ [event])).length }) ∧
  (SkipsAhead past event.1.block → isAccepted event = false)

/-- Block-wise reassembly is exact over a run. -/
def ReassemblyExact (events : List Block1Event) : Prop :=
  EachEvent EventExact [] events

/-- No node of the transfer, or one whose block number is at most one behind. -/
def NoSkip (uri : String) (head : List BlockData) (call : Block1Call) : Prop :=
  ∀ before blockData after, findBlockData (.uri uri) head = .ok (some (before, blockData, after)) →
    call.block.blockNum ≤ blockData.blockNum + 1

@[simp] theorem findBlockData_nil (identifier : BlockKey) :
    findBlockData identifier [] = .ok none := rfl

variable {uri : String} {blockData : BlockData} {event : Block1Event} {past : List Block1Event}
  {call : Block1Call}

theorem findBlockData_own (after : List BlockData) (hword : blockData.identifier.word ≠ 0)
    (huri : blockData.identifier.uri = some uri) :
    findBlockData (.uri uri) (blockData :: after) = .ok (some ([], blockData, after)) := by
  simp [findBlockData, prvGetMatcher, prvMatchBlock1, hword, huri]

theorem currentTransfer_concat (past : List Block1Event) (event : Block1Event) :
    currentTransfer (past ++ [event]) =
      if event.1.block.blockNum = 0 then [event] else currentTransfer past ++ [event] := by
  simp [currentTransfer, List.foldl_append]

theorem accepted_concat_zero (past : List Block1Event) (event : Block1Event)
    (hzero : event.1.block.blockNum = 0) (hacc : isAccepted event = true) :
    accepted (past ++ [event]) = [event] := by
  simp [accepted, currentTransfer_concat, hzero, hacc]

theorem accepted_concat_next (past : List Block1Event) (event : Block1Event)
    (hnum : event.1.block.blockNum ≠ 0) (hacc : isAccepted event = true) :
    accepted (past ++ [event]) = accepted past ++ [event] := by
  simp [accepted, currentTransfer_concat, hnum, hacc]

theorem accepted_concat_refused (past : List Block1Event) (hnum : event.1.block.blockNum ≠ 0)
    (hacc : isAccepted event = false) : accepted (past ++ [event]) = accepted past := by
  simp [accepted, currentTransfer_concat, hnum, hacc]

theorem isAccepted_blockAnswer (call : Block1Call) (blockData : BlockData) (blockMore : Bool) :
    isAccepted (call, blockAnswer blockData blockMore) = true := by
  cases blockMore <;> rfl

/-- The node holds the accepted blocks of the current transfer: their bytes and the number of
the last one. -/
structure HoldsAccepted (uri : String) (past : List Block1Event) (blockData : BlockData) :
    Prop where
  word : blockData.identifier.word ≠ 0
  uri : blockData.identifier.uri = some uri
  buffer : blockData.blockBuffer = .live (acceptedBytes past)
  size : blockData.blockBufferSize = (acceptedBytes past).length
  nums : acceptedNums past = List.range (blockData.blockNum + 1)

/-- What the list is after the calls `past`: empty until a block 0 came, then one node. -/
def TransferInv (uri : String) (past : List Block1Event) (head : List BlockData) : Prop :=
  (head = [] ∧ accepted past = []) ∨
    ∃ blockData, head = [blockData] ∧ HoldsAccepted uri past blockData

theorem HoldsAccepted.skipsAhead_iff (h : HoldsAccepted uri past blockData) (block : Block) :
    SkipsAhead past block ↔ blockData.blockNum + 1 < block.blockNum := by
  simp [SkipsAhead, h.nums, List.range_succ]

theorem eventExact_of_holds
    (h : HoldsAccepted uri (past ++ [(call, blockAnswer blockData call.block.blockMore)]) blockData)
    (hnum : blockData.blockNum = call.block.blockNum) (hskip : ¬ SkipsAhead past call.block) :
    EventExact past (call, blockAnswer blockData call.block.blockMore) := by
  refine ⟨fun hcode => ?_, fun hs => absurd hs hskip⟩
  have hmore : call.block.blockMore = false := by
    cases hm : call.block.blockMore
    · rfl
    · simp [blockAnswer, hm] at hcode
  refine ⟨by rw [h.nums, hnum], ?_⟩
  have hout : (blockAnswer blockData call.block.blockMore).output =
      some { buffer := blockData.blockBuffer, length := blockData.blockBufferSize } := by
    simp [blockAnswer, hmore]
  rw [hout, h.buffer, h.size]

theorem eventExact_of_refused (hacc : isAccepted event = false) : EventExact past event := by
  refine ⟨fun hcode => ?_, fun _ => hacc⟩
  simp [isAccepted, hcode] at hacc

theorem holdsAccepted_first (past : List Block1Event) (hzero : call.block.blockNum = 0)
    (hword : blockData.identifier.word ≠ 0) (huri : blockData.identifier.uri = some uri)
    {reply : BlockReply} (hacc : isAccepted (call, reply) = true) :
    HoldsAccepted uri (past ++ [(call, reply)]) { blockData with
      blockBuffer := .live call.block.buffer
      blockBufferSize := call.block.buffer.length
      blockNum := call.block.blockNum } := by
  have haccepted := accepted_concat_zero past (call, reply) hzero hacc
  exact
    { word := hword
      uri := huri
      buffer := by simp [acceptedBytes, haccepted]
      size := by simp [acceptedBytes, haccepted]
      nums := by simp [acceptedNums, haccepted, hzero] }

theorem HoldsAccepted.next {uri : String} {past : List Block1Event} {blockData : BlockData}
    (h : HoldsAccepted uri past blockData) {call : Block1Call}
    (hnum : call.block.blockNum = blockData.blockNum + 1)
    {reply : BlockReply} (hacc : isAccepted (call, reply) = true) :
    HoldsAccepted uri (past ++ [(call, reply)]) { blockData with
      blockBuffer := .live (acceptedBytes past ++ call.block.buffer)
      blockBufferSize := blockData.blockBufferSize + call.block.buffer.length
      blockNum := call.block.blockNum } := by
  have haccepted := accepted_concat_next past (call, reply) (by simp [hnum]) hacc
  exact
    { word := h.word
      uri := h.uri
      buffer := by simp [acceptedBytes, haccepted]
      size := by simp [acceptedBytes, haccepted, h.size]
      nums := by
        have hnums := h.nums
        simp only [acceptedNums] at hnums
        simp [acceptedNums, haccepted, hnums, hnum, List.range_succ] }

theorem HoldsAccepted.refused (h : HoldsAccepted uri past blockData)
    (hnum : event.1.block.blockNum ≠ 0) (hacc : isAccepted event = false) :
    HoldsAccepted uri (past ++ [event]) blockData := by
  have haccepted := accepted_concat_refused past hnum hacc
  exact
    { word := h.word
      uri := h.uri
      buffer := by simpa [acceptedBytes, haccepted] using h.buffer
      size := by simpa [acceptedBytes, haccepted] using h.size
      nums := by simpa [acceptedNums, haccepted] using h.nums }

theorem prvFirstBlock_inv (uri : String) (past : List Block1Event) (blockData : BlockData)
    (hzero : call.block.blockNum = 0) (hword : blockData.identifier.word ≠ 0)
    (huri : blockData.identifier.uri = some uri) (hskip : ¬ SkipsAhead past call.block) :
    ∃ head reply, prvFirstBlock call.grant.alloc call.block [] [] (some blockData) =
        .ok (head, reply) ∧
      EventExact past (call, reply) ∧ TransferInv uri (past ++ [(call, reply)]) head := by
  refine ⟨_, _, rfl, ?_, Or.inr ⟨_, rfl, ?_⟩⟩
  · exact eventExact_of_holds
      (holdsAccepted_first past hzero hword huri (isAccepted_blockAnswer call _ _)) rfl hskip
  · exact holdsAccepted_first past hzero hword huri (isAccepted_blockAnswer call _ _)

/-- A later block of the transfer the node holds: the reply is right unless the block's
number is past the node's by more than one. -/
theorem prvNextBlock_inv (maxMessageSize : Nat) (h : HoldsAccepted uri past blockData)
    (hnum : call.block.blockNum ≠ 0) :
    ∃ head reply, prvNextBlock maxMessageSize call.grant.alloc call.block [] [] blockData =
        .ok (head, reply) ∧
      (EventExact past (call, reply) ↔ call.block.blockNum ≤ blockData.blockNum + 1) ∧
      (call.block.blockNum ≤ blockData.blockNum + 1 →
        TransferInv uri (past ++ [(call, reply)]) head) := by
  have refused : ∀ code, isAccepted (call, { code, output := none }) = false →
      TransferInv uri (past ++ [(call, { code, output := none })]) [blockData] :=
    fun code hacc => Or.inr ⟨blockData, rfl, h.refused hnum hacc⟩
  by_cases hretrans : call.block.blockNum ≤ blockData.blockNum
  · have hle : call.block.blockNum ≤ blockData.blockNum + 1 := by omega
    refine ⟨[blockData], { code := .retransmission, output := none }, ?_, ?_, ?_⟩
    · simp [prvNextBlock, hretrans]
    · exact iff_of_true (eventExact_of_refused rfl) hle
    · exact fun _ => refused _ rfl
  by_cases hnext : call.block.blockNum = blockData.blockNum + 1
  · have hle : call.block.blockNum ≤ blockData.blockNum + 1 := by omega
    by_cases hsize : blockData.blockBufferSize = call.block.blockSize * call.block.blockNum
    · by_cases hlarge : maxMessageSize < blockData.blockBufferSize + call.block.buffer.length
      · refine ⟨[blockData], { code := .entityTooLarge413, output := none }, ?_, ?_, ?_⟩
        · simp only [prvNextBlock, if_neg hretrans, if_pos hnext, if_neg (not_not.mpr hsize),
            if_pos hlarge, List.nil_append]
        · exact iff_of_true (eventExact_of_refused rfl) hle
        · exact fun _ => refused _ rfl
      · -- the block is appended
        have hholds := h.next hnext (isAccepted_blockAnswer call { blockData with
          blockBuffer := .live (acceptedBytes past ++ call.block.buffer)
          blockBufferSize := blockData.blockBufferSize + call.block.buffer.length
          blockNum := call.block.blockNum } call.block.blockMore)
        have hskip : ¬ SkipsAhead past call.block := by rw [h.skipsAhead_iff]; omega
        have hread : readBuffer blockData.blockBufferSize blockData.blockBuffer =
            .ok (acceptedBytes past) := by
          simp [readBuffer, h.buffer, h.size]
        refine ⟨_, _, ?_, ?_, fun _ => Or.inr ⟨_, rfl, hholds⟩⟩
        · simp only [prvNextBlock, if_neg hretrans, if_pos hnext, if_neg (not_not.mpr hsize),
            if_neg hlarge, Grant.alloc, if_true, hread, List.nil_append]
        · exact iff_of_true (eventExact_of_holds hholds rfl hskip) hle
    · refine ⟨[blockData], { code := .reqEntityIncomplete408, output := none }, ?_, ?_, ?_⟩
      · simp only [prvNextBlock, if_neg hretrans, if_pos hnext, if_pos hsize, List.nil_append]
      · exact iff_of_true (eventExact_of_refused rfl) hle
      · exact fun _ => refused _ rfl
  · -- the block skips ahead and is answered all the same
    have hskip : SkipsAhead past call.block := by rw [h.skipsAhead_iff]; omega
    refine ⟨[blockData], blockAnswer blockData call.block.blockMore, ?_, ?_, ?_⟩
    · simp [prvNextBlock, hretrans, hnext]
    · refine iff_of_false (fun hexact => ?_) (by omega)
      simpa [isAccepted_blockAnswer] using hexact.2 hskip
    · intro hle
      omega

/-- One call: it returns, its reply is right exactly when the block does not skip ahead, and
then the node holds the accepted blocks again. -/
theorem block1Step_inv (maxMessageSize : Nat) (uri : String) (past : List Block1Event)
    (head : List BlockData) (call : Block1Call) (hinv : TransferInv uri past head) :
    ∃ head' reply, block1Step maxMessageSize uri head call = .ok (head', reply) ∧
      (EventExact past (call, reply) ↔ NoSkip uri head call) ∧
      (NoSkip uri head call → TransferInv uri (past ++ [(call, reply)]) head') := by
  rcases hinv with ⟨rfl, hnone⟩ | ⟨blockData, rfl, hholds⟩
  · have hno : NoSkip uri [] call := by
      intro before found after hfind
      simp at hfind
    by_cases hzero : call.block.blockNum = 0
    · obtain ⟨head', reply, hstep, hexact, hinv'⟩ :=
        prvFirstBlock_inv uri past
          { blockType := .block1
            identifier := newIdentifier call.grant.alloc (.uri uri)
            blockBuffer := call.grant.entry.1
            blockBufferSize := call.grant.entry.2.1
            blockNum := call.grant.entry.2.2 }
          hzero call.grant.uri_ne_zero
          (by simp [newIdentifier, Grant.alloc, call.grant.uri_ne_zero])
          (by simp [SkipsAhead, acceptedNums, hnone, hzero])
      refine ⟨head', reply, ?_, iff_of_true hexact hno, fun _ => hinv'⟩
      rw [← hstep]
      simp [block1Step, coapBlock1Handler, prvCoapBlockHandler, hzero, prvBlockInsert, Grant.alloc,
        BlockKey.blockType]
    · refine ⟨[], { code := .reqEntityIncomplete408, output := none }, ?_,
        iff_of_true (eventExact_of_refused rfl) hno, fun _ => Or.inl ⟨rfl, ?_⟩⟩
      · simp [block1Step, coapBlock1Handler, prvCoapBlockHandler, hzero]
      · rw [accepted_concat_refused past hzero rfl, hnone]
  · have hfind := findBlockData_own [] hholds.word hholds.uri
    have hno : NoSkip uri [blockData] call ↔ call.block.blockNum ≤ blockData.blockNum + 1 := by
      simp only [NoSkip, hfind, Except.ok.injEq, Option.some.injEq, Prod.mk.injEq]
      refine ⟨fun h => h [] blockData [] ⟨rfl, rfl, rfl⟩, ?_⟩
      rintro hle _ _ _ ⟨rfl, rfl, rfl⟩
      exact hle
    by_cases hzero : call.block.blockNum = 0
    · obtain ⟨head', reply, hstep, hexact, hinv'⟩ :=
        prvFirstBlock_inv uri past { blockData with blockBuffer := .null, blockBufferSize := 0 }
          hzero hholds.word hholds.uri (by rw [hholds.skipsAhead_iff]; omega)
      refine ⟨head', reply, ?_, iff_of_true hexact (by rw [hno]; omega), fun _ => hinv'⟩
      rw [← hstep]
      simp [block1Step, coapBlock1Handler, prvCoapBlockHandler, hfind, hzero, hholds.buffer,
        freeBuffer]
    · obtain ⟨head', reply, hstep, hexact, hinv'⟩ :=
        prvNextBlock_inv maxMessageSize hholds hzero
      refine ⟨head', reply, ?_, by rw [hno]; exact hexact, by rw [hno]; exact hinv'⟩
      rw [← hstep]
      simp [block1Step, coapBlock1Handler, prvCoapBlockHandler, hfind, hzero]

/-- Driven over any blocks of one URI, `coap_block1_handler` returns every time and
reassembles exactly, if and only if no block skips ahead of the node it finds. -/
theorem coapBlock1Handler_exact_iff (maxMessageSize : Nat) (uri : String)
    (calls : List Block1Call) :
    (∃ head replies, run (block1Step maxMessageSize uri) [] calls = .ok (head, replies) ∧
        ReassemblyExact (calls.zip replies)) ↔
      StepsMeet (block1Step maxMessageSize uri) (NoSkip uri) [] calls :=
  run_eachEvent_iff (TransferInv uri) (block1Step_inv maxMessageSize uri) calls [] []
    (Or.inl ⟨rfl, rfl⟩)

/-- Block 0 of two blocks and, in place of block 1, block 5. -/
def gapCalls : List Block1Call :=
  let grant : Grant :=
    { entry := (.wild, 0, 0), uri := 0x1000, uri_ne_zero := by decide, high := 0 }
  [{ block := { buffer := [1, 2, 3, 4, 5], blockSize := 5, blockNum := 0, blockMore := true }
     grant },
   { block := { buffer := [6, 7], blockSize := 5, blockNum := 5, blockMore := false }, grant }]

/-- The handler answers the final block 5 with `NO_ERROR` and hands out block 0 alone. -/
theorem coapBlock1Handler_gap_answered :
    (∃ head, run (block1Step 2048 "/1/0/1") [] gapCalls = .ok (head,
      [{ code := .continue231, output := none },
       { code := .noError, output := some { buffer := .live [1, 2, 3, 4, 5], length := 5 } }])) ∧
    ¬ ∃ head replies, run (block1Step 2048 "/1/0/1") [] gapCalls = .ok (head, replies) ∧
        ReassemblyExact (gapCalls.zip replies) := by
  refine ⟨⟨_, rfl⟩, ?_⟩
  rintro ⟨head, replies, hrun, hexact⟩
  obtain ⟨-, rfl⟩ : _ ∧ _ = replies := by simpa using Except.ok.inj hrun
  have hnums := (hexact.2.1.1 rfl).1
  revert hnums
  decide

end Wakaama
