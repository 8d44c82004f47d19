import Wakaama.Coap.Block
import Wakaama.Misc.Run
import Wakaama.Misc.UpdateAt

/-!
# Transfers that share one list

All transfers of a peer share the list `peerP->blockData`. A call looks up the node of its
own transfer and touches no other, provided the look-up does not trip over a node of the
other type on its way: `find_block_data` compares the identifiers without looking at
`blockType`, so a Block1 look-up reads the message id of a Block2 node as a pointer and a
Block2 look-up compares the low half of the pointer of a Block1 node.
-/

namespace Wakaama

/-- The calls made on one peer's list. -/
inductive BlockCall where
  | block1 (uri : String) (block : Block) (grant : Grant)
  | block2 (mid : UInt16) (block : Block) (grant : Grant)
  | setExpectedMid (currentMid expectedMid : UInt16)
  | delete1 (uri : String)
  | delete2 (mid : UInt16)

/-- The call acting on the list. -/
def blockStep (maxMessageSize : Nat) (head : List BlockData) :
    BlockCall → Except Fault (List BlockData × Option BlockReply)
  | .block1 uri block grant =>
    (coapBlock1Handler maxMessageSize grant.alloc uri block head).map fun (head, reply) =>
      (head, some reply)
  | .block2 mid block grant =>
    (coapBlock2Handler maxMessageSize grant.alloc mid block head).map fun (head, reply) =>
      (head, some reply)
  | .setExpectedMid currentMid expectedMid =>
    (coapBlock2SetExpectedMid currentMid expectedMid head).map fun head => (head, none)
  | .delete1 uri => (block1Delete uri head).map fun head => (head, none)
  | .delete2 mid => (block2Delete mid head).map fun head => (head, none)

/-- The identifier the call looks up. -/
def BlockCall.lookup : BlockCall → BlockKey
  | .block1 uri _ _ => .uri uri
  | .block2 mid _ _ => .mid mid
  | .setExpectedMid currentMid _ => .mid currentMid
  | .delete1 uri => .uri uri
  | .delete2 mid => .mid mid

/-- The identifiers the call names. -/
def BlockCall.keys : BlockCall → List BlockKey
  | .setExpectedMid currentMid expectedMid => [.mid currentMid, .mid expectedMid]
  | call => [call.lookup]

/-- Every identifier of the call is on the side. -/
def BlockCall.within (side : BlockKey → Bool) (call : BlockCall) : Bool := call.keys.all side

/-- No identifier of the call is on the side. -/
def BlockCall.apartFrom (side : BlockKey → Bool) (call : BlockCall) : Bool :=
  call.keys.all fun key => !side key

/-- The identifier a node carries, read by its own type. -/
def BlockData.key (blockData : BlockData) : Option BlockKey :=
  match blockData.blockType with
  | .block1 => blockData.identifier.uri.map .uri
  | .block2 => some (.mid (UInt16.ofNat blockData.identifier.mid))

/-- The node belongs to the transfer `key`. -/
def isOwn (key : BlockKey) (blockData : BlockData) : Bool := blockData.key == some key

/-- The node belongs to a transfer of the side. -/
def onSide (side : BlockKey → Bool) (blockData : BlockData) : Bool := blockData.key.any side

/-- A look-up for `key` can go past this node: for a URI the node is a Block1 node, for a
message id it is not a Block1 node whose pointer's low half is that id. -/
def Passable (key : BlockKey) (blockData : BlockData) : Prop :=
  match key with
  | .uri _ => blockData.blockType = .block1
  | .mid mid => blockData.blockType = .block1 → blockData.identifier.mid ≠ mid.toNat

/-- Every node in front of the first one of the transfer `key`, or every node if it has none,
can be gone past. -/
def LookupSafe (key : BlockKey) : List BlockData → Prop
  | [] => True
  | blockData :: next =>
    blockData.key = some key ∨ (Passable key blockData ∧ LookupSafe key next)

instance (key : BlockKey) (blockData : BlockData) : Decidable (Passable key blockData) :=
  match key with
  | .uri _ => inferInstanceAs (Decidable (blockData.blockType = .block1))
  | .mid mid => inferInstanceAs
      (Decidable (blockData.blockType = .block1 → blockData.identifier.mid ≠ mid.toNat))

instance LookupSafe.decidable (key : BlockKey) :
    ∀ head : List BlockData, Decidable (LookupSafe key head)
  | [] => isTrue trivial
  | blockData :: next =>
    have := LookupSafe.decidable key next
    inferInstanceAs
      (Decidable (blockData.key = some key ∨ (Passable key blockData ∧ LookupSafe key next)))

/-- The look-up matches only a node of its own type and, for a URI, reads no identifier but
those of Block1 nodes. -/
def LookupTyped (key : BlockKey) (head : List BlockData) : Prop :=
  match findBlockData key head with
  | .error _ => False
  | .ok none =>
    key.blockType = .block1 → ∀ blockData ∈ head, blockData.blockType = .block1
  | .ok (some (before, found, _)) =>
    found.blockType = key.blockType ∧
      (key.blockType = .block1 → ∀ blockData ∈ before, blockData.blockType = .block1)

/-- What the calls keep of every node when the allocator serves them: the union holds what
the node's type says, and the buffer is a live allocation of `blockBufferSize` bytes. -/
structure NodeWf (blockData : BlockData) : Prop where
  word : blockData.blockType = .block1 → blockData.identifier.word ≠ 0
  uri : blockData.blockType = .block1 → blockData.identifier.uri.isSome
  mid : blockData.blockType = .block2 → blockData.identifier.mid < 2 ^ 16
  buffer : ∃ bytes, blockData.blockBuffer = .live bytes ∧
    blockData.blockBufferSize = bytes.length

/-! ### Look-ups -/

theorem mid_toNat_eq_iff {n : Nat} (hn : n < 2 ^ 16) (mid : UInt16) :
    mid.toNat = n ↔ UInt16.ofNat n = mid := by
  constructor
  · intro heq
    rw [← heq]
    exact UInt16.ofNat_toNat
  · intro heq
    rw [← heq, UInt16.toNat_ofNat']
    exact Nat.mod_eq_of_lt hn

variable {blockData : BlockData} {head : List BlockData} {call : BlockCall} {side : BlockKey → Bool}

theorem prvGetMatcher_own {key : BlockKey} (hwf : NodeWf blockData)
    (hkey : blockData.key = some key) : prvGetMatcher key blockData = .ok true := by
  cases htype : blockData.blockType with
  | block1 =>
    obtain ⟨uri, huri⟩ := Option.isSome_iff_exists.mp (hwf.uri htype)
    obtain rfl : BlockKey.uri uri = key := by simpa [BlockData.key, htype, huri] using hkey
    simp [prvGetMatcher, prvMatchBlock1, hwf.word htype, huri]
  | block2 =>
    obtain rfl : BlockKey.mid _ = key := by simpa [BlockData.key, htype] using hkey
    simpa [prvGetMatcher, prvMatchBlock2] using hwf.mid htype

theorem prvGetMatcher_passable {key : BlockKey} (hwf : NodeWf blockData)
    (hkey : blockData.key ≠ some key) (hpass : Passable key blockData) :
    prvGetMatcher key blockData = .ok false := by
  cases key with
  | uri uri =>
    have htype : blockData.blockType = .block1 := hpass
    obtain ⟨stored, hstored⟩ := Option.isSome_iff_exists.mp (hwf.uri htype)
    have hne : uri ≠ stored := by
      rintro rfl
      exact hkey (by simp [BlockData.key, htype, hstored])
    simp [prvGetMatcher, prvMatchBlock1, hwf.word htype, hstored, hne]
  | mid mid =>
    cases htype : blockData.blockType with
    | block1 =>
      have hne : mid.toNat ≠ blockData.identifier.mid := (hpass htype).symm
      simpa [prvGetMatcher, prvMatchBlock2] using hne
    | block2 =>
      have hne : UInt16.ofNat blockData.identifier.mid ≠ mid := by
        rintro rfl
        exact hkey (by simp [BlockData.key, htype])
      simp only [prvGetMatcher, prvMatchBlock2, Except.ok.injEq, beq_eq_false_iff_ne, ne_eq,
        mid_toNat_eq_iff (hwf.mid htype)]
      exact hne

theorem findBlockData_of_safe {key : BlockKey} (hwf : ∀ blockData ∈ head, NodeWf blockData)
    (hsafe : LookupSafe key head) : findBlockData key head = .ok (splitFirst (isOwn key) head) := by
  induction head with
  | nil => rfl
  | cons blockData next ih =>
    have hnode := hwf blockData (by simp)
    by_cases hkey : blockData.key = some key
    · simp [findBlockData, splitFirst, isOwn, hkey, prvGetMatcher_own hnode hkey]
    · obtain ⟨hpass, hrest⟩ : Passable key blockData ∧ LookupSafe key next :=
        hsafe.resolve_left hkey
      have hnext := ih (fun b hb => hwf b (List.mem_cons_of_mem _ hb)) hrest
      simp only [findBlockData, prvGetMatcher_passable hnode hkey hpass, hnext, splitFirst, isOwn,
        beq_eq_false_iff_ne.mpr hkey, Bool.false_eq_true, if_false]
      cases splitFirst (isOwn key) next <;> rfl

theorem key_blockType {key : BlockKey} (hkey : blockData.key = some key) :
    blockData.blockType = key.blockType := by
  cases htype : blockData.blockType with
  | block1 =>
    obtain ⟨uri, -, rfl⟩ : ∃ uri, blockData.identifier.uri = some uri ∧ BlockKey.uri uri = key := by
      simpa [BlockData.key, htype] using hkey
    rfl
  | block2 =>
    obtain rfl : BlockKey.mid _ = key := by simpa [BlockData.key, htype] using hkey
    rfl

theorem block1_of_safe {uri : String} (hsafe : LookupSafe (.uri uri) head) :
    match splitFirst (isOwn (.uri uri)) head with
    | none => ∀ blockData ∈ head, blockData.blockType = .block1
    | some (before, _, _) => ∀ blockData ∈ before, blockData.blockType = .block1 := by
  induction head with
  | nil => simp [splitFirst]
  | cons blockData next ih =>
    by_cases hkey : blockData.key = some (.uri uri)
    · simp [splitFirst, isOwn, hkey]
    · obtain ⟨hpass, hrest⟩ := hsafe.resolve_left hkey
      have hnext := ih hrest
      have htype : blockData.blockType = .block1 := hpass
      have hown : isOwn (.uri uri) blockData = false := by simpa [isOwn] using hkey
      simp only [splitFirst, hown, Bool.false_eq_true, if_false]
      cases hsplit : splitFirst (isOwn (.uri uri)) next with
      | none => simpa [hsplit, htype] using hnext
      | some found => simpa [hsplit, htype] using hnext

theorem lookupTyped_of_safe {key : BlockKey} (hwf : ∀ blockData ∈ head, NodeWf blockData)
    (hsafe : LookupSafe key head) : LookupTyped key head := by
  rw [LookupTyped, findBlockData_of_safe hwf hsafe]
  cases key with
  | mid mid =>
    cases hsplit : splitFirst (isOwn (.mid mid)) head with
    | none => simp [BlockKey.blockType]
    | some split =>
      obtain ⟨before, found, after⟩ := split
      have hown : found.key = some (.mid mid) := by
        simpa [isOwn] using (splitFirst_some hsplit).2.1
      exact ⟨key_blockType hown, by simp [BlockKey.blockType]⟩
  | uri uri =>
    have hblock1 := block1_of_safe hsafe
    cases hsplit : splitFirst (isOwn (.uri uri)) head with
    | none => exact fun _ => by simpa [hsplit] using hblock1
    | some split =>
      obtain ⟨before, found, after⟩ := split
      have hown : found.key = some (.uri uri) := by
        simpa [isOwn] using (splitFirst_some hsplit).2.1
      exact ⟨key_blockType hown, fun _ => by simpa [hsplit] using hblock1⟩

/-! ### Calls as updates of one node -/

/-- What a handler puts in place of the node it finds, or in front of the list. -/
def handlerEffect (maxMessageSize : Nat) (alloc : Alloc) (key : BlockKey) (block : Block) :
    Option BlockData → Except Fault (List BlockData × BlockReply)
  | none =>
    if block.blockNum = 0 then prvFirstBlock alloc block [] [] (prvBlockInsert alloc key)
    else .ok ([], { code := .reqEntityIncomplete408, output := none })
  | some blockData =>
    if block.blockNum = 0 then
      match freeBuffer blockData.blockBuffer with
      | .error fault => .error fault
      | .ok () =>
        prvFirstBlock alloc block [] []
          (some { blockData with blockBuffer := .null, blockBufferSize := 0 })
    else prvNextBlock maxMessageSize alloc block [] [] blockData

/-- What a call puts in place of the node it finds, or in front of the list. -/
def BlockCall.effect (maxMessageSize : Nat) :
    BlockCall → Option BlockData → Except Fault (List BlockData × Option BlockReply)
  | .block1 uri block grant, found =>
    (handlerEffect maxMessageSize grant.alloc (.uri uri) block found).map fun (new, reply) =>
      (new, some reply)
  | .block2 mid block grant, found =>
    (handlerEffect maxMessageSize grant.alloc (.mid mid) block found).map fun (new, reply) =>
      (new, some reply)
  | .setExpectedMid _ expectedMid, found =>
    .ok ((found.map fun blockData =>
      { blockData with identifier := blockData.identifier.setMid expectedMid }).toList, none)
  | .delete1 _, none | .delete2 _, none => .ok ([], none)
  | .delete1 _, some blockData | .delete2 _, some blockData =>
    (freeBlockData blockData).map fun _ => ([], none)

theorem prvFirstBlock_frame (alloc : Alloc) (block : Block) (before after : List BlockData)
    (blockData : Option BlockData) :
    prvFirstBlock alloc block before after blockData =
      (prvFirstBlock alloc block [] [] blockData).map fun (new, reply) =>
        (before ++ new ++ after, reply) := by
  cases halloc : alloc.buffer <;> cases blockData <;> simp [prvFirstBlock, halloc, Except.map]

theorem prvNextBlock_frame (maxMessageSize : Nat) (alloc : Alloc) (block : Block)
    (before after : List BlockData) (blockData : BlockData) :
    prvNextBlock maxMessageSize alloc block before after blockData =
      (prvNextBlock maxMessageSize alloc block [] [] blockData).map fun (new, reply) =>
        (before ++ new ++ after, reply) := by
  simp only [prvNextBlock]
  split_ifs <;> try simp [Except.map]
  cases readBuffer blockData.blockBufferSize blockData.blockBuffer <;> simp

theorem prvCoapBlockHandler_of_safe (maxMessageSize : Nat) (alloc : Alloc) {key : BlockKey}
    (block : Block) (hwf : ∀ blockData ∈ head, NodeWf blockData) (hsafe : LookupSafe key head) :
    prvCoapBlockHandler maxMessageSize alloc key block head =
      updateAt (isOwn key) (handlerEffect maxMessageSize alloc key block) head := by
  rw [prvCoapBlockHandler, findBlockData_of_safe hwf hsafe, updateAt]
  cases splitFirst (isOwn key) head with
  | none =>
    by_cases hzero : block.blockNum = 0
    · simp only [handlerEffect, if_pos hzero]
      rw [prvFirstBlock_frame]
      cases prvFirstBlock alloc block [] [] (prvBlockInsert alloc key) <;> simp
    · simp [handlerEffect, hzero, Except.map]
  | some found =>
    obtain ⟨before, blockData, after⟩ := found
    by_cases hzero : block.blockNum = 0
    · simp only [handlerEffect, if_pos hzero]
      cases freeBuffer blockData.blockBuffer with
      | error fault => rfl
      | ok _ => exact prvFirstBlock_frame _ _ _ _ _
    · simp only [handlerEffect, if_neg hzero]
      exact prvNextBlock_frame _ _ _ _ _ _

theorem prvBlockDataDelete_of_safe {key : BlockKey} (hwf : ∀ blockData ∈ head, NodeWf blockData)
    (hsafe : LookupSafe key head) :
    prvBlockDataDelete key head =
      match splitFirst (isOwn key) head with
      | none => .ok head
      | some (before, removed, after) => (freeBlockData removed).map fun _ => before ++ after := by
  rw [prvBlockDataDelete, findBlockData_of_safe hwf hsafe]
  cases splitFirst (isOwn key) head <;> rfl

theorem blockStep_of_safe (maxMessageSize : Nat) (hwf : ∀ blockData ∈ head, NodeWf blockData)
    (hsafe : LookupSafe call.lookup head) :
    blockStep maxMessageSize head call =
      updateAt (isOwn call.lookup) (call.effect maxMessageSize) head := by
  have handler : ∀ (alloc : Alloc) (key : BlockKey) (block : Block), LookupSafe key head →
      (prvCoapBlockHandler maxMessageSize alloc key block head).map
          (fun (head, reply) => (head, some reply)) =
        updateAt (isOwn key) (fun found =>
          (handlerEffect maxMessageSize alloc key block found).map fun (new, reply) =>
            (new, some reply)) head := by
    intro alloc key block hkey
    rw [prvCoapBlockHandler_of_safe maxMessageSize alloc block hwf hkey, updateAt, updateAt]
    cases splitFirst (isOwn key) head with
    | none =>
      cases handlerEffect maxMessageSize alloc key block none <;> simp [Except.map]
    | some found =>
      cases hres : handlerEffect maxMessageSize alloc key block (some found.2.1) <;>
        simp [Except.map, hres]
  cases call with
  | block1 uri block grant => exact handler grant.alloc (.uri uri) block hsafe
  | block2 mid block grant => exact handler grant.alloc (.mid mid) block hsafe
  | setExpectedMid currentMid expectedMid =>
    simp only [BlockCall.lookup] at hsafe
    simp only [blockStep, coapBlock2SetExpectedMid, findBlockData_of_safe hwf hsafe, updateAt,
      BlockCall.lookup, BlockCall.effect]
    cases splitFirst (isOwn (.mid currentMid)) head <;> simp [Except.map]
  | delete1 uri =>
    simp only [BlockCall.lookup] at hsafe
    simp only [blockStep, block1Delete, prvBlockDataDelete_of_safe hwf hsafe, updateAt,
      BlockCall.lookup, BlockCall.effect]
    cases splitFirst (isOwn (.uri uri)) head with
    | none => simp [Except.map]
    | some found => cases hres : freeBlockData found.2.1 <;> simp [Except.map, hres]
  | delete2 mid =>
    simp only [BlockCall.lookup] at hsafe
    simp only [blockStep, block2Delete, prvBlockDataDelete_of_safe hwf hsafe, updateAt,
      BlockCall.lookup, BlockCall.effect]
    cases splitFirst (isOwn (.mid mid)) head with
    | none => simp [Except.map]
    | some found => cases hres : freeBlockData found.2.1 <;> simp [Except.map, hres]

/-! ### What one call does to the node it finds -/

theorem NodeWf.store (hwf : NodeWf blockData) (bytes : List UInt8) {size : Nat}
    (hsize : size = bytes.length) (blockNum : Nat) :
    NodeWf { blockData with
      blockBuffer := .live bytes, blockBufferSize := size, blockNum := blockNum } :=
  { word := hwf.word, uri := hwf.uri, mid := hwf.mid, buffer := ⟨bytes, rfl, hsize⟩ }

theorem setMid_mid (identifier : Identifier) (mid : UInt16) :
    (identifier.setMid mid).mid = mid.toNat := by
  have hlt := mid.toNat_lt
  simp only [Identifier.setMid, Identifier.mid]
  omega

theorem prvBlockInsert_grant (grant : Grant) (key : BlockKey) (bytes : List UInt8)
    (blockNum : Nat) :
    ∃ blockData, prvBlockInsert grant.alloc key = some blockData ∧ blockData.key = some key ∧
      NodeWf { blockData with
        blockBuffer := .live bytes, blockBufferSize := bytes.length, blockNum := blockNum } := by
  refine ⟨_, rfl, ?_, ?_⟩
  · cases key with
    | uri uri =>
      simp [BlockData.key, BlockKey.blockType, newIdentifier, Grant.alloc, grant.uri_ne_zero]
    | mid mid =>
      simp [BlockData.key, BlockKey.blockType, newIdentifier, Grant.alloc, Identifier.mid]
  · refine { word := ?_, uri := ?_, mid := ?_, buffer := ⟨bytes, rfl, rfl⟩ }
    · cases key <;> simp [BlockKey.blockType, newIdentifier, Grant.alloc, grant.uri_ne_zero]
    · cases key <;> simp [BlockKey.blockType, newIdentifier, Grant.alloc, grant.uri_ne_zero]
    · cases key with
      | uri uri => simp [BlockKey.blockType]
      | mid mid =>
        have hlt := mid.toNat_lt
        simp only [newIdentifier, Identifier.mid]
        intro _
        omega

theorem handlerEffect_spec (maxMessageSize : Nat) (grant : Grant) (key : BlockKey)
    (block : Block) {found : Option BlockData}
    (hfound : ∀ blockData ∈ found, NodeWf blockData ∧ blockData.key = some key) :
    ∃ new reply, handlerEffect maxMessageSize grant.alloc key block found = .ok (new, reply) ∧
      ∀ blockData ∈ new, NodeWf blockData ∧ blockData.key = some key := by
  cases found with
  | none =>
    by_cases hzero : block.blockNum = 0
    · obtain ⟨blockData, hinsert, hkey, hwf⟩ :=
        prvBlockInsert_grant grant key block.buffer block.blockNum
      refine ⟨_, _, by simp only [handlerEffect, if_pos hzero, hinsert]; rfl, ?_⟩
      simpa using ⟨hwf, hkey⟩
    · exact ⟨[], _, by simp only [handlerEffect, if_neg hzero]; rfl, by simp⟩
  | some blockData =>
    obtain ⟨hwf, hkey⟩ := hfound blockData rfl
    obtain ⟨bytes, hbuffer, hsize⟩ := hwf.buffer
    by_cases hzero : block.blockNum = 0
    · refine ⟨_, _, by simp only [handlerEffect, if_pos hzero, hbuffer, freeBuffer]; rfl, ?_⟩
      simpa using ⟨hwf.store block.buffer rfl block.blockNum, hkey⟩
    · have hread : readBuffer blockData.blockBufferSize blockData.blockBuffer = .ok bytes := by
        simp [readBuffer, hbuffer, hsize]
      have kept : ∀ b ∈ [blockData], NodeWf b ∧ b.key = some key := by simpa using ⟨hwf, hkey⟩
      simp only [handlerEffect, if_neg hzero, prvNextBlock, hread, Grant.alloc, if_true,
        List.nil_append]
      split_ifs with hretrans hnext hmismatch hlarge
      · exact ⟨_, _, rfl, kept⟩
      · exact ⟨_, _, rfl, kept⟩
      · exact ⟨_, _, rfl, kept⟩
      · refine ⟨_, _, rfl, ?_⟩
        simpa using ⟨hwf.store (bytes ++ block.buffer) (by simp [hsize]) block.blockNum, hkey⟩
      · exact ⟨_, _, rfl, kept⟩

/-- Every call returns and leaves at most well-formed nodes carrying identifiers it names. -/
theorem BlockCall.effect_spec (maxMessageSize : Nat) (call : BlockCall)
    {found : Option BlockData}
    (hfound : ∀ blockData ∈ found, NodeWf blockData ∧ isOwn call.lookup blockData = true) :
    ∃ new reply, call.effect maxMessageSize found = .ok (new, reply) ∧
      ∀ blockData ∈ new, NodeWf blockData ∧ ∃ key ∈ call.keys, blockData.key = some key := by
  have hown : ∀ blockData ∈ found, NodeWf blockData ∧ blockData.key = some call.lookup :=
    fun b hb => ⟨(hfound b hb).1, by simpa [isOwn] using (hfound b hb).2⟩
  have deletes : ∀ blockData, NodeWf blockData → freeBlockData blockData = .ok () := by
    intro blockData hwf
    obtain ⟨bytes, hbuffer, -⟩ := hwf.buffer
    have huri := hwf.uri
    simp only [freeBlockData, hbuffer, freeBuffer]
    rw [if_neg]
    rintro ⟨htype, -, hnone⟩
    simpa [hnone] using huri htype
  cases call with
  | block1 uri block grant =>
    obtain ⟨new, reply, hres, hnew⟩ :=
      handlerEffect_spec maxMessageSize grant (.uri uri) block hown
    exact ⟨new, some reply, by simp [BlockCall.effect, hres, Except.map],
      fun b hb => ⟨(hnew b hb).1, _, by simp [BlockCall.keys, BlockCall.lookup], (hnew b hb).2⟩⟩
  | block2 mid block grant =>
    obtain ⟨new, reply, hres, hnew⟩ :=
      handlerEffect_spec maxMessageSize grant (.mid mid) block hown
    exact ⟨new, some reply, by simp [BlockCall.effect, hres, Except.map],
      fun b hb => ⟨(hnew b hb).1, _, by simp [BlockCall.keys, BlockCall.lookup], (hnew b hb).2⟩⟩
  | setExpectedMid currentMid expectedMid =>
    refine ⟨_, _, rfl, ?_⟩
    intro b hb
    obtain ⟨blockData, rfl, rfl⟩ : ∃ blockData, found = some blockData ∧
        { blockData with identifier := blockData.identifier.setMid expectedMid } = b := by
      simpa using hb
    obtain ⟨hwf, hkey⟩ := hown blockData rfl
    have htype : blockData.blockType = .block2 := key_blockType hkey
    have hlt := expectedMid.toNat_lt
    refine ⟨?_, .mid expectedMid, by simp [BlockCall.keys], ?_⟩
    · exact
        { word := by simp [htype]
          uri := by simp [htype]
          mid := fun _ => by simp only [setMid_mid]; omega
          buffer := hwf.buffer }
    · simp [BlockData.key, htype, setMid_mid]
  | delete1 uri =>
    cases found with
    | none => exact ⟨[], none, rfl, by simp⟩
    | some blockData =>
      exact ⟨[], none, by simp [BlockCall.effect, deletes _ (hown _ rfl).1, Except.map], by simp⟩
  | delete2 mid =>
    cases found with
    | none => exact ⟨[], none, rfl, by simp⟩
    | some blockData =>
      exact ⟨[], none, by simp [BlockCall.effect, deletes _ (hown _ rfl).1, Except.map], by simp⟩

/-! ### Every run -/

def ListWf (head : List BlockData) : Prop := ∀ blockData ∈ head, NodeWf blockData

/-- The look-up of the call is safe in the list it finds. -/
def CallSafe (head : List BlockData) (call : BlockCall) : Prop := LookupSafe call.lookup head

instance (head : List BlockData) (call : BlockCall) : Decidable (CallSafe head call) :=
  LookupSafe.decidable call.lookup head

theorem blockStep_wf (maxMessageSize : Nat) (head : List BlockData) (call : BlockCall)
    (hwf : ListWf head) (hsafe : CallSafe head call) :
    ∃ head' reply, blockStep maxMessageSize head call = .ok (head', reply) ∧ ListWf head' := by
  rw [blockStep_of_safe maxMessageSize hwf hsafe]
  have htotal : ∃ head' reply,
      updateAt (isOwn call.lookup) (call.effect maxMessageSize) head = .ok (head', reply) := by
    refine updateAt_total NodeWf (fun found hfound => ?_) hwf
    obtain ⟨new, reply, hres, -⟩ := call.effect_spec maxMessageSize hfound
    exact ⟨new, reply, hres⟩
  obtain ⟨head', reply, hstep⟩ := htotal
  refine ⟨head', reply, hstep, forall_mem_updateAt NodeWf ?_ hstep hwf⟩
  intro found new out hfound hres b hb
  obtain ⟨new', reply', hres', hnew⟩ := call.effect_spec maxMessageSize hfound
  obtain ⟨rfl, rfl⟩ : new' = new ∧ reply' = out := by simpa [hres'] using hres
  exact (hnew b hb).1

theorem onSide_of_key {key : BlockKey} (hkey : blockData.key = some key) :
    onSide side blockData = side key := by
  simp [onSide, hkey]

theorem lookup_mem_keys (call : BlockCall) : call.lookup ∈ call.keys := by
  cases call <;> simp [BlockCall.keys, BlockCall.lookup]

theorem LookupSafe.filter {key : BlockKey} (side : BlockData → Bool)
    (hside : ∀ blockData, blockData.key = some key → side blockData = true)
    (hsafe : LookupSafe key head) : LookupSafe key (head.filter side) := by
  induction head with
  | nil => trivial
  | cons blockData next ih =>
    by_cases hkey : blockData.key = some key
    · rw [List.filter_cons_of_pos (hside _ hkey)]
      exact Or.inl hkey
    · obtain ⟨hpass, hrest⟩ := hsafe.resolve_left hkey
      by_cases hs : side blockData = true
      · rw [List.filter_cons_of_pos hs]
        exact Or.inr ⟨hpass, ih hrest⟩
      · rw [List.filter_cons_of_neg hs]
        exact ih hrest

theorem blockStep_within (maxMessageSize : Nat) {head' : List BlockData} {reply : Option BlockReply}
    (hwf : ListWf head) (hsafe : CallSafe head call) (hside : call.within side = true)
    (hstep : blockStep maxMessageSize head call = .ok (head', reply)) :
    blockStep maxMessageSize (head.filter (onSide side)) call =
      .ok (head'.filter (onSide side), reply) := by
  have hkeys : ∀ key ∈ call.keys, side key = true := List.all_eq_true.mp hside
  have hlookup : ∀ b : BlockData, b.key = some call.lookup → onSide side b = true :=
    fun b hb => by rw [onSide_of_key hb]; exact hkeys _ (lookup_mem_keys call)
  rw [blockStep_of_safe maxMessageSize hwf hsafe] at hstep
  rw [blockStep_of_safe maxMessageSize
    (fun b hb => hwf b (List.mem_of_mem_filter hb)) (LookupSafe.filter _ hlookup hsafe),
    updateAt_filter NodeWf (fun b hb => hlookup b (by simpa [isOwn] using hb)) ?_ hwf, hstep]
  · rfl
  · intro found new out hfound hres b hb
    obtain ⟨new', reply', hres', hnew⟩ := call.effect_spec maxMessageSize hfound
    obtain ⟨rfl, rfl⟩ : new' = new ∧ reply' = out := by simpa [hres'] using hres
    obtain ⟨-, key, hmem, hkey⟩ := hnew b hb
    rw [onSide_of_key hkey]
    exact hkeys key hmem

theorem blockStep_apart (maxMessageSize : Nat) {head' : List BlockData} {reply : Option BlockReply}
    (hwf : ListWf head) (hsafe : CallSafe head call) (hside : call.apartFrom side = true)
    (hstep : blockStep maxMessageSize head call = .ok (head', reply)) :
    head'.filter (onSide side) = head.filter (onSide side) := by
  have hkeys : ∀ key ∈ call.keys, side key = false := by
    intro key hkey
    simpa using List.all_eq_true.mp hside key hkey
  rw [blockStep_of_safe maxMessageSize hwf hsafe] at hstep
  refine filter_updateAt_of_disjoint NodeWf ?_ ?_ hwf hstep
  · intro b hb
    have hkey : b.key = some call.lookup := by simpa [isOwn] using hb
    rw [onSide_of_key hkey]
    exact hkeys _ (lookup_mem_keys call)
  · intro found new out hfound hres b hb
    obtain ⟨new', reply', hres', hnew⟩ := call.effect_spec maxMessageSize hfound
    obtain ⟨rfl, rfl⟩ : new' = new ∧ reply' = out := by simpa [hres'] using hres
    obtain ⟨-, key, hmem, hkey⟩ := hnew b hb
    rw [onSide_of_key hkey]
    exact hkeys key hmem

/-- What one served block carries along; the pointer's low half is the message id 7. -/
def sharedGrant : Grant :=
  { entry := (.wild, 0, 0), uri := 0x100000007, uri_ne_zero := by decide, high := 0x7fff }

/-- Block 0 of a transfer of several blocks. -/
def firstOfMany : Block := { buffer := [1, 2], blockSize := 2, blockNum := 0, blockMore := true }

/-- The last block of a transfer of two. -/
def lastOfTwo : Block := { buffer := [3], blockSize := 2, blockNum := 1, blockMore := false }

/-- Two Block2 transfers, one renamed in the middle. -/
def renamedCalls : List BlockCall :=
  [.block2 7 firstOfMany sharedGrant, .block2 9 firstOfMany sharedGrant, .setExpectedMid 7 8,
    .block2 8 lastOfTwo sharedGrant, .delete2 9]

end Wakaama
