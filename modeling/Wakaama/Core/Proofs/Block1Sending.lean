import Wakaama.Core.Packet
import Wakaama.Misc.Run

/-!
# Sending a payload in blocks

A request whose payload is longer than the block size is sent block by block: each
acknowledgement leads to the request for the next block. `prv_send_next_block1` takes the number
of the next block from the size that was used and sends it in the size that the peer asks
for. Only behind block 0 does it scale the number.
-/

namespace Wakaama

variable {Session : Type}

/-- The platform of a transfer: memory for every transaction and a clock that works. -/
def servedEnv (sessionIsEqual : Session → Session → Bool) (blockSize : CoapBlockSize)
    (address now : Nat) : PacketEnv Session where
  sessionIsEqual := sessionIsEqual
  blockSize := blockSize.size
  maxMessageSize := 0
  tvSec := now
  clone := some address
  buffer := true
  blockAlloc := { entry := none, uri := 0, buffer := true, high := 0 }

/-- The request that `prv_send_next_block1` sends behind an acknowledged one, `none` when there
is nothing left to send. -/
def blockFollowing (env : PacketEnv Session) (nextMID : UInt16) (current : Transaction Session)
    (blockSize : UInt16) : Except PacketFault (Option (Transaction Session)) :=
  match prvNextBlock1 current.message blockSize with
  | .error fault => .error fault
  | .ok (blockNum, blockSize) =>
    if current.payload.length ≤ blockNum.toNat * blockSize.toNat then .ok none
    else
      match prvCreateNextBlockTransaction env current nextMID with
      | none => .ok none
      | some next => .ok (transactionSend env.buffer env.tvSec (prvSetBlock1 next blockNum blockSize))

/-- A transfer: the request that waits for its acknowledgement, `none` once all is sent. -/
structure Block1Transfer (Session : Type) where
  nextMID : UInt16
  current : Option (Transaction Session)

/-- The first request of a transfer, as `transaction_set_payload` and `transaction_send` leave
it. -/
def startTransfer (env : PacketEnv Session) (nextMID : UInt16) (transaction : Transaction Session)
    (payload : List UInt8) : Block1Transfer Session where
  nextMID := nextMID
  current := transactionSend env.buffer env.tvSec
    (transactionSetPayload env.blockSize transaction payload)

/-- The peer acknowledges the request, with the value of a Block1 option when the request has
one. The reply is the payload of the request. -/
def transferStep (env : PacketEnv Session) (transfer : Block1Transfer Session) (value : UInt32) :
    Except PacketFault (Block1Transfer Session × List UInt8) :=
  match transfer.current with
  | none => .ok (transfer, [])
  | some current =>
    if current.message.block1 = none then
      .ok ({ transfer with current := none }, current.message.payload)
    else
      match blockFollowing env transfer.nextMID current (coapParseBlock value).size with
      | .error fault => .error fault
      | .ok next =>
        .ok ({ nextMID := transfer.nextMID + 1, current := next }, current.message.payload)

/-- The bytes of the requests that were acknowledged. -/
def acknowledgedBytes (events : List (UInt32 × List UInt8)) : List UInt8 :=
  (events.map Prod.snd).flatten

/-- The request carries the block of the payload that starts at NUM * SIZE, the end of the
accepted bytes, and its more flag says whether bytes remain behind it. -/
structure NextBlock (payload accepted : List UInt8) (message : CoapPacket) (block1 : BlockOption) :
    Prop where
  offset : block1.num.toNat * block1.size.toNat = accepted.length
  remaining : accepted.length < payload.length
  bytes : message.payload = (payload.drop accepted.length).take block1.size.toNat
  more : block1.more = true ↔ accepted.length + message.payload.length < payload.length

/-- The accepted bytes are a beginning of the payload, the request that waits continues them, and
when none waits they are the payload. A request without Block1 carries the whole payload. -/
def Covers (payload : List UInt8) (events : List (UInt32 × List UInt8))
    (transfer : Block1Transfer Session) : Prop :=
  acknowledgedBytes events = payload.take (acknowledgedBytes events).length ∧
    match transfer.current with
    | none => acknowledgedBytes events = payload
    | some current =>
      match current.message.block1 with
      | none => acknowledgedBytes events = [] ∧ current.message.payload = payload
      | some block1 => NextBlock payload (acknowledgedBytes events) current.message block1

/-- The block size of the next request. -/
def nextBlockSize (blockSize asked : UInt16) : UInt16 :=
  if blockSize < asked ∨ asked = 0 then blockSize else asked

/-- The number of the next request. -/
def nextBlockNum (block1 : BlockOption) (blockSize : UInt16) : Nat :=
  if block1.num = 0 then block1.size.toNat / blockSize.toNat else block1.num.toNat + 1

/-- Where a block follows, the size is reduced at block 0 only and the number fits the option. -/
def KeepsSize (payload : List UInt8) (transfer : Block1Transfer Session) (value : UInt32) : Prop :=
  ∀ current ∈ transfer.current, ∀ block1 ∈ current.message.block1,
    let size := nextBlockSize block1.size (coapParseBlock value).size
    nextBlockNum block1 size * size.toNat < payload.length →
      (block1.num = 0 ∨ size = block1.size) ∧ nextBlockNum block1 size ≤ 0x0FFFFF

/-- The requests of a transfer carry all of the payload with them, and a Block1 option within
its bounds. -/
def Carries (payload : List UInt8) (transfer : Block1Transfer Session) : Prop :=
  ∀ current ∈ transfer.current, current.payload = payload ∧ current.buffer ≠ none ∧
    ∀ block1 ∈ current.message.block1, block1.size ∈ validBlockSizes ∧ block1.num ≤ 0x0FFFFF

/-! ### Block sizes -/

theorem coapParseBlock_size (value : UInt32) :
    (coapParseBlock value).size ∈ 2048 :: validBlockSizes := by
  have hlow : (value &&& 0x07).toNat < 8 := by
    rw [UInt32.toNat_and]
    exact Nat.and_lt_two_pow value.toNat (by decide : 7 < 2 ^ 3)
  have hsizes : ∀ szx : Nat, szx < 8 → 16 <<< (UInt32.ofNat szx).toUInt16 ∈ 2048 :: validBlockSizes := by
    decide
  have hszx := hsizes _ hlow
  rw [UInt32.ofNat_toNat] at hszx
  exact hszx

theorem nextBlockSize_spec {size asked : UInt16} (hsize : size ∈ validBlockSizes)
    (hasked : asked ∈ 2048 :: validBlockSizes) :
    nextBlockSize size asked ∈ validBlockSizes ∧ nextBlockSize size asked ≤ size ∧
      size.toNat / (nextBlockSize size asked).toNat * (nextBlockSize size asked).toNat =
        size.toNat := by
  unfold validBlockSizes at hsize hasked
  simp only [List.mem_cons, List.not_mem_nil, or_false] at hsize hasked
  rcases hsize with rfl | rfl | rfl | rfl | rfl | rfl | rfl <;>
    rcases hasked with rfl | rfl | rfl | rfl | rfl | rfl | rfl | rfl <;>
    refine ⟨?_, ?_, ?_⟩ <;> simp [nextBlockSize, validBlockSizes]

theorem validBlockSize_bounds {size : UInt16} (hsize : size ∈ validBlockSizes) :
    16 ≤ size.toNat ∧ size.toNat ≤ 1024 := by
  unfold validBlockSizes at hsize
  simp only [List.mem_cons, List.not_mem_nil, or_false] at hsize
  rcases hsize with rfl | rfl | rfl | rfl | rfl | rfl | rfl <;> simp

/-! ### The next request -/

section transfer

variable (sessionIsEqual : Session → Session → Bool) (blockSize : CoapBlockSize)
  (address now : Nat)

theorem transactionSend_new (next : Transaction Session) (hbuffer : next.buffer = none)
    (hack : next.ackReceived = false) (hcounter : next.retransCounter = 0) :
    transactionSend true (now : Int) next = some { next with
      buffer := some next.message
      retransTime := now + coapResponseTimeout
      retransCounter := 2 } := by
  unfold transactionSend
  rw [hbuffer]
  simp [hack, hcounter]

variable {block1 : BlockOption} {asked size : UInt16} {current : Transaction Session}
  {payload bytes : List UInt8} {transfer transfer' : Block1Transfer Session} {value : UInt32}

theorem prvNextBlock1_served {message : CoapPacket} (hblock1 : message.block1 = some block1)
    (hsize : block1.size ∈ validBlockSizes) (hnum : block1.num ≤ 0x0FFFFF)
    (hasked : asked ∈ 2048 :: validBlockSizes) :
    ∃ num : UInt32, prvNextBlock1 message asked = .ok (num, nextBlockSize block1.size asked) ∧
      num.toNat = nextBlockNum block1 (nextBlockSize block1.size asked) := by
  obtain ⟨hnext, -, -⟩ := nextBlockSize_spec hsize hasked
  have hpos := (validBlockSize_bounds hnext).1
  have hmessage : message.block1Num = block1.num ∧ message.block1Size = block1.size := by
    simp [CoapPacket.block1Num, CoapPacket.block1Size, hblock1]
  unfold prvNextBlock1
  simp only [hmessage.1, hmessage.2]
  rw [show (if block1.size < asked ∨ asked = 0 then block1.size else asked) =
    nextBlockSize block1.size asked from rfl]
  generalize nextBlockSize block1.size asked = size at hpos
  unfold nextBlockNum
  by_cases hzero : block1.num = 0
  · have hne : size ≠ 0 := by
      intro heq
      rw [heq] at hpos
      exact absurd hpos (by decide)
    rw [if_pos hzero, if_pos hzero, if_neg hne]
    exact ⟨_, rfl, by simp⟩
  · rw [if_neg hzero, if_neg hzero]
    refine ⟨_, rfl, ?_⟩
    rw [UInt32.le_iff_toNat_le] at hnum
    rw [UInt32.toNat_add]
    simp at hnum ⊢
    omega

/-- The request for a block, made behind a request that carries the payload. -/
structure Continues (payload : List UInt8) (num : Nat) (size : UInt16)
    (next : Transaction Session) : Prop where
  whole : next.payload = payload
  block1 : next.message.block1 =
    if num ≤ 0x0FFFFF then
      some { num := UInt32.ofNat num, more := size.toNat < payload.length - num * size.toNat, size }
    else none
  bytes : num ≤ 0x0FFFFF → next.message.payload = (payload.drop (num * size.toNat)).take
    (min size.toNat (payload.length - num * size.toNat))

theorem prvSetBlock1_continues {next : Transaction Session} (num : UInt32)
    (hblock1 : next.message.block1 = none) (hsize : size ∈ validBlockSizes) :
    Continues next.payload num.toNat size (prvSetBlock1 next num size) := by
  have hbounds := validBlockSize_bounds hsize
  have hfits : blockOptionFits num size = decide (num.toNat ≤ 0x0FFFFF) := by
    have hlow : (16 : UInt16) ≤ size := by
      rw [UInt16.le_iff_toNat_le]
      exact hbounds.1
    have hhigh : size ≤ 2048 := by
      rw [UInt16.le_iff_toNat_le]
      exact Nat.le_trans hbounds.2 (by decide)
    unfold blockOptionFits
    simp [hlow, hhigh, UInt32.le_iff_toNat_le]
  refine ⟨rfl, ?_, ?_⟩
  · unfold prvSetBlock1 coapSetHeaderBlock1
    rw [hfits]
    by_cases hnum : num.toNat ≤ 0x0FFFFF
    · simp [hnum]
    · simp [hnum, hblock1]
  · intro hnum
    have hoffset : (num * size.toUInt32).toNat = num.toNat * size.toNat := by
      have hproduct : num.toNat * size.toNat ≤ 0x0FFFFF * 1024 :=
        Nat.mul_le_mul hnum hbounds.2
      rw [UInt32.toNat_mul, UInt16.toNat_toUInt32]
      apply Nat.mod_eq_of_lt
      omega
    unfold prvSetBlock1
    rw [hoffset]

theorem prvCreateNextBlockTransaction_served (nextMID : UInt16) (hbuffer : current.buffer ≠ none) :
    ∃ clone, prvCreateNextBlockTransaction (servedEnv sessionIsEqual blockSize address now) current
        nextMID = some clone ∧ clone.payload = current.payload ∧ clone.message.block1 = none ∧
      clone.buffer = none ∧ clone.ackReceived = false ∧ clone.retransCounter = 0 := by
  obtain ⟨message, hmessage⟩ := Option.ne_none_iff_exists'.mp hbuffer
  unfold prvCreateNextBlockTransaction
  rw [hmessage]
  refine ⟨_, rfl, rfl, ?_, rfl, rfl, rfl⟩
  unfold transactionNew
  dsimp only
  split <;> rfl

theorem blockFollowing_served (nextMID : UInt16) (hbuffer : current.buffer ≠ none)
    (hblock1 : current.message.block1 = some block1) (hsize : block1.size ∈ validBlockSizes)
    (hnum : block1.num ≤ 0x0FFFFF) (hasked : asked ∈ 2048 :: validBlockSizes) :
    let size := nextBlockSize block1.size asked
    let num := nextBlockNum block1 size
    if current.payload.length ≤ num * size.toNat then
      blockFollowing (servedEnv sessionIsEqual blockSize address now) nextMID current asked =
        .ok none
    else ∃ next, blockFollowing (servedEnv sessionIsEqual blockSize address now) nextMID current
        asked = .ok (some next) ∧ Continues current.payload num size next ∧ next.buffer ≠ none := by
  intro size num
  obtain ⟨num32, hnext, hnum32⟩ := prvNextBlock1_served hblock1 hsize hnum hasked
  obtain ⟨clone, hclone, hpayload, hplain, hunsent, hack, hcounter⟩ :=
    prvCreateNextBlockTransaction_served sessionIsEqual blockSize address now nextMID hbuffer
  have hvalid := (nextBlockSize_spec hsize hasked).1
  have hblock := prvSetBlock1_continues num32 hplain hvalid
  rw [hpayload, hnum32] at hblock
  unfold blockFollowing
  rw [hnext]
  dsimp only
  rw [hnum32, hclone]
  split
  · rfl
  · have hsent := transactionSend_new now (prvSetBlock1 clone num32
      (nextBlockSize block1.size asked)) hunsent hack hcounter
    exact ⟨_, congrArg Except.ok hsent, ⟨hblock.whole, hblock.block1, hblock.bytes⟩, by simp⟩

/-- In a context that finds the transaction, `prv_send_next_block1` puts the request that
follows into the list, or does nothing when none does. -/
theorem prvSendNextBlock1_follows {context : PacketContext Session} {sessionH : Session}
    {mid : UInt16}
    (hget : prvGetTransaction sessionIsEqual sessionH mid context.transactionList = .ok (some current))
    (hbuffer : current.buffer ≠ none) (hblock1 : current.message.block1 = some block1)
    (hsize : block1.size ∈ validBlockSizes) (hnum : block1.num ≤ 0x0FFFFF)
    (hasked : asked ∈ 2048 :: validBlockSizes) :
    prvSendNextBlock1 (servedEnv sessionIsEqual blockSize address now) context sessionH mid asked =
      (blockFollowing (servedEnv sessionIsEqual blockSize address now) context.nextMID current
        asked).map fun
          | none => context
          | some next => { context with
              nextMID := context.nextMID + 1
              transactionList := lwm2mListAdd Transaction.mID context.transactionList next } := by
  obtain ⟨num32, hnext, -⟩ := prvNextBlock1_served hblock1 hsize hnum hasked
  obtain ⟨clone, hclone, -, -, hunsent, hack, hcounter⟩ :=
    prvCreateNextBlockTransaction_served sessionIsEqual blockSize address now context.nextMID
      hbuffer
  have hsent := transactionSend_new now (prvSetBlock1 clone num32
    (nextBlockSize block1.size asked)) hunsent hack hcounter
  unfold prvSendNextBlock1 blockFollowing prvSendNewBlock1
  rw [show (servedEnv sessionIsEqual blockSize address now).sessionIsEqual = sessionIsEqual from rfl,
    hget]
  dsimp only
  rw [hnext]
  dsimp only
  rw [hclone]
  split
  · rfl
  · unfold prvAddAndSend
    dsimp only
    rw [show (servedEnv sessionIsEqual blockSize address now).buffer = true from rfl,
      show (servedEnv sessionIsEqual blockSize address now).tvSec = (now : Int) from rfl, hsent]
    rfl

/-! ### One acknowledgement -/

theorem acknowledgedBytes_concat (events : List (UInt32 × List UInt8)) (value : UInt32)
    (bytes : List UInt8) :
    acknowledgedBytes (events ++ [(value, bytes)]) = acknowledgedBytes events ++ bytes := by
  simp [acknowledgedBytes]

theorem transferStep_served (hcarries : Carries payload transfer)
    (hcurrent : transfer.current = some current) (hblock1 : current.message.block1 = some block1)
    (h : transferStep (servedEnv sessionIsEqual blockSize address now) transfer value = .ok (transfer', bytes)) :
    bytes = current.message.payload ∧
      let size := nextBlockSize block1.size (coapParseBlock value).size
      let num := nextBlockNum block1 size
      if payload.length ≤ num * size.toNat then transfer'.current = none
      else ∃ next, transfer'.current = some next ∧ Continues payload num size next ∧
        next.buffer ≠ none := by
  obtain ⟨hpayload, hbuffer, hbounds⟩ := hcarries current hcurrent
  obtain ⟨hsize, hnum⟩ := hbounds block1 hblock1
  have hfollow := blockFollowing_served sessionIsEqual blockSize address now transfer.nextMID
    hbuffer hblock1 hsize hnum (coapParseBlock_size value)
  rw [hpayload] at hfollow
  unfold transferStep at h
  rw [hcurrent] at h
  dsimp only at h hfollow
  rw [if_neg (by simp [hblock1])] at h
  split at hfollow
  · rename_i hdone
    rw [hfollow] at h
    cases h
    refine ⟨rfl, ?_⟩
    dsimp only
    rw [if_pos hdone]
  · rename_i hmore
    obtain ⟨next, hnext, hcontinues⟩ := hfollow
    rw [hnext] at h
    cases h
    refine ⟨rfl, ?_⟩
    dsimp only
    rw [if_neg hmore]
    exact ⟨next, rfl, hcontinues⟩

theorem transferStep_last {env : PacketEnv Session}
    (hplain : ∀ current ∈ transfer.current, current.message.block1 = none)
    (h : transferStep env transfer value = .ok (transfer', bytes)) :
    transfer'.current = none ∧
      bytes = (transfer.current.map fun current => current.message.payload).getD [] := by
  unfold transferStep at h
  cases hcurrent : transfer.current with
  | none =>
    rw [hcurrent] at h
    cases h
    exact ⟨hcurrent, rfl⟩
  | some current =>
    rw [hcurrent] at h
    dsimp only at h
    rw [if_pos (hplain current hcurrent)] at h
    cases h
    exact ⟨rfl, rfl⟩

theorem transfer_cases (transfer : Block1Transfer Session) :
    (∀ current ∈ transfer.current, current.message.block1 = none) ∨
      ∃ current block1, transfer.current = some current ∧ current.message.block1 = some block1 := by
  cases hcurrent : transfer.current with
  | none => exact Or.inl (by simp)
  | some current =>
    cases hblock1 : current.message.block1 with
    | none => exact Or.inl (by simp [hblock1])
    | some block1 => exact Or.inr ⟨current, block1, rfl, hblock1⟩

theorem carries_step (hcarries : Carries payload transfer)
    (h : transferStep (servedEnv sessionIsEqual blockSize address now) transfer value = .ok (transfer', bytes)) :
    Carries payload transfer' := by
  rcases transfer_cases transfer with hplain | ⟨current, block1, hcurrent, hblock1⟩
  · intro next hnext
    rw [(transferStep_last hplain h).1] at hnext
    contradiction
  · obtain ⟨hpayload, hbuffer, hbounds⟩ := hcarries current hcurrent
    obtain ⟨hsize, hnum⟩ := hbounds block1 hblock1
    obtain ⟨-, hnext⟩ := transferStep_served sessionIsEqual blockSize address now hcarries
      hcurrent hblock1 h
    dsimp only at hnext
    intro next hmem
    split at hnext
    · rw [hnext] at hmem
      contradiction
    · obtain ⟨next', hnext', hcontinues, hsent⟩ := hnext
      obtain rfl : next' = next := by simpa [hnext'] using hmem
      refine ⟨hcontinues.whole, hsent, ?_⟩
      intro block1' hblock1'
      rw [hcontinues.block1] at hblock1'
      split at hblock1'
      · rename_i hfits
        obtain rfl := Option.some.inj hblock1'
        refine ⟨(nextBlockSize_spec hsize (coapParseBlock_size value)).1, ?_⟩
        rw [UInt32.le_iff_toNat_le, UInt32.toNat_ofNat]
        exact Nat.le_trans (Nat.mod_le _ _) hfits
      · contradiction

theorem transferStep_total (hcarries : Carries payload transfer) (value : UInt32) :
    ∃ transfer' bytes, transferStep (servedEnv sessionIsEqual blockSize address now) transfer
      value = .ok (transfer', bytes) := by
  unfold transferStep
  cases hcurrent : transfer.current with
  | none => exact ⟨_, _, rfl⟩
  | some current =>
    dsimp only
    cases hblock1 : current.message.block1 with
    | none => exact ⟨_, _, rfl⟩
    | some block1 =>
      obtain ⟨hpayload, hbuffer, hbounds⟩ := hcarries current hcurrent
      obtain ⟨hsize, hnum⟩ := hbounds block1 hblock1
      have hfollow := blockFollowing_served sessionIsEqual blockSize address now transfer.nextMID
        hbuffer hblock1 hsize hnum (coapParseBlock_size value)
      dsimp only at hfollow
      rw [if_neg (by simp)]
      split at hfollow
      · rw [hfollow]
        exact ⟨_, _, rfl⟩
      · obtain ⟨next, hnext, -⟩ := hfollow
        rw [hnext]
        exact ⟨_, _, rfl⟩

theorem nextBlock_take {accepted : List UInt8} {message : CoapPacket}
    (hbegin : accepted = payload.take accepted.length)
    (h : NextBlock payload accepted message block1) :
    accepted ++ message.payload = payload.take (accepted.length + block1.size.toNat) ∧
      (accepted ++ message.payload).length =
        min (accepted.length + block1.size.toNat) payload.length := by
  have htake : accepted ++ message.payload =
      payload.take (accepted.length + block1.size.toNat) := by
    rw [h.bytes, List.take_add, ← hbegin]
  refine ⟨htake, ?_⟩
  rw [htake, List.length_take]

theorem nextBlock_continues_iff {accepted : List UInt8} {num : Nat} {next : Transaction Session}
    (hcontinues : Continues payload num size next) (hmore : num * size.toNat < payload.length)
    (hsome : accepted ≠ []) :
    (match next.message.block1 with
      | none => accepted = [] ∧ next.message.payload = payload
      | some block1 => NextBlock payload accepted next.message block1) ↔
      num * size.toNat = accepted.length ∧ num ≤ 0x0FFFFF := by
  rw [hcontinues.block1]
  by_cases hfits : num ≤ 0x0FFFFF
  · rw [if_pos hfits]
    dsimp only
    have hnum : (UInt32.ofNat num).toNat = num := by
      rw [UInt32.toNat_ofNat']
      apply Nat.mod_eq_of_lt
      omega
    constructor
    · intro h
      have hoffset := h.offset
      rw [hnum] at hoffset
      exact ⟨hoffset, hfits⟩
    · rintro ⟨hoffset, -⟩
      have hbytes := hcontinues.bytes hfits
      rw [hoffset] at hbytes hmore
      refine ⟨by rw [hnum]; exact hoffset, hmore, ?_, ?_⟩
      · rw [hbytes, hoffset]
        apply List.take_eq_take_iff.mpr
        rw [List.length_drop]
        dsimp only
        omega
      · rw [hbytes, hoffset, List.length_take, List.length_drop]
        simp only [decide_eq_true_eq]
        omega
  · rw [if_neg hfits]
    simp [hsome, hfits]

/-- Where the next request starts: never past the end of the block, and there exactly if the size
is kept or the block was block 0. -/
theorem nextBlockNum_spec (hle : size.toNat ≤ block1.size.toNat)
    (hdivides : block1.size.toNat / size.toNat * size.toNat = block1.size.toNat) :
    nextBlockNum block1 size * size.toNat ≤
        block1.num.toNat * block1.size.toNat + block1.size.toNat ∧
      (nextBlockNum block1 size * size.toNat =
          block1.num.toNat * block1.size.toNat + block1.size.toNat ↔
        block1.num = 0 ∨ size = block1.size) := by
  unfold nextBlockNum
  by_cases hzero : block1.num = 0
  · rw [if_pos hzero, hdivides, hzero]
    simp
  · rw [if_neg hzero]
    have hend : block1.num.toNat * block1.size.toNat + block1.size.toNat =
        (block1.num.toNat + 1) * block1.size.toNat := by
      rw [Nat.add_mul, Nat.one_mul]
    rw [hend]
    refine ⟨Nat.mul_le_mul_left _ hle, ?_⟩
    rw [Nat.mul_right_inj (Nat.succ_ne_zero _), UInt16.toNat_inj]
    simp [hzero]

/-- From a transfer that covers the payload so far, an acknowledgement leads to one that does
exactly if it keeps the size. -/
theorem covers_step_iff {past : List (UInt32 × List UInt8)} (hcarries : Carries payload transfer)
    (hcovers : Covers payload past transfer)
    (h : transferStep (servedEnv sessionIsEqual blockSize address now) transfer value = .ok (transfer', bytes)) :
    Covers payload (past ++ [(value, bytes)]) transfer' ↔ KeepsSize payload transfer value := by
  obtain ⟨hbegin, hcovers⟩ := hcovers
  unfold Covers KeepsSize
  rw [acknowledgedBytes_concat]
  rcases transfer_cases transfer with hplain | ⟨current, block1, hcurrent, hblock1⟩
  · -- no Block1 option to go on from: all of the payload is accepted
    obtain ⟨hnone, hbytes⟩ := transferStep_last hplain h
    have hall : acknowledgedBytes past ++ bytes = payload := by
      rw [hbytes]
      cases hcurrent : transfer.current with
      | none => simpa [hcurrent] using hcovers
      | some current =>
        rw [hcurrent] at hcovers
        dsimp only at hcovers
        rw [hplain current hcurrent] at hcovers
        simp [hcovers.1, hcovers.2]
    rw [hnone, hall]
    simp only [List.take_length, and_self, true_iff]
    intro current hcurrent block1 hblock1
    rw [hplain current hcurrent] at hblock1
    contradiction
  · rw [hcurrent] at hcovers
    dsimp only at hcovers
    rw [hblock1] at hcovers
    obtain ⟨hsize, hnum⟩ := (hcarries current hcurrent).2.2 block1 hblock1
    obtain ⟨hvalid, hle, hdivides⟩ := nextBlockSize_spec hsize (coapParseBlock_size value)
    obtain ⟨hbytes, hnext⟩ := transferStep_served sessionIsEqual blockSize address now hcarries
      hcurrent hblock1 h
    have hpos := (validBlockSize_bounds hvalid).1
    rw [UInt16.le_iff_toNat_le] at hle
    obtain ⟨htake, hlength⟩ := nextBlock_take hbegin hcovers
    have hoffset := hcovers.offset
    have hremaining := hcovers.remaining
    rw [hbytes]
    dsimp only at hnext
    rw [hcurrent]
    simp only [Option.mem_def, Option.some.injEq, forall_eq', hblock1]
    generalize nextBlockSize block1.size (coapParseBlock value).size = size at *
    obtain ⟨hend, hexact⟩ := nextBlockNum_spec hle hdivides
    by_cases hdone : payload.length ≤ nextBlockNum block1 size * size.toNat
    · rw [if_pos hdone] at hnext
      rw [hnext]
      have hall : acknowledgedBytes past ++ current.message.payload = payload := by
        rw [htake, List.take_of_length_le]
        omega
      rw [hall]
      simp only [List.take_length, and_self, true_iff]
      intro hmore
      omega
    · rw [if_neg hdone] at hnext
      obtain ⟨next, hnext, hcontinues, -⟩ := hnext
      have hmore : nextBlockNum block1 size * size.toNat < payload.length := by omega
      have hsome : acknowledgedBytes past ++ current.message.payload ≠ [] := by
        intro hempty
        have hzero := congrArg List.length hempty
        rw [hlength] at hzero
        simp only [List.length_nil] at hzero
        omega
      have hfront : acknowledgedBytes past ++ current.message.payload =
          payload.take (acknowledgedBytes past ++ current.message.payload).length := by
        rw [hlength, htake, List.take_eq_take_iff]
        omega
      rw [hnext]
      dsimp only
      rw [nextBlock_continues_iff hcontinues hmore hsome, ← hexact, hlength]
      constructor
      · rintro ⟨-, hstart, hfits⟩ _
        exact ⟨by omega, hfits⟩
      · intro hkeeps
        obtain ⟨hstart, hfits⟩ := hkeeps hmore
        exact ⟨hlength ▸ hfront, by omega, hfits⟩

/-! ### Whole transfers -/

theorem startTransfer_covers (sessionH : Session) (method : UInt8) (mID nextMID : UInt16)
    (token payload : List UInt8) :
    let start := startTransfer (servedEnv sessionIsEqual blockSize address now) nextMID
      (transactionNew address sessionH method mID token) payload
    Carries payload start ∧ Covers payload [] start := by
  intro start
  have hbounds := validBlockSize_bounds blockSize.valid
  obtain ⟨current, hcurrent, hpayload, hbuffer, hblock1, hbytes⟩ :
      ∃ current, start.current = some current ∧ current.payload = payload ∧
        current.buffer ≠ none ∧
        current.message.block1 =
          (if blockSize.size.toNat < payload.length then
            some { num := 0, more := true, size := blockSize.size } else none) ∧
        current.message.payload = payload.take blockSize.size.toNat := by
    have hsent := transactionSend_new now (transactionSetPayload blockSize.size
      (transactionNew address sessionH method mID token) payload) rfl rfl rfl
    refine ⟨_, hsent, rfl, by simp, ?_, rfl⟩
    have hplain : (transactionNew address sessionH method mID token).message.block1 = none := by
      unfold transactionNew
      dsimp only
      split <;> rfl
    have hfits : blockOptionFits 0 blockSize.size = true := by
      have hlow : (16 : UInt16) ≤ blockSize.size := by
        rw [UInt16.le_iff_toNat_le]
        exact hbounds.1
      have hhigh : blockSize.size ≤ 2048 := by
        rw [UInt16.le_iff_toNat_le]
        exact Nat.le_trans hbounds.2 (by decide)
      simp [blockOptionFits, hlow, hhigh]
    unfold transactionSetPayload coapSetHeaderBlock1
    simp only [hfits, if_true]
    split
    · rfl
    · exact hplain
  constructor
  · intro next hnext
    obtain rfl : current = next := by simpa [hcurrent] using hnext
    refine ⟨hpayload, hbuffer, ?_⟩
    intro block1 hmem
    rw [hblock1] at hmem
    split at hmem
    · obtain rfl := Option.some.inj hmem
      exact ⟨blockSize.valid, UInt32.zero_le⟩
    · contradiction
  · refine ⟨rfl, ?_⟩
    rw [hcurrent]
    dsimp only
    rw [hblock1]
    by_cases hlong : blockSize.size.toNat < payload.length
    · rw [if_pos hlong]
      refine ⟨by simp [acknowledgedBytes], ?_, ?_, ?_⟩
      · simp only [acknowledgedBytes, List.map_nil, List.flatten_nil, List.length_nil]
        omega
      · rw [hbytes]
        rfl
      · rw [hbytes, List.length_take]
        simp only [acknowledgedBytes, List.map_nil, List.flatten_nil, List.length_nil, true_iff]
        omega
    · rw [if_neg hlong]
      refine ⟨rfl, ?_⟩
      rw [hbytes, List.take_of_length_le (by omega)]

theorem acknowledgedBytes_grows {past : List (UInt32 × List UInt8)}
    (hcarries : Carries payload transfer) (hcovers : Covers payload past transfer)
    (h : transferStep (servedEnv sessionIsEqual blockSize address now) transfer value = .ok (transfer', bytes))
    (hnext : transfer'.current ≠ none) : 0 < bytes.length := by
  rcases transfer_cases transfer with hplain | ⟨current, block1, hcurrent, hblock1⟩
  · exact absurd (transferStep_last hplain h).1 hnext
  · obtain ⟨-, hcovers⟩ := hcovers
    rw [hcurrent] at hcovers
    dsimp only at hcovers
    rw [hblock1] at hcovers
    have hsize := ((hcarries current hcurrent).2.2 block1 hblock1).1
    have hpos := (validBlockSize_bounds hsize).1
    have hremaining := hcovers.remaining
    rw [(transferStep_served sessionIsEqual blockSize address now hcarries hcurrent hblock1 h).1,
      hcovers.bytes, List.length_take, List.length_drop]
    omega

/-- A transfer on its way: as many bytes as requests were acknowledged, at least. -/
structure OnItsWay (payload : List UInt8) (past : List (UInt32 × List UInt8))
    (transfer : Block1Transfer Session) : Prop where
  carries : Carries payload transfer
  covers : Covers payload past transfer
  grown : transfer.current ≠ none → past.length ≤ (acknowledgedBytes past).length

theorem onItsWay_step (past : List (UInt32 × List UInt8)) (transfer : Block1Transfer Session)
    (value : UInt32) (transfer' : Block1Transfer Session) (bytes : List UInt8)
    (hway : OnItsWay payload past transfer) (hkeeps : KeepsSize payload transfer value)
    (h : transferStep (servedEnv sessionIsEqual blockSize address now) transfer value = .ok (transfer', bytes)) :
    OnItsWay payload (past ++ [(value, bytes)]) transfer' := by
  obtain ⟨hcarries, hcovers, hgrown⟩ := hway
  refine ⟨carries_step sessionIsEqual blockSize address now hcarries h,
    (covers_step_iff sessionIsEqual blockSize address now hcarries hcovers h).mpr hkeeps, ?_⟩
  intro hnext
  have hpos := acknowledgedBytes_grows sessionIsEqual blockSize address now hcarries hcovers h hnext
  have hbefore : transfer.current ≠ none := by
    intro hnone
    exact hnext (transferStep_last (by simp [hnone]) h).1
  have hlength := hgrown hbefore
  rw [acknowledgedBytes_concat, List.length_append, List.length_append, List.length_singleton]
  omega

/-- A transfer that keeps the size is over after as many acknowledgements as there are bytes, and
one more. -/
theorem transfer_ends {start final : Block1Transfer Session} {values : List UInt32}
    {replies : List (List UInt8)} (hcarries : Carries payload start)
    (hcovers : Covers payload [] start)
    (hmeet : StepsMeet (transferStep (servedEnv sessionIsEqual blockSize address now)) (KeepsSize payload) start values)
    (hrun : run (transferStep (servedEnv sessionIsEqual blockSize address now)) start values = .ok (final, replies))
    (hlong : payload.length < values.length) : final.current = none := by
  have hway := run_history (onItsWay_step sessionIsEqual blockSize address now) values [] start
    final replies ⟨hcarries, hcovers, by simp⟩ hmeet hrun
  obtain ⟨-, ⟨-, hlast⟩, hgrown⟩ := hway
  have hreplies := run_length values start final replies hrun
  rw [List.nil_append] at hlast hgrown
  rw [List.length_zip, hreplies, Nat.min_self] at hgrown
  cases hfinal : final.current with
  | none => rfl
  | some current =>
    have hcount := hgrown (by simp [hfinal])
    rw [hfinal] at hlast
    dsimp only at hlast
    cases hblock1 : current.message.block1 with
    | none =>
      rw [hblock1] at hlast
      rw [hlast.1, List.length_nil] at hcount
      omega
    | some block1 =>
      rw [hblock1] at hlast
      have hremaining := hlast.remaining
      omega

end transfer

/-- For every payload, every block size and every sequence of acknowledgements: the requests are
contiguous, their blocks make up the payload, and they end, exactly if behind every block that
another one follows the size is reduced at block 0 only and the number fits the option. -/
theorem block1Requests_cover_iff (sessionIsEqual : Session → Session → Bool)
    (blockSize : CoapBlockSize) (address now : Nat) (sessionH : Session) (method : UInt8)
    (mID nextMID : UInt16) (token payload : List UInt8) (values : List UInt32) :
    let env := servedEnv sessionIsEqual blockSize address now
    let start := startTransfer env nextMID (transactionNew address sessionH method mID token)
      payload
    (Covers payload [] start ∧ EachReached (transferStep env) (Covers payload) [] start values ∧
        ∃ final replies, run (transferStep env) start values = .ok (final, replies) ∧
          (payload.length < values.length → final.current = none)) ↔
      StepsMeet (transferStep env) (KeepsSize payload) start values := by
  intro env start
  obtain ⟨hcarries, hcovers⟩ := startTransfer_covers sessionIsEqual blockSize address now sessionH
    method mID nextMID token payload
  have hreached : EachReached (transferStep env) (Covers payload) [] start values ↔
      StepsMeet (transferStep env) (KeepsSize payload) start values := by
    apply eachReached_iff (Carries payload)
    · intro transfer value transfer' bytes hc h
      exact carries_step sessionIsEqual blockSize address now hc h
    · intro past transfer value transfer' bytes hc hv h
      exact covers_step_iff sessionIsEqual blockSize address now hc hv h
    · intro transfer value fault hc h
      obtain ⟨transfer', bytes, hok⟩ :=
        transferStep_total sessionIsEqual blockSize address now hc value
      rw [hok] at h
      contradiction
    · exact hcarries
    · exact hcovers
  constructor
  · rintro ⟨-, hgood, -⟩
    exact hreached.mp hgood
  · intro hmeet
    have htotal : ∀ (transfer : Block1Transfer Session) value, Carries payload transfer →
        KeepsSize payload transfer value → ∃ transfer' bytes,
          transferStep env transfer value = .ok (transfer', bytes) ∧ Carries payload transfer' := by
      intro transfer value hc _
      obtain ⟨transfer', bytes, h⟩ :=
        transferStep_total sessionIsEqual blockSize address now hc value
      exact ⟨transfer', bytes, h, carries_step sessionIsEqual blockSize address now hc h⟩
    obtain ⟨final, replies, hrun⟩ := run_total htotal values start hcarries hmeet
    exact ⟨hcovers, hreached.mpr hmeet, final, replies, hrun, fun hlong =>
      transfer_ends sessionIsEqual blockSize address now hcarries hcovers hmeet hrun hlong⟩

/-- Blocks of 32 bytes. -/
def blocksOf32 : PacketEnv Nat := servedEnv (fun a b => a == b) ⟨32, by decide⟩ 20 0

/-- A request of 70 bytes. -/
def seventyBytes : Block1Transfer Nat :=
  startTransfer blocksOf32 2 (transactionNew 10 1 0x02 1 []) (List.replicate 70 7)

/-- The peer keeps the size for block 0 and asks for 16 bytes in its answer to block 1: the
request behind block 1 is block 2 of 16 bytes, which starts at byte 32 and not at 64. -/
theorem reducedLater_notCovered :
    ¬EachReached (transferStep blocksOf32) (Covers (List.replicate 70 7)) [] seventyBytes
      [0x09, 0x18] := by
  intro h
  obtain ⟨-, hsecond⟩ := h _ _ rfl
  obtain ⟨⟨-, hblock⟩, -⟩ := hsecond _ _ rfl
  have hoffset := NextBlock.offset hblock
  exact absurd hoffset (by decide)

end Wakaama
