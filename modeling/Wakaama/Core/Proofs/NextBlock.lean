import Wakaama.Coap.Proofs.MessageRoundTrip
import Wakaama.Core.NextBlock
import Wakaama.Core.Packet

/-!
# The options of the next block (`core/packet.c`)

Which requests keep their options when `prv_create_next_block_transaction` copies them, and that a
whole transfer then keeps them.
-/

namespace Wakaama

/-- The next request is the same but for its message id, its block options and its payload. -/
def SameRequest (request next : CoapMessage) : Prop :=
  next.code = request.code ∧ next.token = request.token ∧ next.options = request.options

/-- The transfer goes through, and each of its requests is the one that is transferred. -/
def TransferKeeps (request : CoapMessage) (blocks : List NextRequest) : Prop :=
  ∃ requests, blockTransfer request blocks = some requests ∧
    requests.length = blocks.length ∧ ∀ next ∈ requests, SameRequest request next

/-- The options that are copied as they are: there is a Content-Format, none of the options that
are not copied or copied to memory that is gone, and Observe has its three bytes. -/
structure OptionsCopied (options : CoapOptions) : Prop where
  contentType : options.contentType ≠ none
  maxAge : options.maxAge = none
  size : options.size = none
  uriHost : options.uriHost = none
  locationQuery : options.locationQuery = none
  proxyUri : options.proxyUri = none
  observe : ∀ value, options.observe = some value → value < 0x01000000

theorem coapSetHeaderObserve_toNat (value : UInt32) :
    (coapSetHeaderObserve value).toNat = value.toNat % 2 ^ 24 := by
  rw [coapSetHeaderObserve, UInt32.and_comm, UInt32.toNat_and]
  exact and_ones value.toNat 24

theorem coapSetHeaderObserve_lt (value : UInt32) : coapSetHeaderObserve value < 0x01000000 := by
  rw [UInt32.lt_iff_toNat_lt, coapSetHeaderObserve_toNat]
  exact Nat.mod_lt _ (Nat.two_pow_pos 24)

theorem coapSetHeaderObserve_eq {value : UInt32} (hvalue : value < 0x01000000) :
    coapSetHeaderObserve value = value := by
  apply UInt32.toNat_inj.1
  rw [coapSetHeaderObserve_toNat]
  exact Nat.mod_eq_of_lt (UInt32.lt_iff_toNat_lt.1 hvalue)

theorem coapSetHeaderObserve_map {observe : Option UInt32}
    (hobserve : ∀ value, observe = some value → value < 0x01000000) :
    observe.map coapSetHeaderObserve = observe := by
  cases observe with
  | none => rfl
  | some value => exact congrArg some (coapSetHeaderObserve_eq (hobserve value rfl))

variable {message request : CoapMessage} {buffer : List UInt8}

theorem coapSerializeMessage_strings (h : coapSerializeMessage message = .ok buffer) :
    message.options.uriHost ≠ some .ended ∧ message.options.locationQuery ≠ some .ended ∧
      message.options.proxyUri ≠ some .ended := by
  have hread : ∀ {string : Option CoapString} {bytes : Option (List UInt8)},
      string.mapM CoapString.read = .ok bytes → string ≠ some .ended := by
    intro string bytes h hended
    rw [hended] at h
    cases h
  obtain ⟨host, hhost, hrest⟩ := bind_eq_ok.1 h
  obtain ⟨query, hquery, hrest⟩ := bind_eq_ok.1 hrest
  obtain ⟨proxy, hproxy, -⟩ := bind_eq_ok.1 hrest
  exact ⟨hread hhost, hread hquery, hread hproxy⟩

theorem transactionBuffer_serialize (h : transactionBuffer message = .ok buffer) :
    coapSerializeMessage message = .ok buffer := by
  unfold transactionBuffer at h
  split at h
  · cases h
  · rename_i data hserialize
    split at h
    · rw [hserialize]
      exact h
    · cases h

theorem eq_none_of_copied {string parsed : Option CoapString} (hthere : string ≠ some .ended)
    (hcopy : copiedToBlock parsed = string) : string = none := by
  cases parsed with
  | none => exact hcopy.symm
  | some value => exact absurd hcopy.symm hthere

theorem nextBlockMessage_options (hcopied : OptionsCopied message.options) (nextMID : UInt16) :
    (nextBlockMessage message nextMID).options = message.options := by
  obtain ⟨hcontent, hage, hsize, hhost, hquery, hproxy, hobserve⟩ := hcopied
  obtain ⟨contentType, htype⟩ := Option.ne_none_iff_exists'.1 hcontent
  have hmasked := coapSetHeaderObserve_map hobserve
  unfold nextBlockMessage
  rw [hmasked]
  cases hoptions : message.options
  rw [hoptions] at hage hsize hhost hquery hproxy htype
  cases hage
  cases hsize
  cases hhost
  cases hquery
  cases hproxy
  cases htype
  rfl

theorem set_nextBlockMessage (htype : message.type = .con) (hcopied : OptionsCopied message.options)
    (sent : NextRequest) : sent.set (nextBlockMessage message sent.mid) = sent.set message := by
  unfold NextRequest.set
  rw [nextBlockMessage_options hcopied]
  simp only [nextBlockMessage, htype]

theorem createNextBlockMessage_copied (htype : request.type = .con)
    (hcode : request.code ≠ coapEmptyMessageCode) (hcopied : OptionsCopied request.options)
    (hbuffer : transactionBuffer request = .ok buffer) (sent : NextRequest) :
    (createNextBlockMessage buffer sent.mid).map sent.set = some (sent.set request) := by
  obtain ⟨data, hdata, hparse⟩ := coapParseMessage_serialize hcode hcopied.uriHost
    hcopied.locationQuery hcopied.proxyUri
  rw [transactionBuffer_serialize hbuffer] at hdata
  cases hdata
  unfold createNextBlockMessage
  rw [hparse]
  refine congrArg some ((set_nextBlockMessage ?_ ?_ sent).trans rfl)
  · exact htype
  · exact hcopied

/-- A transfer of a request whose options are copied as they are, by induction on the blocks: the
request that is sent next has the same options. -/
theorem blockTransfer_copied (htype : request.type = .con)
    (hcode : request.code ≠ coapEmptyMessageCode) (hcopied : OptionsCopied request.options)
    (hbuffer : (transactionBuffer request).isOk = true) {blocks : List NextRequest}
    (hblocks : ∀ sent ∈ blocks, (transactionBuffer (sent.set request)).isOk = true) :
    blockTransfer request blocks = some (blocks.map fun sent => sent.set request) := by
  induction blocks generalizing request with
  | nil => rfl
  | cons sent blocks ih =>
    obtain ⟨buffer, hserialized⟩ : ∃ buffer, transactionBuffer request = .ok buffer := by
      cases h : transactionBuffer request with
      | error fault => rw [h] at hbuffer; cases hbuffer
      | ok buffer => exact ⟨buffer, rfl⟩
    have hnext := createNextBlockMessage_copied htype hcode hcopied hserialized sent
    obtain ⟨next, hcreate, hset⟩ := Option.map_eq_some_iff.1 hnext
    have hrest := @ih (sent.set request) htype hcode hcopied (hblocks sent (List.mem_cons_self ..))
      fun other hother => hblocks other (List.mem_cons_of_mem _ hother)
    rw [blockTransfer, hserialized]
    simp only [hcreate, hset, hrest, Option.map_some]
    rfl

theorem optionsCopied_of_next {nextMID : UInt16} {next : CoapMessage}
    (hbuffer : transactionBuffer request = .ok buffer)
    (hcreate : createNextBlockMessage buffer nextMID = some next)
    (hsame : next.options = request.options) : OptionsCopied request.options := by
  obtain ⟨hhost, hquery, hproxy⟩ :=
    coapSerializeMessage_strings (transactionBuffer_serialize hbuffer)
  unfold createNextBlockMessage at hcreate
  split at hcreate
  · cases hcreate
  · rename_i message hparse
    cases hcreate
    rw [← hsame] at hhost hquery hproxy ⊢
    refine ⟨nofun, rfl, rfl, eq_none_of_copied hhost rfl, eq_none_of_copied hquery rfl,
      eq_none_of_copied hproxy rfl, ?_⟩
    intro value hvalue
    obtain ⟨observe, -, rfl⟩ := Option.map_eq_some_iff.1 hvalue
    exact coapSetHeaderObserve_lt observe

/-- A transfer of at least one block keeps the request exactly where the options of the request
are copied as they are. -/
theorem blockTransfer_keeps_iff {request : CoapMessage} (htype : request.type = .con)
    (hcode : request.code ≠ coapEmptyMessageCode) {sent : NextRequest} {blocks : List NextRequest}
    (hbuffer : (transactionBuffer request).isOk = true)
    (hblocks : ∀ other ∈ sent :: blocks, (transactionBuffer (other.set request)).isOk = true) :
    TransferKeeps request (sent :: blocks) ↔ OptionsCopied request.options := by
  constructor
  · intro h
    obtain ⟨requests, htransfer, -, hsame⟩ := h
    rw [blockTransfer] at htransfer
    split at htransfer
    · cases htransfer
    · rename_i buffer hserialized
      split at htransfer
      · cases htransfer
      · rename_i next hcreate
        obtain ⟨rest, -, rfl⟩ := Option.map_eq_some_iff.1 htransfer
        exact optionsCopied_of_next hserialized hcreate
          (hsame (sent.set next) (List.mem_cons_self ..)).2.2
  · intro hcopied
    refine ⟨_, blockTransfer_copied htype hcode hcopied hbuffer hblocks, List.length_map .., ?_⟩
    intro next hnext
    obtain ⟨other, -, rfl⟩ := List.mem_map.1 hnext
    exact ⟨rfl, rfl, rfl⟩

/-- A registration in three blocks: POST on `rd` with the content format of links. -/
def blockRegistration : CoapMessage where
  type := .con
  code := 2
  mid := 7
  token := ⟨[1, 2, 3, 4], by decide⟩
  options :=
    { CoapOptions.none with
      uriPath := [⟨[0x72, 0x64], by decide⟩]
      contentType := some 40
      uriQuery := [⟨[0x62, 0x3D, 0x55], by decide⟩] }
  block1 := some { num := 0, more := true, size := 16 }
  block2 := none
  payload := [0x3C]

/-- The requests for the blocks behind the first. -/
def blocksBehind : List NextRequest :=
  [{ mid := 8, block1 := some { num := 1, more := true, size := 16 }, block2 := none,
     payload := [0x2F] },
   { mid := 9, block1 := some { num := 2, more := false, size := 16 }, block2 := none,
     payload := [0x3E] }]

theorem blockRegistration_keeps :
    TransferKeeps blockRegistration blocksBehind ∧ OptionsCopied blockRegistration.options :=
  have hiff := @blockTransfer_keeps_iff blockRegistration rfl (by decide)
    (blocksBehind.head (by decide)) blocksBehind.tail (by decide) (by decide)
  have hcopied : OptionsCopied blockRegistration.options :=
    ⟨nofun, rfl, rfl, rfl, rfl, rfl, nofun⟩
  ⟨hiff.2 hcopied, hcopied⟩

/-- GET on `/3` without a Content-Format. -/
def plainRead : CoapMessage where
  type := .con
  code := coapGet
  mid := 7
  token := ⟨[1, 2, 3, 4], by decide⟩
  options := { CoapOptions.none with uriPath := [⟨[0x33], by decide⟩] }
  block1 := none
  block2 := none
  payload := []

/-- The request for the second block of the answer has a Content-Format. -/
theorem plainRead_gainsContentType :
    ¬ TransferKeeps plainRead
      [{ mid := 8, block1 := none, block2 := some { num := 1, more := false, size := 1024 },
         payload := [] }] := by
  intro h
  obtain ⟨requests, htransfer, -, hsame⟩ := h
  have hrun : blockTransfer plainRead
      [{ mid := 8, block1 := none, block2 := some { num := 1, more := false, size := 1024 },
         payload := [] }] =
      some [{ plainRead with
        mid := 8
        options := { plainRead.options with contentType := some 0 }
        block2 := some { num := 1, more := false, size := 1024 } }] := by decide
  rw [hrun] at htransfer
  cases htransfer
  have hoptions := (hsame _ (List.mem_cons_self ..)).2.2
  exact nomatch congrArg CoapOptions.contentType hoptions

/-- The packet of the next message is the one of the transaction that the transfers make. -/
theorem prvCreateNextBlockTransaction_message {Session : Type} {env : PacketEnv Session}
    {address : Nat} (hclone : env.clone = some address) {transaction : Transaction Session}
    (hparse : coapParseMessage buffer = .ok message)
    (hread : transaction.buffer = some message.packet)
    (hobserve : ∀ value, message.options.observe = some value → value < 0x01000000)
    (nextMID : UInt16) :
    (prvCreateNextBlockTransaction env transaction nextMID).map Transaction.message =
      (createNextBlockMessage buffer nextMID).map CoapMessage.packet := by
  have hmasked := coapSetHeaderObserve_map hobserve
  have htake : message.token.val.take coapTokenLen = message.token.val :=
    List.take_of_length_le message.token.property
  unfold prvCreateNextBlockTransaction createNextBlockMessage
  rw [hread, hclone, hparse]
  refine congrArg some ?_
  by_cases htoken : message.token.val = []
  · simp [transactionNew, coapGetHeaderToken, CoapMessage.packet, nextBlockMessage, htoken, hmasked,
      coapInitMessage]
  · simp [transactionNew, coapGetHeaderToken, CoapMessage.packet, nextBlockMessage, htoken, hmasked,
      coapInitMessage, coapSetHeaderToken, htake]

end Wakaama
