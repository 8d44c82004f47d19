import Wakaama.Coap.Proofs.MessageRoundTrip

/-!
# The size of serialised messages (`coap/er-coap-13/er-coap-13.c`)

`message_send` and `transaction_send` allocate what `coap_serialize_get_size` counts, and
`coap_serialize_message` writes without looking at the end of the buffer. Five bytes are counted
for an option and its integer, one too few for one of four bytes behind a header of two.
-/

namespace Wakaama

/-- None of the options is a string. -/
structure CoapMessage.Plain (message : CoapMessage) : Prop where
  uriHost : message.options.uriHost = none
  locationQuery : message.options.locationQuery = none
  proxyUri : message.options.proxyUri = none

/-- The integers behind option 12 have at most three bytes. -/
structure CoapMessage.Narrow (message : CoapMessage) : Prop where
  maxAge : ∀ value ∈ message.options.maxAge, value.toNat < 2 ^ 24
  size : ∀ value ∈ message.options.size, value.toNat < 2 ^ 24
  block1 : ∀ block ∈ message.block1, block.num.toNat < 2 ^ 20
  block2 : ∀ block ∈ message.block2, block.num.toNat < 2 ^ 20

/-! ## One option -/

theorem coapSetOptionHeaderExtended_length {value : UInt32} (hvalue : value.toNat < 269) :
    (coapSetOptionHeaderExtended value).length = if value.toNat < 13 then 0 else 1 := by
  have h269 : (269 : UInt32) ≤ value ↔ 269 ≤ value.toNat := UInt32.le_iff_toNat_le
  have h13 : (13 : UInt32) ≤ value ↔ 13 ≤ value.toNat := UInt32.le_iff_toNat_le
  simp only [coapSetOptionHeaderExtended, h269, h13]
  split_ifs <;> first | rfl | omega

/-- The bytes of an option with a value of so many bytes, at most. -/
def optionRoom (number : UInt32) (length : Nat) : Nat :=
  length + (if number.toNat < 13 then 1 else 2) + if length < 13 then 0 else 1

theorem serializeOptions_length_le {current : UInt32} {options : List CodedOption}
    (h : Ascends current options) :
    (serializeOptions current options).length ≤
      (options.map fun option => optionRoom option.number option.value.length).sum := by
  induction h with
  | nil => exact Nat.le_refl 0
  | @cons current option rest hcurrent hlast hlength _ ih =>
    have hlow : option.number.toNat ≤ 35 := UInt32.le_iff_toNat_le.1 hlast
    have hsub := UInt32.toNat_sub_of_le _ _ hcurrent
    have hdelta : (option.number - current).toNat < 269 := by omega
    have hvalue : option.value.length.toUInt32.toNat = option.value.length := by
      rw [Nat.toUInt32_eq, UInt32.toNat_ofNat']
      exact Nat.mod_eq_of_lt (by omega)
    have hheader := coapSetOptionHeaderExtended_length hdelta
    have hextended := @coapSetOptionHeaderExtended_length option.value.length.toUInt32
      (by rwa [hvalue])
    rw [hvalue] at hextended
    rw [serializeOptions, coapSetOptionHeader, List.map_cons, List.sum_cons, optionRoom]
    simp only [List.length_append, List.length_cons, hextended]
    split_ifs at hheader ⊢ <;> omega

/-! ## The fields of a message -/

/-- The bytes of some options, at most. -/
def optionsRoom (options : List CodedOption) : Nat :=
  (options.map fun option => optionRoom option.number option.value.length).sum

theorem optionsRoom_append (options rest : List CodedOption) :
    optionsRoom (options ++ rest) = optionsRoom options + optionsRoom rest := by
  simp only [optionsRoom, List.map_append, List.sum_append]

theorem optionRoom_le (number : UInt32) (length : Nat) :
    optionRoom number length ≤ coapMaxOptionHeaderLen + length := by
  simp only [optionRoom, coapMaxOptionHeaderLen]
  split_ifs <;> omega

theorem bytes_room {size : Nat} (number : UInt32) (field : Option (Bytes size)) :
    optionsRoom (byteOption number (field.map Subtype.val)) ≤
      optionSize (field.map fun value => value.val.length) := by
  cases field with
  | none => exact Nat.le_refl 0
  | some value => exact optionRoom_le number value.val.length

theorem coapIntBytes_length_narrow {value : UInt32} (h : value.toNat < 2 ^ 24) :
    (coapIntBytes value).length ≤ 3 := by
  rw [coapIntBytes_eq]
  split_ifs <;> simp

theorem optionRoom_short {number : UInt32} {length : Nat} (hlength : length ≤ 4)
    (h : number.toNat < 13 ∨ length ≤ 3) : optionRoom number length ≤ coapMaxOptionHeaderLen := by
  simp only [optionRoom, coapMaxOptionHeaderLen]
  split_ifs <;> omega

theorem intOption_room {α : Type} (number : UInt32) (field : Option α) {code : α → UInt32}
    (h : number.toNat < 13 ∨ ∀ value ∈ field, (code value).toNat < 2 ^ 24) :
    optionsRoom (intOption number (field.map code)) ≤ optionSize (field.map fun _ => 0) := by
  cases field with
  | none => exact Nat.le_refl 0
  | some value =>
    refine optionRoom_short (coapIntBytes_length_le (code value)) (h.imp_right ?_)
    exact fun hnarrow => coapIntBytes_length_narrow (hnarrow value rfl)

theorem multiOption_room (number : UInt32) (field : List Segment) :
    optionsRoom (multiOption number field) ≤ multiOptionSize field := by
  induction field with
  | nil => exact Nat.le_refl 0
  | cons segment field ih => exact Nat.add_le_add (optionRoom_le number segment.val.length) ih

theorem acceptOption_room (number : UInt32) (field : List UInt16) :
    optionsRoom (acceptOption number field) ≤ field.length * coapMaxOptionHeaderLen := by
  induction field with
  | nil => exact Nat.zero_le _
  | cons type field ih =>
    rw [List.length_cons, Nat.succ_mul, Nat.add_comm]
    have hshort : (coapIntBytes type.toUInt32).length ≤ 3 :=
      Nat.le_succ_of_le coapIntBytes_length_short
    exact Nat.add_le_add (optionRoom_short (Nat.le_succ_of_le hshort) (.inr hshort)) ih

theorem coapBlockValue_narrow {block : BlockOption} (h : block.num.toNat < 2 ^ 20) :
    (coapBlockValue block).toNat < 2 ^ 24 := by
  have hnum : (block.num <<< (4 : UInt32)).toNat < 2 ^ 24 := by
    rw [UInt32.toNat_shiftLeft]
    show block.num.toNat <<< 4 % 2 ^ 32 < _
    rw [Nat.shiftLeft_eq]
    omega
  have hmore : (if block.more then (8 : UInt32) else 0).toNat < 2 ^ 24 := by
    split_ifs <;> decide
  rw [coapBlockValue, UInt32.toNat_or, UInt32.toNat_or, UInt32.toNat_and]
  exact Nat.or_lt_two_pow (Nat.or_lt_two_pow hnum hmore)
    (Nat.lt_of_le_of_lt Nat.and_le_left (by decide))

/-! ## The whole message -/

variable {message : CoapMessage}

theorem codedOptions_room (hnarrow : message.Narrow) :
    coapHeaderLen + message.payload.length + message.token.val.length +
        optionsRoom (codedOptions message none none none) +
        (if message.payload.length ≠ 0 then 1 else 0) ≤
      coapSerializeGetSize message none none none := by
  have hifMatch := bytes_room 1 message.options.ifMatch
  have hetag := bytes_room 4 message.options.etag
  have hifNoneMatch : optionsRoom (intOption 5 (if message.options.ifNoneMatch then some 0 else none)) ≤
      optionSize (if message.options.ifNoneMatch then some 0 else none) := by
    cases message.options.ifNoneMatch <;> decide
  have hobserve := @intOption_room _ 6 message.options.observe id (.inl (by decide))
  have huriPort := @intOption_room _ 7 message.options.uriPort UInt16.toUInt32 (.inl (by decide))
  have hlocationPath := multiOption_room 8 message.options.locationPath
  have huriPath := multiOption_room 11 message.options.uriPath
  have hcontentType := @intOption_room _ 12 message.options.contentType UInt16.toUInt32 (.inl (by decide))
  have hmaxAge := @intOption_room _ 14 message.options.maxAge id (.inr hnarrow.maxAge)
  have huriQuery := multiOption_room 15 message.options.uriQuery
  have haccept := acceptOption_room 17 message.options.accept.val
  have hblock2 := @intOption_room _ 23 message.block2 coapBlockValue <| .inr fun block hblock =>
    coapBlockValue_narrow (hnarrow.block2 block hblock)
  have hblock1 := @intOption_room _ 27 message.block1 coapBlockValue <| .inr fun block hblock =>
    coapBlockValue_narrow (hnarrow.block1 block hblock)
  have hsize := @intOption_room _ 28 message.options.size id (.inr hnarrow.size)
  rw [Option.map_id_fun, id] at hobserve hmaxAge hsize
  simp only [codedOptions, Option.toList_none, List.flatMap_nil, List.map_nil, byteOption_none,
    List.append_nil, optionsRoom_append, blockOption, coapSerializeGetSize]
  omega

/-- The second block of a PUT on `/5/0`. -/
def secondBlock : CoapMessage where
  type := .con
  code := 3
  mid := 8
  token := ⟨[1, 2], by decide⟩
  options := { CoapOptions.none with
    uriPath := [⟨[0x35], by decide⟩, ⟨[0x30], by decide⟩]
    contentType := some 42 }
  block1 := some { num := 1, more := true, size := 16 }
  block2 := none
  payload := [0x61]

theorem secondBlock_plain : secondBlock.Plain := ⟨rfl, rfl, rfl⟩

/-- A block that an option can tell: its number has 28 bits and its size is one of eight. -/
def BlockOption.Coded (block : BlockOption) : Prop :=
  block.num.toNat < 2 ^ 28 ∧ ∃ szx : Fin 8, block.size = 16 <<< szx.val.toUInt16

theorem and_low {value mask : UInt32} (hmask : mask.toNat &&& 15 = mask.toNat) :
    (value &&& mask).toNat = value.toNat % 2 ^ 4 &&& mask.toNat := by
  have h : value.toNat &&& 15 = value.toNat % 2 ^ 4 := and_ones value.toNat 4
  rw [UInt32.toNat_and, ← h, Nat.and_assoc, Nat.and_comm 15, hmask]

/-- The four bits below the number of a block. -/
def blockLowBits (more : Bool) (size : UInt16) : UInt32 :=
  (if more then 8 else 0) ||| ((0x0F : UInt32) &&& (Nat.log2 (size.toNat / 16)).toUInt32)

theorem blockLowBits_read (more : Bool) (szx : Fin 8) :
    (blockLowBits more (16 <<< szx.val.toUInt16)).toNat < 2 ^ 4 ∧
      (blockLowBits more (16 <<< szx.val.toUInt16) &&& 0x08 != 0) = more ∧
      (16 : UInt16) <<< (blockLowBits more (16 <<< szx.val.toUInt16) &&& 0x07).toUInt16 =
        16 <<< szx.val.toUInt16 := by
  revert szx
  cases more <;> decide

theorem BlockOption.Coded.readBack {block : BlockOption} (h : block.Coded) :
    block.readBack = block := by
  obtain ⟨num, more, size⟩ := block
  obtain ⟨hnum, szx, rfl⟩ := h
  obtain ⟨hlow, hmore, hsize⟩ := blockLowBits_read more szx
  have hvalue : coapBlockValue ⟨num, more, 16 <<< szx.val.toUInt16⟩ =
      num <<< 4 ||| blockLowBits more (16 <<< szx.val.toUInt16) := UInt32.or_assoc ..
  generalize blockLowBits more (16 <<< szx.val.toUInt16) = low at hlow hmore hsize hvalue
  have hall : (num <<< (4 : UInt32) ||| low).toNat = num.toNat * 2 ^ 4 + low.toNat := by
    rw [UInt32.toNat_or, ← or_shifted hlow, UInt32.toNat_shiftLeft]
    show num.toNat <<< 4 % 2 ^ 32 ||| _ = _
    rw [Nat.shiftLeft_eq, Nat.mod_eq_of_lt (by dsimp only at hnum; omega)]
  have hmask : ∀ mask : UInt32, mask.toNat &&& 15 = mask.toNat →
      (num <<< 4 ||| low) &&& mask = low &&& mask := by
    intro mask h
    apply UInt32.toNat_inj.1
    rw [and_low h, and_low h, hall, Nat.mul_add_mod_self_right]
  have hnumber : (num <<< 4 ||| low) >>> 4 = num := by
    apply UInt32.toNat_inj.1
    rw [UInt32.toNat_shiftRight, hall]
    show (num.toNat * 2 ^ 4 + low.toNat) >>> 4 = _
    rw [Nat.shiftRight_eq_div_pow]
    omega
  rw [BlockOption.readBack, hvalue, coapParseBlock, hmask _ rfl, hmask _ rfl, hmore, hsize, hnumber]

theorem BlockOption.map_readBack {field : Option BlockOption}
    (h : ∀ block ∈ field, block.Coded) : field.map BlockOption.readBack = field := by
  cases field with
  | none => rfl
  | some block => exact congrArg some (h block rfl).readBack

/-- What the parser keeps of a message: it has no Proxy-Uri, and its blocks are coded. -/
structure CoapMessage.Received (message : CoapMessage) : Prop where
  proxyUri : message.options.proxyUri = none
  block1 : ∀ block ∈ message.block1, block.Coded
  block2 : ∀ block ∈ message.block2, block.Coded

theorem coapParseBlock_coded (value : UInt32) :
    ∀ block ∈ some (coapParseBlock value), block.Coded := by
  rintro block ⟨⟩
  refine ⟨?_, ⟨(value &&& 0x07).toNat, ?_⟩, ?_⟩
  · have hlt := value.toNat_lt
    rw [coapParseBlock, UInt32.toNat_shiftRight]
    show value.toNat >>> 4 < _
    rw [Nat.shiftRight_eq_div_pow]
    omega
  · rw [UInt32.toNat_and]
    exact Nat.lt_succ_of_le Nat.and_le_right
  · rfl

variable {next : CoapMessage}

theorem CoapMessage.Received.option (h : message.Received) {number : UInt32} {value : List UInt8}
    (hok : coapParseOption message number value = .ok next) : next.Received := by
  unfold coapParseOption at hok
  dsimp only at hok
  split at hok
  case h_14 =>
    cases hok
    exact ⟨h.proxyUri, h.block1, coapParseBlock_coded _⟩
  case h_15 =>
    cases hok
    exact ⟨h.proxyUri, coapParseBlock_coded _, h.block2⟩
  all_goals try split at hok
  all_goals cases hok
  all_goals exact ⟨h.proxyUri, h.block1, h.block2⟩

/-- By induction on the turns. -/
theorem CoapMessage.Received.options (turns : Nat) :
    ∀ {number : UInt32} {message : CoapMessage} {data : List UInt8}, message.Received →
      coapParseOptions turns number message data = .ok next → next.Received := by
  induction turns with
  | zero =>
    intro number message data h hok
    cases hok
    exact h
  | succ turns ih =>
    intro number message data h hok
    cases data with
    | nil =>
      cases hok
      exact h
    | cons current data =>
      rw [coapParseOptions] at hok
      split at hok
      · split at hok <;> cases hok
        exact ⟨h.proxyUri, h.block1, h.block2⟩
      · dsimp only at hok
        repeat' split at hok
        all_goals try cases hok
        rename_i hnext
        exact ih (h.option hnext) hok

/-- A message that was received is parsed to itself when it is sent on. -/
theorem receivedMessage_roundTrip {buffer : List UInt8}
    (hparse : coapParseMessage buffer = .ok message) (hcode : message.code ≠ coapEmptyMessageCode)
    (huriHost : message.options.uriHost = none)
    (hlocationQuery : message.options.locationQuery = none) :
    ∃ data, coapSerializeMessage message = .ok data ∧ coapParseMessage data = .ok message := by
  have hreceived : message.Received := by
    unfold coapParseMessage at hparse
    split at hparse
    · dsimp only at hparse
      repeat' split at hparse
      all_goals try cases hparse
      refine CoapMessage.Received.options _ ?_ hparse
      exact ⟨rfl, fun _ h => (by cases h), fun _ h => by cases h⟩
    · cases hparse
  obtain ⟨data, hdata, hagain⟩ :=
    coapParseMessage_serialize hcode huriHost hlocationQuery hreceived.proxyUri
  rw [BlockOption.map_readBack hreceived.block1, BlockOption.map_readBack hreceived.block2] at hagain
  exact ⟨data, hdata, hagain⟩

/-- A GET with Observe 5. -/
def observeFive : CoapMessage where
  type := .con
  code := coapGet
  mid := 7
  token := ⟨[5], by decide⟩
  options := { CoapOptions.none with observe := some 5 }
  block1 := none
  block2 := none
  payload := []

/-- It was received with a leading zero in the option. -/
theorem observeFive_roundTrip :
    ∃ data, coapSerializeMessage observeFive = .ok data ∧ coapParseMessage data = .ok observeFive :=
  receivedMessage_roundTrip (show coapParseMessage [0x41, 1, 0, 7, 5, 0x62, 0, 5] = .ok observeFive
    from rfl) (by decide) rfl rfl

end Wakaama
