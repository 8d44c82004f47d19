import Wakaama.Coap.Message
import Wakaama.Misc.Bits
import Wakaama.Misc.Outcome

/-!
# Serialised messages are read back (`coap/er-coap-13/er-coap-13.c`)

`coap_parse_message` reads what `coap_serialize_message` writes: the header, the token, every
option besides the three strings of proxies and hosts, and the payload.
-/

namespace Wakaama

/-! ## The header of an option -/

theorem coapOptionNibble_lt (value : UInt32) : (coapOptionNibble value).toNat < 15 := by
  unfold coapOptionNibble
  split
  · rename_i h
    have hvalue : value.toNat < 13 := UInt32.lt_iff_toNat_lt.1 h
    rw [UInt32.toNat_toUInt8]
    omega
  · split
    · decide
    · decide

theorem coapParseExtended_header {value : UInt32} (hvalue : value.toNat < 269)
    (rest : List UInt8) :
    coapParseExtended (coapOptionNibble value).toUInt32
        (coapSetOptionHeaderExtended value ++ rest) = some (value, rest) := by
  have hlong : ¬ 269 ≤ value := by
    intro h
    have : 269 ≤ value.toNat := UInt32.le_iff_toNat_le.1 h
    omega
  by_cases hshort : value < 13
  · have hlt : value.toNat < 13 := UInt32.lt_iff_toNat_lt.1 hshort
    have hnot : ¬ 13 ≤ value := by
      intro h
      have : 13 ≤ value.toNat := UInt32.le_iff_toNat_le.1 h
      omega
    have hnibble : (coapOptionNibble value).toUInt32 = value := by
      rw [coapOptionNibble, if_pos hshort]
      apply UInt32.toNat_inj.1
      rw [UInt8.toNat_toUInt32, UInt32.toNat_toUInt8]
      omega
    have hne : ∀ n : UInt32, 13 ≤ n.toNat → value ≠ n := by
      intro n hn h
      rw [h] at hlt
      omega
    rw [hnibble, coapSetOptionHeaderExtended, if_neg hlong, if_neg hnot, List.nil_append]
    unfold coapParseExtended
    rw [if_neg (hne 13 (by decide)), if_neg (hne 14 (by decide))]
  · have hge : 13 ≤ value.toNat := Nat.not_lt.1 fun h => hshort (UInt32.lt_iff_toNat_lt.2 h)
    have hmid : value ≤ 0xFF + 13 := UInt32.le_iff_toNat_le.2 (by
      show value.toNat ≤ 268
      omega)
    have h13 : 13 ≤ value := UInt32.le_iff_toNat_le.2 hge
    have hread : (13 : UInt8).toUInt32 + (value - 269).toUInt8.toUInt32 = value := by
      apply UInt32.toNat_inj.1
      rw [UInt32.toNat_add, UInt8.toNat_toUInt32, UInt8.toNat_toUInt32, UInt32.toNat_toUInt8,
        UInt32.toNat_sub]
      show (13 + (2 ^ 32 - 269 + value.toNat) % 2 ^ 32 % 256) % 2 ^ 32 = value.toNat
      omega
    rw [coapOptionNibble, if_neg hshort, if_pos hmid, coapSetOptionHeaderExtended, if_neg hlong,
      if_pos h13]
    unfold coapParseExtended
    rw [if_pos (show (13 : UInt8).toUInt32 = 13 from rfl)]
    simp only [List.cons_append, List.nil_append, hread]

theorem nibbles_read {high low : UInt8} (hhigh : high.toNat < 15) (hlow : low.toNat < 15) :
    (high <<< 4 ||| low) >>> 4 = high ∧ (high <<< 4 ||| low) &&& 0x0F = low ∧
      high <<< 4 ||| low ≠ 0xFF := by
  have hshift : (high <<< (4 : UInt8)).toNat = high.toNat * 2 ^ 4 := by
    rw [UInt8.toNat_shiftLeft]
    show high.toNat <<< 4 % 2 ^ 8 = _
    rw [Nat.shiftLeft_eq]
    omega
  have hsum := or_toNat hshift (show low.toNat < 2 ^ 4 by omega)
  refine ⟨UInt8.toNat_inj.1 ?_, UInt8.toNat_inj.1 ?_, ?_⟩
  · rw [UInt8.toNat_shiftRight, hsum]
    show (_ >>> 4) = _
    rw [Nat.shiftRight_eq_div_pow, hshift]
    omega
  · rw [UInt8.toNat_and, hsum]
    show (_ &&& (2 ^ 4 - 1)) = _
    rw [and_ones, hshift]
    omega
  · intro h
    rw [h, hshift] at hsum
    have : (0xFF : UInt8).toNat = 255 := rfl
    omega

/-! ## Integers -/

theorem and_mask_eq_zero_iff {value mask low : UInt32} (k : Nat) (hor : mask ||| low = 0xFFFFFFFF)
    (hand : low &&& mask = 0) (hlow : low.toNat = 2 ^ k - 1) :
    value &&& mask = 0 ↔ value.toNat < 2 ^ k := by
  have hkept : (value &&& low).toNat = value.toNat % 2 ^ k := by
    rw [UInt32.toNat_and, hlow, and_ones]
  have hones : mask.toNat ||| low.toNat = 2 ^ 32 - 1 := by
    rw [← UInt32.toNat_or, hor]
    rfl
  have hsplit : value.toNat = (value &&& mask).toNat ||| (value &&& low).toNat := by
    rw [UInt32.toNat_and, UInt32.toNat_and, ← Nat.and_or_distrib_left, hones, and_ones,
      Nat.mod_eq_of_lt value.toNat_lt]
  constructor
  · intro h
    rw [hsplit, h, hkept, UInt32.toNat_zero, Nat.zero_or]
    exact Nat.mod_lt _ (Nat.two_pow_pos k)
  · intro h
    have hall : value &&& low = value := by
      apply UInt32.toNat_inj.1
      rw [hkept, Nat.mod_eq_of_lt h]
    rw [← hall, UInt32.and_assoc, hand, UInt32.and_zero]

theorem coapParseIntOption_toNat (bytes : List UInt8) :
    (coapParseIntOption bytes).toNat =
      bytes.foldl (fun value byte => value * 256 + byte.toNat) 0 % 2 ^ 32 := by
  have hstep : ∀ (var : UInt32) (byte : UInt8), (var <<< 8 ||| byte.toUInt32).toNat =
      (var.toNat * 256 + byte.toNat) % 2 ^ 32 := by
    intro var byte
    have hbyte := byte.toNat_lt
    have hshift : (var <<< (8 : UInt32)).toNat = var.toNat % 2 ^ 24 * 2 ^ 8 := by
      rw [UInt32.toNat_shiftLeft]
      show var.toNat <<< 8 % 2 ^ 32 = _
      rw [Nat.shiftLeft_eq]
      omega
    rw [UInt32.toNat_or, hshift, UInt8.toNat_toUInt32, or_shifted hbyte]
    omega
  have hfold : ∀ (var : UInt32) (value : Nat), var.toNat = value % 2 ^ 32 →
      (bytes.foldl (fun (var : UInt32) byte => var <<< 8 ||| byte.toUInt32) var).toNat =
        bytes.foldl (fun value byte => value * 256 + byte.toNat) value % 2 ^ 32 := by
    induction bytes with
    | nil =>
      intro var value h
      exact h
    | cons byte bytes ih =>
      intro var value h
      rw [List.foldl_cons, List.foldl_cons]
      apply ih
      rw [hstep, h]
      omega
  exact hfold 0 0 rfl

theorem coapIntBytes_eq (value : UInt32) :
    coapIntBytes value =
      if value.toNat < 2 ^ 0 then []
      else if value.toNat < 2 ^ 8 then [value.toUInt8]
      else if value.toNat < 2 ^ 16 then [(value >>> 8).toUInt8, value.toUInt8]
      else if value.toNat < 2 ^ 24 then
        [(value >>> 16).toUInt8, (value >>> 8).toUInt8, value.toUInt8]
      else [(value >>> 24).toUInt8, (value >>> 16).toUInt8, (value >>> 8).toUInt8,
        value.toUInt8] := by
  have h24 : value &&& 0xFF000000 = 0 ↔ value.toNat < 2 ^ 24 :=
    @and_mask_eq_zero_iff _ _ 0x00FFFFFF 24 (by decide) (by decide) (by decide)
  have h16 : value &&& 0xFFFF0000 = 0 ↔ value.toNat < 2 ^ 16 :=
    @and_mask_eq_zero_iff _ _ 0x0000FFFF 16 (by decide) (by decide) (by decide)
  have h8 : value &&& 0xFFFFFF00 = 0 ↔ value.toNat < 2 ^ 8 :=
    @and_mask_eq_zero_iff _ _ 0x000000FF 8 (by decide) (by decide) (by decide)
  have h0 : value &&& 0xFFFFFFFF = 0 ↔ value.toNat < 2 ^ 0 :=
    @and_mask_eq_zero_iff _ _ 0 0 (by decide) (by decide) (by decide)
  simp only [coapIntBytes, ne_eq, h24, h16, h8, h0]
  by_cases hzero : value.toNat < 2 ^ 0
  · rw [if_pos hzero, if_neg (by omega), if_neg (by omega), if_neg (by omega), if_neg (by omega)]
    rfl
  · rw [if_neg hzero]
    by_cases hbyte : value.toNat < 2 ^ 8
    · rw [if_pos hbyte, if_neg (by omega), if_neg (by omega), if_neg (by omega), if_pos hzero]
      rfl
    · rw [if_neg hbyte]
      by_cases htwo : value.toNat < 2 ^ 16
      · rw [if_pos htwo, if_neg (by omega), if_neg (by omega), if_pos hbyte, if_pos hzero]
        rfl
      · rw [if_neg htwo]
        by_cases hthree : value.toNat < 2 ^ 24
        · rw [if_pos hthree, if_neg (by omega), if_pos htwo, if_pos hbyte, if_pos hzero]
          rfl
        · rw [if_neg hthree, if_pos hthree, if_pos htwo, if_pos hbyte, if_pos hzero]
          rfl

theorem coapIntBytes_length_le (value : UInt32) : (coapIntBytes value).length ≤ 4 := by
  rw [coapIntBytes_eq]
  split_ifs <;> simp

theorem coapIntBytes_length_short {value : UInt16} : (coapIntBytes value.toUInt32).length ≤ 2 := by
  have hvalue := value.toNat_lt
  rw [coapIntBytes_eq, UInt16.toNat_toUInt32, if_pos hvalue]
  split_ifs <;> simp

theorem coapParseIntOption_bytes (value : UInt32) :
    coapParseIntOption (coapIntBytes value) = value := by
  have hvalue := value.toNat_lt
  have hbyte : value.toUInt8.toNat = value.toNat % 256 := UInt32.toNat_toUInt8 _
  have hshift : ∀ k : UInt32, k.toNat < 32 →
      (value >>> k).toUInt8.toNat = value.toNat / 2 ^ k.toNat % 256 := by
    intro k hk
    rw [UInt32.toNat_toUInt8, UInt32.toNat_shiftRight, Nat.mod_eq_of_lt hk,
      Nat.shiftRight_eq_div_pow]
  have h8 := hshift 8 (by decide)
  have h16 := hshift 16 (by decide)
  have h24 := hshift 24 (by decide)
  rw [show (8 : UInt32).toNat = 8 from rfl] at h8
  rw [show (16 : UInt32).toNat = 16 from rfl] at h16
  rw [show (24 : UInt32).toNat = 24 from rfl] at h24
  apply UInt32.toNat_inj.1
  rw [coapParseIntOption_toNat, coapIntBytes_eq]
  split_ifs <;> simp only [List.foldl_cons, List.foldl_nil, hbyte, h8, h16, h24] <;> omega

theorem coapParseIntOption_short (value : UInt16) :
    (coapParseIntOption (coapIntBytes value.toUInt32)).toUInt16 = value := by
  rw [coapParseIntOption_bytes, UInt16.toUInt16_toUInt32]

/-! ## The options one behind the other -/

variable {number current : UInt32} {message : CoapMessage} {options : List CodedOption}

theorem coapParseOptions_option {value : List UInt8} (hdelta : (number - current).toNat < 269)
    (hvalue : value.length < 269) (turns : Nat) {message' : CoapMessage}
    (hparse : coapParseOption message number value = .ok message') (rest : List UInt8) :
    coapParseOptions (turns + 1) current message
        (coapSetOptionHeader (number - current) value.length.toUInt32 ++ value ++ rest) =
      coapParseOptions turns number message' rest := by
  have hlength : value.length.toUInt32.toNat = value.length := by
    rw [Nat.toUInt32_eq, UInt32.toNat_ofNat']
    exact Nat.mod_eq_of_lt (by omega)
  have hlen : value.length.toUInt32.toNat < 269 := by rwa [hlength]
  have hnibbles := nibbles_read (coapOptionNibble_lt (number - current))
    (coapOptionNibble_lt value.length.toUInt32)
  have hreserved : ∀ v : UInt32, (coapOptionNibble v).toUInt32 ≠ 0x0F := by
    intro v h
    have hlt := coapOptionNibble_lt v
    have := congrArg UInt32.toNat h
    rw [UInt8.toNat_toUInt32] at this
    have h15 : (0x0F : UInt32).toNat = 15 := rfl
    omega
  have hnumber : current + (number - current) = number := by
    rw [UInt32.add_comm, UInt32.sub_add_cancel]
  rw [coapSetOptionHeader, List.cons_append, List.cons_append, coapParseOptions,
    if_neg hnibbles.2.2]
  simp only [hnibbles.1, hnibbles.2.1]
  rw [if_neg (by simp only [hreserved, or_self, not_false_eq_true])]
  simp only [List.append_assoc, coapParseExtended_header hdelta, coapParseExtended_header hlen,
    hlength]
  rw [if_neg (by rw [List.length_append]; omega), List.take_left' rfl, hnumber, hparse,
    List.drop_left' rfl]

def coapParseAll (message : CoapMessage) (options : List CodedOption) :
    Except UInt8 CoapMessage :=
  options.foldlM (fun message option => coapParseOption message option.number option.value) message

/-- The numbers ascend from one on, and no header is longer than three bytes. -/
inductive Ascends : UInt32 → List CodedOption → Prop where
  | nil {current : UInt32} : Ascends current []
  | cons {current : UInt32} {option : CodedOption} {rest : List CodedOption}
      (hcurrent : current ≤ option.number) (hlast : option.number ≤ 35)
      (hlength : option.value.length < 269) (hrest : Ascends option.number rest) :
      Ascends current (option :: rest)

theorem Ascends.mono {low : UInt32} (hle : low ≤ current) (h : Ascends current options) :
    Ascends low options := by
  cases h with
  | nil => exact .nil
  | cons hcurrent hlast hlength hrest =>
    exact .cons (UInt32.le_trans hle hcurrent) hlast hlength hrest

theorem Ascends.block {block rest : List CodedOption}
    (hblock : ∀ option ∈ block, option.number = number ∧ option.value.length < 269)
    (hcurrent : current ≤ number) (hnumber : number ≤ 35) (hrest : Ascends number rest) :
    Ascends current (block ++ rest) := by
  induction block generalizing current with
  | nil => exact hrest.mono hcurrent
  | cons option block ih =>
    obtain ⟨heq, hlength⟩ := hblock option (List.mem_cons_self ..)
    have htail := ih (fun o ho => hblock o (List.mem_cons_of_mem _ ho)) (UInt32.le_refl number)
    rw [← heq] at hcurrent hnumber htail
    exact .cons hcurrent hnumber hlength htail

/-- The loop takes the options of a message and arrives behind them, with turns left for the bytes
that are left. -/
theorem coapParseOptions_serialize (hoptions : Ascends current options) {message' : CoapMessage}
    (hparse : coapParseAll message options = .ok message') (tail : List UInt8) {turns : Nat}
    (hturns : (serializeOptions current options ++ tail).length ≤ turns) :
    ∃ number left, tail.length ≤ left ∧
      coapParseOptions turns current message (serializeOptions current options ++ tail) =
        coapParseOptions left number message' tail := by
  induction options generalizing current message turns with
  | nil =>
    cases hparse
    exact ⟨current, turns, hturns, rfl⟩
  | cons option rest ih =>
    cases hoptions with | cons hcurrent hlast hlength hrest => ?_
    obtain ⟨next, hoption, hfollow⟩ := bind_eq_ok.1 hparse
    have hdelta : (option.number - current).toNat < 269 := by
      have hlast' : option.number.toNat ≤ 35 := UInt32.le_iff_toNat_le.1 hlast
      rw [UInt32.toNat_sub_of_le _ _ hcurrent]
      omega
    cases turns with
    | zero =>
      simp only [serializeOptions, coapSetOptionHeader, List.cons_append, List.length_cons] at hturns
      omega
    | succ turns =>
      have hroom : (serializeOptions option.number rest ++ tail).length ≤ turns := by
        simp only [serializeOptions, coapSetOptionHeader, List.cons_append, List.length_cons,
          List.length_append] at hturns ⊢
        omega
      obtain ⟨number, left, hleft, hrun⟩ := ih hrest hfollow hroom
      refine ⟨number, left, hleft, ?_⟩
      rw [serializeOptions, List.append_assoc,
        coapParseOptions_option hdelta hlength turns hoption]
      exact hrun

/-! ## Each option sets its field -/

theorem Bytes.cut_val {size : Nat} (bytes : Bytes size) : Bytes.cut size bytes.val = bytes :=
  Subtype.ext (List.take_of_length_le bytes.property)

theorem Segment.ofOption_val (segment : Segment) : Segment.ofOption segment.val = segment := by
  have hlength : segment.val.length.toUInt8.toNat = segment.val.length := by
    rw [Nat.toUInt8_eq, UInt8.toNat_ofNat']
    exact Nat.mod_eq_of_lt (Nat.lt_succ_of_le segment.property)
  apply Subtype.ext
  show segment.val.take _ = segment.val
  rw [hlength, List.take_length]

theorem coapParseAll_append {next : CoapMessage} {rest : List CodedOption}
    (h : coapParseAll message options = .ok next) :
    coapParseAll message (options ++ rest) = coapParseAll next rest := by
  unfold coapParseAll at h ⊢
  rw [List.foldlM_append, h, ok_bind]

theorem coapParseAll_singleton (message : CoapMessage) (option : CodedOption) :
    coapParseAll message [option] = coapParseOption message option.number option.value := by
  unfold coapParseAll
  rw [List.foldlM_cons]
  cases coapParseOption message option.number option.value <;> rfl

/-- An option that is set at most once: `code` is how it is written, `set` where it is kept. -/
theorem coapParseAll_field {α : Type} {code : α → List UInt8}
    (set : CoapMessage → Option α → CoapMessage) (hunset : set message none = message)
    (hparse : ∀ value, coapParseOption message number (code value) = .ok (set message (some value)))
    (field : Option α) :
    coapParseAll message (byteOption number (field.map code)) = .ok (set message field) := by
  cases field with
  | none => exact congrArg Except.ok hunset.symm
  | some value => exact (coapParseAll_singleton ..).trans (hparse value)

theorem coapParseAll_segments (append : CoapMessage → List Segment → CoapMessage)
    (hnil : ∀ message, append message [] = message)
    (hcons : ∀ message segment segments, append message (segment :: segments) = append (append message [segment]) segments)
    (hparse : ∀ message (segment : Segment), coapParseOption message number segment.val = .ok (append message [segment]))
    (message : CoapMessage) (field : List Segment) :
    coapParseAll message (multiOption number field) = .ok (append message field) := by
  induction field generalizing message with
  | nil => exact congrArg Except.ok (hnil message).symm
  | cons segment field ih =>
    have hfirst : coapParseAll message [{ number, value := segment.val }] =
        .ok (append message [segment]) := (coapParseAll_singleton ..).trans (hparse message segment)
    rw [hcons, ← ih (append message [segment]), ← coapParseAll_append hfirst]
    rfl

theorem coapParseAll_accepts (message : CoapMessage) (field : List UInt16)
    (hroom : (message.options.accept.val ++ field).length ≤ coapMaxAcceptNum) :
    coapParseAll message (acceptOption 17 field) =
      .ok { message with
        options := { message.options with
          accept := ⟨message.options.accept.val ++ field, hroom⟩ } } := by
  induction field generalizing message with
  | nil =>
    simp only [List.append_nil]
    rfl
  | cons type field ih =>
    have hless : message.options.accept.val.length < coapMaxAcceptNum := by
      rw [List.length_append, List.length_cons] at hroom
      omega
    have hfirst := (coapParseAll_singleton message
      { number := 17, value := coapIntBytes type.toUInt32 }).trans (dif_pos hless)
    simp only [coapParseIntOption_short] at hfirst
    have hrest := (coapParseAll_append hfirst).trans (ih _ (by simpa using hroom))
    simp only [List.append_assoc, List.singleton_append] at hrest
    exact hrest

theorem coapParseAll_accept (hunset : message.options.accept = CoapOptions.none.accept)
    (field : { types : List UInt16 // types.length ≤ coapMaxAcceptNum }) :
    coapParseAll message (acceptOption 17 field.val) =
      .ok { message with options := { message.options with accept := field } } := by
  have hempty : message.options.accept.val = [] := congrArg Subtype.val hunset
  have hread := coapParseAll_accepts message field.val (by simpa [hempty] using field.property)
  simp only [hempty, List.nil_append] at hread
  exact hread

/-- What `coap_parse_message` makes of a block option it is sent. -/
def BlockOption.readBack (block : BlockOption) : BlockOption :=
  coapParseBlock (coapBlockValue block)

/-- The message with nothing but its header and its token read. -/
def CoapMessage.unread (message : CoapMessage) : CoapMessage :=
  { message with options := .none, block1 := none, block2 := none, payload := [] }

theorem byteOption_none (number : UInt32) : byteOption number none = [] := rfl

theorem coapParseAll_coded (message : CoapMessage) (hhost : message.options.uriHost = none)
    (hquery : message.options.locationQuery = none) (hproxy : message.options.proxyUri = none) :
    coapParseAll message.unread (codedOptions message none none none) =
      .ok { message with
        block1 := message.block1.map BlockOption.readBack
        block2 := message.block2.map BlockOption.readBack
        payload := [] } := by
  have hcut : ∀ (n : Nat) (bytes : Bytes n), Bytes.cut n bytes.val = bytes := fun _ => Bytes.cut_val
  have hint := coapParseIntOption_bytes
  have hshort := coapParseIntOption_short
  have htwo : ∀ value : UInt16, ¬ 2 < (coapIntBytes value.toUInt32).length := fun _ =>
    Nat.not_lt.2 coapIntBytes_length_short
  simp only [codedOptions, List.append_assoc, Option.toList_none, List.flatMap_nil, List.map_nil,
    byteOption_none, intOption, blockOption, Option.map_map, List.append_nil]
  rw [CoapMessage.unread, CoapOptions.none]
  rw [coapParseAll_append (coapParseAll_field
    (fun m field => { m with options := { m.options with ifMatch := field } }) rfl
    (fun value => by simp only [coapParseOption, hcut]) message.options.ifMatch)]
  dsimp only
  rw [coapParseAll_append (coapParseAll_field
    (fun m field => { m with options := { m.options with etag := field } }) rfl
    (fun value => by simp only [coapParseOption, hcut]) message.options.etag)]
  dsimp only
  rw [coapParseAll_append (coapParseAll_field
    (fun m field => { m with options := { m.options with ifNoneMatch := field.isSome } }) rfl
    (fun value => by simp only [coapParseOption, Option.isSome_some]) (if message.options.ifNoneMatch then some 0 else none))]
  dsimp only
  rw [coapParseAll_append (coapParseAll_field
    (fun m field => { m with options := { m.options with observe := field } }) rfl
    (fun value => by simp only [coapParseOption, hint]) message.options.observe)]
  dsimp only
  rw [coapParseAll_append (coapParseAll_field
    (fun m field => { m with options := { m.options with uriPort := field } }) rfl
    (fun value => by simp only [coapParseOption, Function.comp_apply, hshort]) message.options.uriPort)]
  dsimp only
  rw [coapParseAll_append (coapParseAll_segments
    (fun m field => { m with options := { m.options with locationPath := m.options.locationPath ++ field } })
    (fun m => by simp only [List.append_nil]) (fun m segment segments => by
      simp only [List.append_assoc, List.singleton_append]) (fun m segment => by
      simp only [coapParseOption, Segment.ofOption_val]) _ message.options.locationPath)]
  dsimp only [List.nil_append]
  rw [coapParseAll_append (coapParseAll_segments
    (fun m field => { m with options := { m.options with uriPath := m.options.uriPath ++ field } })
    (fun m => by simp only [List.append_nil]) (fun m segment segments => by
      simp only [List.append_assoc, List.singleton_append]) (fun m segment => by
      simp only [coapParseOption, Segment.ofOption_val]) _ message.options.uriPath)]
  dsimp only [List.nil_append]
  rw [coapParseAll_append (coapParseAll_field
    (fun m field => { m with options := { m.options with contentType := field } }) rfl
    (fun value => by simp only [coapParseOption, Function.comp_apply, hshort, htwo, if_false]) message.options.contentType)]
  dsimp only
  rw [coapParseAll_append (coapParseAll_field
    (fun m field => { m with options := { m.options with maxAge := field } }) rfl
    (fun value => by simp only [coapParseOption, hint]) message.options.maxAge)]
  dsimp only
  rw [coapParseAll_append (coapParseAll_segments
    (fun m field => { m with options := { m.options with uriQuery := m.options.uriQuery ++ field } })
    (fun m => by simp only [List.append_nil]) (fun m segment segments => by
      simp only [List.append_assoc, List.singleton_append]) (fun m segment => by
      simp only [coapParseOption, Segment.ofOption_val]) _ message.options.uriQuery)]
  dsimp only [List.nil_append]
  rw [coapParseAll_append (coapParseAll_accept rfl message.options.accept)]
  dsimp only
  rw [coapParseAll_append (coapParseAll_field
    (fun m field => { m with block2 := field.map BlockOption.readBack }) rfl
    (fun value => by simp only [coapParseOption, Function.comp_apply, hint, Option.map_some, BlockOption.readBack]) message.block2)]
  dsimp only
  rw [coapParseAll_append (coapParseAll_field
    (fun m field => { m with block1 := field.map BlockOption.readBack }) rfl
    (fun value => by simp only [coapParseOption, Function.comp_apply, hint, Option.map_some, BlockOption.readBack]) message.block1)]
  dsimp only
  rw [coapParseAll_field
    (fun m field => { m with options := { m.options with size := field } }) rfl
    (fun value => by simp only [coapParseOption, hint]) message.options.size]
  have hfield : (if message.options.ifNoneMatch then some (0 : UInt32) else none).isSome =
      message.options.ifNoneMatch := by
    cases message.options.ifNoneMatch <;> rfl
  rw [hfield]
  cases hoptions : message.options
  rw [hoptions] at hhost hquery hproxy
  cases hhost
  cases hquery
  cases hproxy
  rfl

/-! ## The whole message -/

theorem byteOption_block {field : Option (List UInt8)}
    (hlength : ∀ value, field = some value → value.length < 269) :
    ∀ option ∈ byteOption number field, option.number = number ∧ option.value.length < 269 := by
  intro option hoption
  obtain ⟨value, hvalue, rfl⟩ := List.mem_map.1 hoption
  exact ⟨rfl, hlength value (Option.mem_toList.1 hvalue)⟩

theorem intOption_block (number : UInt32) (field : Option UInt32) :
    ∀ option ∈ intOption number field, option.number = number ∧ option.value.length < 269 := by
  apply byteOption_block
  intro value hvalue
  obtain ⟨n, -, rfl⟩ := Option.map_eq_some_iff.1 hvalue
  have := coapIntBytes_length_le n
  omega

theorem multiOption_block (number : UInt32) (field : List Segment) :
    ∀ option ∈ multiOption number field, option.number = number ∧ option.value.length < 269 := by
  intro option hoption
  obtain ⟨segment, -, rfl⟩ := List.mem_map.1 hoption
  exact ⟨rfl, Nat.lt_of_le_of_lt segment.property (by decide)⟩

theorem acceptOption_block (number : UInt32) (field : List UInt16) :
    ∀ option ∈ acceptOption number field, option.number = number ∧ option.value.length < 269 := by
  intro option hoption
  obtain ⟨type, -, rfl⟩ := List.mem_map.1 hoption
  exact ⟨rfl, Nat.lt_of_le_of_lt (coapIntBytes_length_le type.toUInt32) (by decide)⟩

theorem bytes_block {size : Nat} (hsize : size < 269) (number : UInt32)
    (field : Option (Bytes size)) :
    ∀ option ∈ byteOption number (field.map Subtype.val),
      option.number = number ∧ option.value.length < 269 := by
  apply byteOption_block
  intro value hvalue
  obtain ⟨bytes, -, rfl⟩ := Option.map_eq_some_iff.1 hvalue
  exact Nat.lt_of_le_of_lt bytes.property hsize

theorem codedOptions_ascends (message : CoapMessage) :
    Ascends 0 (codedOptions message none none none) := by
  simp only [codedOptions, List.append_assoc, Option.toList_none, List.flatMap_nil, List.map_nil,
    byteOption_none, List.nil_append, blockOption]
  refine Ascends.block (bytes_block (by decide) 1 _) (by decide) (by decide) ?_
  refine Ascends.block (bytes_block (by decide) 4 _) (by decide) (by decide) ?_
  refine Ascends.block (intOption_block 5 _) (by decide) (by decide) ?_
  refine Ascends.block (intOption_block 6 _) (by decide) (by decide) ?_
  refine Ascends.block (intOption_block 7 _) (by decide) (by decide) ?_
  refine Ascends.block (multiOption_block 8 _) (by decide) (by decide) ?_
  refine Ascends.block (multiOption_block 11 _) (by decide) (by decide) ?_
  refine Ascends.block (intOption_block 12 _) (by decide) (by decide) ?_
  refine Ascends.block (intOption_block 14 _) (by decide) (by decide) ?_
  refine Ascends.block (multiOption_block 15 _) (by decide) (by decide) ?_
  refine Ascends.block (acceptOption_block 17 _) (by decide) (by decide) ?_
  refine Ascends.block (intOption_block 23 _) (by decide) (by decide) ?_
  refine Ascends.block (intOption_block 27 _) (by decide) (by decide) ?_
  exact Ascends.block (intOption_block 28 _) (by decide) (by decide) .nil

theorem coapFirstByte_read (type : CoapMessageType) {tokenLen : Nat} (htoken : tokenLen ≤ 8) :
    ((0xC0 : UInt8) &&& coapFirstByte type tokenLen.toUInt8) >>> 6 = 1 ∧
      CoapMessageType.ofBits (((0x30 : UInt8) &&& coapFirstByte type tokenLen.toUInt8) >>> 4) =
        type ∧
      ((0x0F : UInt8) &&& coapFirstByte type tokenLen.toUInt8).toNat = tokenLen := by
  have hall : ∀ n : Fin 9, ((0xC0 : UInt8) &&& coapFirstByte type n.val.toUInt8) >>> 6 = 1 ∧
      CoapMessageType.ofBits (((0x30 : UInt8) &&& coapFirstByte type n.val.toUInt8) >>> 4) = type ∧
      ((0x0F : UInt8) &&& coapFirstByte type n.val.toUInt8).toNat = n.val := by
    cases type <;> decide
  exact hall ⟨tokenLen, Nat.lt_succ_of_le htoken⟩

theorem mid_read (mid : UInt16) :
    (mid >>> 8).toUInt8.toUInt16 <<< 8 ||| mid.toUInt8.toUInt16 = mid := by
  have hmid := mid.toNat_lt
  have hhigh : (mid >>> 8).toUInt8.toNat = mid.toNat / 256 := by
    rw [UInt16.toNat_toUInt8, UInt16.toNat_shiftRight]
    show mid.toNat >>> 8 % 2 ^ 8 = _
    rw [Nat.shiftRight_eq_div_pow]
    omega
  have hshift : ((mid >>> 8).toUInt8.toUInt16 <<< (8 : UInt16)).toNat =
      mid.toNat / 256 * 2 ^ 8 := by
    rw [UInt16.toNat_shiftLeft, UInt8.toNat_toUInt16, hhigh]
    show (mid.toNat / 256) <<< 8 % 2 ^ 16 = _
    rw [Nat.shiftLeft_eq]
    omega
  have hlow : mid.toUInt8.toUInt16.toNat = mid.toNat % 256 := by
    rw [UInt8.toNat_toUInt16, UInt16.toNat_toUInt8]
  apply UInt16.toNat_inj.1
  rw [UInt16.toNat_or, hshift, hlow, or_shifted (by omega)]
  omega

/-- A serialised message without strings is read back, up to the exponents of its block sizes. -/
theorem coapParseMessage_serialize (hcode : message.code ≠ coapEmptyMessageCode)
    (hhost : message.options.uriHost = none) (hquery : message.options.locationQuery = none)
    (hproxy : message.options.proxyUri = none) :
    ∃ data, coapSerializeMessage message = .ok data ∧
      coapParseMessage data = .ok { message with
        block1 := message.block1.map BlockOption.readBack
        block2 := message.block2.map BlockOption.readBack } := by
  have hserialize : coapSerializeMessage message = .ok
      ([coapFirstByte message.type message.token.val.length.toUInt8, message.code,
        (message.mid >>> 8).toUInt8, message.mid.toUInt8] ++ message.token.val ++
        serializeOptions 0 (codedOptions message none none none) ++
        (if message.payload = [] then [] else 0xFF :: message.payload)) := by
    rw [coapSerializeMessage, hhost, hquery, hproxy]
    rfl
  obtain ⟨hversion, htype, htoken⟩ := coapFirstByte_read message.type message.token.property
  refine ⟨_, hserialize, ?_⟩
  generalize htail : (if message.payload = [] then [] else 0xFF :: message.payload) = tail
  simp only [List.cons_append, List.nil_append, List.append_assoc, coapParseMessage, htype, htoken,
    hversion, mid_read, hcode, false_and, if_false, ne_eq, not_true_eq_false]
  have htokenLen : ¬ coapTokenLen < message.token.val.length := Nat.not_lt.2 message.token.property
  have hroom : ¬ (message.token.val ++
      (serializeOptions 0 (codedOptions message none none none) ++ tail)).length <
        message.token.val.length := by
    rw [List.length_append]
    omega
  rw [if_neg htokenLen, if_neg hroom, List.take_left' rfl, List.drop_left' rfl, Bytes.cut_val]
  have hturns : (serializeOptions 0 (codedOptions message none none none) ++ tail).length ≤
      (message.token.val ++ (serializeOptions 0 (codedOptions message none none none) ++
        tail)).length - message.token.val.length := by
    rw [@List.length_append _ message.token.val, Nat.add_sub_cancel_left]
  obtain ⟨number, left, hleft, hrun⟩ := coapParseOptions_serialize (codedOptions_ascends message)
    (coapParseAll_coded message hhost hquery hproxy) tail hturns
  refine hrun.trans ?_
  by_cases hpayload : message.payload = []
  · rw [if_pos hpayload] at htail
    subst htail
    rw [hpayload]
    cases left <;> rfl
  · rw [if_neg hpayload] at htail
    subst htail
    cases left with
    | zero => exact absurd hleft (by simp)
    | succ left => rw [coapParseOptions, if_pos rfl, if_neg hpayload]

end Wakaama
