import Wakaama.Data.Cbor

/-!
# What the CBOR readers read

A head is an initial byte and the bytes of its argument; a singular value is a head, with a tag
before it or not, and the bytes of a string behind it. The readers read exactly these, and stay
inside their buffer.
-/

namespace Wakaama

/-- A reader has found what it reads at the start of its buffer, or gives up. -/
def ReadsOr {α : Type} (read : Get α) (found : α → Prop) : Prop :=
  read = failure ∨ ∃ x, read = pure x ∧ found x

theorem ReadsOr.imp {α : Type} {read : Get α} {found found' : α → Prop}
    (h : ReadsOr read found) (himp : ∀ x, found x → found' x) : ReadsOr read found' := by
  rcases h with h | ⟨x, hx, hfound⟩
  · exact Or.inl h
  · exact Or.inr ⟨x, hx, himp x hfound⟩

theorem ReadsOr.bind {α β : Type} {read : Get α} {next : α → Get β} {found : α → Prop}
    {found' : β → Prop} (h : ReadsOr read found)
    (hnext : ∀ x, found x → ReadsOr (next x) found') : ReadsOr (read >>= next) found' := by
  rcases h with rfl | ⟨x, rfl, hfound⟩
  · exact Or.inl rfl
  · rw [pure_bind]
    exact hnext x hfound

theorem readAt_cons (byte : UInt8) (rest : List UInt8) : readAt (byte :: rest) 0 = .ok byte := rfl

theorem readBytes_append (head bytes rest : List UInt8) :
    readBytes (head ++ bytes ++ rest) head.length bytes.length = .ok bytes := by
  unfold readBytes
  rw [if_pos (by simp), List.append_assoc, List.drop_left, List.take_left]

theorem behind_append (head rest : List UInt8) :
    behind (head ++ rest) head.length = .ok rest := by
  unfold behind
  rw [if_pos (by rw [List.length_append]; omega), Int.toNat_natCast, List.drop_left]

/-- How many bytes the argument of a head has. -/
def argumentWidth (ai : UInt8) : Option Nat :=
  if ai = cborAiOneByteValue then some 1
  else if ai = cborAiTwoByteValue then some 2
  else if ai = cborAiFourByteValue then some 4
  else if ai = cborAiEightByteValue then some 8
  else if ai = 28 ∨ ai = 29 ∨ ai = 30 then none
  else some 0

/-- The argument: that of the initial byte, or the bytes behind it in network order. -/
def argumentValue (ai : UInt8) (argument : List UInt8) : UInt64 :=
  if argument = [] then ai.toUInt64 else (bigEndianValue argument).toUInt64

/-- The bytes of a head and what it says. -/
inductive CborHead : List UInt8 → CborType → UInt64 → Prop where
  | mk {first : UInt8} {argument : List UInt8} {type : CborType} {value : UInt64}
      (hwidth : argumentWidth (first &&& 0x1f) = some argument.length)
      (hvalue : cborTypeAndValue (first >>> 5) (first &&& 0x1f)
        (argumentValue (first &&& 0x1f) argument) = some (type, value)) :
      CborHead (first :: argument) type value

variable {value : UInt64} {bytes : List UInt8} {type : CborType} {data : Lwm2mData}

theorem CborHead.length_pos (h : CborHead bytes type value) : 0 < bytes.length := by
  cases h
  simp

theorem argumentWidth_le {ai : UInt8} {n : Nat} (h : argumentWidth ai = some n) : n ≤ 8 := by
  unfold argumentWidth at h
  repeat' split at h
  all_goals simp at h <;> omega

theorem CborHead.length_le (h : CborHead bytes type value) : bytes.length ≤ 9 := by
  cases h with
  | mk hwidth _ =>
    have := argumentWidth_le hwidth
    simp
    omega

def takeArgument (tail : List UInt8) (ai : UInt8) : Option (List UInt8) :=
  match argumentWidth ai with
  | none => none
  | some n => if tail.length < n then none else some (tail.take n)

theorem cborArgument_eq (first : UInt8) (tail : List UInt8) (ai : UInt8) :
    cborArgument (first :: tail) ai =
      match takeArgument tail ai with
      | none => failure
      | some argument => pure (argumentValue ai argument, argument.length) := by
  have hwide : ∀ n, 0 < n → argumentWidth ai = some n →
      (if (first :: tail).length < n + 1 then failure
        else do
          let bytes ← liftM (readBytes (first :: tail) 1 n)
          pure ((bigEndianValue bytes).toUInt64, n) : Get (UInt64 × Nat)) =
        match takeArgument tail ai with
        | none => failure
        | some argument => pure (argumentValue ai argument, argument.length) := by
    intro n hpos hwidth
    simp only [takeArgument, hwidth, List.length_cons, Nat.add_lt_add_iff_right]
    split
    · rfl
    · rename_i hroom
      have hlength : (tail.take n).length = n := by simp; omega
      have hread : readBytes (first :: tail) 1 n = .ok (tail.take n) := by
        unfold readBytes
        rw [if_pos (by simp; omega)]
        rfl
      have hne : tail.take n ≠ [] := List.ne_nil_of_length_pos (by omega)
      rw [hread]
      simp only [argumentValue, if_neg hne, hlength]
      rfl
  have hnone : argumentWidth ai = none → (failure : Get (UInt64 × Nat)) =
      match takeArgument tail ai with
      | none => failure
      | some argument => pure (argumentValue ai argument, argument.length) := by
    intro hwidth
    simp [takeArgument, hwidth]
  have hzero : argumentWidth ai = some 0 → (pure (ai.toUInt64, 0) : Get (UInt64 × Nat)) =
      match takeArgument tail ai with
      | none => failure
      | some argument => pure (argumentValue ai argument, argument.length) := by
    intro hwidth
    simp [takeArgument, hwidth, argumentValue]
  unfold cborArgument
  simp only
  split
  · exact hwide 1 (by omega) (by simp [argumentWidth, *])
  · split
    · exact hwide 2 (by omega) (by simp [argumentWidth, *]; decide)
    · split
      · exact hwide 4 (by omega) (by simp [argumentWidth, *]; decide)
      · split
        · exact hwide 8 (by omega) (by simp [argumentWidth, *]; decide)
        · split
          · exact hnone (by simp [argumentWidth, *])
          · exact hzero (by simp [argumentWidth, *])

theorem cborGetTypeAndValue_cons (first : UInt8) (tail : List UInt8) :
    cborGetTypeAndValue (first :: tail) = (do
      let (val, width) ← cborArgument (first :: tail) (first &&& 0x1f)
      match cborTypeAndValue (first >>> 5) (first &&& 0x1f) val with
      | none => failure
      | some (type, value) => pure (type, value, 1 + width)) := by
  unfold cborGetTypeAndValue
  rw [if_neg (by simp), readAt_cons]
  rfl

theorem CborHead.read (h : CborHead bytes type value) (rest : List UInt8) :
    cborGetTypeAndValue (bytes ++ rest) = pure (type, value, bytes.length) := by
  cases h with
  | @mk first argument _ _ hwidth hvalue =>
    have htake : takeArgument (argument ++ rest) (first &&& 0x1f) = some argument := by
      simp [takeArgument, hwidth]
    rw [List.cons_append, cborGetTypeAndValue_cons, cborArgument_eq, htake]
    simp only [pure_bind, hvalue, List.length_cons, Nat.add_comm]

theorem cborGetTypeAndValue_reads (buffer : List UInt8) :
    ReadsOr (cborGetTypeAndValue buffer) fun (type, value, n) =>
      ∃ bytes rest, buffer = bytes ++ rest ∧ bytes.length = n ∧ CborHead bytes type value := by
  cases buffer with
  | nil => exact Or.inl rfl
  | cons first tail =>
    rw [cborGetTypeAndValue_cons, cborArgument_eq]
    unfold takeArgument
    cases hwidth : argumentWidth (first &&& 0x1f) with
    | none => exact Or.inl rfl
    | some n =>
      simp only
      split
      · rename_i hnone
        exact Or.inl rfl
      · rename_i argument hsome
        simp only [pure_bind]
        split at hsome
        · cases hsome
        · obtain rfl := Option.some.inj hsome
          cases hvalue : cborTypeAndValue (first >>> 5) (first &&& 0x1f)
              (argumentValue (first &&& 0x1f) (tail.take n)) with
          | none => exact Or.inl rfl
          | some found =>
            have hlength : (tail.take n).length = n := by simp; omega
            refine Or.inr ⟨_, rfl, first :: tail.take n, tail.drop n, by simp, ?_, ?_⟩
            · simp only [List.length_cons, Nat.add_comm]
            · exact .mk (by rw [hwidth, hlength]) hvalue

/-- The bytes of a singular value without a tag, and the data they are. -/
inductive CborUntagged : List UInt8 → Lwm2mData → Prop where
  | unsignedInteger {head : List UInt8} {val : UInt64} (h : CborHead head .unsignedInteger val) :
      CborUntagged head (.node .unsignedInteger 0 (.asUnsigned val))
  | negativeInteger {head : List UInt8} {val : UInt64} (h : CborHead head .negativeInteger val) :
      CborUntagged head (.node .integer 0 (.asInteger val.toInt64))
  | float {head : List UInt8} {val : UInt64} (h : CborHead head .float val) :
      CborUntagged head (.node .float 0 (.asFloat val))
  | boolean {head : List UInt8} (value : Bool)
      (h : CborHead head .simpleValue (if value then cborSimpleTrue else cborSimpleFalse)) :
      CborUntagged head (.node .boolean 0 (.asBoolean value))
  | byteString {head content : List UInt8} {val : UInt64} (h : CborHead head .byteString val)
      (hlength : content.length = val.toNat) :
      CborUntagged (head ++ content) (.node .opaqueBytes 0 (.asBuffer content))
  | textString {head content : List UInt8} {val : UInt64} (h : CborHead head .textString val)
      (hlength : content.length = val.toNat) :
      CborUntagged (head ++ content) (.node .string 0 (.asBuffer content))

/-- The bytes of a singular value, behind a tag or not. -/
inductive CborSingular : List UInt8 → Lwm2mData → Prop where
  | untagged {bytes : List UInt8} {data : Lwm2mData} (h : CborUntagged bytes data) :
      CborSingular bytes data
  | tagged {tag bytes : List UInt8} {val : UInt64} {data : Lwm2mData}
      (htag : CborHead tag .semanticTag val) (h : CborUntagged bytes data) :
      CborSingular (tag ++ bytes) data

theorem CborUntagged.length_pos (h : CborUntagged bytes data) : 0 < bytes.length := by
  cases h with
  | unsignedInteger h | negativeInteger h | float h | boolean _ h => exact h.length_pos
  | byteString h _ | textString h _ =>
    have := h.length_pos
    simp
    omega

theorem CborSingular.length_pos (h : CborSingular bytes data) : 0 < bytes.length := by
  cases h with
  | untagged h => exact h.length_pos
  | tagged _ h =>
    have := h.length_pos
    simp
    omega

theorem intOfSize_small {n : Nat} (h : n < 2 ^ 31) : intOfSize n = n := by
  unfold intOfSize
  rw [Int.bmod_def]
  split <;> omega

theorem intOfSize_range (n : Nat) : -2 ^ 31 ≤ intOfSize n ∧ intOfSize n < 2 ^ 31 := by
  unfold intOfSize
  constructor
  · exact Int.le_bmod (by decide)
  · exact Int.bmod_lt (by decide)

theorem getBuffer_append (head : List UInt8) {content : List UInt8} (rest : List UInt8)
    (type : DataType) {val : UInt64} (hlength : content.length = val.toNat) :
    getBuffer (head ++ content ++ rest) type val head.length =
      pure (.node type 0 (.asBuffer content), intOfSize (head ++ content).length) := by
  unfold getBuffer
  rw [if_neg (by simp; omega), ← hlength, readBytes_append, List.length_append]
  rfl

theorem getBuffer_reads {head rest : List UInt8} (type : DataType) (val : UInt64) :
    ReadsOr (getBuffer (head ++ rest) type val head.length) fun (data, res) =>
      ∃ content rest', rest = content ++ rest' ∧ content.length = val.toNat ∧
        data = .node type 0 (.asBuffer content) ∧ res = intOfSize (head ++ content).length := by
  by_cases hroom : rest.length < val.toNat
  · refine Or.inl ?_
    unfold getBuffer
    rw [if_pos (by simp; exact hroom)]
  · have hlength : (rest.take val.toNat).length = val.toNat := by simp; omega
    have hread := getBuffer_append head (rest.drop val.toNat) type hlength
    rw [List.append_assoc, List.take_append_drop] at hread
    exact Or.inr ⟨_, hread, rest.take val.toNat, rest.drop val.toNat, by simp, hlength, rfl, rfl⟩

/-- The value reader behind a head finds every value, `pre` being what is before the head. -/
theorem CborUntagged.read (h : CborUntagged bytes data) (pre rest : List UInt8)
    (hpre : pre.length ≤ 9) :
    ∃ head type val, CborHead head type val ∧ type ≠ .semanticTag ∧
      (∃ content, bytes = head ++ content) ∧
      getUntagged (pre ++ bytes ++ rest) type val (pre.length + head.length) =
        pure (data, intOfSize (pre ++ bytes).length) := by
  have hcast : ∀ {head : List UInt8} {type : CborType} {val : UInt64}, CborHead head type val →
      ((pre.length + head.length : Nat) : Int) = intOfSize (pre ++ head).length := by
    intro head type val hhead
    have := hhead.length_le
    rw [List.length_append, intOfSize_small (by omega)]
  cases h with
  | unsignedInteger h =>
    exact ⟨bytes, _, _, h, by simp, ⟨[], by simp⟩, by simp only [getUntagged, hcast h]⟩
  | negativeInteger h =>
    exact ⟨bytes, _, _, h, by simp, ⟨[], by simp⟩, by simp only [getUntagged, hcast h]⟩
  | float h =>
    exact ⟨bytes, _, _, h, by simp, ⟨[], by simp⟩, by simp only [getUntagged, hcast h]⟩
  | boolean value h =>
    refine ⟨bytes, _, _, h, by simp, ⟨[], by simp⟩, ?_⟩
    rw [← hcast h]
    cases value <;> simp [getUntagged, cborSimpleTrue, cborSimpleFalse]
  | @byteString head content val h hlength =>
    have hread := getBuffer_append (pre ++ head) rest .opaqueBytes hlength
    refine ⟨head, _, _, h, by simp, ⟨content, rfl⟩, ?_⟩
    simpa [getUntagged] using hread
  | @textString head content val h hlength =>
    have hread := getBuffer_append (pre ++ head) rest .string hlength
    refine ⟨head, _, _, h, by simp, ⟨content, rfl⟩, ?_⟩
    simpa [getUntagged] using hread

theorem getUntagged_reads (pre : List UInt8) {head : List UInt8} (rest : List UInt8) {val : UInt64}
    (h : CborHead head type val) (hpre : pre.length ≤ 9) :
    ReadsOr (getUntagged (pre ++ head ++ rest) type val (pre.length + head.length))
      fun (data, res) => ∃ bytes rest', head ++ rest = bytes ++ rest' ∧
        res = intOfSize (pre ++ bytes).length ∧ CborUntagged bytes data := by
  have hcast : ((pre.length + head.length : Nat) : Int) = intOfSize (pre ++ head).length := by
    have := h.length_le
    rw [List.length_append, intOfSize_small (by omega)]
  have hbuffer : ∀ kind, ReadsOr (getBuffer (pre ++ head ++ rest) kind val (pre.length + head.length))
      fun (data, res) => ∃ content rest', rest = content ++ rest' ∧
        content.length = val.toNat ∧ data = .node kind 0 (.asBuffer content) ∧
        res = intOfSize (pre ++ head ++ content).length := by
    intro kind
    simpa using @getBuffer_reads (pre ++ head) rest kind val
  cases type with
  | unsignedInteger => exact Or.inr ⟨_, rfl, head, rest, rfl, hcast, .unsignedInteger h⟩
  | negativeInteger => exact Or.inr ⟨_, rfl, head, rest, rfl, hcast, .negativeInteger h⟩
  | float => exact Or.inr ⟨_, rfl, head, rest, rfl, hcast, .float h⟩
  | simpleValue =>
    simp only [getUntagged]
    split
    · rename_i hval
      exact Or.inr ⟨_, rfl, head, rest, rfl, hcast, .boolean false (by simpa [hval] using h)⟩
    · split
      · rename_i hval
        exact Or.inr ⟨_, rfl, head, rest, rfl, hcast, .boolean true (by simpa [hval] using h)⟩
      · exact Or.inl rfl
  | byteString =>
    refine (hbuffer .opaqueBytes).imp ?_
    rintro ⟨data, res⟩ ⟨content, rest', rfl, hlength, rfl, hres⟩
    rw [List.append_assoc] at hres
    exact ⟨head ++ content, rest', by simp, hres, .byteString h hlength⟩
  | textString =>
    refine (hbuffer .string).imp ?_
    rintro ⟨data, res⟩ ⟨content, rest', rfl, hlength, rfl, hres⟩
    rw [List.append_assoc] at hres
    exact ⟨head ++ content, rest', by simp, hres, .textString h hlength⟩
  | semanticTag | «break» | array | map | unknown => exact Or.inl rfl

theorem CborSingular.taken (h : CborSingular bytes data) (rest : List UInt8) :
    cborGetSingular (bytes ++ rest) = pure (data, intOfSize bytes.length) := by
  unfold cborGetSingular
  cases h with
  | untagged h =>
    obtain ⟨head, type, val, hhead, htype, ⟨content, rfl⟩, hread⟩ := h.read [] rest (by simp)
    rw [List.append_assoc, hhead.read, ← List.append_assoc]
    simp only [pure_bind, if_neg htype]
    simpa using hread
  | @tagged tag item tagVal _ htag h =>
    obtain ⟨head, type, val, hhead, htype, ⟨content, rfl⟩, hread⟩ := h.read tag rest htag.length_le
    rw [List.append_assoc, htag.read]
    simp only [pure_bind, if_true]
    rw [behind_append]
    show (cborGetTypeAndValue (head ++ content ++ rest) >>= fun (type, val, res') =>
      getUntagged (tag ++ (head ++ content ++ rest)) type val (tag.length + res')) = _
    rw [List.append_assoc head, hhead.read]
    simpa using hread

theorem cborGetSingular_takes (buffer : List UInt8) :
    ReadsOr (cborGetSingular buffer) fun (data, res) =>
      ∃ bytes rest, buffer = bytes ++ rest ∧ res = intOfSize bytes.length ∧
        CborSingular bytes data := by
  unfold cborGetSingular
  refine (cborGetTypeAndValue_reads buffer).bind ?_
  rintro ⟨type, val, res⟩ ⟨head, rest, rfl, rfl, hhead⟩
  simp only
  split
  · rename_i htag
    subst htag
    rw [behind_append]
    show ReadsOr (cborGetTypeAndValue rest >>= fun (type, val, res') =>
      getUntagged (head ++ rest) type val (head.length + res')) _
    refine (cborGetTypeAndValue_reads rest).bind ?_
    rintro ⟨type, val', res'⟩ ⟨head', rest', rfl, rfl, hhead'⟩
    have hreads := getUntagged_reads head rest' hhead' hhead.length_le
    rw [List.append_assoc] at hreads
    refine hreads.imp ?_
    rintro ⟨data, n⟩ ⟨bytes, rest'', heq, hres, hbytes⟩
    exact ⟨head ++ bytes, rest'', by rw [heq, List.append_assoc], hres, .tagged hhead hbytes⟩
  · have hreads := getUntagged_reads [] rest hhead (by simp)
    simp only [List.nil_append, List.length_nil, Nat.zero_add] at hreads
    refine hreads.imp ?_
    rintro ⟨data, n⟩ ⟨bytes, rest', heq, hres, hbytes⟩
    exact ⟨bytes, rest', heq, hres, .untagged hbytes⟩

theorem CborSingular.read (h : CborSingular bytes data) (rest : List UInt8)
    (hsmall : (bytes ++ rest).length < 2 ^ 31) :
    cborGetSingular (bytes ++ rest) = pure (data, (bytes.length : Int)) := by
  rw [List.length_append] at hsmall
  rw [h.taken rest, intOfSize_small (by omega)]

theorem cborGetSingular_reads (buffer : List UInt8) (hsmall : buffer.length < 2 ^ 31) :
    ReadsOr (cborGetSingular buffer) fun (data, res) =>
      ∃ bytes rest, buffer = bytes ++ rest ∧ res = (bytes.length : Int) ∧
        CborSingular bytes data := by
  apply (cborGetSingular_takes buffer).imp
  rintro ⟨data, res⟩ ⟨bytes, rest, rfl, hres, hbytes⟩
  rw [List.length_append] at hsmall
  exact ⟨bytes, rest, rfl, hres.trans (intOfSize_small (by omega)), hbytes⟩

end Wakaama
