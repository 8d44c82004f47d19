import Mathlib.Data.List.Infix
import Wakaama.Core.Proofs.LinkScan

/-!
# What the checks of the scanners are for

A run with the checks that goes well is a run of the code: the code has the same result, whatever
memory there is behind the text.
-/

namespace Wakaama

/-- If the first run goes well, so does the second one, and the results are related. -/
def Extends {α β : Type} (R : α → β → Prop) (run : Except ScanFault α)
    (other : Except ScanFault β) : Prop :=
  ∀ a, run = .ok a → ∃ b, other = .ok b ∧ R a b

namespace Extends

variable {α β γ δ : Type} {R : α → β → Prop} {S : γ → δ → Prop}

theorem refl (run : Except ScanFault α) : Extends Eq run run := fun a h => ⟨a, h, rfl⟩

theorem ok {a : α} {b : β} (h : R a b) : Extends R (.ok a) (.ok b) := by
  rintro _ ⟨⟩
  exact ⟨b, rfl, h⟩

theorem bindWith {run : Except ScanFault α} {other : Except ScanFault β}
    {next : α → Except ScanFault γ} {next' : β → Except ScanFault δ} (hrun : Extends R run other)
    (hnext : ∀ a b, R a b → Extends S (next a) (next' b)) :
    Extends S (run >>= next) (other >>= next') := by
  intro c h
  obtain ⟨a, ha, hc⟩ := bind_eq_ok.1 h
  obtain ⟨b, hb, hab⟩ := hrun a ha
  rw [hb, ok_bind]
  exact hnext a b hab c hc

theorem bind {run other : Except ScanFault α} {next : α → Except ScanFault γ}
    {next' : α → Except ScanFault δ} (hrun : Extends Eq run other)
    (hnext : ∀ a, Extends S (next a) (next' a)) : Extends S (run >>= next) (other >>= next') := by
  apply hrun.bindWith
  rintro a _ rfl
  exact hnext a

theorem ite {condition : Prop} [Decidable condition] {run run' : Except ScanFault α}
    {other other' : Except ScanFault β} (hthen : Extends R run other)
    (helse : Extends R run' other') :
    Extends R (if condition then run else run') (if condition then other else other') := by
  split
  · exact hthen
  · exact helse

end Extends

variable {data data' : List UInt8} {keep : UInt8 → Bool}

theorem byteAt_extends (h : data <+: data') (index : Nat) :
    Extends Eq (byteAt data index) (byteAt data' index) := by
  obtain ⟨behind, rfl⟩ := h
  intro byte hbyte
  have hlt : index < data.length := (List.getElem?_eq_some_iff.1 (byteAt_eq_ok.1 hbyte)).1
  exact ⟨byte, by rw [byteAt_append hlt, hbyte], rfl⟩

theorem bytesAt_extends (h : data <+: data') (start length : Nat) :
    Extends Eq (bytesAt data start length) (bytesAt data' start length) := by
  obtain ⟨behind, rfl⟩ := h
  intro bytes hbytes
  unfold bytesAt at hbytes
  split at hbytes
  · rename_i hle
    exact ⟨bytes, by rw [bytesAt_append hle, ← hbytes], rfl⟩
  · cases hbytes

theorem sub16_extends (a b : Nat) : Extends Eq (sub16 true a b) (sub16 false a b) := by
  intro result h
  unfold sub16 at h
  split at h
  · rename_i hle
    exact ⟨result, by rw [sub16_le hle, h], rfl⟩
  · cases h

theorem to16_extends (n : Nat) : Extends Eq (to16 true n) (to16 false n) := by
  intro result h
  unfold to16 at h
  split at h
  · rename_i hlt
    exact ⟨result, by rw [to16, if_pos hlt, h], rfl⟩
  · cases h

theorem scan_extends (h : data <+: data') (length index : Nat) :
    Extends Eq (scan keep data length index) (scan keep data' length index) := by
  unfold scan
  generalize length - index = left
  induction left generalizing index with
  | zero => exact Extends.refl _
  | succ left ih =>
    apply (byteAt_extends h index).bind
    intro byte
    exact (ih _).ite (Extends.refl _)

theorem trimSpaces_extends (h : data <+: data') (length : Nat) :
    Extends Eq (trimSpaces data length) (trimSpaces data' length) := by
  induction length with
  | zero => exact Extends.refl _
  | succ length ih =>
    apply (byteAt_extends h length).bind
    intro byte
    exact ih.ite (Extends.refl _)

theorem scanBack_extends (h : data <+: data') (low index : Nat) :
    Extends Eq (scanBack keep data low index) (scanBack keep data' low index) := by
  induction index with
  | zero => exact Extends.refl _
  | succ index ih =>
    unfold scanBack
    apply Extends.ite
    · apply (byteAt_extends h _).bind
      intro byte
      exact ih.ite (Extends.refl _)
    · exact Extends.refl _

theorem prvSplitLinkAttribute_extends (h : data <+: data') (length : Nat) :
    Extends Eq (prvSplitLinkAttribute true data length) (prvSplitLinkAttribute false data' length) := by
  unfold prvSplitLinkAttribute
  apply (scan_extends h _ _).bind
  intro index
  apply (Extends.refl _).ite
  apply (byteAt_extends h _).bind
  intro byte
  apply (Extends.refl _).ite
  apply (scan_extends h _ _).bind
  intro index
  apply (Extends.refl _).ite
  apply (sub16_extends _ _).bind
  intro keyLength
  apply (scan_extends h _ _).bind
  intro index
  apply (Extends.refl _).ite
  apply (scan_extends h _ _).bind
  intro next
  apply (sub16_extends _ _).bind
  intro last
  apply (scanBack_extends h _ _).bind
  intro index
  apply (Extends.refl _).ite
  apply (sub16_extends _ _).bind
  intro valueLength
  exact Extends.refl _

theorem linkAttributesLoop_extends (h : data <+: data') (length fuel index rtValCount : Nat)
    (format : LinkFormat) :
    Extends Eq (linkAttributesLoop true data length fuel index rtValCount format)
      (linkAttributesLoop false data' length fuel index rtValCount format) := by
  induction fuel generalizing index rtValCount format with
  | zero => exact Extends.refl _
  | succ fuel ih =>
    unfold linkAttributesLoop
    apply (Extends.refl _).ite
    apply (prvSplitLinkAttribute_extends (h.drop index) _).bind
    intro split
    cases split with
    | none => exact Extends.refl _
    | some split =>
      apply (bytesAt_extends h _ _).bind
      intro key
      apply (bytesAt_extends h _ _).bind
      intro value
      apply Extends.ite
      · exact (Extends.refl _).ite ((Extends.refl _).ite (ih _ _ _))
      · apply Extends.ite
        · apply (Extends.refl _).ite
          cases regAttrContent.lookup value with
          | none => exact Extends.refl _
          | some format => exact ih _ _ _
        · exact ih _ _ _

theorem prvParseLinkAttributes_extends (h : data <+: data') (length : Nat) :
    Extends Eq (prvParseLinkAttributes true data length)
      (prvParseLinkAttributes false data' length) := by
  unfold prvParseLinkAttributes
  apply (trimSpaces_extends h _).bind
  intro length
  apply (Extends.refl _).ite
  apply (byteAt_extends h _).bind
  intro byte
  apply (Extends.refl _).ite
  have h := h.drop 1
  apply (sub16_extends _ _).bind
  intro length
  apply (sub16_extends _ _).bind
  intro last
  apply (scanBack_extends h _ _).bind
  intro index
  apply (Extends.refl _).ite
  apply (byteAt_extends h _).bind
  intro byte
  apply (sub16_extends _ _).bind
  intro pathLength
  apply (Extends.refl _).ite
  apply (byteAt_extends h _).bind
  intro byte
  apply (Extends.refl _).ite
  apply (linkAttributesLoop_extends h _ _ _ _ _).bind
  intro format
  cases format with
  | none => exact Extends.refl _
  | some format =>
    apply (Extends.refl _).ite
    apply (bytesAt_extends h _ _).bind
    intro path
    exact Extends.refl _

theorem getIdNumbers_extends (h : data <+: data') (limit : Nat) :
    Extends Eq (getIdNumbers true data limit) (getIdNumbers false data' limit) := by
  unfold getIdNumbers
  apply (byteAt_extends h _).bind
  intro byte
  apply (sub16_extends _ _).bind
  intro limit
  apply (Extends.refl _).ite
  apply (scan_extends h _ _).bind
  intro limit2
  apply (Extends.refl _).ite
  apply (bytesAt_extends h _ _).bind
  intro major
  cases versionNumber major with
  | none => exact Extends.refl _
  | some versionMajor =>
    apply (bytesAt_extends h _ _).bind
    intro minor
    exact Extends.refl _

inductive SamePlace {α β : Type} :
    Option (α × List UInt8 × β) → Option (α × List UInt8 × β) → Prop where
  | none : SamePlace none none
  | some {data data' : List UInt8} (value : α) (count : β) (h : data <+: data') :
    SamePlace (some (value, data, count)) (some (value, data', count))

theorem getIdVersion_extends (h : data <+: data') (limit length : Nat) :
    Extends SamePlace (getIdVersion true data limit length)
      (getIdVersion false data' limit length) := by
  unfold getIdVersion
  apply (Extends.ok .none).ite
  apply (byteAt_extends h _).bind
  intro byte
  apply (sub16_extends _ _).bind
  intro limit
  apply (sub16_extends _ _).bind
  intro length
  apply (getIdNumbers_extends (h.drop _) _).bind
  intro version
  cases version with
  | none => exact Extends.ok .none
  | some version => exact Extends.ok (.some _ _ (h.drop _))

theorem getIdAttribute_extends (h : data <+: data') (version : UInt8 × UInt8) (limit length : Nat) :
    Extends SamePlace (getIdAttribute true version data limit length)
      (getIdAttribute false version data' limit length) := by
  unfold getIdAttribute
  apply (Extends.ok (.some _ _ h)).ite
  apply (bytesAt_extends h _ _).bind
  intro key
  apply (Extends.ok (.some _ _ h)).ite
  exact (Extends.ok .none).ite (getIdVersion_extends h _ _)

theorem getIdAttributes_extends (h : data <+: data') {fuel fuel' : Nat} (hfuel : fuel ≤ fuel')
    (length : Nat) (version : UInt8 × UInt8) :
    Extends Eq (getIdAttributes true fuel data length version)
      (getIdAttributes false fuel' data' length version) := by
  induction fuel generalizing data data' fuel' length version with
  | zero => exact fun _ h => nomatch h
  | succ fuel ih =>
    obtain ⟨fuel', rfl⟩ : ∃ more, fuel' = more + 1 := ⟨fuel' - 1, by omega⟩
    unfold getIdAttributes
    apply (Extends.refl _).ite
    apply (scan_extends h _ _).bind
    intro spaces
    apply (sub16_extends _ _).bind
    intro length
    apply (Extends.refl _).ite
    have h := h.drop spaces
    apply (scan_extends h _ _).bind
    intro limit
    apply (getIdAttribute_extends h _ _ _).bindWith
    rintro _ _ (_ | ⟨version, ⟨limit, length⟩, h⟩)
    · exact Extends.refl _
    · apply (byteAt_extends h _).bind
      intro byte
      apply (sub16_extends _ _).bind
      intro length
      exact ih (h.drop _) (by omega) _ _

theorem getIdInstance_extends (h : data <+: data') (length limit : Nat) :
    Extends SamePlace (getIdInstance true data length limit)
      (getIdInstance false data' length limit) := by
  unfold getIdInstance
  apply (byteAt_extends h _).bind
  intro byte
  apply (Extends.ok (.some _ _ h)).ite
  have h := h.drop (limit + 1)
  apply (sub16_extends _ _).bind
  intro length
  apply (scan_extends h _ _).bind
  intro limit
  apply (Extends.ok .none).ite
  apply (Extends.ok (.some _ _ h)).ite
  apply (bytesAt_extends h _ _).bind
  intro text
  cases linkNumber text with
  | none => exact Extends.ok .none
  | some instanceId => exact Extends.ok (.some _ _ h)

theorem getIdPath_extends (h : data <+: data') (length : Nat) :
    Extends SamePlace (getIdPath true data length) (getIdPath false data' length) := by
  unfold getIdPath
  apply (trimSpaces_extends h _).bind
  intro length
  apply (Extends.ok .none).ite
  apply (byteAt_extends h _).bind
  intro byte
  apply (Extends.ok .none).ite
  have h := h.drop 1
  apply (sub16_extends _ _).bind
  intro length
  apply (Extends.ok .none).ite
  apply (byteAt_extends h _).bind
  intro byte
  apply (Extends.ok .none).ite
  have h := h.drop 1
  apply (sub16_extends _ _).bind
  intro length
  apply (scan_extends h _ _).bind
  intro limit
  apply (Extends.ok .none).ite
  apply (bytesAt_extends h _ _).bind
  intro text
  cases linkNumber text with
  | none => exact Extends.ok .none
  | some objId =>
    apply (getIdInstance_extends h _ _).bindWith
    rintro _ _ (_ | ⟨instanceId, ⟨length, limit⟩, h⟩)
    · exact Extends.ok .none
    · apply (byteAt_extends h _).bind
      intro byte
      apply (Extends.ok .none).ite
      apply (sub16_extends _ _).bind
      intro length
      exact Extends.ok (.some _ _ (h.drop _))

theorem prvGetId_extends (h : data <+: data') (length : Nat) :
    Extends Eq (prvGetId true data length) (prvGetId false data' length) := by
  unfold prvGetId
  apply (getIdPath_extends h _).bindWith
  rintro _ _ (_ | ⟨id, length, h⟩)
  · exact Extends.refl _
  · apply (Extends.refl _).ite
    apply (byteAt_extends h _).bind
    intro byte
    apply (Extends.refl _).ite
    have h := h.drop 1
    apply (sub16_extends _ _).bind
    intro length
    apply (getIdAttributes_extends h (Nat.succ_le_succ h.length_le) _ _).bind
    intro version
    exact Extends.refl _

theorem decodeLink_extends (h : data <+: data') (length : Nat) (state : DecodeState) :
    Extends Eq (decodeLink true data length state) (decodeLink false data' length state) := by
  unfold decodeLink
  apply (prvGetId_extends h _).bind
  intro id
  cases id with
  | some id => exact Extends.refl _
  | none =>
    apply (Extends.refl _).ite
    apply (prvParseLinkAttributes_extends h _).bind
    intro found
    exact Extends.refl _

theorem decodeLoop_extends (h : data <+: data') (payloadLength fuel index : Nat)
    (state : DecodeState) :
    Extends Eq (decodeLoop true data payloadLength fuel index state)
      (decodeLoop false data' payloadLength fuel index state) := by
  induction fuel generalizing index state with
  | zero => exact Extends.refl _
  | succ fuel ih =>
    unfold decodeLoop
    apply (Extends.refl _).ite
    apply (scan_extends h _ _).bind
    intro index
    apply (Extends.refl _).ite
    apply (to16_extends _).bind
    intro start
    apply (scan_extends h _ _).bind
    intro index
    apply (to16_extends _).bind
    intro length
    apply (decodeLink_extends ((List.take_prefix _ _).trans (h.drop _)) _ _).bind
    intro found
    cases found with
    | none => exact Extends.refl _
    | some state => exact ih _ _

theorem prvDecodeRegisterPayload_extends {payload : List UInt8} {result : Option DecodeState}
    (behind : List UInt8)
    (h : prvDecodeRegisterPayload true payload payload.length = .ok result) :
    prvDecodeRegisterPayload false (payload ++ behind) payload.length = .ok result := by
  obtain ⟨_, hresult, rfl⟩ := decodeLoop_extends (List.prefix_append payload behind) _ _ _ _ result h
  exact hresult

end Wakaama
