import Wakaama.Data.Proofs.JsonBuffers
import Wakaama.Data.SenmlJsonBuffer

/-!
# What `senml_json_parse` reads

The pairs of an item and the items of the array are read as those of JSON are. At the end stands
what both parsers and the functions below them read.
-/

namespace Wakaama

theorem jsonSplitAt_inside {buffer : List UInt8} {bufferLen : Nat}
    (hlen : bufferLen ≤ buffer.length) :
    Inside (fun result => result.1.tokenStart + result.1.tokenLen ≤ bufferLen ∧
        result.1.valueStart + result.1.valueLen ≤ bufferLen)
      (jsonSplitAt buffer bufferLen) := by
  have hagrees := jsonSplitAt_agrees hlen
  cases hsplit : jsonSplit (buffer.take bufferLen) with
  | none =>
    rw [hsplit] at hagrees
    rw [hagrees]
    trivial
  | some found =>
    obtain ⟨token, value, rest⟩ := found
    rw [hsplit] at hagrees
    obtain ⟨range, next, hresult, hfound⟩ := hagrees
    rw [hresult]
    exact ⟨hfound.token_inside, hfound.value_inside⟩

theorem jsonSplitAt_pair {α : Type} {post : α → Prop} {buffer : List UInt8}
    {bufferLen index : Nat} {f : JsonRange × Int → Reading α} (hlen : bufferLen ≤ buffer.length)
    (hindex : index ≤ bufferLen)
    (hf : ∀ result, (∃ token,
        sliceAt (buffer.drop index) result.1.tokenStart result.1.tokenLen = .ok token) →
      (∃ value, sliceAt (buffer.drop index) result.1.valueStart result.1.valueLen = .ok value) →
      Inside post (f result)) :
    Inside post (jsonSplitAt (buffer.drop index) (sizeLess bufferLen index) >>= f) := by
  have hsub : bufferLen - index ≤ (buffer.drop index).length := by
    rw [List.length_drop]
    omega
  rw [sizeLess_of_le hindex]
  apply (jsonSplitAt_inside hsub).bind
  rintro result ⟨htoken, hvalue⟩
  exact hf result ⟨_, if_pos (by omega)⟩ ⟨_, if_pos (by omega)⟩

theorem jsonRecordRounds_inside {buffer : List UInt8} {bufferLen : Nat}
    (hlen : bufferLen ≤ buffer.length) (left : Nat) :
    ∀ {record : JsonRecord} {index : Nat}, bufferLen < index + left → index ≤ bufferLen →
      ReadsInside (jsonRecordRounds buffer bufferLen record index) := by
  induction left with
  | zero =>
    intro record index hleft hindex
    omega
  | succ left ih =>
    intro record index hleft hindex
    rw [jsonRecordRounds]
    apply jsonSplitAt_pair hlen hindex
    rintro ⟨range, next⟩ ⟨token, htoken⟩ ⟨value, hvalue⟩
    dsimp only at htoken hvalue ⊢
    apply Inside.ite
    · intro _
      trivial
    intro _
    rw [htoken, ok_bind, hvalue, ok_bind]
    apply (jsonPairAt_inside record token value).bind
    intro record' _
    split
    · rename_i hmore
      exact ih (by omega) (Nat.le_of_lt hmore)
    · trivial

section floats

variable {textToFloat : List UInt8 → Option UInt64}

theorem senmlItemRounds_inside {buffer : List UInt8} {bufferLen : Nat}
    (hlen : bufferLen ≤ buffer.length) (left : Nat) :
    ∀ {state : JsonItemState} {index : Nat}, bufferLen < index + left → index ≤ bufferLen →
      ReadsInside (senmlItemRounds textToFloat buffer bufferLen state index) := by
  induction left with
  | zero =>
    intro state index hleft hindex
    omega
  | succ left ih =>
    intro state index hleft hindex
    rw [senmlItemRounds]
    apply jsonSplitAt_pair hlen hindex
    rintro ⟨range, next⟩ ⟨token, htoken⟩ ⟨value, hvalue⟩
    dsimp only at htoken hvalue ⊢
    apply Inside.ite
    · intro _
      trivial
    intro _
    apply Inside.ite
    · intro _
      trivial
    intro _
    rw [htoken, ok_bind, hvalue, ok_bind]
    split
    · trivial
    · split
      · rename_i hmore
        exact ih (by omega) (Nat.le_of_lt hmore)
      · trivial

theorem senmlNextRecord_reads {buffer : List UInt8} {bufferLen : Nat}
    (hlen : bufferLen ≤ buffer.length) (state : List SenmlRecord × BaseValues) :
    ReadsInside (senmlNextRecord textToFloat buffer bufferLen state) := by
  apply (senmlItemRounds_inside hlen (bufferLen + 1) (by omega) (Nat.zero_le _)).bind
  intro fields _
  split <;> trivial

theorem senmlNextRecord_inside {buffer text behind : List UInt8} {bufferLen index len : Nat}
    (hlen : bufferLen ≤ buffer.length) (state : List SenmlRecord × BaseValues)
    (hhere : ItemHere buffer bufferLen index len text behind) :
    Inside (fun _ => True)
      (senmlNextRecord textToFloat (buffer.drop (index + 1)) (sizeLess len 2) state) := by
  by_cases hone : len = 1
  · subst hone
    rw [senmlNextRecord, senmlItemRounds, List.drop_zero, sizeLess_of_le (Nat.zero_le _),
      itemHere_one hlen hhere]
    trivial
  · obtain ⟨hsize, hsub, -, -⟩ := itemHere_body hlen hhere hone
    rw [hsize]
    exact senmlNextRecord_reads hsub state

theorem senmlJsonParseAt_begins {text rest : List UInt8}
    (hbegin : jsonSkipSpace text = jsonArrayBegin :: rest) (hne : jsonSkipSpace rest ≠ []) :
    ∃ first, first ≤ text.length ∧ text.drop first = jsonSkipSpace rest ∧
      senmlJsonParseAt textToFloat text = (do
        let count ← jsonCountItemsAt (text.drop first) (sizeLess text.length first)
        if count = 0 then throw .failed
        else
          let (state, _) ← jsonItemRounds (senmlNextRecord textToFloat) text text.length count
            first ([], ⟨[], 0, .node .undefined 0 .zero⟩)
          return state.1) := by
  obtain ⟨begin, hskip, hle, hdrop⟩ :=
    @jsonSkipSpaceFrom_front text text text.length (Nat.le_refl _) 0
      (drop_front_whole List.drop_zero) (Nat.zero_le _)
  rw [List.take_length, hbegin] at hdrop
  have hinside := drop_inside hdrop
  obtain ⟨first, hgo, hfirst⟩ := goToNextChar_next (Nat.le_refl _) (drop_front_whole hdrop) hne
  rw [List.take_length] at hfirst
  obtain ⟨sign, items, hcons⟩ := List.exists_cons_of_ne_nil hne
  have hitems := hfirst
  rw [hcons] at hitems
  have hinside' := drop_inside hitems
  refine ⟨first.val, by omega, hfirst, ?_⟩
  rw [senmlJsonParseAt, jsonSkipSpaceAt, hskip, ok_bind, if_neg (by omega), peekAt_drop hdrop,
    ok_bind, if_neg (not_not_intro rfl), hgo, ok_bind]

theorem senmlJsonParseAt_other {text : List UInt8}
    (hother : ∀ rest, jsonSkipSpace text = jsonArrayBegin :: rest → jsonSkipSpace rest = []) :
    senmlJsonParseAt textToFloat text = .error .failed := by
  obtain ⟨begin, hskip, hle, hdrop⟩ :=
    @jsonSkipSpaceFrom_front text text text.length (Nat.le_refl _) 0
      (drop_front_whole List.drop_zero) (Nat.zero_le _)
  rw [List.take_length] at hdrop
  rw [senmlJsonParseAt, jsonSkipSpaceAt, hskip, ok_bind]
  cases hspace : jsonSkipSpace text with
  | nil =>
    rw [hspace, List.drop_eq_nil_iff] at hdrop
    rw [if_pos (Nat.le_antisymm hle hdrop)]
    rfl
  | cons sign rest =>
    rw [hspace] at hdrop
    have hinside := drop_inside hdrop
    rw [if_neg (by omega), peekAt_drop hdrop, ok_bind]
    by_cases hsign : sign = jsonArrayBegin
    · subst hsign
      rw [if_neg (not_not_intro rfl), goToNextChar_end (Nat.le_refl _) (drop_front_whole hdrop)
        (hother rest hspace)]
      rfl
    · rw [if_pos hsign]
      rfl

theorem senmlJsonParseAt_inside_iff (text : List UInt8) :
    ReadsInside (senmlJsonParseAt textToFloat text) ↔ SenmlArrayCounts text := by
  constructor
  · intro hinside rest hbegin hfront
    obtain ⟨first, hfirst, hitems, hparse⟩ :=
      @senmlJsonParseAt_begins textToFloat _ _ hbegin hfront.ne_nil
    obtain ⟨hsub, hdrop⟩ := items_front (Nat.le_refl _) hfirst (drop_front_whole hitems)
    rw [hparse, jsonCountItemsAt, countItemsRounds_over hsub hfront (Nat.zero_add _) hdrop]
      at hinside
    exact hinside
  · intro hcounts
    by_cases hbegin : ∃ rest, jsonSkipSpace text = jsonArrayBegin :: rest ∧ jsonSkipSpace rest ≠ []
    · obtain ⟨rest, hbegin, hne⟩ := hbegin
      obtain ⟨first, hfirst, hitems, hparse⟩ :=
        @senmlJsonParseAt_begins textToFloat _ _ hbegin hne
      obtain ⟨hsub, hdrop⟩ := items_front (Nat.le_refl _) hfirst (drop_front_whole hitems)
      rw [hparse]
      apply (countItemsRounds_inside hsub _ (Nat.le_refl _) hne (by decide) hdrop
        (hcounts rest hbegin)).bind
      rintro count ⟨left, hcount, -, hcounted⟩
      rw [Nat.zero_add] at hcount
      subst hcount
      rw [if_neg (Nat.ne_of_gt hcounted.pos)]
      apply (jsonItemRounds_inside (Nat.le_refl _) (senmlNextRecord_inside (Nat.le_refl _)) hcounted
        (drop_front_whole hitems)).bind
      intro _ _
      trivial
    · rw [senmlJsonParseAt_other]
      · trivial
      · intro rest hrest
        by_contra hne
        exact hbegin ⟨rest, hrest, hne⟩

theorem jsonItemLengthAt_inside (text : List UInt8) :
    ReadsInside (jsonItemLengthAt text text.length) := by
  rw [jsonItemLengthAt_front (Nat.le_refl _)]
  cases jsonItemLength (text.take text.length) <;> trivial

theorem jsonCountItemsAt_inside_iff (text : List UInt8) :
    ReadsInside (jsonCountItemsAt text text.length) ↔ ¬ JsonItemsFront text (2 ^ 31) := by
  constructor
  · intro hinside hfront
    rw [jsonCountItemsAt, countItemsRounds_over (Nat.le_refl _) hfront (Nat.zero_add _)
      (drop_front_whole List.drop_zero)] at hinside
    exact hinside
  · intro hfront
    by_cases hne : text = []
    · subst hne
      have hempty : ¬ 0 < ([] : List UInt8).length := Nat.lt_irrefl 0
      rw [jsonCountItemsAt, countItemsRounds, dif_neg hempty]
      trivial
    · exact (countItemsRounds_inside (Nat.le_refl _) _ (Nat.le_refl _) hne (by decide)
        (drop_front_whole List.drop_zero) hfront).reads

/-- What the two parsers and the functions below them read is inside of what they are given;
`json_countItems` and the parsers exactly where there are not too many items to count, and
`json_parse` exactly where no member of the object is cut behind its first quote or is a base name
without an end. -/
theorem jsonParsers_iff (uri : Option Lwm2mUri) (text : List UInt8) :
    ReadsInside (jsonSplitAt text text.length) ∧
      ReadsInside (jsonItemLengthAt text text.length) ∧
      ReadsInside (jsonRecordAt text text.length) ∧
      (∀ state, ReadsInside (senmlNextRecord textToFloat text text.length state)) ∧
      (ReadsInside (jsonCountItemsAt text text.length) ↔ ¬ JsonItemsFront text (2 ^ 31)) ∧
      (ReadsInside (jsonParseAt uri text) ↔ JsonMembersEnd text) ∧
      (ReadsInside (senmlJsonParseAt textToFloat text) ↔ SenmlArrayCounts text) :=
  ⟨(jsonSplitAt_inside (Nat.le_refl _)).reads, jsonItemLengthAt_inside text,
    jsonRecordRounds_inside (Nat.le_refl _) (text.length + 1) (by omega) (Nat.zero_le _),
    senmlNextRecord_reads (Nat.le_refl _), jsonCountItemsAt_inside_iff text,
    jsonParseAt_inside_iff uri text, senmlJsonParseAt_inside_iff text⟩

end floats

/-- In `{"` the key behind the quote is read. -/
theorem cutKey_outside : ¬ ReadsInside (jsonParseAt none [jsonItemBegin, jsonQuote]) := by
  rw [jsonParseAt_inside_iff]
  intro hend
  have hreaches : JsonReaches [jsonItemBegin, jsonQuote] false false false [jsonQuote] := .start rfl
  exact (hend _ _ _ _ hreaches).1 rfl

end Wakaama
