import Wakaama.Data.JsonBuffer
import Wakaama.Data.Proofs.JsonSplits

/-!
# What a record of JSON reads

The pairs of an item are read inside of the item, and the items inside of their array.
-/

namespace Wakaama

variable {buffer value : List UInt8} {valueLen bufferLen : Nat}

theorem peekAt_inside {index : Nat} (h : index < buffer.length) :
    ∃ byte, peekAt buffer index = .ok byte :=
  ⟨buffer[index], peekAt_drop (List.drop_eq_getElem_cons h)⟩

theorem inside_peekAt {index : Nat} (h : index < buffer.length) :
    Inside (fun _ => True) (peekAt buffer index) := by
  obtain ⟨byte, hbyte⟩ := peekAt_inside h
  rw [hbyte]
  trivial

theorem readIdAt_inside (hlen : valueLen ≤ value.length) (left : Nat) :
    ∀ {i readId : Nat}, valueLen ≤ i + left →
      ReadsInside (readIdAt value valueLen i readId) := by
  induction left with
  | zero =>
    intro i readId hleft
    rw [readIdAt, dif_neg (by omega)]
    trivial
  | succ left ih =>
    intro i readId hleft
    rw [readIdAt]
    by_cases hi : i < valueLen - 1
    · rw [dif_pos hi]
      apply (inside_peekAt (by omega)).bind
      intro sign _
      apply Inside.ite
      · intro _
        trivial
      · intro _
        apply Inside.ite
        · intro _
          trivial
        · intro _
          dsimp only
          apply Inside.ite
          · intro _
            trivial
          · intro _
            exact ih (by omega)
    · rw [dif_neg hi]
      trivial

theorem readIdsAt_inside (hlen : valueLen ≤ value.length) (left : Nat) :
    ∀ {i : Nat}, ReadsInside (readIdsAt value valueLen left i) := by
  induction left with
  | zero =>
    intro i
    trivial
  | succ left ih =>
    intro i
    rw [readIdsAt]
    apply (readIdAt_inside hlen valueLen (Nat.le_add_left _ _)).bind
    rintro ⟨readId, i'⟩ _
    apply Inside.ite
    · intro hi
      apply (inside_peekAt (by omega)).bind
      intro sign _
      apply Inside.ite
      · intro _
        apply ih.bind
        intro ids _
        trivial
      · intro _
        trivial
    · intro _
      trivial

theorem checkQuotes_inside (value : List UInt8) :
    Inside (fun _ => 2 ≤ value.length) (checkQuotes value) := by
  apply Inside.ite
  · intro _
    trivial
  · intro hlen
    apply (inside_peekAt (by omega)).bind
    intro first _
    apply Inside.ite
    · intro _
      trivial
    · intro _
      apply (inside_peekAt (by omega)).bind
      intro last _
      apply Inside.ite
      · intro _
        trivial
      · intro _
        exact Nat.not_lt.1 hlen

theorem nameIdsAt_inside {uri : Lwm2mUri} (hlen : valueLen ≤ value.length) :
    ReadsInside (nameIdsAt uri value valueLen) := by
  apply (readIdsAt_inside hlen 4).bind
  rintro ⟨ids, i⟩ _
  apply Inside.ite
  · intro _
    trivial
  · intro _
    trivial

theorem jsonNameAt_inside (uri : Lwm2mUri) (value : List UInt8) :
    ReadsInside (jsonNameAt uri value) := by
  apply (checkQuotes_inside value).bind
  intro _ hlen
  apply (inside_peekAt (by omega)).bind
  intro second _
  apply Inside.ite
  · intro _
    apply Inside.ite
    · intro _
      trivial
    · intro _
      exact nameIdsAt_inside (by rw [List.length_drop])
  · intro _
    exact nameIdsAt_inside (Nat.le_refl _)

theorem quotedAt_inside (value : List UInt8) : ReadsInside (quotedAt value) := by
  apply (checkQuotes_inside value).bind
  intro _ hlen
  rw [sliceAt, if_pos (by omega)]
  trivial

theorem jsonPairAt_inside (record : JsonRecord) (token value : List UInt8) :
    ReadsInside (jsonPairAt record token value) := by
  unfold jsonPairAt
  split
  · split
    · split
      · trivial
      · exact (jsonNameAt_inside _ _).bind fun _ _ => trivial
    · split
      · split <;> trivial
      · split <;> trivial
  · split
    · trivial
    · split
      · split
        · trivial
        · split
          · trivial
          · split <;> trivial
      · split
        · split
          · trivial
          · exact (quotedAt_inside value).bind fun _ _ => trivial
        · split
          · split
            · trivial
            · exact (quotedAt_inside value).bind fun _ _ => trivial
          · trivial
  · trivial

theorem jsonParseRecord_none {record : JsonRecord} {text : List UInt8}
    (h : jsonSplit text = none) : jsonParseRecord record text = .error .failed := by
  rw [jsonParseRecord]
  split
  · rfl
  · rename_i hsplit
    rw [h] at hsplit
    cases hsplit

theorem jsonParseRecord_some {record : JsonRecord} {text token rest : List UInt8}
    (h : jsonSplit text = some (token, value, rest)) :
    jsonParseRecord record text = (do
      let record ← jsonPairAt record token value
      if rest = [] then return record else jsonParseRecord record rest) := by
  rw [jsonParseRecord]
  split
  · rename_i hsplit
    rw [h] at hsplit
    cases hsplit
  · rename_i hsplit
    rw [h] at hsplit
    cases hsplit
    rfl

theorem jsonParseRecord_inside (size : Nat) : ∀ {record : JsonRecord} {text : List UInt8},
    text.length ≤ size → ReadsInside (jsonParseRecord record text) := by
  induction size with
  | zero =>
    intro record text hsize
    cases List.length_eq_zero_iff.1 (Nat.le_zero.1 hsize)
    rw [jsonParseRecord_none rfl]
    trivial
  | succ size ih =>
    intro record text hsize
    cases hsplit : jsonSplit text with
    | none =>
      rw [jsonParseRecord_none hsplit]
      trivial
    | some found =>
      obtain ⟨token, value, rest⟩ := found
      have hrest := jsonSplit_rest hsplit
      rw [jsonParseRecord_some hsplit]
      apply (jsonPairAt_inside record token value).bind
      intro record' _
      apply Inside.ite
      · intro _
        trivial
      · intro _
        exact ih (by omega)

theorem jsonParseRecord_reads (record : JsonRecord) (text : List UInt8) :
    ReadsInside (jsonParseRecord record text) := jsonParseRecord_inside _ (Nat.le_refl _)

theorem sliceAt_of {start len : Nat} (hlen : bufferLen ≤ buffer.length)
    (hinside : start + len ≤ bufferLen) :
    sliceAt buffer start len = .ok (sliceOf (buffer.take bufferLen) start len) := by
  rw [sliceAt, if_pos (by omega), sliceOf, List.drop_take, List.take_take, Nat.min_eq_left]
  omega

theorem toInt_nat {n : Nat} (h : n < 2 ^ 31) : toInt n = n := by
  unfold toInt
  rw [Int.bmod_eq_of_le (by omega) (by omega)]

/-- `prv_parseItem` reads only what it is given, and takes the pairs of the text. -/
theorem jsonRecordRounds_eq (hlen : bufferLen ≤ buffer.length) (hint : bufferLen < 2 ^ 31)
    (size : Nat) :
    ∀ {record : JsonRecord} {index : Nat} {text : List UInt8}, text.length < size →
      index ≤ bufferLen → (buffer.take bufferLen).drop index = text →
      jsonRecordRounds buffer bufferLen record index = jsonParseRecord record text := by
  induction size with
  | zero =>
    intro record index text hsize
    exact absurd hsize (Nat.not_lt_zero _)
  | succ size ih =>
    intro record index text hsize hindex h
    have hsub : bufferLen - index ≤ (buffer.drop index).length := by
      rw [List.length_drop]
      omega
    have hagrees := jsonSplitAt_agrees hsub
    rw [take_drop, h] at hagrees
    rw [jsonRecordRounds, sizeLess_of_le hindex]
    cases hsplit : jsonSplit text with
    | none =>
      rw [hsplit] at hagrees
      rw [hagrees, jsonParseRecord_none hsplit]
      rfl
    | some found =>
      obtain ⟨token, value, rest⟩ := found
      rw [hsplit] at hagrees
      obtain ⟨range, next, hresult, hfound⟩ := hagrees
      have hnext := hfound.next_le
      have htoken := sliceAt_of hsub hfound.token_inside
      have hvalue := sliceAt_of hsub hfound.value_inside
      rw [take_drop, h, ← hfound.token_eq] at htoken
      rw [take_drop, h, ← hfound.value_eq] at hvalue
      have hrest : (buffer.take bufferLen).drop (index + (next + 1)) = rest := by
        rw [hfound.rest_eq, ← h, List.drop_drop]
      rw [hresult, ok_bind]
      dsimp only
      rw [toInt_nat (by omega), if_neg (by omega), htoken, ok_bind, hvalue, ok_bind,
        jsonParseRecord_some hsplit, Int.toNat_natCast]
      congr 1
      funext record'
      by_cases hmore : index + (next + 1) < bufferLen
      · have hne : rest ≠ [] := by
          rw [← hrest]
          intro hnil
          have hend := take_end hlen hnil
          omega
        have hless := jsonSplit_rest hsplit
        rw [dif_pos hmore, if_neg hne]
        exact ih (by omega) (Nat.le_of_lt hmore) hrest
      · have hnil : rest = [] := by
          rw [← hrest, List.drop_eq_nil_iff, List.length_take_of_le hlen]
          omega
        rw [dif_neg hmore, if_pos hnil]

theorem jsonRecordAt_eq (hlen : bufferLen ≤ buffer.length) (hint : bufferLen < 2 ^ 31) :
    jsonRecordAt buffer bufferLen = jsonParseRecord jsonNewRecord (buffer.take bufferLen) :=
  jsonRecordRounds_eq hlen hint _ (Nat.lt_succ_self _) (Nat.zero_le _) List.drop_zero

theorem jsonSkipSpaceFrom_found :
    ∀ {text rest : List UInt8} {sign : UInt8} {i : Nat}, buffer.drop i = text → i ≤ bufferLen →
      jsonSkipSpace text = sign :: rest →
      ∃ j, jsonSkipSpaceFrom buffer bufferLen i = .ok j ∧
        (j = bufferLen ∨ (j < bufferLen ∧ buffer.drop j = sign :: rest)) := by
  intro text
  induction text with
  | nil =>
    intro rest sign i _ _ hskip
    cases hskip
  | cons first text ih =>
    intro rest sign i h hi hskip
    rw [jsonSkipSpaceFrom]
    by_cases hend : i < bufferLen
    · rw [dif_pos hend, peekAt_drop h, ok_bind]
      by_cases hspace : prvIsWhiteSpace first = true
      · rw [if_pos hspace]
        rw [jsonSkipSpace_space hspace] at hskip
        exact ih (drop_next h) hend hskip
      · rw [if_neg hspace]
        rw [jsonSkipSpace_sign hspace] at hskip
        exact ⟨i, rfl, .inr ⟨hend, h.trans hskip⟩⟩
    · rw [dif_neg hend]
      exact ⟨i, rfl, .inl (by omega)⟩

theorem jsonSplitAt_failed {rest : List UInt8} {sign : UInt8}
    (h : jsonSkipSpace buffer = sign :: rest) (hsign : sign ≠ jsonQuote) :
    jsonSplitAt buffer bufferLen = .error .failed := by
  obtain ⟨j, hskip, hj⟩ := jsonSkipSpaceFrom_found List.drop_zero (Nat.zero_le bufferLen) h
  rw [jsonSplitAt, jsonSkipSpaceAt, hskip, ok_bind]
  obtain hend | ⟨hbefore, hdrop⟩ := hj
  · rw [if_pos hend]
    rfl
  · rw [if_neg (Nat.ne_of_lt hbefore), jsonSplitRounds, dif_pos hbefore, peekAt_drop hdrop,
      ok_bind, jsonSplitStep]
    by_cases hcomma : sign = jsonComma
    · rw [if_pos hcomma]
      rfl
    · rw [if_neg hcomma, if_pos hsign]
      rfl

section items

variable {buffer text behind : List UInt8} {bufferLen index : Nat}

/-- A place where there is an item of a length, and no quote behind it. -/
def ItemHere (buffer : List UInt8) (bufferLen index len : Nat) (text behind : List UInt8) : Prop :=
  (buffer.take bufferLen).drop index = text ∧ 0 < len ∧ len < 2 ^ 31 ∧ len ≤ text.length ∧
    behind = text.drop len ∧ ∃ sign rest, jsonSkipSpace behind = sign :: rest ∧ sign ≠ jsonQuote

/-- The length that is given for an item of length 1 is that of a `size_t` below zero; behind the
item stands no quote. -/
theorem itemHere_one (hlen : bufferLen ≤ buffer.length)
    (hhere : ItemHere buffer bufferLen index 1 text behind) {wrapped : Nat} :
    jsonSplitAt (buffer.drop (index + 1)) wrapped = .error .failed := by
  obtain ⟨h, -, -, hle, hbehind, sign, rest, hsign, hquote⟩ := hhere
  have hall := congrArg List.length h
  rw [List.length_drop, List.length_take_of_le hlen] at hall
  have hfront : (buffer.take bufferLen).drop (index + 1) = behind := by
    rw [hbehind, ← h, List.drop_drop]
  have hwhole : buffer.drop (index + 1) = behind ++ buffer.drop bufferLen := by
    rw [← hfront, ← List.drop_append_of_le_length, List.take_append_drop]
    rw [List.length_take_of_le hlen]
    omega
  have hback : jsonSkipSpace (buffer.drop (index + 1)) =
      sign :: (rest ++ buffer.drop bufferLen) := by
    have hspace : behind.dropWhile prvIsWhiteSpace = sign :: rest := hsign
    rw [hwhole, jsonSkipSpace, List.dropWhile_append, hspace]
    rfl
  exact jsonSplitAt_failed hback hquote

variable {len : Nat}

theorem itemHere_body (hlen : bufferLen ≤ buffer.length)
    (hhere : ItemHere buffer bufferLen index len text behind) (hlong : len ≠ 1) :
    sizeLess len 2 = len - 2 ∧ len - 2 ≤ (buffer.drop (index + 1)).length ∧
      text.length - behind.length = len ∧
      (buffer.drop (index + 1)).take (len - 2) = (text.drop 1).take (len - 2) := by
  obtain ⟨h, hpos, hint, hle, hbehind, -⟩ := hhere
  have hall := congrArg List.length h
  rw [List.length_drop, List.length_take_of_le hlen] at hall
  refine ⟨sizeLess_of_le (by omega), ?_, ?_, ?_⟩
  · rw [List.length_drop]
    omega
  · rw [hbehind, List.length_drop]
    omega
  · rw [← h, List.drop_drop, List.drop_take, List.take_take, Nat.min_eq_left]
    omega

section loop

variable {σ : Type} {parse : List UInt8 → Nat → σ → Reading σ} {state : σ}

theorem jsonItemRounds_round (hlen : bufferLen ≤ buffer.length)
    (h : (buffer.take bufferLen).drop index = text) (hitem : jsonItemBehind text = some behind)
    {sign : UInt8} {rest : List UInt8} (hsign : jsonSkipSpace behind = sign :: rest)
    (hquote : sign ≠ jsonQuote) {left : Nat} :
    ∃ len next, ItemHere buffer bufferLen index len text behind ∧
      (buffer.take bufferLen).drop next = sign :: rest ∧
      jsonItemRounds parse buffer bufferLen (left + 1) index state = (do
        let state ← parse (buffer.drop (index + 1)) (sizeLess len 2) state
        if sign = jsonComma then
          let next ← goToNextChar buffer bufferLen next
          jsonItemRounds parse buffer bufferLen left next.val state
        else if sign = jsonFooter ∧ left = 0 then
          jsonItemRounds parse buffer bufferLen left next state
        else throw .failed) := by
  obtain ⟨len, hpos, hint, hlength, hle, hbehind, last, hlast⟩ := itemBehind_some hlen h hitem
  have hspace : jsonSkipSpace behind ≠ [] := by
    rw [hsign]
    exact List.cons_ne_nil _ _
  obtain ⟨next, hgo, hnext⟩ := goToNextChar_next hlen hlast hspace
  rw [hsign] at hnext
  refine ⟨len, next.val, ⟨h, hpos, hint, hle, hbehind, sign, rest, hsign, hquote⟩, hnext, ?_⟩
  have hindex : index + (len : Int).toNat - 1 = index + (len - 1) := by
    rw [Int.toNat_natCast]
    omega
  rw [jsonItemRounds, hlength, ok_bind, if_neg (by omega), hindex, Int.toNat_natCast]
  congr 1
  funext state
  rw [hgo, ok_bind, peekAt_front hnext, ok_bind]

theorem jsonComma_quote : jsonComma ≠ jsonQuote := by decide

theorem jsonFooter_quote : jsonFooter ≠ jsonQuote := by decide

theorem jsonItemRounds_footer {rest : List UInt8}
    (h : (buffer.take bufferLen).drop index = jsonFooter :: rest) :
    jsonItemRounds parse buffer bufferLen 0 index state = .ok (state, index) := by
  rw [jsonItemRounds, peekAt_front h, ok_bind, if_pos rfl]
  rfl

variable {taken : List UInt8 → List UInt8 → Prop}

theorem JsonItemsTaken.ne_nil {left : Nat} {rest : List UInt8}
    (h : JsonItemsTaken taken text left rest) : text ≠ [] := by
  rintro rfl
  cases h with
  | last hitem _ _ => cases hitem
  | more hitem _ _ _ => cases hitem

theorem jsonItemRounds_taken (hlen : bufferLen ≤ buffer.length)
    (hparse : ∀ {index len : Nat} {text behind : List UInt8} (state : σ),
      ItemHere buffer bufferLen index len text behind → taken text behind →
      ∃ state', parse (buffer.drop (index + 1)) (sizeLess len 2) state = .ok state')
    {left : Nat} {rest : List UInt8} (htaken : JsonItemsTaken taken text left rest) :
    ∀ {index : Nat} {state : σ}, (buffer.take bufferLen).drop index = text →
      ∃ state' last, jsonItemRounds parse buffer bufferLen left index state = .ok (state', last) ∧
        (buffer.take bufferLen).drop last = jsonFooter :: rest := by
  induction htaken with
  | last hitem htaken hfooter =>
    intro index state h
    obtain ⟨len, next, hhere, hnext, hround⟩ :=
      @jsonItemRounds_round _ _ _ _ _ _ parse state hlen h hitem _ _ hfooter jsonFooter_quote 0
    obtain ⟨state', hstate⟩ := hparse state hhere htaken
    refine ⟨state', next, ?_, hnext⟩
    rw [hround, hstate, ok_bind, if_neg (Ne.symm jsonComma_footer), if_pos ⟨rfl, rfl⟩,
      jsonItemRounds_footer hnext]
  | @more text behind rest' rest count hitem htaken hcomma hmore ih =>
    intro index state h
    obtain ⟨len, next, hhere, hnext, hround⟩ :=
      @jsonItemRounds_round _ _ _ _ _ _ parse state hlen h hitem _ _ hcomma jsonComma_quote count
    obtain ⟨state', hstate⟩ := hparse state hhere htaken
    obtain ⟨next', hgo, hnext'⟩ := goToNextChar_next hlen hnext hmore.ne_nil
    obtain ⟨state'', last, hrounds, hlast⟩ := @ih next'.val state' hnext'
    refine ⟨state'', last, ?_, hlast⟩
    rw [hround, hstate, ok_bind, if_pos rfl, hgo, ok_bind, hrounds]

theorem jsonItemRounds_inside (hlen : bufferLen ≤ buffer.length)
    (hparse : ∀ {index len : Nat} {text behind : List UInt8} (state : σ),
      ItemHere buffer bufferLen index len text behind →
      Inside (fun _ => taken text behind) (parse (buffer.drop (index + 1)) (sizeLess len 2) state))
    {left : Nat} (hitems : JsonItems text left) :
    ∀ {index : Nat} {state : σ}, (buffer.take bufferLen).drop index = text →
      Inside (fun result => ∃ rest, JsonItemsTaken taken text left rest ∧
          (buffer.take bufferLen).drop result.2 = jsonFooter :: rest)
        (jsonItemRounds parse buffer bufferLen left index state) := by
  induction hitems with
  | @last text behind rest hitem hfooter =>
    intro index state h
    obtain ⟨len, next, hhere, hnext, hround⟩ :=
      @jsonItemRounds_round _ _ _ _ _ _ parse state hlen h hitem _ _ hfooter jsonFooter_quote 0
    rw [hround]
    apply (hparse state hhere).bind
    intro state' htaken
    rw [if_neg (Ne.symm jsonComma_footer), if_pos ⟨rfl, rfl⟩, jsonItemRounds_footer hnext]
    exact ⟨rest, .last hitem htaken hfooter, hnext⟩
  | @more text behind rest count hitem hcomma hitems ih =>
    intro index state h
    obtain ⟨len, next, hhere, hnext, hround⟩ :=
      @jsonItemRounds_round _ _ _ _ _ _ parse state hlen h hitem _ _ hcomma jsonComma_quote count
    rw [hround]
    apply (hparse state hhere).bind
    intro state' htaken
    obtain ⟨next', hgo, hnext'⟩ := goToNextChar_next hlen hnext hitems.ne_nil
    rw [if_pos rfl, hgo, ok_bind]
    apply (@ih next'.val state' hnext').mono
    rintro result ⟨rest', hmore, hlast⟩
    exact ⟨rest', .more hitem htaken hcomma hmore, hlast⟩

end loop

theorem jsonRecordAt_item (hlen : bufferLen ≤ buffer.length)
    (hhere : ItemHere buffer bufferLen index len text behind) :
    jsonRecordAt (buffer.drop (index + 1)) (sizeLess len 2) =
      jsonParseRecord jsonNewRecord ((text.drop 1).take (text.length - behind.length - 2)) := by
  by_cases hone : len = 1
  · subst hone
    have hbody : text.length - behind.length - 2 = 0 := by
      obtain ⟨-, -, -, hle, hbehind, -⟩ := hhere
      rw [hbehind, List.length_drop]
      omega
    rw [jsonRecordAt, jsonRecordRounds, List.drop_zero, sizeLess_of_le (Nat.zero_le _),
      itemHere_one hlen hhere, hbody, List.take_zero, jsonParseRecord_none rfl]
    rfl
  · obtain ⟨hsize, hsub, hlength, hbody⟩ := itemHere_body hlen hhere hone
    have hint := hhere.2.2.1
    rw [hsize, jsonRecordAt_eq hsub (by omega), hbody, hlength]

theorem jsonNextRecord_item (hlen : bufferLen ≤ buffer.length)
    (hhere : ItemHere buffer bufferLen index len text behind) (records : List JsonRecord) :
    jsonNextRecord (buffer.drop (index + 1)) (sizeLess len 2) records = (do
      let record ← jsonParseRecord jsonNewRecord
        ((text.drop 1).take (text.length - behind.length - 2))
      return records ++ [record]) := by
  rw [jsonNextRecord, jsonRecordAt_item hlen hhere]

theorem jsonNextRecord_inside (hlen : bufferLen ≤ buffer.length) (records : List JsonRecord)
    (hhere : ItemHere buffer bufferLen index len text behind) :
    Inside (fun _ => JsonRecordTaken text behind)
      (jsonNextRecord (buffer.drop (index + 1)) (sizeLess len 2) records) := by
  rw [jsonNextRecord_item hlen hhere]
  apply (jsonParseRecord_reads _ _).ok.bind
  rintro record ⟨-, hrecord⟩
  exact ⟨record, hrecord⟩

theorem jsonNextRecord_taken (hlen : bufferLen ≤ buffer.length) (records : List JsonRecord)
    (hhere : ItemHere buffer bufferLen index len text behind)
    (htaken : JsonRecordTaken text behind) :
    ∃ records', jsonNextRecord (buffer.drop (index + 1)) (sizeLess len 2) records =
      .ok records' := by
  obtain ⟨record, hrecord⟩ := htaken
  rw [jsonNextRecord_item hlen hhere, hrecord]
  exact ⟨_, rfl⟩

end items

end Wakaama
