import Wakaama.Data.Proofs.JsonScans

/-!
# What `json_split` reads

The steps of `json_split` with the token and the value that are found so far as ranges, beside the
same steps on the text itself.
-/

namespace Wakaama

def sliceOf (text : List UInt8) (start len : Nat) : List UInt8 := (text.drop start).take len

section slices

variable {text rest : List UInt8} {start index : Nat} {sign : UInt8}

theorem sliceOf_next (h : text.drop index = sign :: rest) (hstart : start ≤ index) :
    sliceOf text start (index + 1 - start) = sliceOf text start (index - start) ++ [sign] := by
  have hdrop : (text.drop start).drop (index - start) = sign :: rest := by
    rw [List.drop_drop, Nat.add_sub_cancel' hstart, h]
  have hsub : index + 1 - start = index - start + 1 := by omega
  rw [sliceOf, sliceOf, hsub, List.take_add, hdrop]
  rfl

theorem sliceOf_empty : sliceOf text start 0 = [] := List.take_zero

theorem sliceOf_single (h : text.drop index = sign :: rest) :
    sliceOf text index (index + 1 - index) = [sign] := by
  rw [sliceOf_next h (Nat.le_refl index), Nat.sub_self, sliceOf_empty]
  rfl

end slices

def TokenFound (text : List UInt8) (range : JsonRange) (index : Nat) (token : List UInt8) : Prop :=
  range.tokenStart + range.tokenLen ≤ index ∧
    token = sliceOf text range.tokenStart range.tokenLen

def ValueBegun (text : List UInt8) (range : JsonRange) (index : Nat) (value : List UInt8) : Prop :=
  range.valueStart < index ∧ value = sliceOf text range.valueStart (index - range.valueStart)

/-- The ranges of a step are what the step has found in front of an index. -/
def SplitHolds (text : List UInt8) (step : ItemStep) (last : UInt8) (token value : List UInt8)
    (range : JsonRange) (index : Nat) : Prop :=
  match step with
  | .start => token = [] ∧ value = []
  | .token =>
    range.tokenStart ≤ index ∧ token = sliceOf text range.tokenStart (index - range.tokenStart)
  | .anySeparator | .separator => TokenFound text range index token
  | .quotedValue =>
    TokenFound text range range.valueStart token ∧ ValueBegun text range index value ∧
      ∃ behind, text.drop (index - 1) = last :: behind
  | .value => TokenFound text range range.valueStart token ∧ ValueBegun text range index value
  | .done =>
    TokenFound text range range.valueStart token ∧ 0 < range.valueLen ∧
      range.valueStart + range.valueLen ≤ index ∧
      value = sliceOf text range.valueStart range.valueLen

/-- A range and what is behind it, as they are found in the text. -/
structure SplitFound (text : List UInt8) (bufferLen : Nat) (token value rest : List UInt8)
    (range : JsonRange) (next : Nat) : Prop where
  token_inside : range.tokenStart + range.tokenLen ≤ bufferLen
  token_eq : token = sliceOf text range.tokenStart range.tokenLen
  value_inside : range.valueStart + range.valueLen ≤ bufferLen
  value_eq : value = sliceOf text range.valueStart range.valueLen
  value_pos : 0 < range.valueLen
  next_le : next ≤ bufferLen
  next_comma : next = bufferLen ∨ ∃ behind, text.drop next = jsonComma :: behind
  rest_eq : rest = text.drop (next + 1)

/-- The two results of `json_split` agree. -/
def SplitAgrees (text : List UInt8) (bufferLen : Nat) (result : Reading (JsonRange × Int)) :
    Option (List UInt8 × List UInt8 × List UInt8) → Prop
  | none => result = .error .failed
  | some (token, value, rest) =>
    ∃ (range : JsonRange) (next : Nat), result = .ok (range, toInt next) ∧
      SplitFound text bufferLen token value rest range next

theorem jsonSplitLoop_space {step : ItemStep} {last sign : UInt8} {token value rest : List UInt8}
    (hstep : step.skipsSpace = true) (hspace : prvIsWhiteSpace sign = true) :
    jsonSplitLoop step last token value (sign :: rest) =
      jsonSplitLoop step sign token value rest := by
  rw [jsonSplitLoop.eq_def]
  dsimp only
  rw [hstep, hspace, Bool.and_self, if_pos rfl]

theorem jsonSplitLoop_last {step : ItemStep} {last last' : UInt8} {token value text : List UInt8}
    (hstep : step.skipsSpace = true) :
    jsonSplitLoop step last token value text = jsonSplitLoop step last' token value text := by
  cases text with
  | nil => rfl
  | cons sign rest =>
    cases step with
    | start | anySeparator | separator | done => rfl
    | token | quotedValue | value => cases hstep

theorem jsonSplitLoop_skip {step : ItemStep} {last last' : UInt8} {token value text : List UInt8}
    (hstep : step.skipsSpace = true) :
    jsonSplitLoop step last token value text =
      jsonSplitLoop step last' token value (jsonSkipSpace text) := by
  induction text generalizing last with
  | nil => rfl
  | cons sign text ih =>
    by_cases hspace : prvIsWhiteSpace sign = true
    · rw [jsonSplitLoop_space hstep hspace, jsonSkipSpace_space hspace, ih]
    · rw [jsonSkipSpace_sign hspace, jsonSplitLoop_last hstep]

theorem SplitHolds.skip {text token value : List UInt8} {step : ItemStep} {last last' : UInt8}
    {range : JsonRange} {index index' : Nat} (hstep : step.skipsSpace = true)
    (h : SplitHolds text step last token value range index) (hindex : index ≤ index') :
    SplitHolds text step last' token value range index' := by
  cases step with
  | start => exact h
  | anySeparator | separator => exact ⟨Nat.le_trans h.1 hindex, h.2⟩
  | done => exact ⟨h.1, h.2.1, Nat.le_trans h.2.2.1 hindex, h.2.2.2⟩
  | token | quotedValue | value => cases hstep

section rounds

variable {buffer token value rest : List UInt8} {bufferLen index : Nat} {step : ItemStep}
  {last sign : UInt8} {range : JsonRange}

theorem splitExit_agrees (hindex : index ≤ bufferLen)
    (hcomma : index = bufferLen ∨ ∃ behind, (buffer.take bufferLen).drop index = jsonComma :: behind)
    (h : SplitHolds (buffer.take bufferLen) step last token value range index)
    (hstep : step = .value ∨ step = .done) :
    SplitAgrees (buffer.take bufferLen) bufferLen (jsonSplitExit step range index)
      (some (token, value, (buffer.take bufferLen).drop (index + 1))) := by
  obtain rfl | rfl := hstep
  · obtain ⟨⟨htoken, rfl⟩, hbegun, rfl⟩ := h
    have hinside : range.valueStart + (index - range.valueStart) ≤ bufferLen := by omega
    exact ⟨_, index, rfl, by dsimp only; omega, rfl, hinside, rfl, by dsimp only; omega, hindex,
      hcomma, rfl⟩
  · obtain ⟨⟨htoken, rfl⟩, hpos, hle, rfl⟩ := h
    exact ⟨_, index, rfl, by omega, rfl, by omega, rfl, hpos, hindex, hcomma, rfl⟩

theorem splitExit_failed (hvalue : step ≠ .value) (hdone : step ≠ .done) :
    jsonSplitExit step range index = .error .failed := by
  cases step with
  | value => exact absurd rfl hvalue
  | done => exact absurd rfl hdone
  | _ => rfl

theorem splitRounds_next (hlen : bufferLen ≤ buffer.length)
    (h : (buffer.take bufferLen).drop index = sign :: rest)
    (hholds : SplitHolds (buffer.take bufferLen) step sign token value range (index + 1))
    (hrounds : ∀ {text : List UInt8} {last : UInt8} {index' : Nat}, text.length ≤ rest.length →
      (buffer.take bufferLen).drop index' = text → index' ≤ bufferLen →
      (step.skipsSpace = true → jsonSkipSpace text = text) →
      SplitHolds (buffer.take bufferLen) step last token value range index' →
      SplitAgrees (buffer.take bufferLen) bufferLen
        (jsonSplitRounds buffer bufferLen step range index')
        (jsonSplitLoop step last token value text)) :
    SplitAgrees (buffer.take bufferLen) bufferLen
      (do
        let skipped ←
          if step.skipsSpace then
            jsonSkipSpaceAt (buffer.drop (index + 1)) (sizeLess bufferLen (index + 1))
          else .ok 0
        jsonSplitRounds buffer bufferLen step range (index + 1 + skipped))
      (jsonSplitLoop step sign token value rest) := by
  have hinside := take_inside hlen h
  cases hstep : step.skipsSpace with
  | true =>
    obtain ⟨skipped, hskip, hle, hdrop⟩ :=
      jsonSkipSpaceAt_front hlen (show index + 1 ≤ bufferLen by omega) (drop_next h)
    rw [if_pos rfl, hskip, ok_bind, @jsonSplitLoop_skip _ _ sign _ _ _ hstep]
    exact hrounds (jsonSkipSpace_length rest) hdrop hle (fun _ => jsonSkipSpace_twice rest)
      (hholds.skip hstep (Nat.le_add_right _ _))
  | false =>
    rw [if_neg Bool.false_ne_true, ok_bind]
    exact hrounds (Nat.le_refl _) (drop_next h) (by omega)
      (fun hskips => absurd (hstep.symm.trans hskips) Bool.false_ne_true) hholds

theorem jsonSplitLoop_sign (hskips : (step.skipsSpace && prvIsWhiteSpace sign) = false) :
    jsonSplitLoop step last token value (sign :: rest) =
      match step with
      | .start => if sign = jsonQuote then jsonSplitLoop .token sign token value rest else none
      | .token =>
        if sign = jsonComma then none
        else if sign = jsonQuote then jsonSplitLoop .anySeparator sign token value rest
        else jsonSplitLoop .token sign (token ++ [sign]) value rest
      | .anySeparator =>
        if sign = jsonColon then jsonSplitLoop .separator sign token value rest else none
      | .separator =>
        if sign = jsonQuote then jsonSplitLoop .quotedValue sign token [sign] rest
        else if prvIsReserved sign then none
        else jsonSplitLoop .value sign token [sign] rest
      | .quotedValue =>
        if sign = jsonQuote ∧ last ≠ backslash then
          jsonSplitLoop .done sign token (value ++ [sign]) rest
        else jsonSplitLoop .quotedValue sign token (value ++ [sign]) rest
      | .value =>
        if sign = jsonComma then some (token, value, rest)
        else if prvIsWhiteSpace sign then jsonSplitLoop .done sign token value rest
        else jsonSplitLoop .value sign token (value ++ [sign]) rest
      | .done => if sign = jsonComma then some (token, value, rest) else none := by
  rw [jsonSplitLoop.eq_def]
  dsimp only
  rw [hskips, if_neg Bool.false_ne_true]
  cases step <;> rfl

theorem splitRounds_end (hlen : bufferLen ≤ buffer.length)
    (h : (buffer.take bufferLen).drop index = []) (hindex : index ≤ bufferLen)
    (hholds : SplitHolds (buffer.take bufferLen) step last token value range index) :
    SplitAgrees (buffer.take bufferLen) bufferLen
      (jsonSplitRounds buffer bufferLen step range index)
      (jsonSplitLoop step last token value []) := by
  rw [jsonSplitRounds, dif_neg (Nat.not_lt.2 (take_end hlen h)), jsonSplitLoop.eq_def]
  dsimp only
  by_cases hstep : step = .value ∨ step = .done
  · rw [if_pos hstep]
    have hend : index = bufferLen := Nat.le_antisymm hindex (take_end hlen h)
    have hexit := splitExit_agrees hindex (.inl hend) hholds hstep
    rwa [← List.drop_drop, h] at hexit
  · rw [if_neg hstep]
    exact splitExit_failed (fun hvalue => hstep (.inl hvalue)) fun hdone => hstep (.inr hdone)

theorem splitRounds_agree (hlen : bufferLen ≤ buffer.length) (size : Nat) :
    ∀ {text token value : List UInt8} {step : ItemStep} {last : UInt8} {range : JsonRange}
      {index : Nat}, text.length ≤ size → (buffer.take bufferLen).drop index = text →
      index ≤ bufferLen → (step.skipsSpace = true → jsonSkipSpace text = text) →
      SplitHolds (buffer.take bufferLen) step last token value range index →
      SplitAgrees (buffer.take bufferLen) bufferLen
        (jsonSplitRounds buffer bufferLen step range index)
        (jsonSplitLoop step last token value text) := by
  induction size with
  | zero =>
    intro text token value step last range index hsize h hindex _ hholds
    cases List.length_eq_zero_iff.1 (Nat.le_zero.1 hsize)
    exact splitRounds_end hlen h hindex hholds
  | succ size ih =>
    intro text token value step last range index hsize h hindex hskips hholds
    cases text with
    | nil => exact splitRounds_end hlen h hindex hholds
    | cons sign rest =>
      have hinside := take_inside hlen h
      have hspace : (step.skipsSpace && prvIsWhiteSpace sign) = false := by
        cases hstep : step.skipsSpace with
        | false => rfl
        | true =>
          have hnone := hskips hstep
          by_contra hwhite
          rw [Bool.true_and, Bool.not_eq_false] at hwhite
          rw [jsonSkipSpace_space hwhite] at hnone
          have hle := jsonSkipSpace_length rest
          rw [hnone, List.length_cons] at hle
          omega
      have hnext : ∀ {token value : List UInt8} {step : ItemStep} {range : JsonRange},
          SplitHolds (buffer.take bufferLen) step sign token value range (index + 1) →
          SplitAgrees (buffer.take bufferLen) bufferLen
            (do
              let skipped ←
                if step.skipsSpace then
                  jsonSkipSpaceAt (buffer.drop (index + 1)) (sizeLess bufferLen (index + 1))
                else .ok 0
              jsonSplitRounds buffer bufferLen step range (index + 1 + skipped))
            (jsonSplitLoop step sign token value rest) := by
        intro token value step range hholds'
        rw [List.length_cons] at hsize
        exact splitRounds_next hlen h hholds' fun hle => ih (by omega)
      rw [jsonSplitRounds, dif_pos (by omega), peekAt_front h, ok_bind, jsonSplitLoop_sign hspace]
      cases step with
      | start =>
        dsimp only [jsonSplitStep]
        obtain ⟨rfl, rfl⟩ := hholds
        by_cases hquote : sign = jsonQuote
        · rw [if_neg (by rw [hquote]; decide), if_neg (not_not_intro hquote), if_pos hquote]
          exact hnext ⟨Nat.le_refl _, by rw [Nat.sub_self, sliceOf_empty]⟩
        · rw [if_neg hquote]
          by_cases hcomma : sign = jsonComma
          · rw [if_pos hcomma]
            rfl
          · rw [if_neg hcomma, if_pos hquote]
            rfl
      | token =>
        dsimp only [jsonSplitStep]
        obtain ⟨hstart, rfl⟩ := hholds
        by_cases hcomma : sign = jsonComma
        · rw [if_pos hcomma, if_pos hcomma]
          rfl
        rw [if_neg hcomma, if_neg hcomma]
        by_cases hquote : sign = jsonQuote
        · rw [if_pos hquote, if_pos hquote]
          have hle : range.tokenStart + (index - range.tokenStart) ≤ index + 1 := by omega
          exact hnext ⟨hle, rfl⟩
        · rw [if_neg hquote, if_neg hquote]
          exact hnext ⟨by omega, (sliceOf_next h hstart).symm⟩
      | anySeparator =>
        dsimp only [jsonSplitStep]
        obtain ⟨htoken, rfl⟩ := hholds
        by_cases hcolon : sign = jsonColon
        · rw [if_neg (by rw [hcolon]; decide), if_neg (not_not_intro hcolon), if_pos hcolon]
          exact hnext ⟨by omega, rfl⟩
        · rw [if_neg hcolon]
          by_cases hcomma : sign = jsonComma
          · rw [if_pos hcomma]
            rfl
          · rw [if_neg hcomma, if_pos hcolon]
            rfl
      | separator =>
        dsimp only [jsonSplitStep]
        obtain ⟨htoken, rfl⟩ := hholds
        have hbegun : ValueBegun (buffer.take bufferLen) { range with valueStart := index }
            (index + 1) [sign] := ⟨Nat.lt_succ_self _, (sliceOf_single h).symm⟩
        by_cases hquote : sign = jsonQuote
        · rw [if_neg (by rw [hquote]; decide), if_pos hquote, if_pos hquote]
          exact hnext ⟨⟨htoken, rfl⟩, hbegun, rest, h⟩
        rw [if_neg hquote]
        by_cases hcomma : sign = jsonComma
        · rw [if_pos hcomma, if_neg hquote, if_pos (by rw [hcomma]; decide)]
          rfl
        rw [if_neg hcomma, if_neg hquote]
        by_cases hreserved : prvIsReserved sign = true
        · rw [if_pos hreserved, if_pos hreserved]
          rfl
        · rw [if_neg hreserved, if_neg hreserved]
          exact hnext ⟨⟨htoken, rfl⟩, hbegun⟩
      | quotedValue =>
        dsimp only [jsonSplitStep]
        obtain ⟨htoken, ⟨hstart, rfl⟩, behind, hlast⟩ := hholds
        have hvalue := sliceOf_next h (Nat.le_of_lt hstart)
        have hback := peekAt_front hlast
        by_cases hquote : sign = jsonQuote
        · rw [if_pos hquote, sizeLess_of_le (by omega), hback, ok_bind]
          by_cases hescaped : last = backslash
          · rw [if_neg (not_not_intro hescaped), if_neg fun hall => hall.2 hescaped]
            exact hnext ⟨htoken, ⟨by omega, hvalue.symm⟩, rest, h⟩
          · rw [if_pos hescaped, if_pos ⟨hquote, hescaped⟩]
            have hsame : index + 1 - range.valueStart = index - range.valueStart + 1 := by omega
            rw [hsame] at hvalue
            have hle : range.valueStart + (index - range.valueStart + 1) ≤ index + 1 := by omega
            exact hnext ⟨htoken, Nat.succ_pos _, hle, hvalue.symm⟩
        · rw [if_neg hquote, if_neg fun hall => hquote hall.1]
          exact hnext ⟨htoken, ⟨by omega, hvalue.symm⟩, rest, h⟩
      | value =>
        dsimp only [jsonSplitStep]
        by_cases hcomma : sign = jsonComma
        · rw [if_pos hcomma, if_pos hcomma]
          have hexit := splitExit_agrees hindex (.inr ⟨rest, hcomma ▸ h⟩) hholds (.inl rfl)
          rwa [drop_next h] at hexit
        rw [if_neg hcomma, if_neg hcomma]
        obtain ⟨htoken, hstart, rfl⟩ := hholds
        by_cases hwhite : prvIsWhiteSpace sign = true
        · rw [if_pos hwhite, if_pos hwhite]
          have hpos : 0 < index - range.valueStart := by omega
          have hle : range.valueStart + (index - range.valueStart) ≤ index + 1 := by omega
          exact hnext ⟨htoken, hpos, hle, rfl⟩
        · rw [if_neg hwhite, if_neg hwhite]
          exact hnext ⟨htoken, by omega, (sliceOf_next h (Nat.le_of_lt hstart)).symm⟩
      | done =>
        dsimp only [jsonSplitStep]
        by_cases hcomma : sign = jsonComma
        · rw [if_pos hcomma, if_pos hcomma]
          have hexit := splitExit_agrees hindex (.inr ⟨rest, hcomma ▸ h⟩) hholds (.inr rfl)
          rwa [drop_next h] at hexit
        · rw [if_neg hcomma, if_neg hcomma]
          rfl

theorem jsonSplitAt_agrees (hlen : bufferLen ≤ buffer.length) :
    SplitAgrees (buffer.take bufferLen) bufferLen (jsonSplitAt buffer bufferLen)
      (jsonSplit (buffer.take bufferLen)) := by
  obtain ⟨index, hskip, hle, hdrop⟩ :=
    @jsonSkipSpaceFrom_front _ _ _ hlen 0 List.drop_zero (Nat.zero_le _)
  rw [jsonSplitAt, jsonSkipSpaceAt, hskip, ok_bind, jsonSplit, @jsonSplitLoop_skip _ _ 0 _ _ _ rfl]
  by_cases hend : index = bufferLen
  · have hnil : jsonSkipSpace (buffer.take bufferLen) = [] := by
      rw [← hdrop, List.drop_eq_nil_iff, List.length_take_of_le hlen]
      exact Nat.le_of_eq hend.symm
    rw [if_pos hend, hnil]
    rfl
  · rw [if_neg hend]
    exact splitRounds_agree hlen _ (Nat.le_refl _) hdrop hle
      (fun _ => jsonSkipSpace_twice _) ⟨rfl, rfl⟩

end rounds

end Wakaama
