import Wakaama.Data.JsonScan

/-!
# What the scanners of JSON read

What is in front of an index is a text of its own, and every scanner does on the bytes that it is
given what is done on that text.
-/

namespace Wakaama

section scans

variable {buffer text rest : List UInt8} {bufferLen index : Nat} {sign : UInt8}

theorem take_inside (hlen : bufferLen ≤ buffer.length)
    (h : (buffer.take bufferLen).drop index = sign :: rest) :
    bufferLen = index + rest.length + 1 := by
  rw [← drop_inside h, List.length_take_of_le hlen]

theorem take_end (hlen : bufferLen ≤ buffer.length)
    (h : (buffer.take bufferLen).drop index = []) : bufferLen ≤ index := by
  have hall := List.drop_eq_nil_iff.1 h
  rwa [List.length_take_of_le hlen] at hall

/-! ## White space -/

theorem jsonSkipSpace_length (text : List UInt8) : (jsonSkipSpace text).length ≤ text.length :=
  (List.dropWhile_suffix _).length_le

theorem jsonSkipSpace_space (h : prvIsWhiteSpace sign = true) :
    jsonSkipSpace (sign :: text) = jsonSkipSpace text := List.dropWhile_cons_of_pos h

theorem jsonSkipSpace_sign (h : ¬ prvIsWhiteSpace sign = true) :
    jsonSkipSpace (sign :: text) = sign :: text := List.dropWhile_cons_of_neg h

theorem jsonSkipSpace_twice (text : List UInt8) :
    jsonSkipSpace (jsonSkipSpace text) = jsonSkipSpace text := by
  induction text with
  | nil => rfl
  | cons sign text ih =>
    by_cases hspace : prvIsWhiteSpace sign = true
    · rw [jsonSkipSpace_space hspace, ih]
    · rw [jsonSkipSpace_sign hspace, jsonSkipSpace_sign hspace]

theorem jsonSkipSpaceFrom_front (hlen : bufferLen ≤ buffer.length) :
    ∀ {i : Nat}, (buffer.take bufferLen).drop i = text → i ≤ bufferLen →
      ∃ j, jsonSkipSpaceFrom buffer bufferLen i = .ok j ∧ j ≤ bufferLen ∧
        (buffer.take bufferLen).drop j = jsonSkipSpace text := by
  induction text with
  | nil =>
    intro i h hi
    refine ⟨i, ?_, hi, h⟩
    rw [jsonSkipSpaceFrom, dif_neg (Nat.not_lt.2 (take_end hlen h))]
    rfl
  | cons sign text ih =>
    intro i h hi
    have hinside := take_inside hlen h
    rw [jsonSkipSpaceFrom, dif_pos (by omega), peekAt_front h, ok_bind]
    by_cases hspace : prvIsWhiteSpace sign = true
    · rw [if_pos hspace, jsonSkipSpace_space hspace]
      exact ih (drop_next h) (by omega)
    · rw [if_neg hspace, jsonSkipSpace_sign hspace]
      exact ⟨i, rfl, hi, h⟩

theorem take_drop (buffer : List UInt8) (bufferLen index : Nat) :
    (buffer.drop index).take (bufferLen - index) = (buffer.take bufferLen).drop index :=
  List.drop_take.symm

theorem jsonSkipSpaceAt_front (hlen : bufferLen ≤ buffer.length) (hi : index ≤ bufferLen)
    (h : (buffer.take bufferLen).drop index = text) :
    ∃ skipped, jsonSkipSpaceAt (buffer.drop index) (sizeLess bufferLen index) = .ok skipped ∧
      index + skipped ≤ bufferLen ∧
      (buffer.take bufferLen).drop (index + skipped) = jsonSkipSpace text := by
  have hlen' : bufferLen - index ≤ (buffer.drop index).length := by
    rw [List.length_drop]
    omega
  have h' : ((buffer.drop index).take (bufferLen - index)).drop 0 = text := by
    rw [take_drop]
    exact h
  obtain ⟨j, hskip, hj, hdrop⟩ := jsonSkipSpaceFrom_front hlen' h' (Nat.zero_le _)
  refine ⟨j, ?_, by omega, ?_⟩
  · rw [sizeLess_of_le hi]
    exact hskip
  · rw [take_drop, List.drop_drop] at hdrop
    exact hdrop

theorem goToNextChar_end (hlen : bufferLen ≤ buffer.length)
    (h : (buffer.take bufferLen).drop index = sign :: text) (hspace : jsonSkipSpace text = []) :
    goToNextChar buffer bufferLen index = .error .failed := by
  have hinside := take_inside hlen h
  obtain ⟨skipped, hskip, hj, hdrop⟩ :=
    jsonSkipSpaceAt_front hlen (show index + 1 ≤ bufferLen by omega) (drop_next h)
  rw [hspace] at hdrop
  have hend := take_end hlen hdrop
  rw [goToNextChar, hskip, ok_bind, if_pos (by omega)]
  rfl

theorem goToNextChar_next (hlen : bufferLen ≤ buffer.length)
    (h : (buffer.take bufferLen).drop index = sign :: text) (hspace : jsonSkipSpace text ≠ []) :
    ∃ next, goToNextChar buffer bufferLen index = .ok next ∧
      (buffer.take bufferLen).drop next.val = jsonSkipSpace text := by
  have hinside := take_inside hlen h
  obtain ⟨skipped, hskip, hj, hdrop⟩ :=
    jsonSkipSpaceAt_front hlen (show index + 1 ≤ bufferLen by omega) (drop_next h)
  have hbefore : index + 1 + skipped ≠ bufferLen := by
    intro hend
    apply hspace
    rw [← hdrop, List.drop_eq_nil_iff, List.length_take_of_le hlen]
    exact Nat.le_of_eq hend.symm
  refine ⟨⟨index + 1 + skipped, by omega⟩, ?_, hdrop⟩
  rw [goToNextChar, hskip, ok_bind, if_neg hbefore]
  rfl

/-! ## The length of an item -/

/-- The result of `json_itemLength`. -/
def itemLengthResult : Option Nat → Reading Int
  | none => .error .failed
  | some len => .ok (toInt len)

theorem itemLengthLoop_item : itemLengthLoop false index (sign :: text) =
    if sign = jsonItemBegin then none
    else if sign = jsonItemEnd then some (index + 1)
    else itemLengthLoop (sign == jsonQuote) (index + 1) text := by
  rw [itemLengthLoop.eq_def]
  rfl

theorem itemLengthLoop_quote :
    itemLengthLoop true index (jsonQuote :: text) = itemLengthLoop false (index + 1) text := by
  rw [itemLengthLoop.eq_def]
  rfl

theorem itemLengthLoop_escape {character : UInt8} :
    itemLengthLoop true index (backslash :: character :: text) =
      itemLengthLoop true (index + 2) text := by
  rw [itemLengthLoop.eq_def]
  rfl

theorem itemLengthLoop_cut : itemLengthLoop true index [backslash] = none := by
  rw [itemLengthLoop.eq_def]
  rfl

theorem itemLengthLoop_string (hquote : sign ≠ jsonQuote) (hback : sign ≠ backslash) :
    itemLengthLoop true index (sign :: text) = itemLengthLoop true (index + 1) text := by
  rw [itemLengthLoop.eq_def]
  dsimp only
  rw [if_pos rfl, if_neg hquote, if_neg hback]

variable {inString : Bool} {behind : List UInt8} {count : Nat}

theorem itemLengthLoop_space (hspace : prvIsWhiteSpace sign = true) :
    itemLengthLoop inString index (sign :: text) = itemLengthLoop inString (index + 1) text := by
  have hquote : sign ≠ jsonQuote := by
    rintro rfl
    revert hspace
    decide
  have hback : sign ≠ backslash := by
    rintro rfl
    revert hspace
    decide
  have hbegin : sign ≠ jsonItemBegin := by
    rintro rfl
    revert hspace
    decide
  have hend : sign ≠ jsonItemEnd := by
    rintro rfl
    revert hspace
    decide
  cases inString with
  | true => exact itemLengthLoop_string hquote hback
  | false => rw [itemLengthLoop_item, if_neg hbegin, if_neg hend, beq_eq_false_iff_ne.2 hquote]

theorem itemLengthLoop_skip :
    ∀ {index : Nat}, itemLengthLoop inString index text =
      itemLengthLoop inString (index + (text.length - (jsonSkipSpace text).length))
        (jsonSkipSpace text) := by
  induction text with
  | nil => exact rfl
  | cons sign text ih =>
    intro index
    by_cases hspace : prvIsWhiteSpace sign = true
    · have hle := jsonSkipSpace_length text
      rw [itemLengthLoop_space hspace, jsonSkipSpace_space hspace, ih, List.length_cons]
      congr 1
      omega
    · rw [jsonSkipSpace_sign hspace, Nat.sub_self, Nat.add_zero]

def itemPlace (inString : Bool) : ItemPlace := if inString then .string else .item

theorem itemLengthRounds_next {inString : Bool} (hlen : bufferLen ≤ buffer.length)
    (h : (buffer.take bufferLen).drop index = sign :: text)
    (hrounds : ∀ {index' : Nat}, (buffer.take bufferLen).drop index' = jsonSkipSpace text →
      jsonSkipSpace text ≠ [] →
      itemLengthRounds buffer bufferLen (itemPlace inString) index' =
        itemLengthResult (itemLengthLoop inString index' (jsonSkipSpace text))) :
    (goToNextChar buffer bufferLen index >>= fun next =>
        itemLengthRounds buffer bufferLen (itemPlace inString) next.val) =
      itemLengthResult (itemLengthLoop inString (index + 1) text) := by
  rw [itemLengthLoop_skip]
  by_cases hspace : jsonSkipSpace text = []
  · rw [goToNextChar_end hlen h hspace, hspace]
    cases inString <;> rfl
  · obtain ⟨next, hgo, hnext⟩ := goToNextChar_next hlen h hspace
    have hinside := take_inside hlen h
    have hle := jsonSkipSpace_length text
    have hindex : next.val = index + 1 + (text.length - (jsonSkipSpace text).length) := by
      obtain ⟨sign', text', hcons⟩ := List.exists_cons_of_ne_nil hspace
      rw [hcons] at hnext hle ⊢
      have hinside' := take_inside hlen hnext
      rw [List.length_cons] at hle ⊢
      omega
    rw [hgo, ok_bind, hrounds hnext hspace, hindex]

theorem itemLengthRounds_front (hlen : bufferLen ≤ buffer.length) (size : Nat) :
    ∀ {text : List UInt8} {inString : Bool} {index : Nat}, text.length ≤ size → text ≠ [] →
      (buffer.take bufferLen).drop index = text →
      itemLengthRounds buffer bufferLen (itemPlace inString) index =
        itemLengthResult (itemLengthLoop inString index text) := by
  induction size with
  | zero =>
    intro text inString index hsize hne _
    exact absurd (List.length_eq_zero_iff.1 (Nat.le_zero.1 hsize)) hne
  | succ size ih =>
    intro text inString index hsize hne h
    obtain ⟨sign, text, rfl⟩ := List.exists_cons_of_ne_nil hne
    rw [List.length_cons] at hsize
    have hinside := take_inside hlen h
    have hnext : ∀ inString, (goToNextChar buffer bufferLen index >>= fun next =>
          itemLengthRounds buffer bufferLen (itemPlace inString) next.val) =
        itemLengthResult (itemLengthLoop inString (index + 1) text) := by
      intro inString
      have hle := jsonSkipSpace_length text
      exact itemLengthRounds_next hlen h fun h' hne' => ih (by omega) hne' h'
    cases inString with
    | false =>
      rw [itemPlace, if_neg Bool.false_ne_true, itemLengthRounds, dif_pos (by omega),
        peekAt_front h, ok_bind, itemLengthLoop_item]
      dsimp only
      by_cases hbegin : sign = jsonItemBegin
      · rw [if_pos hbegin, if_pos hbegin]
        rfl
      rw [if_neg hbegin, if_neg hbegin]
      by_cases hend : sign = jsonItemEnd
      · rw [if_pos hend, if_pos hend]
        rfl
      rw [if_neg hend, if_neg hend]
      by_cases hquote : sign = jsonQuote
      · rw [if_pos hquote, hquote]
        exact hnext true
      · rw [if_neg hquote, beq_eq_false_iff_ne.2 hquote]
        exact hnext false
    | true =>
      rw [itemPlace, if_pos rfl, itemLengthRounds, dif_pos (by omega), peekAt_front h, ok_bind]
      dsimp only
      by_cases hquote : sign = jsonQuote
      · rw [if_pos hquote, hquote, itemLengthLoop_quote]
        exact hnext false
      rw [if_neg hquote]
      by_cases hback : sign = backslash
      · rw [if_pos hback, hback]
        cases text with
        | nil =>
          rw [List.length_nil] at hinside
          rw [if_pos (by omega), itemLengthLoop_cut]
          rfl
        | cons character text =>
          rw [List.length_cons] at hsize hinside
          rw [if_neg (by omega), itemLengthLoop_escape]
          have hle := jsonSkipSpace_length text
          exact itemLengthRounds_next hlen (drop_next h)
            fun h' hne' => @ih _ true _ (by omega) hne' h'
      · rw [if_neg hback, itemLengthLoop_string hquote hback]
        exact hnext true

theorem jsonItemLengthAt_front (hlen : bufferLen ≤ buffer.length) :
    jsonItemLengthAt buffer bufferLen =
      itemLengthResult (jsonItemLength (buffer.take bufferLen)) := by
  rw [jsonItemLengthAt, itemLengthRounds]
  cases htext : buffer.take bufferLen with
  | nil =>
    have hfront : (buffer.take bufferLen).drop 0 = [] := htext
    rw [dif_neg (Nat.not_lt.2 (take_end hlen hfront))]
    rfl
  | cons sign text =>
    have hfront : (buffer.take bufferLen).drop 0 = sign :: text := htext
    have hinside := take_inside hlen hfront
    rw [dif_pos (by omega), peekAt_front hfront, ok_bind, jsonItemLength]
    dsimp only
    by_cases hbegin : sign = jsonItemBegin
    · rw [if_neg (not_not_intro hbegin), if_pos hbegin]
      exact @itemLengthRounds_next _ _ _ _ _ false hlen hfront
        fun h' hne' => itemLengthRounds_front hlen _ (Nat.le_refl _) hne' h'
    · rw [if_pos hbegin, if_neg hbegin]
      rfl

/-! ## The items of an array -/

theorem itemLengthLoop_le {len : Nat} (h : itemLengthLoop inString index text = some len) :
    len ≤ index + text.length := by
  fun_induction itemLengthLoop inString index text with
  | case1 | case3 | case6 => cases h
  | case7 =>
    cases h
    rw [List.length_cons]
    omega
  | case2 | case4 | case5 | case8 => grind

theorem jsonItemLength_le {len : Nat} (h : jsonItemLength text = some len) :
    len ≤ text.length := by
  cases text with
  | nil => cases h
  | cons sign text =>
    rw [jsonItemLength] at h
    split at h
    · have hle := itemLengthLoop_le h
      rw [List.length_cons]
      omega
    · cases h

theorem toInt_bounds (n : Int) : toInt n < 2 ^ 31 ∧ (0 ≤ n → toInt n ≤ n) := by
  unfold toInt
  rw [Int.bmod_def]
  split <;> omega

theorem itemLength_sub (hlen : bufferLen ≤ buffer.length) (hi : index ≤ bufferLen)
    (h : (buffer.take bufferLen).drop index = text) :
    jsonItemLengthAt (buffer.drop index) (sizeLess bufferLen index) =
      itemLengthResult (jsonItemLength text) := by
  have hlen' : bufferLen - index ≤ (buffer.drop index).length := by
    rw [List.length_drop]
    omega
  rw [sizeLess_of_le hi, jsonItemLengthAt_front hlen', take_drop, h]

theorem itemBehind_some (hlen : bufferLen ≤ buffer.length)
    (h : (buffer.take bufferLen).drop index = text) (hitem : jsonItemBehind text = some behind) :
    ∃ len : Nat, 0 < len ∧ len < 2 ^ 31 ∧
      jsonItemLengthAt (buffer.drop index) (sizeLess bufferLen index) = .ok (len : Int) ∧
      len ≤ text.length ∧ behind = text.drop len ∧
      ∃ last, (buffer.take bufferLen).drop (index + (len - 1)) = last :: behind := by
  unfold jsonItemBehind at hitem
  cases hlength : jsonItemLength text with
  | none =>
    rw [hlength] at hitem
    cases hitem
  | some n =>
    rw [hlength] at hitem
    dsimp only at hitem
    split at hitem
    · cases hitem
    · rename_i hpos
      have hbehind := Option.some.inj hitem
      obtain ⟨hint, hle⟩ := toInt_bounds n
      have hn := jsonItemLength_le hlength
      have hle' := hle (Int.natCast_nonneg n)
      have hindex : index ≤ bufferLen := by
        by_contra hover
        have htext : text = [] := by
          rw [← h, List.drop_eq_nil_iff, List.length_take_of_le hlen]
          omega
        rw [htext, List.length_nil] at hn
        omega
      refine ⟨(toInt n).toNat, by omega, by omega, ?_, by omega, hbehind.symm, ?_⟩
      · rw [itemLength_sub hlen hindex h, hlength, Int.toNat_of_nonneg (by omega)]
        rfl
      · rw [← List.drop_drop, h]
        have hlt : (toInt n).toNat - 1 < text.length := by omega
        refine ⟨text[(toInt n).toNat - 1], ?_⟩
        rw [List.drop_eq_getElem_cons hlt, Nat.sub_add_cancel (by omega), hbehind]

theorem itemBehind_none (hlen : bufferLen ≤ buffer.length) (hi : index ≤ bufferLen)
    (h : (buffer.take bufferLen).drop index = text) (hitem : jsonItemBehind text = none) :
    jsonItemLengthAt (buffer.drop index) (sizeLess bufferLen index) = .error .failed ∨
      ∃ len, len ≤ 0 ∧
        jsonItemLengthAt (buffer.drop index) (sizeLess bufferLen index) = .ok len := by
  rw [itemLength_sub hlen hi h]
  unfold jsonItemBehind at hitem
  cases hlength : jsonItemLength text with
  | none => exact .inl rfl
  | some n =>
    rw [hlength] at hitem
    dsimp only at hitem
    split at hitem
    · exact .inr ⟨toInt n, ‹_›, rfl⟩
    · cases hitem

theorem countItemsRounds_none (hlen : bufferLen ≤ buffer.length)
    (h : (buffer.take bufferLen).drop index = text) (hne : text ≠ [])
    (hitem : jsonItemBehind text = none) :
    countItemsRounds buffer bufferLen count index = .error .failed := by
  obtain ⟨sign, text, rfl⟩ := List.exists_cons_of_ne_nil hne
  have hinside := take_inside hlen h
  rw [countItemsRounds, dif_pos (by omega)]
  obtain hfailed | ⟨len, hneg, hlength⟩ := itemBehind_none hlen (by omega) h hitem
  · rw [hfailed]
    rfl
  · rw [hlength, ok_bind, if_pos hneg]
    rfl

theorem countItemsRounds_item {count : Nat} {behind : List UInt8}
    (hlen : bufferLen ≤ buffer.length) (h : (buffer.take bufferLen).drop index = text)
    (hitem : jsonItemBehind text = some behind) :
    ∃ index', (∃ last, (buffer.take bufferLen).drop index' = last :: behind) ∧
      countItemsRounds buffer bufferLen count index = (do
        let count ← countUp count
        let behind ← goToNextChar buffer bufferLen index'
        let sign ← peekAt buffer behind.val
        if sign = jsonFooter then return count
        else if sign = jsonComma then
          let next ← goToNextChar buffer bufferLen behind.val
          countItemsRounds buffer bufferLen count next.val
        else throw .failed) := by
  obtain ⟨len, hpos, -, hlength, hle, -, hlast⟩ := itemBehind_some hlen h hitem
  refine ⟨_, hlast, ?_⟩
  have hindex : index < bufferLen := by
    by_contra hover
    have htext : text = [] := by
      rw [← h, List.drop_eq_nil_iff, List.length_take_of_le hlen]
      omega
    rw [htext, List.length_nil] at hle
    omega
  have hnat : ((len : Int) - 1).toNat = len - 1 := by omega
  rw [countItemsRounds, dif_pos hindex, hlength, ok_bind, if_neg (by omega), hnat]

theorem countUp_over (h : ¬ count + 1 < 2 ^ 31) :
    countUp count = .error .overflow := if_neg h

theorem countUp_ok (h : count + 1 < 2 ^ 31) : countUp count = .ok (count + 1) :=
  if_pos h

theorem countItemsRounds_footer (hlen : bufferLen ≤ buffer.length)
    (h : (buffer.take bufferLen).drop index = text) (hitem : jsonItemBehind text = some behind)
    (hfooter : jsonSkipSpace behind = jsonFooter :: rest) (hcount : count + 1 < 2 ^ 31) :
    countItemsRounds buffer bufferLen count index = .ok (count + 1) := by
  obtain ⟨index', ⟨last, hlast⟩, hround⟩ := @countItemsRounds_item _ _ _ _ count _ hlen h hitem
  obtain ⟨next, hgo, hnext⟩ :=
    goToNextChar_next hlen hlast (by rw [hfooter]; exact List.cons_ne_nil _ _)
  rw [hfooter] at hnext
  rw [hround, countUp_ok hcount, ok_bind, hgo, ok_bind, peekAt_front hnext, ok_bind, if_pos rfl]
  rfl

theorem jsonComma_footer : jsonComma ≠ jsonFooter := by decide

theorem countItemsRounds_comma {count : Nat} {behind rest : List UInt8}
    (hlen : bufferLen ≤ buffer.length) (h : (buffer.take bufferLen).drop index = text)
    (hitem : jsonItemBehind text = some behind)
    (hcomma : jsonSkipSpace behind = jsonComma :: rest) (hcount : count + 1 < 2 ^ 31) :
    (jsonSkipSpace rest = [] → countItemsRounds buffer bufferLen count index = .error .failed) ∧
      (jsonSkipSpace rest ≠ [] → ∃ next,
        (buffer.take bufferLen).drop next = jsonSkipSpace rest ∧
        countItemsRounds buffer bufferLen count index =
          countItemsRounds buffer bufferLen (count + 1) next) := by
  obtain ⟨index', ⟨last, hlast⟩, hround⟩ := @countItemsRounds_item _ _ _ _ count _ hlen h hitem
  obtain ⟨next, hgo, hnext⟩ :=
    goToNextChar_next hlen hlast (by rw [hcomma]; exact List.cons_ne_nil _ _)
  rw [hcomma] at hnext
  rw [hround, countUp_ok hcount, ok_bind, hgo, ok_bind, peekAt_front hnext, ok_bind,
    if_neg jsonComma_footer, if_pos rfl]
  constructor
  · intro hspace
    rw [goToNextChar_end hlen hnext hspace]
    rfl
  · intro hspace
    obtain ⟨next', hgo', hnext'⟩ := goToNextChar_next hlen hnext hspace
    rw [hgo']
    exact ⟨next'.val, hnext', rfl⟩

theorem countItemsRounds_other (hlen : bufferLen ≤ buffer.length)
    (h : (buffer.take bufferLen).drop index = text) (hitem : jsonItemBehind text = some behind)
    (hother : ∀ rest, jsonSkipSpace behind ≠ jsonFooter :: rest ∧ jsonSkipSpace behind ≠ jsonComma :: rest)
    (hcount : count + 1 < 2 ^ 31) :
    countItemsRounds buffer bufferLen count index = .error .failed := by
  obtain ⟨index', ⟨last, hlast⟩, hround⟩ := @countItemsRounds_item _ _ _ _ count _ hlen h hitem
  rw [hround, countUp_ok hcount, ok_bind]
  cases hspace : jsonSkipSpace behind with
  | nil =>
    rw [goToNextChar_end hlen hlast hspace]
    rfl
  | cons sign rest =>
    obtain ⟨next, hgo, hnext⟩ :=
      goToNextChar_next hlen hlast (by rw [hspace]; exact List.cons_ne_nil _ _)
    rw [hspace] at hnext
    have hfooter : sign ≠ jsonFooter := by
      rintro rfl
      exact (hother rest).1 hspace
    have hcomma : sign ≠ jsonComma := by
      rintro rfl
      exact (hother rest).2 hspace
    rw [hgo, ok_bind, peekAt_front hnext, ok_bind, if_neg hfooter, if_neg hcomma]
    rfl

theorem JsonItemsFront.ne_nil (h : JsonItemsFront text count) : text ≠ [] := by
  rintro rfl
  cases h with
  | one hitem => cases hitem
  | more hitem _ _ => cases hitem

theorem JsonItems.ne_nil (h : JsonItems text count) : text ≠ [] := by
  rintro rfl
  cases h with
  | last hitem _ => cases hitem
  | more hitem _ _ => cases hitem

theorem JsonItemsFront.pos (h : JsonItemsFront text count) : 0 < count := by
  cases h with
  | one _ => exact Nat.one_pos
  | more _ _ _ => exact Nat.succ_pos _

theorem countItemsRounds_over (hlen : bufferLen ≤ buffer.length) {left : Nat}
    (hfront : JsonItemsFront text left) :
    ∀ {count index : Nat}, count + left = 2 ^ 31 → (buffer.take bufferLen).drop index = text →
      countItemsRounds buffer bufferLen count index = .error .overflow := by
  induction hfront with
  | one hitem =>
    intro count index hcount h
    obtain ⟨index', -, hround⟩ := @countItemsRounds_item _ _ _ _ count _ hlen h hitem
    rw [hround, countUp_over (by omega)]
    rfl
  | more hitem hcomma hfront ih =>
    intro count index hcount h
    have hpos := hfront.pos
    obtain ⟨next, hnext, hround⟩ := (@countItemsRounds_comma _ _ _ _ count _ _ hlen h hitem hcomma
      (by omega)).2 hfront.ne_nil
    rw [hround]
    exact ih (by omega) hnext

theorem countItemsRounds_items (hlen : bufferLen ≤ buffer.length) {left : Nat}
    (hitems : JsonItems text left) :
    ∀ {count index : Nat}, count + left < 2 ^ 31 → (buffer.take bufferLen).drop index = text →
      countItemsRounds buffer bufferLen count index = .ok (count + left) := by
  induction hitems with
  | last hitem hfooter =>
    intro count index hcount h
    exact countItemsRounds_footer hlen h hitem hfooter hcount
  | more hitem hcomma hitems ih =>
    intro count index hcount h
    obtain ⟨next, hnext, hround⟩ := (@countItemsRounds_comma _ _ _ _ count _ _ hlen h hitem hcomma
      (by omega)).2 hitems.ne_nil
    rw [hround, ih (by omega) hnext, Nat.add_right_comm, Nat.add_assoc]

theorem countItemsRounds_inside (hlen : bufferLen ≤ buffer.length) (size : Nat) :
    ∀ {text : List UInt8} {count index : Nat}, text.length ≤ size → text ≠ [] → count < 2 ^ 31 →
      (buffer.take bufferLen).drop index = text → ¬ JsonItemsFront text (2 ^ 31 - count) →
      Inside (fun result => ∃ left, result = count + left ∧ result < 2 ^ 31 ∧ JsonItems text left)
        (countItemsRounds buffer bufferLen count index) := by
  induction size with
  | zero =>
    intro text count index hsize hne _ _ _
    exact absurd (List.length_eq_zero_iff.1 (Nat.le_zero.1 hsize)) hne
  | succ size ih =>
    intro text count index hsize hne hcount h hfront
    cases hitem : jsonItemBehind text with
    | none =>
      rw [countItemsRounds_none hlen h hne hitem]
      trivial
    | some behind =>
      have hroom : count + 1 < 2 ^ 31 := by
        by_contra hfull
        have hone : 2 ^ 31 - count = 1 := by omega
        rw [hone] at hfront
        exact hfront (.one hitem)
      by_cases hfooter : ∃ rest, jsonSkipSpace behind = jsonFooter :: rest
      · obtain ⟨rest, hfooter⟩ := hfooter
        rw [countItemsRounds_footer hlen h hitem hfooter hroom]
        exact ⟨1, rfl, hroom, .last hitem hfooter⟩
      by_cases hcomma : ∃ rest, jsonSkipSpace behind = jsonComma :: rest
      · obtain ⟨rest, hcomma⟩ := hcomma
        obtain ⟨hend, hmore⟩ := @countItemsRounds_comma _ _ _ _ count _ _ hlen h hitem hcomma hroom
        by_cases hspace : jsonSkipSpace rest = []
        · rw [hend hspace]
          trivial
        · obtain ⟨next, hnext, hround⟩ := hmore hspace
          obtain ⟨len, hpos, -, -, hle, hbehind, -⟩ := itemBehind_some hlen h hitem
          have hshort : (jsonSkipSpace rest).length ≤ size := by
            have hbehind' := congrArg List.length hbehind
            have hcomma' := congrArg List.length hcomma
            have hspaces := jsonSkipSpace_length behind
            have hspaces' := jsonSkipSpace_length rest
            rw [List.length_drop] at hbehind'
            rw [List.length_cons] at hcomma'
            omega
          have hfront' : ¬ JsonItemsFront (jsonSkipSpace rest) (2 ^ 31 - (count + 1)) := by
            intro hrest
            have hall := JsonItemsFront.more hitem hcomma hrest
            have hsame : 2 ^ 31 - (count + 1) + 1 = 2 ^ 31 - count := by omega
            rw [hsame] at hall
            exact hfront hall
          rw [hround]
          apply (ih hshort hspace hroom hnext hfront').mono
          rintro result ⟨left, rfl, hresult, hitems⟩
          exact ⟨left + 1, by omega, hresult, .more hitem hcomma hitems⟩
      · rw [countItemsRounds_other hlen h hitem
          (fun rest => ⟨fun hf => hfooter ⟨rest, hf⟩, fun hc => hcomma ⟨rest, hc⟩⟩) hroom]
        trivial

end scans

end Wakaama
