import Mathlib.Data.List.TakeWhile
import Wakaama.Data.Proofs.JsonRecords

/-!
# What the members of the JSON object read

For each of the three members: where it is complete, the loop of `json_parse` goes on behind it, and
where the loop goes on it is complete.
-/

namespace Wakaama

section members

variable {buffer : List UInt8} {bufferLen index : Nat}

theorem goToSign (hlen : bufferLen ≤ buffer.length) {sign wanted : UInt8} {text : List UInt8}
    (h : (buffer.take bufferLen).drop index = sign :: text) {α : Type}
    (f : { next : Nat // index < next } → Reading α) :
    (∃ next rest, jsonSkipSpace text = wanted :: rest ∧
        (buffer.take bufferLen).drop next.val = wanted :: rest ∧
        (do
          let next ← goToNextChar buffer bufferLen index
          let sign ← peekAt buffer next.val
          if sign ≠ wanted then throw .failed else f next : Reading α) = f next) ∨
      ((∀ rest, jsonSkipSpace text ≠ wanted :: rest) ∧
        (do
          let next ← goToNextChar buffer bufferLen index
          let sign ← peekAt buffer next.val
          if sign ≠ wanted then throw .failed else f next : Reading α) = .error .failed) := by
  cases hspace : jsonSkipSpace text with
  | nil =>
    right
    rw [goToNextChar_end hlen h hspace]
    exact ⟨fun _ hcons => List.cons_ne_nil _ _ hcons.symm, rfl⟩
  | cons found rest =>
    obtain ⟨next, hgo, hnext⟩ :=
      goToNextChar_next hlen h (by rw [hspace]; exact List.cons_ne_nil _ _)
    rw [hspace] at hnext
    rw [hgo, ok_bind, peekAt_front hnext, ok_bind]
    by_cases hfound : found = wanted
    · left
      subst hfound
      rw [if_neg (not_not_intro rfl)]
      exact ⟨next, rest, rfl, hnext, rfl⟩
    · right
      rw [if_pos hfound]
      refine ⟨fun rest' hcons => ?_, rfl⟩
      cases hcons
      exact hfound rfl

variable {count : Nat} {text more behind : List UInt8} {sign : UInt8}

theorem JsonItemsTaken.items {taken : List UInt8 → List UInt8 → Prop} {rest : List UInt8}
    (h : JsonItemsTaken taken text count rest) : JsonItems text count := by
  induction h with
  | last hitem _ hfooter => exact .last hitem hfooter
  | more hitem _ hcomma _ ih => exact .more hitem hcomma ih

theorem JsonItems.pos (h : JsonItems text count) : 0 < count := by
  cases h with
  | last _ _ => exact Nat.one_pos
  | more _ _ _ => exact Nat.succ_pos _

theorem jsonArrayAt_begins (hlen : bufferLen ≤ buffer.length)
    (h : (buffer.take bufferLen).drop index = jsonQuote :: more)
    (hmin : jsonMinArrayLen ≤ more.length + 2) :
    (∃ first items, JsonArrayBegins (jsonQuote :: 101 :: jsonQuote :: more) items ∧ items ≠ [] ∧
        first ≤ bufferLen ∧ (buffer.take bufferLen).drop first = items ∧
        jsonArrayAt buffer bufferLen index = (do
          let count ← jsonCountItemsAt (buffer.drop first) (sizeLess bufferLen first)
          if count = 0 then throw .failed
          else jsonItemRounds jsonNextRecord buffer bufferLen count first [])) ∨
      ((∀ items, ¬ JsonArrayBegins (jsonQuote :: 101 :: jsonQuote :: more) items) ∧
        jsonArrayAt buffer bufferLen index = .error .failed) := by
  unfold jsonArrayAt
  obtain ⟨colon, text, hcolon, hdrop, hgo⟩ | ⟨hnone, hgo⟩ :=
    @goToSign _ _ _ hlen _ jsonColon _ h _ fun colon => (do
      let bracket ← goToNextChar buffer bufferLen colon.val
      let sign ← peekAt buffer bracket.val
      if sign ≠ jsonArrayBegin then throw .failed
      else
        let first ← goToNextChar buffer bufferLen bracket.val
        let count ← jsonCountItemsAt (buffer.drop first.val) (sizeLess bufferLen first.val)
        if count = 0 then throw .failed
        else jsonItemRounds jsonNextRecord buffer bufferLen count first.val [])
  · rw [hgo]
    obtain ⟨bracket, text', hbracket, hdrop', hgo'⟩ | ⟨hnone, hgo'⟩ :=
      @goToSign _ _ _ hlen _ jsonArrayBegin _ hdrop _ fun bracket => (do
        let first ← goToNextChar buffer bufferLen bracket.val
        let count ← jsonCountItemsAt (buffer.drop first.val) (sizeLess bufferLen first.val)
        if count = 0 then throw .failed
        else jsonItemRounds jsonNextRecord buffer bufferLen count first.val [])
    · rw [hgo']
      by_cases hspace : jsonSkipSpace text' = []
      · right
        rw [goToNextChar_end hlen hdrop' hspace]
        refine ⟨fun items hbegins => ?_, rfl⟩
        cases hbegins with
        | intro _ hcolon' hbracket' hitems =>
          rw [hcolon] at hcolon'
          cases hcolon'
          rw [hbracket] at hbracket'
          cases hbracket'
          exact hitems hspace
      · left
        obtain ⟨first, hfirst, hitems⟩ := goToNextChar_next hlen hdrop' hspace
        refine ⟨first.val, _, .intro hmin hcolon hbracket hspace, hspace, ?_, hitems, ?_⟩
        · obtain ⟨sign, items, hcons⟩ := List.exists_cons_of_ne_nil hspace
          rw [hcons] at hitems
          have hinside := take_inside hlen hitems
          omega
        · rw [hfirst, ok_bind]
    · right
      rw [hgo']
      refine ⟨fun items hbegins => ?_, rfl⟩
      cases hbegins with
      | intro _ hcolon' hbracket' _ =>
        rw [hcolon] at hcolon'
        cases hcolon'
        exact hnone _ hbracket'
  · right
    rw [hgo]
    refine ⟨fun items hbegins => ?_, rfl⟩
    cases hbegins with
    | intro _ hcolon' _ _ => exact hnone _ hcolon'

theorem JsonArrayBegins.unique {key items items' : List UInt8} (h : JsonArrayBegins key items)
    (h' : JsonArrayBegins key items') : items' = items := by
  cases h with
  | intro _ hcolon hbracket _ =>
    cases h' with
    | intro _ hcolon' hbracket' _ =>
      rw [hcolon] at hcolon'
      cases hcolon'
      rw [hbracket] at hbracket'
      cases hbracket'
      rfl

theorem items_front (hlen : bufferLen ≤ buffer.length) {first : Nat} {items : List UInt8}
    (hfirst : first ≤ bufferLen) (h : (buffer.take bufferLen).drop first = items) :
    sizeLess bufferLen first ≤ (buffer.drop first).length ∧
      ((buffer.drop first).take (sizeLess bufferLen first)).drop 0 = items := by
  rw [sizeLess_of_le hfirst, List.length_drop, take_drop]
  exact ⟨by omega, h⟩

theorem jsonArrayAt_over (hlen : bufferLen ≤ buffer.length) {items : List UInt8}
    (h : (buffer.take bufferLen).drop index = jsonQuote :: more)
    (hbegins : JsonArrayBegins (jsonQuote :: 101 :: jsonQuote :: more) items)
    (hfront : JsonItemsFront items (2 ^ 31)) :
    jsonArrayAt buffer bufferLen index = .error .overflow := by
  have hmin : jsonMinArrayLen ≤ more.length + 2 := by
    cases hbegins with
    | intro hmin _ _ _ => exact hmin
  obtain ⟨first, items', hbegins', -, hfirst, hitems, harray⟩ | ⟨hnone, -⟩ :=
    jsonArrayAt_begins hlen h hmin
  · cases hbegins.unique hbegins'
    obtain ⟨hsub, hdrop⟩ := items_front hlen hfirst hitems
    rw [harray, jsonCountItemsAt, countItemsRounds_over hsub hfront (Nat.zero_add _) hdrop]
    rfl
  · exact absurd hbegins (hnone items)

theorem jsonArrayAt_inside (hlen : bufferLen ≤ buffer.length)
    (h : (buffer.take bufferLen).drop index = jsonQuote :: more)
    (hmin : jsonMinArrayLen ≤ more.length + 2)
    (hfront : ∀ items, JsonArrayBegins (jsonQuote :: 101 :: jsonQuote :: more) items → ¬ JsonItemsFront items (2 ^ 31)) :
    Inside (fun result => ∃ items count behind,
        JsonArrayBegins (jsonQuote :: 101 :: jsonQuote :: more) items ∧ count < 2 ^ 31 ∧
        JsonItemsTaken JsonRecordTaken items count behind ∧
        (buffer.take bufferLen).drop result.2 = jsonFooter :: behind)
      (jsonArrayAt buffer bufferLen index) := by
  obtain ⟨first, items, hbegins, hne, hfirst, hitems, harray⟩ | ⟨-, harray⟩ :=
    jsonArrayAt_begins hlen h hmin
  · obtain ⟨hsub, hdrop⟩ := items_front hlen hfirst hitems
    rw [harray]
    apply (countItemsRounds_inside hsub _ (Nat.le_refl _) hne (by decide) hdrop
      (hfront items hbegins)).bind
    rintro count ⟨left, hcount, hint, hcounted⟩
    rw [Nat.zero_add] at hcount
    subst hcount
    rw [if_neg (Nat.ne_of_gt hcounted.pos)]
    apply (jsonItemRounds_inside hlen (jsonNextRecord_inside hlen) hcounted hitems).mono
    rintro result ⟨rest, hrecords, hlast⟩
    exact ⟨items, count, rest, hbegins, hint, hrecords, hlast⟩
  · rw [harray]
    trivial

theorem jsonArrayAt_records (hlen : bufferLen ≤ buffer.length) {items : List UInt8}
    (h : (buffer.take bufferLen).drop index = jsonQuote :: more)
    (hbegins : JsonArrayBegins (jsonQuote :: 101 :: jsonQuote :: more) items)
    (hcount : count < 2 ^ 31) (hrecords : JsonItemsTaken JsonRecordTaken items count behind) :
    ∃ records last, jsonArrayAt buffer bufferLen index = .ok (records, last) ∧
      (buffer.take bufferLen).drop last = jsonFooter :: behind := by
  have hmin : jsonMinArrayLen ≤ more.length + 2 := by
    cases hbegins with
    | intro hmin _ _ _ => exact hmin
  obtain ⟨first, items', hbegins', -, hfirst, hitems, harray⟩ | ⟨hnone, -⟩ :=
    jsonArrayAt_begins hlen h hmin
  · cases hbegins.unique hbegins'
    obtain ⟨hsub, hdrop⟩ := items_front hlen hfirst hitems
    obtain ⟨records, last, hrounds, hlast⟩ :=
      @jsonItemRounds_taken _ _ _ _ jsonNextRecord _ hlen (jsonNextRecord_taken hlen) _ _ hrecords
        first [] hitems
    refine ⟨records, last, ?_, hlast⟩
    rw [harray, jsonCountItemsAt, countItemsRounds_items hsub hrecords.items (by omega) hdrop,
      Nat.zero_add, ok_bind, if_neg (Nat.ne_of_gt hrecords.items.pos), hrounds]
  · exact absurd hbegins (hnone items)

theorem memberFront_behind (text : List UInt8) : memberFront text ++ memberBehind text = text :=
  List.takeWhile_append_dropWhile

theorem memberBehind_drop (text : List UInt8) :
    text.drop (memberFront text).length = memberBehind text :=
  calc text.drop (memberFront text).length
    _ = (memberFront text ++ memberBehind text).drop (memberFront text).length := by
      rw [memberFront_behind]
    _ = memberBehind text := List.drop_left

theorem memberFront_take (text : List UInt8) :
    text.take (memberFront text).length = memberFront text :=
  calc text.take (memberFront text).length
    _ = (memberFront text ++ memberBehind text).take (memberFront text).length := by
      rw [memberFront_behind]
    _ = memberFront text := List.take_left

theorem memberFront_end (h : isMemberEnd sign = true) :
    memberFront (sign :: text) = [] ∧ memberBehind (sign :: text) = sign :: text := by
  have hneg : ¬ (!isMemberEnd sign) = true := by
    rw [h]
    exact Bool.false_ne_true
  exact ⟨List.takeWhile_cons_of_neg hneg, List.dropWhile_cons_of_neg hneg⟩

theorem memberFront_sign (h : ¬ isMemberEnd sign = true) :
    memberFront (sign :: text) = sign :: memberFront text ∧
      memberBehind (sign :: text) = memberBehind text := by
  have hpos : (!isMemberEnd sign) = true := by
    rw [Bool.not_eq_true] at h
    rw [h]
    rfl
  exact ⟨List.takeWhile_cons_of_pos hpos, List.dropWhile_cons_of_pos hpos⟩

theorem memberBehind_sign (h : memberBehind text = sign :: behind) :
    sign = jsonComma ∨ sign = jsonItemEnd := by
  induction text with
  | nil => cases h
  | cons first text ih =>
    by_cases hend : isMemberEnd first = true
    · rw [(memberFront_end hend).2] at h
      cases h
      rw [isMemberEnd, Bool.or_eq_true, beq_iff_eq, beq_iff_eq] at hend
      exact hend
    · rw [(memberFront_sign hend).2] at h
      exact ih h

theorem jsonSkipSpace_behind (h : memberBehind text = sign :: behind) :
    jsonSkipSpace (sign :: behind) = sign :: behind := by
  apply jsonSkipSpace_sign
  obtain rfl | rfl := memberBehind_sign h
  · decide
  · decide

theorem jsonComma_front {text : List UInt8} : jsonComma ∉ memberFront text := by
  intro hmem
  have hnot := List.mem_takeWhile_imp hmem
  revert hnot
  decide

theorem member_last (hlen : bufferLen ≤ buffer.length)
    (h : (buffer.take bufferLen).drop index = text) (hpos : 0 < (memberFront text).length)
    (hbehind : memberBehind text = sign :: behind) :
    index + (memberFront text).length < bufferLen ∧
      ∃ last, (buffer.take bufferLen).drop (index + (memberFront text).length - 1) =
        last :: sign :: behind := by
  have hdrop : (buffer.take bufferLen).drop (index + (memberFront text).length) =
      sign :: behind := by
    rw [← List.drop_drop, h, memberBehind_drop, hbehind]
  have hinside := take_inside hlen hdrop
  have hlt : index + (memberFront text).length - 1 < (buffer.take bufferLen).length := by
    rw [List.length_take_of_le hlen]
    omega
  refine ⟨by omega, (buffer.take bufferLen)[index + (memberFront text).length - 1], ?_⟩
  rw [List.drop_eq_getElem_cons hlt, Nat.sub_add_cancel (by omega), hdrop]

theorem skipTokenFrom_front (hlen : bufferLen ≤ buffer.length) :
    ∀ {i : Nat}, (buffer.take bufferLen).drop i = text → i ≤ bufferLen →
      skipTokenFrom buffer bufferLen i = .ok (i + (memberFront text).length) := by
  induction text with
  | nil =>
    intro i h _
    rw [skipTokenFrom, dif_neg (Nat.not_lt.2 (take_end hlen h))]
    rfl
  | cons sign text ih =>
    intro i h hi
    have hinside := take_inside hlen h
    rw [skipTokenFrom, dif_pos (by omega), peekAt_front h, ok_bind]
    by_cases hend : isMemberEnd sign = true
    · rw [if_pos hend, (memberFront_end hend).1]
      rfl
    · rw [if_neg hend, (memberFront_sign hend).1, ih (drop_next h) (by omega), List.length_cons,
        Nat.add_right_comm, Nat.add_assoc]

theorem jsonTimeAt_front (hlen : bufferLen ≤ buffer.length)
    (h : (buffer.take bufferLen).drop index = text) (hindex : index ≤ bufferLen) :
    (memberBehind text = [] → jsonTimeAt buffer bufferLen index = .error .failed) ∧
      (0 < (memberFront text).length → memberBehind text ≠ [] →
        jsonTimeAt buffer bufferLen index = .ok (index + (memberFront text).length - 1)) := by
  rw [jsonTimeAt, skipTokenFrom_front hlen h hindex, ok_bind]
  have hdrop : (buffer.take bufferLen).drop (index + (memberFront text).length) =
      memberBehind text := by
    rw [← List.drop_drop, h, memberBehind_drop]
  have hlength := congrArg List.length (memberFront_behind text)
  have hall := congrArg List.length h
  rw [List.length_append] at hlength
  rw [List.length_drop, List.length_take_of_le hlen] at hall
  constructor
  · intro hnil
    rw [hnil, List.length_nil] at hlength
    rw [if_pos (by omega)]
    rfl
  · intro hpos hne
    have hbehind := List.length_pos_iff.2 hne
    rw [if_neg (by omega)]
    rfl

theorem itemLenFrom_front {text : List UInt8} :
    ∀ {itemLen : Nat}, itemLen < 2 ^ 31 → buffer.drop (index + itemLen) = text →
      index + itemLen ≤ buffer.length →
      (memberBehind text ≠ [] ∧ itemLen + (memberFront text).length < 2 ^ 31 →
        itemLenFrom buffer buffer.length index itemLen =
          .ok (itemLen + (memberFront text).length)) ∧
      (¬ (memberBehind text ≠ [] ∧ itemLen + (memberFront text).length < 2 ^ 31) →
        ¬ ReadsInside (itemLenFrom buffer buffer.length index itemLen)) := by
  induction text with
  | nil =>
    intro itemLen _ h hle
    have hend := List.drop_eq_nil_iff.1 h
    rw [itemLenFrom, peekAt_end hend]
    exact ⟨fun hall => absurd rfl hall.1, fun _ hinside => hinside⟩
  | cons sign text ih =>
    intro itemLen hint h hle
    have hinside := drop_inside h
    rw [itemLenFrom, peekAt_drop h, ok_bind]
    by_cases hend : isMemberEnd sign = true
    · rw [if_pos hend, (memberFront_end hend).1, (memberFront_end hend).2]
      exact ⟨fun _ => rfl, fun hnot => absurd ⟨List.cons_ne_nil _ _, hint⟩ hnot⟩
    · rw [if_neg hend, dif_pos (by omega), (memberFront_sign hend).1, (memberFront_sign hend).2,
        List.length_cons]
      by_cases hroom : itemLen + 1 < 2 ^ 31
      · obtain ⟨hok, hbad⟩ := @ih (itemLen + 1) hroom (drop_next h) (by omega)
        have hsame : itemLen + ((memberFront text).length + 1) =
            itemLen + 1 + (memberFront text).length := by omega
        rw [countUp_ok hroom, ok_bind, hsame]
        exact ⟨hok, hbad⟩
      · rw [countUp_over hroom]
        exact ⟨fun hall => absurd hall.2 (by omega), fun _ hinside => hinside⟩

theorem jsonBaseNameAt_front (h : buffer.drop index = text)
    (hbehind : memberBehind text = sign :: behind) (hint : (memberFront text).length < 2 ^ 31) :
    (jsonSplit (memberFront text) = none →
        jsonBaseNameAt buffer buffer.length index = .error .failed) ∧
      (jsonSplit (memberFront text) ≠ none →
        ∃ base, jsonBaseNameAt buffer buffer.length index =
            .ok (base, index + (memberFront text).length - 1) ∧
          base.1 + base.2 ≤ buffer.length) := by
  have hall := congrArg List.length h
  have hlength := congrArg List.length (memberFront_behind text)
  rw [List.length_append, hbehind, List.length_cons] at hlength
  rw [List.length_drop] at hall
  have hne : memberBehind text ≠ [] := by
    rw [hbehind]
    exact List.cons_ne_nil _ _
  have hitem := (@itemLenFrom_front _ index text 0 (by decide) h (by omega)).1
    ⟨hne, by rwa [Nat.zero_add]⟩
  rw [Nat.zero_add] at hitem
  have hsub : (memberFront text).length ≤ (buffer.drop index).length := by
    rw [h]
    omega
  have hfront : (buffer.drop index).take (memberFront text).length = memberFront text := by
    rw [h, memberFront_take]
  have hagrees := jsonSplitAt_agrees hsub
  rw [hfront] at hagrees
  rw [jsonBaseNameAt, hitem, ok_bind, if_neg (by omega)]
  constructor
  · intro hnone
    rw [hnone] at hagrees
    rw [hagrees]
    rfl
  · intro hsome
    cases hsplit : jsonSplit (memberFront text) with
    | none => exact absurd hsplit hsome
    | some found =>
      obtain ⟨token, value, rest⟩ := found
      rw [hsplit] at hagrees
      obtain ⟨range, next, hresult, hfound⟩ := hagrees
      have hle := hfound.next_le
      have hinside := hfound.value_inside
      have hnext : next = (memberFront text).length := by
        obtain hend | ⟨behind', hcomma⟩ := hfound.next_comma
        · exact hend
        · have hmem : jsonComma ∈ (memberFront text).drop next := by
            rw [hcomma]
            exact List.mem_cons_self
          exact absurd (List.mem_of_mem_drop hmem) jsonComma_front
      refine ⟨(range.valueStart + index, range.valueLen), ?_, by dsimp only; omega⟩
      rw [hresult, ok_bind]
      dsimp only
      rw [toInt_nat (by omega), if_neg (by omega), Int.toNat_natCast, hnext]
      rfl

end members

end Wakaama
