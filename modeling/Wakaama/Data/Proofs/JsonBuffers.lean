import Wakaama.Data.Proofs.JsonMembers

/-!
# What `json_parse` reads

The members of the object one behind the other. The loop is inside of the buffer as long as every
member that it reaches lets it.
-/

namespace Wakaama

def JsonSeen.Reached (seen : JsonSeen) (text rest : List UInt8) : Prop :=
  JsonReaches text seen.records.isSome seen.base.isSome seen.time rest

def JsonSeen.BaseInside (seen : JsonSeen) (text : List UInt8) : Prop :=
  ∀ base, seen.base = some base → base.1 + base.2 ≤ text.length

def MemberLeads (text : List UInt8) (seen : JsonSeen) (last : Nat) : Prop :=
  seen.BaseInside text ∧ ∃ sign behind, text.drop last = sign :: behind ∧
    ∀ next, jsonSkipSpace behind = jsonComma :: next → seen.Reached text next

section members

variable {text rest more : List UInt8} {seen : JsonSeen} {quote index : Nat}

theorem drop_front_whole {front : List UInt8} (h : text.drop index = front) :
    (text.take text.length).drop index = front := by
  rw [List.take_length]
  exact h

theorem sizeLess_key (h : text.drop quote = rest) (hne : rest ≠ []) :
    sizeLess text.length (quote + 1) = rest.length - 1 := by
  obtain ⟨sign, rest, rfl⟩ := List.exists_cons_of_ne_nil hne
  have hinside := drop_inside h
  rw [sizeLess_of_le (by omega), List.length_cons]
  omega

theorem memberArray_inside (hreached : seen.Reached text rest) (hbase : seen.BaseInside text)
    (hkey : jsonSkipSpace rest = jsonQuote :: 101 :: more)
    (h : text.drop quote = jsonQuote :: 101 :: more)
    (hfront : seen.records = none → ∀ items, JsonArrayBegins (jsonSkipSpace rest) items →
      ¬ JsonItemsFront items (2 ^ 31)) :
    Inside (fun result => MemberLeads text result.1.val result.2)
      (jsonMemberAt text text.length seen 101 (quote + 1)) := by
  unfold jsonMemberAt
  rw [if_pos rfl, sizeLess_key h (List.cons_ne_nil _ _)]
  apply Inside.ite
  · intro _
    trivial
  · intro hmin
    rw [List.length_cons, List.length_cons] at hmin
    match more, h, hkey, hmin with
    | [], _, _, hmin => exact absurd (by decide) hmin
    | sign :: more, h, hkey, hmin =>
      have hsign := drop_next (drop_next h)
      rw [List.length_cons] at hmin
      rw [peekAt_drop hsign, ok_bind]
      apply Inside.ite
      · intro _
        trivial
      · intro hquote
        cases Decidable.not_not.1 hquote
        split
        · rename_i hnone
          have hmin' : jsonMinArrayLen ≤ more.length + 2 := by omega
          rw [hkey] at hfront
          apply (jsonArrayAt_inside (Nat.le_refl _) (drop_front_whole hsign) hmin'
            (hfront hnone)).bind
          rintro ⟨records, last⟩ ⟨items, count, behind, hbegins, hcount, hrecords, hlast⟩
          rw [List.take_length] at hlast
          refine ⟨hbase, jsonFooter, behind, hlast, fun next hcomma => ?_⟩
          have hreached' : JsonReaches text false seen.base.isSome seen.time rest := by
            rw [JsonSeen.Reached, hnone] at hreached
            exact hreached
          rw [← hkey] at hbegins
          exact JsonReaches.array hreached' hbegins hcount hrecords hcomma
        · trivial

theorem memberFront_key {kind : UInt8} (hkind : ¬ isMemberEnd kind = true) :
    memberFront (jsonQuote :: 98 :: kind :: jsonQuote :: more) =
        jsonQuote :: 98 :: kind :: jsonQuote :: memberFront more ∧
      memberBehind (jsonQuote :: 98 :: kind :: jsonQuote :: more) = memberBehind more := by
  have hquote : ¬ isMemberEnd jsonQuote = true := by decide
  have hletter : ¬ isMemberEnd 98 = true := by decide
  rw [(memberFront_sign hquote).1, (memberFront_sign hletter).1, (memberFront_sign hkind).1,
    (memberFront_sign hquote).1, (memberFront_sign hquote).2, (memberFront_sign hletter).2,
    (memberFront_sign hkind).2, (memberFront_sign hquote).2]
  exact ⟨rfl, rfl⟩

theorem kind_time : ¬ isMemberEnd 116 = true := by decide

theorem kind_name : ¬ isMemberEnd 110 = true := by decide

theorem memberTime_inside (hreached : JsonReaches text seen.records.isSome seen.base.isSome false rest)
    (hbase : seen.BaseInside text)
    (hbegins : JsonBaseBegins 116 (jsonSkipSpace rest) more)
    (h : text.drop quote = jsonSkipSpace rest) :
    Inside (fun last => MemberLeads text { seen with time := true } last)
      (jsonTimeAt text text.length (quote + 3)) := by
  have hdrop : text.drop (quote + 3) = jsonQuote :: more := by
    rw [← List.drop_drop, h, hbegins.1]
    rfl
  have hinside := drop_inside hdrop
  obtain ⟨hcut, hend⟩ := jsonTimeAt_front (Nat.le_refl _) (drop_front_whole hdrop) (by omega)
  have hquote : ¬ isMemberEnd jsonQuote = true := by decide
  have hpos : 0 < (memberFront (jsonQuote :: more)).length := by
    rw [(memberFront_sign hquote).1]
    exact Nat.succ_pos _
  by_cases hnil : memberBehind (jsonQuote :: more) = []
  · rw [hcut hnil]
    trivial
  · rw [hend hpos hnil]
    obtain ⟨sign, behind, hbehind⟩ := List.exists_cons_of_ne_nil hnil
    obtain ⟨-, last, hlast⟩ :=
      member_last (Nat.le_refl _) (drop_front_whole hdrop) hpos hbehind
    rw [List.take_length] at hlast
    refine ⟨hbase, last, sign :: behind, hlast, fun next hcomma => ?_⟩
    rw [jsonSkipSpace_behind hbehind] at hcomma
    cases hcomma
    rw [(memberFront_sign hquote).2] at hbehind
    exact JsonReaches.time hreached hbegins hbehind

theorem memberName_inside
    (hreached : JsonReaches text seen.records.isSome false seen.time rest)
    (hbegins : JsonBaseBegins 110 (jsonSkipSpace rest) more)
    (h : text.drop quote = jsonSkipSpace rest) (hend : memberBehind more ≠ [])
    (hint : (memberFront (jsonSkipSpace rest)).length < 2 ^ 31) :
    Inside (fun result => MemberLeads text { seen with base := some result.1 } result.2)
      (jsonBaseNameAt text text.length quote) := by
  have hkey := @memberFront_key more _ kind_name
  rw [← hbegins.1] at hkey
  obtain ⟨sign, behind, hbehind⟩ := List.exists_cons_of_ne_nil hend
  obtain ⟨hnone, hsome⟩ := jsonBaseNameAt_front h (hkey.2.trans hbehind) hint
  have hpos : 0 < (memberFront (jsonSkipSpace rest)).length := by
    rw [hkey.1]
    exact Nat.succ_pos _
  by_cases hsplit : jsonSplit (memberFront (jsonSkipSpace rest)) = none
  · rw [hnone hsplit]
    trivial
  · obtain ⟨base, hresult, hbase⟩ := hsome hsplit
    obtain ⟨-, last, hlast⟩ :=
      member_last (Nat.le_refl _) (drop_front_whole h) hpos (hkey.2.trans hbehind)
    rw [List.take_length] at hlast
    rw [hresult]
    refine ⟨?_, last, sign :: behind, hlast, fun next hcomma => ?_⟩
    · intro base' hbase'
      obtain rfl := Option.some.inj hbase'
      exact hbase
    · rw [jsonSkipSpace_behind (hkey.2.trans hbehind)] at hcomma
      cases hcomma
      exact JsonReaches.base hreached hbegins hsplit hint hbehind

theorem memberBase_inside (hreached : seen.Reached text rest) (hbase : seen.BaseInside text)
    (hkey : jsonSkipSpace rest = jsonQuote :: 98 :: more) (h : text.drop quote = jsonSkipSpace rest)
    (hname : seen.base = none → ∀ more, JsonBaseBegins 110 (jsonSkipSpace rest) more →
      memberBehind more ≠ [] ∧ (memberFront (jsonSkipSpace rest)).length < 2 ^ 31) :
    Inside (fun result => MemberLeads text result.1.val result.2)
      (jsonMemberAt text text.length seen 98 (quote + 1)) := by
  have hdrop := h
  rw [hkey] at hdrop
  unfold jsonMemberAt
  rw [if_neg (by decide), if_pos rfl, sizeLess_key hdrop (List.cons_ne_nil _ _)]
  apply Inside.ite
  · intro _
    trivial
  · intro hmin
    rw [List.length_cons, List.length_cons] at hmin
    match more, hdrop, hkey, hmin with
    | [], _, _, hmin => exact absurd (by decide) hmin
    | [_], _, _, hmin => exact absurd (show 2 < jsonMinBxLen by decide) hmin
    | kind :: sign :: more, hdrop, hkey, hmin =>
      have hkind := drop_next (drop_next hdrop)
      have hsign := drop_next hkind
      have hmin' : jsonMinBxLen ≤ more.length + 3 := by
        simp only [List.length_cons] at hmin
        omega
      rw [peekAt_drop hkind, ok_bind]
      apply Inside.ite
      · rintro rfl
        rw [peekAt_drop hsign, ok_bind]
        apply Inside.ite
        · intro _
          trivial
        · intro hquote
          cases Decidable.not_not.1 hquote
          split
          · rename_i htime
            rw [JsonSeen.Reached, htime] at hreached
            apply (memberTime_inside hreached hbase ⟨hkey, hmin'⟩ h).bind
            intro last hlast
            exact hlast
          · trivial
      · intro _
        apply Inside.ite
        · rintro rfl
          rw [peekAt_drop hsign, ok_bind]
          apply Inside.ite
          · intro _
            trivial
          · intro hquote
            cases Decidable.not_not.1 hquote
            split
            · rename_i hnone
              obtain ⟨hend, hint⟩ := hname hnone more ⟨hkey, hmin'⟩
              rw [JsonSeen.Reached, hnone] at hreached
              apply (memberName_inside hreached ⟨hkey, hmin'⟩ h hend hint).bind
              rintro ⟨base, last⟩ hlast
              exact hlast
            · trivial
        · intro _
          trivial

/-- The members that are reached are read inside, as long as the next one lets them. -/
theorem jsonMembersAt_inside (hend : JsonMembersEnd text) (left : Nat) :
    ∀ {seen : JsonSeen} {index : Nat} {sign : UInt8} {rest : List UInt8}, seen.left < left →
      text.drop index = sign :: rest → seen.Reached text rest → seen.BaseInside text →
      Inside (fun seen' => seen'.BaseInside text)
        (jsonMembersAt text text.length seen index) := by
  induction left with
  | zero =>
    intro seen index sign rest hleft
    exact absurd hleft (Nat.not_lt_zero _)
  | succ left ih =>
    intro seen index sign rest hleft h hreached hbase
    obtain ⟨hcut, hname, harray⟩ := hend _ _ _ _ hreached
    rw [jsonMembersAt]
    by_cases hspace : jsonSkipSpace rest = []
    · rw [goToNextChar_end (Nat.le_refl _) (drop_front_whole h) hspace]
      trivial
    obtain ⟨quote, hgo, hquote⟩ :=
      goToNextChar_next (Nat.le_refl _) (drop_front_whole h) hspace
    rw [List.take_length] at hquote
    obtain ⟨first, more, hcons⟩ := List.exists_cons_of_ne_nil hspace
    have hdrop := hquote
    rw [hcons] at hdrop
    have hinside := drop_inside hdrop
    rw [hgo, ok_bind, peekAt_drop hdrop, ok_bind]
    apply Inside.ite
    · intro _
      trivial
    intro hfirst
    cases Decidable.not_not.1 hfirst
    rw [if_neg (by omega)]
    cases more with
    | nil => exact absurd hcons hcut
    | cons key more =>
      rw [peekAt_drop (drop_next hdrop), ok_bind]
      have hmember : Inside (fun result => MemberLeads text result.1.val result.2)
          (jsonMemberAt text text.length seen key (quote.val + 1)) := by
        by_cases he : key = 101
        · subst he
          exact memberArray_inside hreached hbase hcons hdrop
            fun hnone => harray (by rw [hnone]; rfl)
        by_cases hb : key = 98
        · subst hb
          exact memberBase_inside hreached hbase hcons hquote
            fun hnone => hname (by rw [hnone]; rfl)
        · unfold jsonMemberAt
          rw [if_neg he, if_neg hb]
          trivial
      apply hmember.bind
      rintro ⟨seen', last⟩ ⟨hbase', sign', behind, hlast, hnext⟩
      dsimp only at hlast hbase' hnext ⊢
      by_cases hspace' : jsonSkipSpace behind = []
      · rw [goToNextChar_end (Nat.le_refl _) (drop_front_whole hlast) hspace']
        trivial
      obtain ⟨next, hgo', hdrop'⟩ :=
        goToNextChar_next (Nat.le_refl _) (drop_front_whole hlast) hspace'
      rw [List.take_length] at hdrop'
      obtain ⟨found, behind', hcons'⟩ := List.exists_cons_of_ne_nil hspace'
      rw [hcons'] at hdrop'
      rw [hgo', ok_bind, peekAt_drop hdrop', ok_bind]
      apply Inside.ite
      · rintro rfl
        have hless := seen'.property
        exact ih (by omega) hdrop' (hnext behind' hcons') hbase'
      · intro _
        apply Inside.ite
        · intro _
          exact hbase'
        · intro _
          trivial

/-! ## The way to a member -/

def MemberTaken (text : List UInt8) (seen : JsonSeen) (key : UInt8) (quote : Nat)
    (array base time : Bool) (next : List UInt8) : Prop :=
  ∃ seen' last sign behind, jsonMemberAt text text.length seen key (quote + 1) = .ok (seen', last) ∧
    seen'.val.records.isSome = array ∧ seen'.val.base.isSome = base ∧ seen'.val.time = time ∧
    text.drop last = sign :: behind ∧ jsonSkipSpace behind = jsonComma :: next

theorem memberArray_taken {items behind next : List UInt8} {count : Nat}
    (hnone : seen.records = none) (hbegins : JsonArrayBegins (jsonSkipSpace rest) items)
    (hcount : count < 2 ^ 31) (hrecords : JsonItemsTaken JsonRecordTaken items count behind)
    (hcomma : jsonSkipSpace behind = jsonComma :: next)
    (h : text.drop quote = jsonSkipSpace rest) :
    MemberTaken text seen 101 quote true seen.base.isSome seen.time next := by
  have hbegins' := hbegins
  generalize hkey : jsonSkipSpace rest = key at hbegins' h
  cases hbegins' with
  | @intro more _ _ hmin _ _ _ =>
    have hsign := drop_next (drop_next h)
    obtain ⟨records, last, harray, hlast⟩ := jsonArrayAt_records (Nat.le_refl _)
      (drop_front_whole hsign) (hkey ▸ hbegins) hcount hrecords
    rw [List.take_length] at hlast
    refine ⟨⟨{ seen with records := some records }, by simp [JsonSeen.left, hnone]⟩, last,
      jsonFooter, behind, ?_, rfl, rfl, rfl, hlast, hcomma⟩
    unfold jsonMemberAt
    rw [if_pos rfl, sizeLess_key h (List.cons_ne_nil _ _), if_neg, peekAt_drop hsign, ok_bind,
      if_neg (not_not_intro rfl), dif_pos hnone, harray]
    · rfl
    · simp only [List.length_cons]
      omega

theorem memberTime_taken {next : List UInt8} (htime : seen.time = false)
    (hbegins : JsonBaseBegins 116 (jsonSkipSpace rest) more)
    (hcomma : memberBehind more = jsonComma :: next) (h : text.drop quote = jsonSkipSpace rest) :
    MemberTaken text seen 98 quote seen.records.isSome seen.base.isSome true next := by
  obtain ⟨hkey, hmin⟩ := hbegins
  rw [hkey] at h
  have hkind := drop_next (drop_next h)
  have hdrop := drop_next hkind
  have hinside := drop_inside hdrop
  obtain ⟨-, hend⟩ := jsonTimeAt_front (Nat.le_refl _) (drop_front_whole hdrop) (by omega)
  have hquote : ¬ isMemberEnd jsonQuote = true := by decide
  have hpos : 0 < (memberFront (jsonQuote :: more)).length := by
    rw [(memberFront_sign hquote).1]
    exact Nat.succ_pos _
  have hbehind := (memberFront_sign hquote).2.trans hcomma
  obtain ⟨-, last, hlast⟩ := member_last (Nat.le_refl _) (drop_front_whole hdrop) hpos hbehind
  rw [List.take_length] at hlast
  refine ⟨⟨{ seen with time := true }, by simp [JsonSeen.left, htime]⟩, _, last, _, ?_, rfl, rfl, rfl,
    hlast, jsonSkipSpace_behind hbehind⟩
  unfold jsonMemberAt
  rw [if_neg (by decide), if_pos rfl, sizeLess_key h (List.cons_ne_nil _ _), if_neg,
    peekAt_drop hkind, ok_bind, if_pos rfl, peekAt_drop hdrop, ok_bind,
    if_neg (not_not_intro rfl), dif_pos htime, hend hpos]
  · rfl
  · rw [hbehind]
    exact List.cons_ne_nil _ _
  · simp only [List.length_cons]
    omega

theorem memberName_taken {next : List UInt8} (hnone : seen.base = none)
    (hbegins : JsonBaseBegins 110 (jsonSkipSpace rest) more)
    (hname : jsonSplit (memberFront (jsonSkipSpace rest)) ≠ none)
    (hint : (memberFront (jsonSkipSpace rest)).length < 2 ^ 31)
    (hcomma : memberBehind more = jsonComma :: next) (h : text.drop quote = jsonSkipSpace rest) :
    MemberTaken text seen 98 quote seen.records.isSome true seen.time next := by
  have hkeys := @memberFront_key more _ kind_name
  rw [← hbegins.1] at hkeys
  have hbehind := hkeys.2.trans hcomma
  obtain ⟨-, hsome⟩ := jsonBaseNameAt_front h hbehind hint
  obtain ⟨base, hresult, -⟩ := hsome hname
  have hpos : 0 < (memberFront (jsonSkipSpace rest)).length := by
    rw [hkeys.1]
    exact Nat.succ_pos _
  obtain ⟨-, last, hlast⟩ := member_last (Nat.le_refl _) (drop_front_whole h) hpos hbehind
  rw [List.take_length] at hlast
  obtain ⟨hkey, hmin⟩ := hbegins
  have hdrop := h
  rw [hkey] at hdrop
  have hkind := drop_next (drop_next hdrop)
  have hsign := drop_next hkind
  refine ⟨⟨{ seen with base := some base }, by simp [JsonSeen.left, hnone]⟩, _, last, _, ?_, rfl,
    rfl, rfl, hlast, jsonSkipSpace_behind hbehind⟩
  have hback : quote + 1 + 2 - 3 = quote := by omega
  unfold jsonMemberAt
  rw [if_neg (by decide), if_pos rfl, sizeLess_key hdrop (List.cons_ne_nil _ _), if_neg,
    peekAt_drop hkind, ok_bind, if_neg (by decide), if_pos rfl, peekAt_drop hsign, ok_bind,
    if_neg (not_not_intro rfl), dif_pos hnone, hback, hresult]
  · rfl
  · simp only [List.length_cons]
    omega

theorem jsonMembersAt_taken {sign key : UInt8} {array base time : Bool} {next : List UInt8}
    (h : text.drop index = sign :: rest) (hkey : jsonSkipSpace rest = jsonQuote :: key :: more)
    (htaken : ∀ quote, text.drop quote = jsonSkipSpace rest →
      MemberTaken text seen key quote array base time next) :
    ∃ (seen' : JsonSeen) (index' : Nat), seen'.records.isSome = array ∧ seen'.base.isSome = base ∧
      seen'.time = time ∧ text.drop index' = jsonComma :: next ∧
      jsonMembersAt text text.length seen index = jsonMembersAt text text.length seen' index' := by
  have hspace : jsonSkipSpace rest ≠ [] := by
    rw [hkey]
    exact List.cons_ne_nil _ _
  obtain ⟨quote, hgo, hquote⟩ := goToNextChar_next (Nat.le_refl _) (drop_front_whole h) hspace
  rw [List.take_length] at hquote
  obtain ⟨seen', last, sign', behind, hmember, harray, hbase, htime, hlast, hcomma⟩ :=
    htaken quote.val hquote
  rw [hkey] at hquote
  have hinside := drop_inside hquote
  obtain ⟨next', hgo', hnext⟩ := goToNextChar_next (Nat.le_refl _) (drop_front_whole hlast)
    (by rw [hcomma]; exact List.cons_ne_nil _ _)
  rw [List.take_length, hcomma] at hnext
  refine ⟨seen'.val, next'.val, harray, hbase, htime, hnext, ?_⟩
  rw [jsonMembersAt, hgo, ok_bind, peekAt_drop hquote, ok_bind, if_neg (not_not_intro rfl),
    if_neg (by omega), peekAt_drop (drop_next hquote), ok_bind, hmember, ok_bind]
  dsimp only
  rw [hgo', ok_bind, peekAt_drop hnext, ok_bind, if_pos rfl]

theorem JsonArrayBegins.key {key items : List UInt8} (h : JsonArrayBegins key items) :
    ∃ more, key = jsonQuote :: 101 :: more := by
  cases h with
  | intro _ _ _ _ => exact ⟨_, rfl⟩

theorem isSome_false {α : Type} {found : Option α} (h : found.isSome = false) : found = none := by
  cases found with
  | none => rfl
  | some _ => cases h

theorem jsonMembersAt_reaches {array base time : Bool} {begin : Nat} {first : List UInt8}
    (hreaches : JsonReaches text array base time rest)
    (hfirst : jsonSkipSpace text = jsonItemBegin :: first)
    (hbegin : text.drop begin = jsonItemBegin :: first) :
    ∃ (seen : JsonSeen) (index : Nat) (sign : UInt8), seen.records.isSome = array ∧
      seen.base.isSome = base ∧ seen.time = time ∧ text.drop index = sign :: rest ∧
      jsonMembersAt text text.length ⟨none, none, false⟩ begin =
        jsonMembersAt text text.length seen index := by
  induction hreaches with
  | start h =>
    rw [hfirst] at h
    cases h
    exact ⟨⟨none, none, false⟩, begin, jsonItemBegin, rfl, rfl, rfl, hbegin, rfl⟩
  | array _ hbegins hcount hrecords hcomma ih =>
    obtain ⟨seen, index, sign, harray, rfl, rfl, hdrop, hsame⟩ := ih
    obtain ⟨more, hkey⟩ := hbegins.key
    obtain ⟨seen', index', harray', hbase, htime, hdrop', hstep⟩ :=
      jsonMembersAt_taken hdrop hkey fun quote hquote =>
        memberArray_taken (isSome_false harray) hbegins hcount hrecords hcomma hquote
    exact ⟨seen', index', jsonComma, harray', hbase, htime, hdrop', hsame.trans hstep⟩
  | time _ hbegins hcomma ih =>
    obtain ⟨seen, index, sign, rfl, rfl, htime, hdrop, hsame⟩ := ih
    obtain ⟨seen', index', harray, hbase, htime', hdrop', hstep⟩ :=
      jsonMembersAt_taken hdrop hbegins.1 fun quote hquote =>
        memberTime_taken htime hbegins hcomma hquote
    exact ⟨seen', index', jsonComma, harray, hbase, htime', hdrop', hsame.trans hstep⟩
  | base _ hbegins hname hcount hcomma ih =>
    obtain ⟨seen, index, sign, rfl, hbase, rfl, hdrop, hsame⟩ := ih
    obtain ⟨seen', index', harray, hbase', htime, hdrop', hstep⟩ :=
      jsonMembersAt_taken hdrop hbegins.1 fun quote hquote =>
        memberName_taken (isSome_false hbase) hbegins hname hcount hcomma hquote
    exact ⟨seen', index', jsonComma, harray, hbase', htime, hdrop', hsame.trans hstep⟩

/-! ## The members that go wrong -/

theorem not_inside_bind {α β : Type} {x : Reading α} {f : α → Reading β} (h : ¬ ReadsInside x) :
    ¬ ReadsInside (x >>= f) := by
  match x with
  | .ok _ => exact absurd trivial h
  | .error .failed => exact absurd trivial h
  | .error .outside => exact id
  | .error .overflow => exact id

theorem jsonMembersAt_wrong {sign key : UInt8} (h : text.drop index = sign :: rest)
    (hkey : jsonSkipSpace rest = jsonQuote :: key :: more)
    (hwrong : ∀ quote, text.drop quote = jsonSkipSpace rest →
      ¬ ReadsInside (jsonMemberAt text text.length seen key (quote + 1))) :
    ¬ ReadsInside (jsonMembersAt text text.length seen index) := by
  have hspace : jsonSkipSpace rest ≠ [] := by
    rw [hkey]
    exact List.cons_ne_nil _ _
  obtain ⟨quote, hgo, hquote⟩ := goToNextChar_next (Nat.le_refl _) (drop_front_whole h) hspace
  rw [List.take_length] at hquote
  have hmember := hwrong quote.val hquote
  rw [hkey] at hquote
  have hinside := drop_inside hquote
  rw [jsonMembersAt, hgo, ok_bind, peekAt_drop hquote, ok_bind, if_neg (not_not_intro rfl),
    if_neg (by omega), peekAt_drop (drop_next hquote), ok_bind]
  exact not_inside_bind hmember

theorem jsonMembersAt_cut {sign : UInt8} (h : text.drop index = sign :: rest)
    (hkey : jsonSkipSpace rest = [jsonQuote]) :
    ¬ ReadsInside (jsonMembersAt text text.length seen index) := by
  have hspace : jsonSkipSpace rest ≠ [] := by
    rw [hkey]
    exact List.cons_ne_nil _ _
  obtain ⟨quote, hgo, hquote⟩ := goToNextChar_next (Nat.le_refl _) (drop_front_whole h) hspace
  rw [List.take_length, hkey] at hquote
  have hinside := drop_inside hquote
  rw [List.length_nil] at hinside
  rw [jsonMembersAt, hgo, ok_bind, peekAt_drop hquote, ok_bind, if_neg (not_not_intro rfl),
    if_neg (by omega), peekAt_end (by omega)]
  exact id

theorem memberName_wrong (hnone : seen.base = none)
    (hbegins : JsonBaseBegins 110 (jsonSkipSpace rest) more)
    (hwrong : ¬ (memberBehind more ≠ [] ∧ (memberFront (jsonSkipSpace rest)).length < 2 ^ 31))
    (h : text.drop quote = jsonSkipSpace rest) :
    ¬ ReadsInside (jsonMemberAt text text.length seen 98 (quote + 1)) := by
  have hkeys := @memberFront_key more _ kind_name
  rw [← hbegins.1] at hkeys
  rw [← hkeys.2] at hwrong
  obtain ⟨hkey, hmin⟩ := hbegins
  have hdrop := h
  rw [hkey] at hdrop
  have hinside := drop_inside hdrop
  have hkind := drop_next (drop_next hdrop)
  have hsign := drop_next hkind
  have hback : quote + 1 + 2 - 3 = quote := by omega
  have hitem := (@itemLenFrom_front text quote _ 0 (by decide) h (by omega)).2
    (by rwa [Nat.zero_add])
  unfold jsonMemberAt
  rw [if_neg (by decide), if_pos rfl, sizeLess_key hdrop (List.cons_ne_nil _ _), if_neg,
    peekAt_drop hkind, ok_bind, if_neg (by decide), if_pos rfl, peekAt_drop hsign, ok_bind,
    if_neg (not_not_intro rfl), dif_pos hnone, hback]
  · exact not_inside_bind (not_inside_bind hitem)
  · simp only [List.length_cons]
    omega

theorem memberArray_wrong {items : List UInt8} (hnone : seen.records = none)
    (hbegins : JsonArrayBegins (jsonSkipSpace rest) items)
    (hfront : JsonItemsFront items (2 ^ 31)) (h : text.drop quote = jsonSkipSpace rest) :
    ¬ ReadsInside (jsonMemberAt text text.length seen 101 (quote + 1)) := by
  generalize jsonSkipSpace rest = key at hbegins h
  have hbegins' := hbegins
  cases hbegins' with
  | @intro more _ _ hmin _ _ _ =>
    have hsign := drop_next (drop_next h)
    have harray := jsonArrayAt_over (Nat.le_refl _) (drop_front_whole hsign) hbegins hfront
    unfold jsonMemberAt
    rw [if_pos rfl, sizeLess_key h (List.cons_ne_nil _ _), if_neg, peekAt_drop hsign, ok_bind,
      if_neg (not_not_intro rfl), dif_pos hnone, harray]
    · exact id
    · simp only [List.length_cons]
      omega

/-! ## The whole text -/

theorem lwm2mStringToUri_slice {start len : Nat} (h : start + len ≤ text.length) :
    ∃ slice, sliceAt text start len = .ok slice := ⟨_, if_pos h⟩

theorem jsonBaseUriAt_inside (uri : Option Lwm2mUri) {base : Option (Nat × Nat)}
    (hbase : ∀ found, base = some found → found.1 + found.2 ≤ text.length) :
    ReadsInside (jsonBaseUriAt text uri base) := by
  cases base with
  | none => trivial
  | some found =>
    obtain ⟨bnStart, bnLen⟩ := found
    have hinside := hbase _ rfl
    dsimp only at hinside
    apply Inside.ite
    · intro _
      trivial
    intro hlen
    apply (inside_peekAt (by omega)).bind
    intro first _
    apply Inside.ite
    · intro _
      trivial
    intro _
    apply (inside_peekAt (by omega)).bind
    intro last _
    apply Inside.ite
    · intro _
      trivial
    intro _
    apply Inside.ite
    · intro _
      apply (inside_peekAt (by omega)).bind
      intro sign _
      apply Inside.ite <;> intro _ <;> trivial
    · intro hone
      apply (inside_peekAt (by omega)).bind
      intro last _
      dsimp only
      obtain ⟨slice, hslice⟩ := @lwm2mStringToUri_slice text (bnStart + 1)
        (if last = 47 then bnLen - 2 - 1 else bnLen - 2) (by split <;> omega)
      rw [hslice, ok_bind]
      split
      · trivial
      · apply Inside.ite <;> intro _ <;> trivial

theorem jsonParseAt_begins {uri : Option Lwm2mUri} {first : List UInt8}
    (hfirst : jsonSkipSpace text = jsonItemBegin :: first) :
    ∃ begin, text.drop begin = jsonItemBegin :: first ∧ jsonParseAt uri text =
      jsonMembersAt text text.length ⟨none, none, false⟩ begin >>= jsonFinishAt text uri := by
  obtain ⟨begin, hskip, hle, hdrop⟩ :=
    @jsonSkipSpaceFrom_front text text text.length (Nat.le_refl _) 0
      (drop_front_whole List.drop_zero) (Nat.zero_le _)
  rw [List.take_length, hfirst] at hdrop
  have hinside := drop_inside hdrop
  refine ⟨begin, hdrop, ?_⟩
  rw [jsonParseAt, jsonSkipSpaceAt, hskip, ok_bind, if_neg (by omega), peekAt_drop hdrop, ok_bind,
    if_neg (not_not_intro rfl)]

theorem jsonParseAt_other {uri : Option Lwm2mUri}
    (hfirst : ∀ first, jsonSkipSpace text ≠ jsonItemBegin :: first) :
    jsonParseAt uri text = .error .failed := by
  obtain ⟨begin, hskip, hle, hdrop⟩ :=
    @jsonSkipSpaceFrom_front text text text.length (Nat.le_refl _) 0
      (drop_front_whole List.drop_zero) (Nat.zero_le _)
  rw [List.take_length] at hdrop
  rw [jsonParseAt, jsonSkipSpaceAt, hskip, ok_bind]
  cases hspace : jsonSkipSpace text with
  | nil =>
    rw [hspace, List.drop_eq_nil_iff] at hdrop
    rw [if_pos (Nat.le_antisymm hle hdrop)]
    rfl
  | cons sign first =>
    rw [hspace] at hdrop
    have hinside := drop_inside hdrop
    have hsign : sign ≠ jsonItemBegin := by
      rintro rfl
      exact hfirst first hspace
    rw [if_neg (by omega), peekAt_drop hdrop, ok_bind, if_pos hsign]
    rfl

theorem jsonParseAt_inside_iff (uri : Option Lwm2mUri) (text : List UInt8) :
    ReadsInside (jsonParseAt uri text) ↔ JsonMembersEnd text := by
  constructor
  · intro hinside array base time rest hreaches
    have hfirst : ∃ first, jsonSkipSpace text = jsonItemBegin :: first := by
      by_contra hnone
      have hother : ∀ first, jsonSkipSpace text ≠ jsonItemBegin :: first :=
        fun first hfirst => hnone ⟨first, hfirst⟩
      clear hinside
      induction hreaches with
      | start h => exact hother _ h
      | array _ _ _ _ _ ih => exact ih
      | time _ _ _ ih => exact ih
      | base _ _ _ _ _ ih => exact ih
    obtain ⟨first, hfirst⟩ := hfirst
    obtain ⟨begin, hbegin, hparse⟩ := @jsonParseAt_begins text uri first hfirst
    obtain ⟨seen, index, sign, harray, hbase, htime, hdrop, hsame⟩ :=
      jsonMembersAt_reaches hreaches hfirst hbegin
    rw [hparse, hsame] at hinside
    have hmembers : ReadsInside (jsonMembersAt text text.length seen index) := by
      by_contra hwrong
      exact not_inside_bind hwrong hinside
    refine ⟨fun hcut => jsonMembersAt_cut hdrop hcut hmembers, ?_, ?_⟩
    · intro hnone more hbegins
      by_contra hwrong
      rw [hnone] at hbase
      exact jsonMembersAt_wrong hdrop hbegins.1
        (fun quote hquote => memberName_wrong (isSome_false hbase) hbegins hwrong hquote) hmembers
    · intro hnone items hbegins hfront
      rw [hnone] at harray
      obtain ⟨more, hkey⟩ := hbegins.key
      exact jsonMembersAt_wrong hdrop hkey
        (fun quote hquote => memberArray_wrong (isSome_false harray) hbegins hfront hquote) hmembers
  · intro hend
    by_cases hfirst : ∃ first, jsonSkipSpace text = jsonItemBegin :: first
    · obtain ⟨first, hfirst⟩ := hfirst
      obtain ⟨begin, hbegin, hparse⟩ := @jsonParseAt_begins text uri first hfirst
      have hbase : JsonSeen.BaseInside ⟨none, none, false⟩ text := by
        intro base hnone
        cases hnone
      have hreached : JsonSeen.Reached ⟨none, none, false⟩ text first := JsonReaches.start hfirst
      rw [hparse]
      apply (jsonMembersAt_inside hend _ (Nat.lt_succ_self _) hbegin hreached hbase).bind
      intro seen hbase
      unfold jsonFinishAt
      split
      · trivial
      · exact (jsonBaseUriAt_inside uri hbase).bind fun _ _ => trivial
    · rw [jsonParseAt_other fun first hcons => hfirst ⟨first, hcons⟩]
      trivial

end members

end Wakaama
