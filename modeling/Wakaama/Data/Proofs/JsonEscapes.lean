import Wakaama.Data.JsonEscape

/-!
# Escapes there and back

Every byte is escaped by what stands for it. The check in front of the digits of a number asks for
one character more than there are digits, and does not hold in a text that is shorter than four.
-/

namespace Wakaama

/-! ## One round -/

section rounds

variable {src rest dst : List UInt8} {i fuel : Nat}

theorem unescapeRounds_end (h : src.drop i = []) :
    jsonUnescapeRounds src (fuel + 1) i dst = .ok (some dst) := by
  rw [jsonUnescapeRounds, if_neg (Nat.not_lt.2 (List.drop_eq_nil_iff.1 h))]

theorem unescapeRounds_plain {c : UInt8} (h : src.drop i = c :: rest) (hc : c ≠ backslash) :
    jsonUnescapeRounds src (fuel + 1) i dst = jsonUnescapeRounds src fuel (i + 1) (dst ++ [c]) := by
  have hlength := drop_inside h
  rw [jsonUnescapeRounds, if_pos (by omega), loadByte_drop h, ok_bind, if_neg hc]

theorem unescapeRounds_cut (h : src.drop i = [backslash]) :
    jsonUnescapeRounds src (fuel + 1) i dst = .ok none := by
  have hlength := drop_inside h
  rw [List.length_nil] at hlength
  rw [jsonUnescapeRounds, if_pos (by omega), loadByte_drop h, ok_bind, if_pos rfl,
    if_pos (by omega)]
  rfl

theorem unescapeRounds_short {c : UInt8} (h : src.drop i = backslash :: c :: rest)
    (hc : c ≠ jsonNumberEscape) :
    jsonUnescapeRounds src (fuel + 1) i dst =
      match unescapeCharacter c with
      | none => .ok none
      | some c => jsonUnescapeRounds src fuel (i + 2) (dst ++ [c]) := by
  have hlength := drop_inside h
  rw [List.length_cons] at hlength
  rw [jsonUnescapeRounds, if_pos (by omega), loadByte_drop h, ok_bind, if_pos rfl,
    if_neg (by omega), loadByte_drop (drop_next h), ok_bind, if_neg hc]
  rfl

theorem unescapeRounds_number (h : src.drop i = backslash :: jsonNumberEscape :: rest) :
    jsonUnescapeRounds src (fuel + 1) i dst =
      if sizeLessFour src.length ≤ i + 2 then .ok none
      else (do
        let first ← loadByte src (i + 2)
        if first ≠ jsonZero then return none
        else
          let second ← loadByte src (i + 3)
          if second ≠ jsonZero then return none
          else
            let high ← loadByte src (i + 4)
            if 15 < prvHexValue high then return none
            else
              let low ← loadByte src (i + 5)
              if 15 < prvHexValue low then return none
              else
                jsonUnescapeRounds src fuel (i + 6)
                  (dst ++ [(prvHexValue high <<< 4) + prvHexValue low])) := by
  have hlength := drop_inside h
  rw [List.length_cons] at hlength
  rw [jsonUnescapeRounds, if_pos (by omega), loadByte_drop h, ok_bind, if_pos rfl,
    if_neg (by omega), loadByte_drop (drop_next h), ok_bind, if_pos rfl]
  rfl

theorem unescapeRounds_digits {first second high low : UInt8}
    (h : src.drop i =
      backslash :: jsonNumberEscape :: first :: second :: high :: low :: rest)
    (hlimit : ¬ sizeLessFour src.length ≤ i + 2) :
    jsonUnescapeRounds src (fuel + 1) i dst =
      if first = jsonZero ∧ second = jsonZero ∧ prvHexValue high ≤ 15 ∧ prvHexValue low ≤ 15 then
        jsonUnescapeRounds src fuel (i + 6)
          (dst ++ [(prvHexValue high <<< 4) + prvHexValue low])
      else .ok none := by
  have h2 := drop_next (drop_next h)
  have h3 := drop_next h2
  have h4 := drop_next h3
  have h5 := drop_next h4
  rw [unescapeRounds_number h, if_neg hlimit, loadByte_drop h2, ok_bind]
  by_cases hfirst : first = jsonZero
  · rw [if_neg (not_not_intro hfirst), loadByte_drop h3, ok_bind]
    by_cases hsecond : second = jsonZero
    · rw [if_neg (not_not_intro hsecond), loadByte_drop h4, ok_bind]
      by_cases hhigh : 15 < prvHexValue high
      · rw [if_pos hhigh, if_neg fun hall => absurd hhigh (UInt8.not_lt.2 hall.2.2.1)]
        rfl
      · rw [if_neg hhigh, loadByte_drop h5, ok_bind]
        by_cases hlow : 15 < prvHexValue low
        · rw [if_pos hlow, if_neg fun hall => absurd hlow (UInt8.not_lt.2 hall.2.2.2)]
          rfl
        · rw [if_neg hlow,
            if_pos ⟨hfirst, hsecond, UInt8.not_lt.1 hhigh, UInt8.not_lt.1 hlow⟩]
    · rw [if_pos hsecond, if_neg fun hall => hsecond hall.2.1]
      rfl
  · rw [if_pos hfirst, if_neg fun hall => hfirst hall.1]
    rfl

end rounds

/-! ## Complete escapes -/

variable {bytes rest front dst text : List UInt8} {c : UInt8}

theorem escaped_nil : Escaped [] bytes ↔ bytes = [] := by
  constructor
  · intro h
    cases h
    rfl
  · rintro rfl
    exact Escaped.nil

theorem escaped_plain (hc : c ≠ backslash) :
    Escaped (c :: rest) bytes ↔ ∃ more, bytes = c :: more ∧ Escaped rest more := by
  constructor
  · intro h
    cases h with
    | plain _ h => exact ⟨_, rfl, h⟩
    | short _ _ => exact absurd rfl hc
    | number _ _ _ => exact absurd rfl hc
  · rintro ⟨more, rfl, h⟩
    exact Escaped.plain hc h

theorem not_escaped_cut : ¬ Escaped [backslash] bytes := by
  intro h
  cases h with
  | plain hc _ => exact hc rfl

theorem unescapeCharacter_number : unescapeCharacter jsonNumberEscape = none := by decide

theorem escaped_short (hc : c ≠ jsonNumberEscape) :
    Escaped (backslash :: c :: rest) bytes ↔
      ∃ byte more, unescapeCharacter c = some byte ∧ bytes = byte :: more ∧ Escaped rest more := by
  constructor
  · intro h
    cases h with
    | plain hplain _ => exact absurd rfl hplain
    | short hbyte h => exact ⟨_, _, hbyte, rfl, h⟩
    | number _ _ _ => exact absurd rfl hc
  · rintro ⟨byte, more, hbyte, rfl, h⟩
    exact Escaped.short hbyte h

theorem escaped_number :
    Escaped (backslash :: jsonNumberEscape :: rest) bytes ↔
      ∃ high low text more, rest = jsonZero :: jsonZero :: high :: low :: text ∧
        prvHexValue high ≤ 15 ∧ prvHexValue low ≤ 15 ∧
        bytes = ((prvHexValue high <<< 4) + prvHexValue low) :: more ∧ Escaped text more := by
  constructor
  · intro h
    cases h with
    | plain hplain _ => exact absurd rfl hplain
    | short hbyte _ =>
      rw [unescapeCharacter_number] at hbyte
      cases hbyte
    | number hhigh hlow h => exact ⟨_, _, _, _, rfl, hhigh, hlow, rfl, h⟩
  · rintro ⟨high, low, text, more, rfl, hhigh, hlow, rfl, h⟩
    exact Escaped.number hhigh hlow h

theorem Escaped.append (h : Escaped front bytes) :
    ∀ {rest more : List UInt8}, Escaped rest more → Escaped (front ++ rest) (bytes ++ more) := by
  induction h with
  | nil => exact fun h => h
  | plain hc _ ih => exact fun h => Escaped.plain hc (ih h)
  | short hc _ ih => exact fun h => Escaped.short hc (ih h)
  | number hhigh hlow _ ih => exact fun h => Escaped.number hhigh hlow (ih h)

/-! ## Texts without a number at the end -/

/-- What is left of a text of `len` characters has no number at its end, and no `\u` that is read
behind its end. -/
def NumbersInside (len : Nat) (text : List UInt8) : Prop :=
  ∀ front rest bytes, text = front ++ rest → Escaped front bytes →
    (∀ high low, prvHexValue high ≤ 15 → prvHexValue low ≤ 15 →
      rest ≠ [backslash, jsonNumberEscape, jsonZero, jsonZero, high, low]) ∧
    (len < 4 →
      rest ≠ [backslash, jsonNumberEscape] ∧ rest ≠ [backslash, jsonNumberEscape, jsonZero])

theorem NumbersInside.behind {len : Nat} {front text bytes : List UInt8}
    (h : NumbersInside len (front ++ text)) (hfront : Escaped front bytes) :
    NumbersInside len text := by
  intro front' rest bytes' htext hfront'
  apply h (front ++ front') rest (bytes ++ bytes') _ (hfront.append hfront')
  rw [htext, List.append_assoc]

/-- The rounds take what is left of a text exactly where all of its escapes are complete. -/
def TakesEscaped (dst text : List UInt8) (taken : Except Fault (Option (List UInt8))) : Prop :=
  ∃ result, taken = .ok result ∧
    ∀ bytes, result = some bytes ↔ ∃ more, bytes = dst ++ more ∧ Escaped text more

theorem takesEscaped_none (h : ∀ bytes, ¬ Escaped text bytes) :
    TakesEscaped dst text (.ok none) := by
  refine ⟨none, rfl, fun bytes => iff_of_false (fun hsome => nomatch hsome) ?_⟩
  rintro ⟨more, -, hmore⟩
  exact h more hmore

theorem takesEscaped_next {byte : UInt8} {taken : Except Fault (Option (List UInt8))}
    (h : TakesEscaped (dst ++ [byte]) rest taken)
    (htext : ∀ bytes, Escaped text bytes ↔ ∃ more, bytes = byte :: more ∧ Escaped rest more) :
    TakesEscaped dst text taken := by
  obtain ⟨result, htaken, hresult⟩ := h
  refine ⟨result, htaken, fun bytes => (hresult bytes).trans ?_⟩
  constructor
  · rintro ⟨more, rfl, hmore⟩
    exact ⟨byte :: more, List.append_assoc dst [byte] more, (htext _).2 ⟨more, rfl, hmore⟩⟩
  · rintro ⟨more, rfl, hmore⟩
    obtain ⟨rest', rfl, hrest⟩ := (htext more).1 hmore
    exact ⟨rest', (List.append_assoc dst [byte] rest').symm, hrest⟩

theorem sizeLessFour_le {len i : Nat} (hi : i ≤ len) :
    sizeLessFour len ≤ i ↔ 4 ≤ len ∧ len ≤ i + 4 := by
  unfold sizeLessFour
  split <;> omega

/-- The rounds at a number: what is left has the number and more behind it, or no number. -/
theorem unescapeRounds_escape {src : List UInt8} {fuel i : Nat}
    (h : src.drop i = backslash :: jsonNumberEscape :: rest)
    (hinside : NumbersInside src.length (backslash :: jsonNumberEscape :: rest))
    (hnext : ∀ {text : List UInt8} (byte : UInt8), src.drop (i + 6) = text → text.length < fuel → NumbersInside src.length text → TakesEscaped (dst ++ [byte]) text (jsonUnescapeRounds src fuel (i + 6) (dst ++ [byte])))
    (hfuel : rest.length < fuel) :
    TakesEscaped dst (backslash :: jsonNumberEscape :: rest)
      (jsonUnescapeRounds src (fuel + 1) i dst) := by
  have hlength := drop_inside h
  rw [List.length_cons] at hlength
  obtain ⟨hnumber, hshort⟩ := hinside [] _ [] rfl Escaped.nil
  by_cases hlimit : sizeLessFour src.length ≤ i + 2
  · -- there is room for a number at most, and it is not there
    rw [unescapeRounds_number h, if_pos hlimit]
    apply takesEscaped_none
    intro bytes hescaped
    obtain ⟨high, low, text, more, rfl, hhigh, hlow, -, -⟩ := escaped_number.1 hescaped
    have hroom := ((sizeLessFour_le (by omega)).1 hlimit).2
    simp only [List.length_cons] at hlength
    have hnil : text = [] := List.length_eq_zero_iff.1 (by omega)
    subst hnil
    exact hnumber high low hhigh hlow rfl
  · have hroom := mt (sizeLessFour_le (show i + 2 ≤ src.length by omega)).2 hlimit
    match rest, h, hlength, hnumber, hshort, hfuel, hinside with
    | first :: second :: high :: low :: text, h, hlength, _, _, hfuel, hinside =>
      simp only [List.length_cons] at hlength hfuel
      rw [unescapeRounds_digits h hlimit]
      by_cases hall : first = jsonZero ∧ second = jsonZero ∧ prvHexValue high ≤ 15 ∧
          prvHexValue low ≤ 15
      · rw [if_pos hall]
        obtain ⟨rfl, rfl, hhigh, hlow⟩ := hall
        have htoken := Escaped.number hhigh hlow Escaped.nil
        have hbehind := @NumbersInside.behind _ _ text _ hinside htoken
        have hdrop : src.drop (i + 6) = text := by
          rw [← List.drop_drop, h]
          rfl
        apply takesEscaped_next (hnext _ hdrop (by omega) hbehind)
        intro bytes
        rw [escaped_number]
        constructor
        · rintro ⟨high', low', text', more, heq, -, -, hbytes, hmore⟩
          cases heq
          exact ⟨more, hbytes, hmore⟩
        · rintro ⟨more, hbytes, hmore⟩
          exact ⟨high, low, text, more, rfl, hhigh, hlow, hbytes, hmore⟩
      · rw [if_neg hall]
        apply takesEscaped_none
        intro bytes hescaped
        obtain ⟨high', low', text', more, heq, hhigh, hlow, -, -⟩ := escaped_number.1 hescaped
        cases heq
        exact hall ⟨rfl, rfl, hhigh, hlow⟩
    | [], h, hlength, _, hshort, _, _ =>
      rw [List.length_nil] at hlength
      exact absurd rfl (hshort (by omega)).1
    | [first], h, hlength, _, hshort, _, _ =>
      rw [List.length_singleton] at hlength
      have hne : first ≠ jsonZero := by
        rintro rfl
        exact (hshort (by omega)).2 rfl
      rw [unescapeRounds_number h, if_neg hlimit, loadByte_drop (drop_next (drop_next h)), ok_bind,
        if_pos hne]
      apply takesEscaped_none
      intro bytes hescaped
      obtain ⟨_, _, _, _, heq, -⟩ := escaped_number.1 hescaped
      cases heq
    | [_, _], h, hlength, _, _, _, _ =>
      simp only [List.length_cons, List.length_nil] at hlength
      omega
    | [_, _, _], h, hlength, _, _, _, _ =>
      simp only [List.length_cons, List.length_nil] at hlength
      omega

/-- A text without a number at its end is taken exactly where its escapes are complete. -/
theorem unescapeRounds_inside (src : List UInt8) (fuel : Nat) :
    ∀ {i : Nat} {dst text : List UInt8}, src.drop i = text → text.length < fuel →
      NumbersInside src.length text →
      TakesEscaped dst text (jsonUnescapeRounds src fuel i dst) := by
  induction fuel with
  | zero =>
    intro i dst text _ hfuel _
    exact absurd hfuel (Nat.not_lt_zero _)
  | succ fuel ih =>
    intro i dst text htext hfuel hinside
    match text, htext, hfuel, hinside with
    | [], htext, _, _ =>
      rw [unescapeRounds_end htext]
      refine ⟨some dst, rfl, fun bytes => ?_⟩
      simp only [escaped_nil, exists_eq_right, List.append_nil, Option.some.injEq]
      exact eq_comm
    | c :: rest, htext, hfuel, hinside =>
      rw [List.length_cons] at hfuel
      by_cases hc : c = backslash
      · subst hc
        match rest, htext, hfuel, hinside with
        | [], htext, _, _ =>
          rw [unescapeRounds_cut htext]
          exact takesEscaped_none fun bytes => not_escaped_cut
        | c :: rest, htext, hfuel, hinside =>
          rw [List.length_cons] at hfuel
          by_cases hu : c = jsonNumberEscape
          · subst hu
            exact unescapeRounds_escape htext hinside (fun byte => ih) (by omega)
          · rw [unescapeRounds_short htext hu]
            cases hbyte : unescapeCharacter c with
            | none =>
              apply takesEscaped_none
              intro bytes hescaped
              obtain ⟨byte, more, hsome, -, -⟩ := (escaped_short hu).1 hescaped
              rw [hbyte] at hsome
              cases hsome
            | some byte =>
              have htoken := Escaped.short hbyte Escaped.nil
              have hbehind := @NumbersInside.behind _ _ rest _ hinside htoken
              apply takesEscaped_next (ih (drop_next (drop_next htext)) (by omega) hbehind)
              intro bytes
              rw [escaped_short hu, hbyte]
              constructor
              · rintro ⟨byte', more, hsame, hbytes, hmore⟩
                cases hsame
                exact ⟨more, hbytes, hmore⟩
              · rintro ⟨more, hbytes, hmore⟩
                exact ⟨byte, more, rfl, hbytes, hmore⟩
      · rw [unescapeRounds_plain htext hc]
        have htoken := Escaped.plain hc Escaped.nil
        have hbehind := @NumbersInside.behind _ _ rest _ hinside htoken
        exact takesEscaped_next (ih (drop_next htext) (by omega) hbehind)
          fun bytes => escaped_plain hc

/-! ## The texts that it takes -/

theorem jsonUnescapes_of (h : JsonNumbersInside text) : JsonUnescapes text := by
  obtain ⟨result, htaken, hresult⟩ :=
    unescapeRounds_inside text (text.length + 1) (List.drop_zero) (Nat.lt_succ_self _) h
  refine ⟨result, htaken, fun bytes => (hresult bytes).trans ?_⟩
  simp only [List.nil_append, exists_eq_left']

theorem unescapeRounds_front {src rest front bytes : List UInt8} (hfront : Escaped front bytes)
    (hrest : rest ≠ []) :
    ∀ {i : Nat} {dst : List UInt8}, src.drop i = front ++ rest →
      ∃ used, used ≤ front.length ∧ ∀ fuel,
        jsonUnescapeRounds src (used + fuel) i dst =
          jsonUnescapeRounds src fuel (i + front.length) (dst ++ bytes) := by
  induction hfront with
  | nil =>
    intro i dst _
    refine ⟨0, Nat.le_refl _, fun fuel => ?_⟩
    rw [Nat.zero_add, List.length_nil, Nat.add_zero, List.append_nil]
  | @plain c text bytes hc _ ih =>
    intro i dst h
    obtain ⟨used, hused, hrounds⟩ := @ih (i + 1) (dst ++ [c]) (drop_next h)
    refine ⟨used + 1, Nat.succ_le_succ hused, fun fuel => ?_⟩
    rw [Nat.add_right_comm, unescapeRounds_plain h hc, hrounds, List.append_assoc,
      List.singleton_append, List.length_cons, Nat.add_right_comm, Nat.add_assoc]
  | @short c byte text bytes hbyte _ ih =>
    intro i dst h
    have hu : c ≠ jsonNumberEscape := by
      rintro rfl
      rw [unescapeCharacter_number] at hbyte
      cases hbyte
    obtain ⟨used, hused, hrounds⟩ := @ih (i + 2) (dst ++ [byte]) (drop_next (drop_next h))
    have hlength : i + 2 + text.length = i + (backslash :: c :: text).length := by
      simp only [List.length_cons]
      omega
    refine ⟨used + 1, by simp only [List.length_cons]; omega, fun fuel => ?_⟩
    rw [Nat.add_right_comm, unescapeRounds_short h hu, hbyte]
    dsimp only
    rw [hrounds, List.append_assoc, List.singleton_append, hlength]
  | @number high low text bytes hhigh hlow _ ih =>
    intro i dst h
    have hdrop : src.drop (i + 6) = text ++ rest := by
      rw [← List.drop_drop, h]
      rfl
    obtain ⟨used, hused, hrounds⟩ :=
      @ih (i + 6) (dst ++ [(prvHexValue high <<< 4) + prvHexValue low]) hdrop
    have hlength := congrArg List.length h
    have hbehind := List.length_pos_iff.2 hrest
    simp only [List.length_drop, List.cons_append, List.length_cons, List.length_append] at hlength
    have hlimit : ¬ sizeLessFour src.length ≤ i + 2 := by
      rw [sizeLessFour_le (by omega)]
      omega
    have hsame : i + 6 + text.length =
        i + (backslash :: jsonNumberEscape :: jsonZero :: jsonZero :: high :: low :: text).length := by
      simp only [List.length_cons]
      omega
    refine ⟨used + 1, by simp only [List.length_cons]; omega, fun fuel => ?_⟩
    rw [Nat.add_right_comm, unescapeRounds_digits h hlimit, if_pos ⟨rfl, rfl, hhigh, hlow⟩, hrounds,
      List.append_assoc, List.singleton_append, hsame]

theorem jsonUnescapeAt_front (htext : text = front ++ rest) (hfront : Escaped front bytes)
    (hrest : rest ≠ []) :
    ∃ fuel, jsonUnescapeAt text =
      jsonUnescapeRounds text (fuel + 1 + 1) front.length bytes := by
  have hbehind := List.length_pos_iff.2 hrest
  obtain ⟨used, hused, hrounds⟩ :=
    @unescapeRounds_front text rest front bytes hfront hrest 0 [] htext
  have hlength : text.length = front.length + rest.length := by
    rw [htext, List.length_append]
  refine ⟨text.length - used - 1, ?_⟩
  have hfuel : text.length + 1 = used + (text.length - used - 1 + 1 + 1) := by omega
  rw [jsonUnescapeAt, hfuel, hrounds, Nat.zero_add, List.nil_append]

theorem drop_front (h : text = front ++ rest) : text.drop front.length = rest := by
  rw [h, List.drop_left]

theorem jsonUnescapeAt_numberAtEnd {high low : UInt8}
    (htext : text = front ++ [backslash, jsonNumberEscape, jsonZero, jsonZero, high, low])
    (hfront : Escaped front bytes) : jsonUnescapeAt text = .ok none := by
  obtain ⟨fuel, hat⟩ := jsonUnescapeAt_front htext hfront (List.cons_ne_nil _ _)
  have hlength := congrArg List.length htext
  simp only [List.length_append, List.length_cons, List.length_nil] at hlength
  have hlimit : sizeLessFour text.length ≤ front.length + 2 := by
    rw [sizeLessFour_le (by omega)]
    omega
  rw [hat, unescapeRounds_number (drop_front htext), if_pos hlimit]

theorem jsonUnescapeAt_over (htext : text = front ++ [backslash, jsonNumberEscape])
    (hfront : Escaped front bytes) (hshort : text.length < 4) :
    ¬ ∃ result, jsonUnescapeAt text = .ok result := by
  obtain ⟨fuel, hat⟩ := jsonUnescapeAt_front htext hfront (List.cons_ne_nil _ _)
  have hlength := congrArg List.length htext
  simp only [List.length_append, List.length_cons, List.length_nil] at hlength
  have hlimit : ¬ sizeLessFour text.length ≤ front.length + 2 := by
    rw [sizeLessFour_le (by omega)]
    omega
  have hdrop := drop_front htext
  rintro ⟨result, hresult⟩
  rw [hat, unescapeRounds_number hdrop, if_neg hlimit, loadByte_end (by omega)] at hresult
  cases hresult

theorem jsonUnescapeAt_overDigit (htext : text = front ++ [backslash, jsonNumberEscape, jsonZero])
    (hfront : Escaped front bytes) (hshort : text.length < 4) :
    ¬ ∃ result, jsonUnescapeAt text = .ok result := by
  obtain ⟨fuel, hat⟩ := jsonUnescapeAt_front htext hfront (List.cons_ne_nil _ _)
  have hlength := congrArg List.length htext
  simp only [List.length_append, List.length_cons, List.length_nil] at hlength
  have hlimit : ¬ sizeLessFour text.length ≤ front.length + 2 := by
    rw [sizeLessFour_le (by omega)]
    omega
  have hdrop := drop_front htext
  rintro ⟨result, hresult⟩
  rw [hat, unescapeRounds_number hdrop, if_neg hlimit, loadByte_drop (drop_next (drop_next hdrop)),
    ok_bind, if_neg (not_not_intro rfl), loadByte_end (by omega)] at hresult
  cases hresult

theorem jsonUnescapes_iff (text : List UInt8) : JsonUnescapes text ↔ JsonNumbersInside text := by
  refine ⟨?_, jsonUnescapes_of⟩
  rintro ⟨result, htaken, hresult⟩ front rest bytes htext hfront
  constructor
  · rintro high low hhigh hlow rfl
    rw [jsonUnescapeAt_numberAtEnd htext hfront] at htaken
    cases htaken
    have hwhole := hfront.append (Escaped.number hhigh hlow Escaped.nil)
    rw [← htext] at hwhole
    exact nomatch (hresult _).2 hwhole
  · intro hshort
    constructor
    · rintro rfl
      exact jsonUnescapeAt_over htext hfront hshort ⟨result, htaken⟩
    · rintro rfl
      exact jsonUnescapeAt_overDigit htext hfront hshort ⟨result, htaken⟩

/-! ## What is written -/

theorem hexDigits_value (h : c < 0x20) :
    prvHexValue (prvHexDigit (c >>> 4)) ≤ 15 ∧ prvHexValue (prvHexDigit c) ≤ 15 ∧
      (prvHexValue (prvHexDigit (c >>> 4)) <<< 4) + prvHexValue (prvHexDigit c) = c := by
  have hall : ∀ n : Fin 32, ∀ c : UInt8, c = UInt8.ofNat n.val →
      prvHexValue (prvHexDigit (c >>> 4)) ≤ 15 ∧ prvHexValue (prvHexDigit c) ≤ 15 ∧
        (prvHexValue (prvHexDigit (c >>> 4)) <<< 4) + prvHexValue (prvHexDigit c) = c := by
    rintro n c rfl
    revert n
    decide
  exact hall ⟨c.toNat, h⟩ c UInt8.ofNat_toNat.symm

theorem escapeCharacter_number (h : EscapedAsNumber c) :
    escapeCharacter c =
      [backslash, jsonNumberEscape, jsonZero, jsonZero, prvHexDigit (c >>> 4), prvHexDigit c] := by
  obtain ⟨hcontrol, hb, hf, hn, hr, ht⟩ := h
  rw [escapeCharacter, if_pos hcontrol, if_neg hb, if_neg hf, if_neg hn, if_neg hr, if_neg ht]

theorem escapeCharacter_other (h : ¬ EscapedAsNumber c) :
    (c ≠ backslash ∧ escapeCharacter c = [c]) ∨
      ∃ written, unescapeCharacter written = some c ∧ escapeCharacter c = [backslash, written] := by
  unfold escapeCharacter
  by_cases hcontrol : c < 0x20
  · rw [if_pos hcontrol]
    right
    by_cases hb : c = 8
    · exact ⟨98, by rw [hb]; decide, if_pos hb⟩
    rw [if_neg hb]
    by_cases hf : c = 12
    · exact ⟨102, by rw [hf]; decide, if_pos hf⟩
    rw [if_neg hf]
    by_cases hn : c = 10
    · exact ⟨110, by rw [hn]; decide, if_pos hn⟩
    rw [if_neg hn]
    by_cases hr : c = 13
    · exact ⟨114, by rw [hr]; decide, if_pos hr⟩
    rw [if_neg hr]
    by_cases ht : c = 9
    · exact ⟨116, by rw [ht]; decide, if_pos ht⟩
    exact absurd ⟨hcontrol, hb, hf, hn, hr, ht⟩ h
  · rw [if_neg hcontrol]
    by_cases hquote : c = jsonQuote
    · exact .inr ⟨jsonQuote, by rw [hquote]; decide, if_pos hquote⟩
    rw [if_neg hquote]
    by_cases hback : c = backslash
    · exact .inr ⟨backslash, by rw [hback]; decide, if_pos hback⟩
    exact .inl ⟨hback, if_neg hback⟩

theorem escaped_character (c : UInt8) : Escaped (escapeCharacter c) [c] := by
  by_cases hnumber : EscapedAsNumber c
  · obtain ⟨hhigh, hlow, hvalue⟩ := hexDigits_value hnumber.1
    have hescaped := Escaped.number hhigh hlow Escaped.nil
    rwa [hvalue, ← escapeCharacter_number hnumber] at hescaped
  · obtain ⟨hc, hwritten⟩ | ⟨written, hbyte, hwritten⟩ := escapeCharacter_other hnumber
    · rw [hwritten]
      exact Escaped.plain hc Escaped.nil
    · rw [hwritten]
      exact Escaped.short hbyte Escaped.nil

theorem escaped_string (s : List UInt8) : Escaped (s.flatMap escapeCharacter) s := by
  induction s with
  | nil => exact Escaped.nil
  | cons c s ih =>
    rw [List.flatMap_cons]
    exact (escaped_character c).append ih

theorem jsonEscapeLoop_result {dstLen : Nat} :
    ∀ {s dst text : List UInt8}, jsonEscapeLoop dstLen dst s = some text →
      text = dst ++ s.flatMap escapeCharacter := by
  intro s
  induction s with
  | nil =>
    intro dst text h
    cases h
    exact (List.append_nil dst).symm
  | cons c s ih =>
    intro dst text h
    rw [jsonEscapeLoop] at h
    split at h
    · cases h
    · rw [ih h, List.flatMap_cons, List.append_assoc]

theorem jsonEscapeLoop_fits {dstLen : Nat} :
    ∀ {s dst : List UInt8}, dst.length + (s.flatMap escapeCharacter).length ≤ dstLen →
      jsonEscapeLoop dstLen dst s = some (dst ++ s.flatMap escapeCharacter) := by
  intro s
  induction s with
  | nil =>
    intro dst _
    rw [List.flatMap_nil, List.append_nil, jsonEscapeLoop]
  | cons c s ih =>
    intro dst hfits
    rw [List.flatMap_cons, List.length_append] at hfits
    rw [jsonEscapeLoop, if_neg (by omega), ih (by rw [List.length_append]; omega),
      List.flatMap_cons, List.append_assoc]

theorem jsonEscapeRoundTrips_written (s : List UInt8) :
    JsonEscapeRoundTrips s ↔ jsonUnescapeAt (s.flatMap escapeCharacter) = .ok (some s) := by
  constructor
  · intro h
    apply h (s.flatMap escapeCharacter).length
    rw [jsonEscapeString, jsonEscapeLoop_fits (by rw [List.length_nil]; omega), List.nil_append]
  · intro h dstLen text htext
    rw [jsonEscapeLoop_result htext, List.nil_append]
    exact h

/-! ## The last character -/

theorem flatMap_last (init : List UInt8) (last : UInt8) :
    (init ++ [last]).flatMap escapeCharacter =
      init.flatMap escapeCharacter ++ escapeCharacter last := by
  rw [List.flatMap_append, List.flatMap_singleton]

theorem written_last {init : List UInt8} {last : UInt8} (h : ¬ EscapedAsNumber last) :
    jsonUnescapeAt ((init ++ [last]).flatMap escapeCharacter) = .ok (some (init ++ [last])) := by
  have htext := flatMap_last init last
  have hfront := escaped_string init
  obtain ⟨hc, hwritten⟩ | ⟨written, hbyte, hwritten⟩ := escapeCharacter_other h
  · rw [hwritten] at htext
    obtain ⟨fuel, hat⟩ := jsonUnescapeAt_front htext hfront (List.cons_ne_nil _ _)
    have hdrop := drop_front htext
    rw [hat, unescapeRounds_plain hdrop hc, unescapeRounds_end (drop_next hdrop)]
  · have hu : written ≠ jsonNumberEscape := by
      rintro rfl
      rw [unescapeCharacter_number] at hbyte
      cases hbyte
    rw [hwritten] at htext
    obtain ⟨fuel, hat⟩ := jsonUnescapeAt_front htext hfront (List.cons_ne_nil _ _)
    have hdrop := drop_front htext
    rw [hat, unescapeRounds_short hdrop hu, hbyte]
    exact unescapeRounds_end (drop_next (drop_next hdrop))

theorem written_numberLast {init : List UInt8} {last : UInt8} (h : EscapedAsNumber last) :
    jsonUnescapeAt ((init ++ [last]).flatMap escapeCharacter) = .ok none := by
  have htext := flatMap_last init last
  rw [escapeCharacter_number h] at htext
  exact jsonUnescapeAt_numberAtEnd htext (escaped_string init)

theorem jsonEscapeRoundTrips_iff (s : List UInt8) :
    JsonEscapeRoundTrips s ↔ ∀ init last, s = init ++ [last] → ¬ EscapedAsNumber last := by
  rw [jsonEscapeRoundTrips_written]
  constructor
  · rintro h init last rfl hnumber
    rw [written_numberLast hnumber] at h
    cases h
  · intro h
    obtain rfl | ⟨init, last, rfl⟩ := List.eq_nil_or_concat s
    · exact unescapeRounds_end rfl
    · rw [List.concat_eq_append] at h ⊢
      exact written_last (h init last rfl)

/-! ## Both -/

/-- A string comes back unless its last character is escaped by its number; a text is taken as it
stands for, and read inside, exactly where no complete number ends it and, being short, it is not
cut in a number. -/
theorem jsonEscaping_iff (s text : List UInt8) :
    (JsonEscapeRoundTrips s ↔ ∀ init last, s = init ++ [last] → ¬ EscapedAsNumber last) ∧
      (JsonUnescapes text ↔ JsonNumbersInside text) :=
  ⟨jsonEscapeRoundTrips_iff s, jsonUnescapes_iff text⟩

/-- The string of the one byte 1 is written as `\u0001`, which is not taken. -/
theorem controlCharacter_lost : ¬ JsonEscapeRoundTrips [1] := by
  rw [jsonEscapeRoundTrips_iff]
  intro h
  exact h [] 1 rfl (by unfold EscapedAsNumber; decide)

end Wakaama
