import Wakaama.Data.Proofs.JsonSplits

/-!
# The strings of an item

`json_itemLength` and `json_split` tell a string's end apart in their own ways: the one skips what
is behind a backslash, the other looks at what is in front of a quote in a value and at nothing in
a token. Where a pair is found they agree as long as no key holds a quote, no quoted value ends in
a backslash, and no string is open behind a value without quotes.
-/

namespace Wakaama

/-! ## The strings of `json_itemLength` -/

/-- Whether `json_itemLength` is inside a string, and behind a backslash there. -/
inductive StringState where
  | outside
  | inside
  | escaped
  deriving DecidableEq

/-- One character. -/
def StringState.next : StringState → UInt8 → StringState
  | .outside, sign => if sign = jsonQuote then .inside else .outside
  | .inside, sign =>
    if sign = jsonQuote then .outside else if sign = backslash then .escaped else .inside
  | .escaped, _ => .inside

/-- The state behind some characters. -/
def stringState (state : StringState) (text : List UInt8) : StringState :=
  text.foldl StringState.next state

/-- The string whose opening quote is in front of the text: what stands in it, and what is behind
its closing quote. -/
def jsonString : List UInt8 → Option (List UInt8 × List UInt8)
  | [] => none
  | sign :: rest =>
    if sign = jsonQuote then some ([], rest)
    else if sign = backslash then
      match rest with
      | [] => none
      | character :: rest =>
        (jsonString rest).map fun (body, behind) => (sign :: character :: body, behind)
    else (jsonString rest).map fun (body, behind) => (sign :: body, behind)

/-- The text stands between the quotes of one string. -/
def StringBody (body : List UInt8) : Prop :=
  ∀ behind, jsonString (body ++ jsonQuote :: behind) = some (body, behind)

theorem stringState_append (state : StringState) (text rest : List UInt8) :
    stringState state (text ++ rest) = stringState (stringState state text) rest :=
  List.foldl_append

theorem stringState_cons (state : StringState) (sign : UInt8) (rest : List UInt8) :
    stringState state (sign :: rest) = stringState (state.next sign) rest := rfl

section strings

variable {sign character : UInt8} {text body behind : List UInt8}

theorem jsonString_quote : jsonString (jsonQuote :: text) = some ([], text) := by
  rw [jsonString.eq_def]
  rfl

theorem jsonString_escape : jsonString (backslash :: character :: text) =
    (jsonString text).map fun (body, behind) => (backslash :: character :: body, behind) := by
  rw [jsonString.eq_def]
  rfl

theorem jsonString_sign (hquote : sign ≠ jsonQuote) (hback : sign ≠ backslash) :
    jsonString (sign :: text) =
      (jsonString text).map fun (body, behind) => (sign :: body, behind) := by
  rw [jsonString.eq_def]
  dsimp only
  rw [if_neg hquote, if_neg hback]

theorem jsonString_eq (h : jsonString text = some (body, behind)) :
    text = body ++ jsonQuote :: behind ∧ StringBody body := by
  fun_induction jsonString text generalizing body with
  | case1 => cases h
  | case2 rest =>
    obtain ⟨rfl, rfl⟩ := Prod.mk.inj (Option.some.inj h)
    exact ⟨rfl, fun behind => jsonString_quote⟩
  | case3 => cases h
  | case4 character rest hquote ih =>
    obtain ⟨⟨inner, after⟩, hinner, heq⟩ := Option.map_eq_some_iff.1 h
    obtain ⟨rfl, rfl⟩ := Prod.mk.inj heq
    obtain ⟨rfl, hbody⟩ := ih hinner
    refine ⟨rfl, fun behind => ?_⟩
    rw [List.cons_append, List.cons_append, jsonString_escape, hbody behind]
    rfl
  | case5 sign rest hquote hback ih =>
    obtain ⟨⟨inner, after⟩, hinner, heq⟩ := Option.map_eq_some_iff.1 h
    obtain ⟨rfl, rfl⟩ := Prod.mk.inj heq
    obtain ⟨rfl, hbody⟩ := ih hinner
    refine ⟨rfl, fun behind => ?_⟩
    rw [List.cons_append, jsonString_sign hquote hback, hbody behind]
    rfl

theorem stringState_jsonString (h : jsonString text = some (body, behind)) :
    stringState .inside text = stringState .outside behind := by
  fun_induction jsonString text generalizing body with
  | case1 => cases h
  | case2 rest =>
    obtain ⟨rfl, rfl⟩ := Prod.mk.inj (Option.some.inj h)
    rfl
  | case3 => cases h
  | case4 character rest hquote ih =>
    obtain ⟨⟨inner, after⟩, hinner, heq⟩ := Option.map_eq_some_iff.1 h
    obtain ⟨rfl, rfl⟩ := Prod.mk.inj heq
    exact ih hinner
  | case5 sign rest hquote hback ih =>
    obtain ⟨⟨inner, after⟩, hinner, heq⟩ := Option.map_eq_some_iff.1 h
    obtain ⟨rfl, rfl⟩ := Prod.mk.inj heq
    have hnext : StringState.inside.next sign = .inside := by
      rw [StringState.next, if_neg hquote, if_neg hback]
    rw [stringState_cons, hnext]
    exact ih hinner

theorem StringBody.state (h : StringBody body) (behind : List UInt8) :
    stringState .inside (body ++ jsonQuote :: behind) = stringState .outside behind :=
  stringState_jsonString (h behind)

theorem stringState_space {gap : List UInt8} (h : ∀ sign ∈ gap, prvIsWhiteSpace sign = true) :
    stringState .outside gap = .outside := by
  induction gap with
  | nil => rfl
  | cons sign gap ih =>
    have hquote : sign ≠ jsonQuote := by
      intro heq
      have hsign := h sign List.mem_cons_self
      rw [heq] at hsign
      exact absurd hsign (by decide)
    have hnext : StringState.outside.next sign = .outside := by
      rw [StringState.next, if_neg hquote]
    rw [stringState_cons, hnext]
    exact ih fun other hmem => h other (List.mem_cons_of_mem _ hmem)

end strings

theorem itemLengthLoop_outside {inString : Bool} {index len : Nat} {text : List UInt8}
    (h : itemLengthLoop inString index text = some len) :
    stringState (if inString then .inside else .outside) (text.take (len - index - 1)) =
      .outside := by
  fun_induction itemLengthLoop inString index text with
  | case1 => cases h
  | case2 index rest ih =>
    have hpos := itemLengthLoop_pos h
    have hlen : len - index - 1 = (len - (index + 1) - 1) + 1 := by omega
    rw [hlen, List.take_succ_cons]
    exact ih h
  | case3 => cases h
  | case4 index character rest hne ih =>
    have hpos := itemLengthLoop_pos h
    have hlen : len - index - 1 = (len - (index + 2) - 1) + 1 + 1 := by omega
    rw [hlen, List.take_succ_cons, List.take_succ_cons]
    exact ih h
  | case5 index sign rest hquote hback ih =>
    have hpos := itemLengthLoop_pos h
    have hlen : len - index - 1 = (len - (index + 1) - 1) + 1 := by omega
    have hnext : StringState.inside.next sign = .inside := by
      rw [StringState.next, if_neg hquote, if_neg hback]
    rw [hlen, List.take_succ_cons, if_pos rfl, stringState_cons, hnext]
    exact ih h
  | case6 => cases h
  | case7 inString index rest hin =>
    obtain rfl := Option.some.inj h
    rw [Nat.add_sub_cancel_left, Nat.sub_self, List.take_zero, if_neg hin]
    rfl
  | case8 inString index sign rest hin hbegin hend ih =>
    have hpos := itemLengthLoop_pos h
    have hlen : len - index - 1 = (len - (index + 1) - 1) + 1 := by omega
    have hnext : StringState.outside.next sign =
        if (sign == jsonQuote) = true then .inside else .outside := by
      by_cases hquote : sign = jsonQuote
      · rw [hquote]
        rfl
      · rw [StringState.next, if_neg hquote, if_neg (by simpa using hquote)]
    rw [hlen, List.take_succ_cons, if_neg hin, stringState_cons, hnext]
    exact ih h

/-- What stands between the braces of an item. -/
def itemContent (buffer : List UInt8) (len : Nat) : List UInt8 := (buffer.drop 1).take (len - 2)

theorem jsonItemLength_outside {buffer : List UInt8} {len : Nat}
    (h : jsonItemLength buffer = some len) :
    stringState .outside (itemContent buffer len) = .outside := by
  unfold jsonItemLength at h
  split at h
  · cases h
  · split at h
    · exact itemLengthLoop_outside h
    · cases h

/-! ## The pair that `json_split` finds -/

/-- The comma behind a pair, or the end. -/
def PairEnd (rest tail : List UInt8) : Prop := tail = [] ∧ rest = [] ∨ tail = jsonComma :: rest

/-- White space. -/
def AllSpace (gap : List UInt8) : Prop := ∀ sign ∈ gap, prvIsWhiteSpace sign = true

/-- `json_split` takes no quote in the text for the closing one, and the one behind it. -/
def ClosesBehind : UInt8 → List UInt8 → Prop
  | last, [] => last ≠ backslash
  | last, sign :: rest => (sign = jsonQuote → last = backslash) ∧ ClosesBehind sign rest

/-- The value as `json_split` reads it, with the text from it on. -/
inductive ValueRead (value rest : List UInt8) : List UInt8 → Prop
  | quoted {body gap tail : List UInt8} (hvalue : value = jsonQuote :: (body ++ [jsonQuote]))
    (hcloses : ClosesBehind jsonQuote body) (hgap : AllSpace gap) (hend : PairEnd rest tail) :
    ValueRead value rest (jsonQuote :: (body ++ jsonQuote :: (gap ++ tail)))
  | plain {sign : UInt8} {more gap tail : List UInt8} (hvalue : value = sign :: more)
    (hsign : prvIsReserved sign = false) (hspace : prvIsWhiteSpace sign = false)
    (hmore : ∀ other ∈ more, other ≠ jsonComma ∧ prvIsWhiteSpace other = false)
    (hgap : AllSpace gap) (hend : PairEnd rest tail) :
    ValueRead value rest (sign :: (more ++ (gap ++ tail)))

section loops

variable {last : UInt8} {token value text : List UInt8}
  {pair : List UInt8 × List UInt8 × List UInt8}

theorem jsonSkipSpace_front {rest : List UInt8} {sign : UInt8}
    (h : jsonSkipSpace text = sign :: rest) : prvIsWhiteSpace sign = false := by
  induction text with
  | nil => cases h
  | cons first text ih =>
    by_cases hspace : prvIsWhiteSpace first = true
    · rw [jsonSkipSpace_space hspace] at h
      exact ih h
    · rw [jsonSkipSpace_sign hspace] at h
      obtain ⟨rfl, -⟩ := List.cons.inj h
      exact Bool.eq_false_iff.2 hspace

theorem jsonSkipSpace_gap {gap : List UInt8} (h : AllSpace gap) (text : List UInt8) :
    jsonSkipSpace (gap ++ text) = jsonSkipSpace text := by
  induction gap with
  | nil => rfl
  | cons sign gap ih =>
    rw [List.cons_append, jsonSkipSpace_space (h sign List.mem_cons_self)]
    exact ih fun other hmem => h other (List.mem_cons_of_mem _ hmem)

theorem splitLoop_gap {step : ItemStep} (hstep : step.skipsSpace = true)
    (h : jsonSplitLoop step last token value text = some pair) :
    ∃ gap behind, text = gap ++ behind ∧ AllSpace gap ∧ jsonSkipSpace text = behind ∧
      jsonSplitLoop step last token value behind = some pair ∧
      ∀ sign rest, behind = sign :: rest → prvIsWhiteSpace sign = false := by
  refine ⟨text.takeWhile prvIsWhiteSpace, jsonSkipSpace text,
    List.takeWhile_append_dropWhile.symm, fun sign hmem => ?_, rfl, ?_, ?_⟩
  · exact (List.all_takeWhile (p := prvIsWhiteSpace) |> List.all_eq_true.1) sign hmem
  · rw [← @jsonSplitLoop_skip _ last last _ _ _ hstep]
    exact h
  · exact fun sign rest heq => jsonSkipSpace_front heq

theorem splitLoop_done (h : jsonSplitLoop .done last token value text = some pair) :
    pair.1 = token ∧ pair.2.1 = value ∧
      ∃ gap tail, text = gap ++ tail ∧ AllSpace gap ∧ PairEnd pair.2.2 tail := by
  obtain ⟨gap, behind, htext, hgap, -, hloop, hsign⟩ := splitLoop_gap rfl h
  cases behind with
  | nil =>
    obtain rfl := Option.some.inj hloop
    exact ⟨rfl, rfl, gap, [], htext, hgap, .inl ⟨rfl, rfl⟩⟩
  | cons sign rest =>
    have hspace : (ItemStep.done.skipsSpace && prvIsWhiteSpace sign) = false := by
      rw [hsign sign rest rfl, Bool.and_false]
    rw [jsonSplitLoop_sign hspace] at hloop
    dsimp only at hloop
    split at hloop
    · rename_i hcomma
      obtain rfl := Option.some.inj hloop
      exact ⟨rfl, rfl, gap, _, htext, hgap, .inr (by rw [hcomma])⟩
    · cases hloop

theorem splitLoop_value (h : jsonSplitLoop .value last token value text = some pair) :
    pair.1 = token ∧ ∃ more gap tail, text = more ++ (gap ++ tail) ∧ pair.2.1 = value ++ more ∧
      (∀ other ∈ more, other ≠ jsonComma ∧ prvIsWhiteSpace other = false) ∧
      AllSpace gap ∧ PairEnd pair.2.2 tail := by
  induction text generalizing last value with
  | nil =>
    obtain rfl := Option.some.inj h
    exact ⟨rfl, [], [], [], rfl, (List.append_nil _).symm, nofun, nofun, .inl ⟨rfl, rfl⟩⟩
  | cons sign text ih =>
    rw [jsonSplitLoop_sign rfl] at h
    dsimp only at h
    split at h
    · rename_i hcomma
      obtain rfl := Option.some.inj h
      exact ⟨rfl, [], [], _, rfl, (List.append_nil _).symm, nofun, nofun, .inr (by rw [hcomma])⟩
    · rename_i hcomma
      split at h
      · rename_i hspace
        obtain ⟨htoken, hvalue, gap, tail, htext, hgap, hend⟩ := splitLoop_done h
        refine ⟨htoken, [], sign :: gap, tail, by rw [htext]; rfl, ?_, nofun, ?_, hend⟩
        · rw [hvalue, List.append_nil]
        · intro other hmem
          obtain rfl | hmem := List.mem_cons.1 hmem
          · exact hspace
          · exact hgap other hmem
      · rename_i hspace
        obtain ⟨htoken, more, gap, tail, htext, hvalue, hmore, hgap, hend⟩ := ih h
        refine ⟨htoken, sign :: more, gap, tail, by rw [htext]; rfl, ?_, ?_, hgap, hend⟩
        · rw [hvalue, List.append_assoc]
          rfl
        · intro other hmem
          obtain rfl | hmem := List.mem_cons.1 hmem
          · exact ⟨hcomma, Bool.eq_false_iff.2 hspace⟩
          · exact hmore other hmem

theorem splitLoop_quoted (h : jsonSplitLoop .quotedValue last token value text = some pair) :
    pair.1 = token ∧ ∃ body gap tail, text = body ++ jsonQuote :: (gap ++ tail) ∧
      pair.2.1 = value ++ (body ++ [jsonQuote]) ∧ ClosesBehind last body ∧ AllSpace gap ∧
      PairEnd pair.2.2 tail := by
  induction text generalizing last value with
  | nil => cases h
  | cons sign text ih =>
    rw [jsonSplitLoop_sign rfl] at h
    dsimp only at h
    split at h
    · rename_i hquote
      obtain ⟨hquote, hlast⟩ := hquote
      obtain ⟨htoken, hvalue, gap, tail, htext, hgap, hend⟩ := splitLoop_done h
      refine ⟨htoken, [], gap, tail, by rw [hquote, htext]; rfl, ?_, hlast, hgap, hend⟩
      rw [hvalue, hquote]
      rfl
    · rename_i hquote
      obtain ⟨htoken, body, gap, tail, htext, hvalue, hcloses, hgap, hend⟩ := ih h
      refine ⟨htoken, sign :: body, gap, tail, by rw [htext]; rfl, ?_, ⟨?_, hcloses⟩, hgap, hend⟩
      · rw [hvalue, List.append_assoc]
        rfl
      · exact fun hsign => Decidable.byContradiction fun hne => hquote ⟨hsign, hne⟩

theorem splitLoop_separator (h : jsonSplitLoop .separator last token [] text = some pair) :
    pair.1 = token ∧ ∃ gap behind, text = gap ++ behind ∧ AllSpace gap ∧
      ValueRead pair.2.1 pair.2.2 behind := by
  obtain ⟨gap, behind, htext, hgap, -, hloop, hsign⟩ := splitLoop_gap rfl h
  cases behind with
  | nil => cases hloop
  | cons sign behind =>
    have hspace := hsign sign behind rfl
    have hskips : (ItemStep.separator.skipsSpace && prvIsWhiteSpace sign) = false := by
      rw [hspace, Bool.and_false]
    rw [jsonSplitLoop_sign hskips] at hloop
    dsimp only at hloop
    split at hloop
    · rename_i hquote
      obtain ⟨htoken, body, gap', tail, hbehind, hvalue, hcloses, hgap', hend⟩ :=
        splitLoop_quoted hloop
      refine ⟨htoken, gap, _, htext, hgap, ?_⟩
      rw [hquote, hbehind]
      rw [hquote] at hvalue hcloses
      exact .quoted hvalue hcloses hgap' hend
    · split at hloop
      · cases hloop
      · rename_i hreserved
        obtain ⟨htoken, more, gap', tail, hbehind, hvalue, hmore, hgap', hend⟩ :=
          splitLoop_value hloop
        refine ⟨htoken, gap, _, htext, hgap, ?_⟩
        rw [hbehind]
        exact .plain hvalue (Bool.eq_false_iff.2 hreserved) hspace hmore hgap' hend

theorem splitLoop_anySeparator (h : jsonSplitLoop .anySeparator last token [] text = some pair) :
    pair.1 = token ∧ ∃ gap gap' behind, text = gap ++ jsonColon :: (gap' ++ behind) ∧
      AllSpace gap ∧ AllSpace gap' ∧ ValueRead pair.2.1 pair.2.2 behind := by
  obtain ⟨gap, behind, htext, hgap, -, hloop, hsign⟩ := splitLoop_gap rfl h
  cases behind with
  | nil => cases hloop
  | cons sign behind =>
    have hskips : (ItemStep.anySeparator.skipsSpace && prvIsWhiteSpace sign) = false := by
      rw [hsign sign behind rfl, Bool.and_false]
    rw [jsonSplitLoop_sign hskips] at hloop
    dsimp only at hloop
    split at hloop
    · rename_i hcolon
      obtain ⟨htoken, gap', behind', hbehind, hgap', hvalue⟩ := splitLoop_separator hloop
      exact ⟨htoken, gap, gap', behind', by rw [htext, hcolon, hbehind], hgap, hgap', hvalue⟩
    · cases hloop

theorem splitLoop_token (h : jsonSplitLoop .token last token [] text = some pair) :
    ∃ more gap gap' behind, pair.1 = token ++ more ∧ jsonQuote ∉ more ∧
      text = more ++ jsonQuote :: (gap ++ jsonColon :: (gap' ++ behind)) ∧
      AllSpace gap ∧ AllSpace gap' ∧ ValueRead pair.2.1 pair.2.2 behind := by
  induction text generalizing last token with
  | nil => cases h
  | cons sign text ih =>
    rw [jsonSplitLoop_sign rfl] at h
    dsimp only at h
    split at h
    · cases h
    · split at h
      · rename_i hquote
        obtain ⟨htoken, gap, gap', behind, htext, hrest⟩ := splitLoop_anySeparator h
        refine ⟨[], gap, gap', behind, ?_, List.not_mem_nil, ?_, hrest⟩
        · rw [htoken, List.append_nil]
        · rw [hquote, htext]
          rfl
      · rename_i hquote
        obtain ⟨more, gap, gap', behind, htoken, hmore, htext, hrest⟩ := ih h
        refine ⟨sign :: more, gap, gap', behind, ?_, ?_, by rw [htext]; rfl, hrest⟩
        · rw [htoken, List.append_assoc]
          rfl
        · rw [List.mem_cons, not_or]
          exact ⟨fun heq => hquote heq.symm, hmore⟩

end loops

/-- Where a pair stands in a text. -/
structure PairParts (text token value rest front gap gap' behind : List UInt8) : Prop where
  text_eq : text = front ++ jsonQuote :: (token ++ jsonQuote :: (gap ++ jsonColon :: (gap' ++ behind)))
  token : jsonQuote ∉ token
  front : AllSpace front
  gap : AllSpace gap
  gap' : AllSpace gap'
  value : ValueRead value rest behind

variable {rest : List UInt8}

theorem jsonSplit_parts {text token value : List UInt8}
    (h : jsonSplit text = some (token, value, rest)) :
    ∃ front gap gap' behind, PairParts text token value rest front gap gap' behind := by
  obtain ⟨front, behind, htext, hfront, -, hloop, hsign⟩ := splitLoop_gap rfl h
  cases behind with
  | nil => cases hloop
  | cons sign behind =>
    have hskips : (ItemStep.start.skipsSpace && prvIsWhiteSpace sign) = false := by
      rw [hsign sign behind rfl, Bool.and_false]
    rw [jsonSplitLoop_sign hskips] at hloop
    dsimp only at hloop
    split at hloop
    · rename_i hquote
      obtain ⟨more, gap, gap', behind', htoken, hmore, hbehind, hgap, hgap', hvalue⟩ :=
        splitLoop_token hloop
      rw [List.nil_append] at htoken
      dsimp only at htoken
      refine ⟨front, gap, gap', behind', ?_, htoken ▸ hmore, hfront, hgap, hgap', hvalue⟩
      rw [htext, hquote, hbehind, htoken]
    · cases hloop

/-! ## Agreement -/

/-- A quoted value is one string; behind any other no string is open. -/
def ValueAgrees (value : List UInt8) : Prop :=
  if value.head? = some jsonQuote then
    ∃ body, value = jsonQuote :: (body ++ [jsonQuote]) ∧ StringBody body
  else stringState .outside value = .outside

/-- The pair that `json_split` finds in the content of an item begins and ends where
`json_itemLength` sees strings and separators: the call and the comma behind the pair are outside
strings, the token is one string, and so is a quoted value. -/
structure PairAgrees (content text token value rest : List UInt8) : Prop where
  parts : ∃ front gap gap' behind, PairParts text token value rest front gap gap' behind
  begins : ∃ before, content = before ++ text ∧ stringState .outside before = .outside
  ends : rest ≠ [] →
    ∃ before, content = before ++ jsonComma :: rest ∧ stringState .outside before = .outside
  key : StringBody token
  value : ValueAgrees value

/-- The end of a value without quotes around it. -/
def isPlainEnd (sign : UInt8) : Bool := sign == jsonComma || prvIsWhiteSpace sign

/-- A string at the front does not end in a backslash; up to a comma or white space no other value
leaves a string open. -/
def ValueClear : List UInt8 → Prop
  | [] => True
  | sign :: rest =>
    if sign = jsonQuote then
      ∃ body behind, jsonString rest = some (body, behind) ∧ body.getLast? ≠ some backslash
    else
      stringState .outside ((sign :: rest).takeWhile fun sign => !isPlainEnd sign) = .outside

/-- The key at the front is a string that holds no quote, and the value behind the colon is
clear. -/
def SplitClear (text : List UInt8) : Prop :=
  ∃ key body behind more, jsonSkipSpace text = jsonQuote :: key ∧
    jsonString key = some (body, behind) ∧ jsonQuote ∉ body ∧
    jsonSkipSpace behind = jsonColon :: more ∧ ValueClear (jsonSkipSpace more)

/-- The calls of `json_split` on the content of an item, each behind the comma of a clear pair. -/
inductive SplitCalls (content : List UInt8) : List UInt8 → Prop
  | first : SplitCalls content content
  | next {text token value rest : List UInt8} (h : SplitCalls content text)
    (hclear : SplitClear text) (hsplit : jsonSplit text = some (token, value, rest))
    (hrest : rest ≠ []) : SplitCalls content rest

theorem ClosesBehind.last {last : UInt8} {body : List UInt8} (h : ClosesBehind last body) :
    body.getLast?.getD last ≠ backslash := by
  induction body generalizing last with
  | nil => exact h
  | cons sign body ih =>
    rw [List.getLast?_cons]
    exact ih h.2

theorem ClosesBehind.string {last : UInt8} {body after inner behind : List UInt8}
    (h : ClosesBehind last body)
    (hstring : jsonString (body ++ jsonQuote :: after) = some (inner, behind))
    (hlast : inner.getLast?.getD last ≠ backslash) : inner = body := by
  induction hlen : body.length using Nat.strongRecOn generalizing last body inner with
  | _ len ih =>
    cases body with
    | nil =>
      rw [List.nil_append, jsonString_quote] at hstring
      exact (Prod.mk.inj (Option.some.inj hstring)).1.symm
    | cons sign body =>
      obtain ⟨hquoted, hrest⟩ := h
      by_cases hquote : sign = jsonQuote
      · -- The scanner closes here, behind a backslash.
        rw [hquote, List.cons_append, jsonString_quote] at hstring
        obtain ⟨rfl, -⟩ := Prod.mk.inj (Option.some.inj hstring)
        exact absurd (hquoted hquote) hlast
      · by_cases hback : sign = backslash
        · subst hback
          cases body with
          | nil => exact absurd rfl hrest
          | cons character body =>
            rw [List.cons_append, List.cons_append, jsonString_escape] at hstring
            obtain ⟨⟨inner', behind'⟩, hinner, heq⟩ := Option.map_eq_some_iff.1 hstring
            obtain ⟨rfl, rfl⟩ := Prod.mk.inj heq
            rw [List.getLast?_cons, List.getLast?_cons] at hlast
            have hsame := ih body.length (by simp only [List.length_cons] at hlen; omega) hrest.2 hinner hlast rfl
            rw [hsame]
        · rw [List.cons_append, jsonString_sign hquote hback] at hstring
          obtain ⟨⟨inner', behind'⟩, hinner, heq⟩ := Option.map_eq_some_iff.1 hstring
          obtain ⟨rfl, rfl⟩ := Prod.mk.inj heq
          rw [List.getLast?_cons] at hlast
          have hsame := ih body.length (by simp only [List.length_cons] at hlen; omega) hrest hinner hlast rfl
          rw [hsame]

theorem takeWhile_plain {sign : UInt8} {more gap tail : List UInt8}
    (hsign : prvIsReserved sign = false) (hspace : prvIsWhiteSpace sign = false)
    (hmore : ∀ other ∈ more, other ≠ jsonComma ∧ prvIsWhiteSpace other = false)
    (hgap : AllSpace gap) (hend : PairEnd rest tail) :
    (sign :: (more ++ (gap ++ tail))).takeWhile (fun sign => !isPlainEnd sign) = sign :: more := by
  have hfront : ∀ other ∈ sign :: more, (!isPlainEnd other) = true := by
    intro other hmem
    obtain rfl | hmem := List.mem_cons.1 hmem
    · have hcomma : other ≠ jsonComma := by
        rintro rfl
        exact absurd hsign (by decide)
      simp [isPlainEnd, hcomma, hspace]
    · simp [isPlainEnd, hmore other hmem]
  have hbehind : (gap ++ tail).takeWhile (fun sign => !isPlainEnd sign) = [] := by
    cases gap with
    | cons first gap =>
      have hfirst := hgap first List.mem_cons_self
      simp [isPlainEnd, hfirst]
    | nil =>
      obtain ⟨rfl, -⟩ | rfl := hend
      · rfl
      · rfl
  rw [← List.cons_append, List.takeWhile_append_of_pos hfront, hbehind, List.append_nil]

theorem ValueRead.agrees_iff {value behind : List UInt8} (h : ValueRead value rest behind) :
    ValueAgrees value ↔ ValueClear behind := by
  cases h with
  | @quoted body gap tail hvalue hcloses hgap hend =>
    subst hvalue
    rw [ValueAgrees, if_pos List.head?_cons, ValueClear, if_pos rfl]
    constructor
    · intro ⟨body', heq, hbody⟩
      obtain ⟨-, heq⟩ := List.cons.inj heq
      obtain rfl := List.append_cancel_right heq
      refine ⟨body, _, hbody _, fun hlast => ?_⟩
      have hne := hcloses.last
      rw [hlast] at hne
      exact hne rfl
    · intro ⟨inner, after, hinner, hlast⟩
      have hne : inner.getLast?.getD jsonQuote ≠ backslash := by
        cases hinner' : inner.getLast? with
        | none => exact (by decide : jsonQuote ≠ backslash)
        | some character =>
          rw [hinner'] at hlast
          exact fun heq => hlast (congrArg some heq)
      obtain rfl := hcloses.string hinner hne
      exact ⟨inner, rfl, (jsonString_eq hinner).2⟩
  | @plain sign more gap tail hvalue hsign hspace hmore hgap hend =>
    subst hvalue
    have hquote : sign ≠ jsonQuote := by
      rintro rfl
      exact absurd hsign (by decide)
    rw [ValueAgrees, if_neg (by simpa using hquote), ValueClear, if_neg hquote,
      takeWhile_plain hsign hspace hmore hgap hend]

theorem firstQuote_unique {front front' tail tail' : List UInt8} (h : jsonQuote ∉ front)
    (h' : jsonQuote ∉ front') (heq : front ++ jsonQuote :: tail = front' ++ jsonQuote :: tail') :
    front = front' ∧ tail = tail' := by
  induction front generalizing front' with
  | nil =>
    cases front' with
    | nil => exact ⟨rfl, (List.cons.inj heq).2⟩
    | cons sign front' => exact absurd (List.cons.inj heq).1 (List.ne_of_not_mem_cons h')
  | cons sign front ih =>
    cases front' with
    | nil => exact absurd (List.cons.inj heq).1.symm (List.ne_of_not_mem_cons h)
    | cons other front' =>
      obtain ⟨rfl, hrest⟩ := List.cons.inj heq
      obtain ⟨rfl, rfl⟩ :=
        ih (List.not_mem_of_not_mem_cons h) (List.not_mem_of_not_mem_cons h') hrest
      exact ⟨rfl, rfl⟩

section pairs

variable {content text token value rest front gap gap' behind : List UInt8}

theorem PairParts.key_iff (h : PairParts text token value rest front gap gap' behind) :
    StringBody token ∧ ValueAgrees value ↔ SplitClear text := by
  have hkey : jsonSkipSpace text =
      jsonQuote :: (token ++ jsonQuote :: (gap ++ jsonColon :: (gap' ++ behind))) := by
    rw [h.text_eq, jsonSkipSpace_gap h.front]
    exact jsonSkipSpace_sign (by decide)
  have hcolon : jsonSkipSpace (gap ++ jsonColon :: (gap' ++ behind)) =
      jsonColon :: (gap' ++ behind) := by
    rw [jsonSkipSpace_gap h.gap]
    exact jsonSkipSpace_sign (by decide)
  have hvalue : jsonSkipSpace (gap' ++ behind) = behind := by
    rw [jsonSkipSpace_gap h.gap']
    cases h.value with
    | quoted => exact jsonSkipSpace_sign (by decide)
    | plain hvalue hsign hspace => exact jsonSkipSpace_sign (by rw [hspace]; exact Bool.false_ne_true)
  constructor
  · intro ⟨hbody, hagrees⟩
    refine ⟨_, token, _, _, hkey, hbody _, h.token, hcolon, ?_⟩
    rw [hvalue]
    exact h.value.agrees_iff.1 hagrees
  · intro ⟨key, body, after, more, hquote, hbody, hnone, hmore, hclear⟩
    rw [hkey] at hquote
    obtain ⟨-, rfl⟩ := List.cons.inj hquote
    obtain ⟨heq, hstring⟩ := jsonString_eq hbody
    obtain ⟨rfl, rfl⟩ := firstQuote_unique h.token hnone heq
    rw [hcolon] at hmore
    obtain ⟨-, rfl⟩ := List.cons.inj hmore
    rw [hvalue] at hclear
    exact ⟨hstring, h.value.agrees_iff.2 hclear⟩

theorem ValueRead.ends (h : ValueRead value rest behind) (hagrees : ValueAgrees value)
    (hrest : rest ≠ []) :
    ∃ before, behind = before ++ jsonComma :: rest ∧ stringState .outside before = .outside := by
  have htail : ∀ {tail : List UInt8}, PairEnd rest tail → tail = jsonComma :: rest :=
    fun hend => hend.resolve_left fun hnone => hrest hnone.2
  cases h with
  | @quoted body gap tail hvalue hcloses hgap hend =>
    obtain rfl := htail hend
    subst hvalue
    rw [ValueAgrees, if_pos List.head?_cons] at hagrees
    obtain ⟨body', heq, hbody⟩ := hagrees
    obtain ⟨-, heq⟩ := List.cons.inj heq
    obtain rfl := List.append_cancel_right heq
    refine ⟨jsonQuote :: (body ++ jsonQuote :: gap), by simp, ?_⟩
    calc stringState .outside (jsonQuote :: (body ++ jsonQuote :: gap))
      _ = stringState .inside (body ++ jsonQuote :: gap) := rfl
      _ = stringState .outside gap := hbody.state gap
      _ = .outside := stringState_space hgap
  | @plain sign more gap tail hvalue hsign hspace hmore hgap hend =>
    obtain rfl := htail hend
    have hquote : sign ≠ jsonQuote := by
      rintro rfl
      exact absurd hsign (by decide)
    subst hvalue
    rw [ValueAgrees, if_neg (by simpa using hquote)] at hagrees
    refine ⟨sign :: more ++ gap, by simp, ?_⟩
    rw [stringState_append, hagrees, stringState_space hgap]

theorem PairParts.ends (h : PairParts text token value rest front gap gap' behind)
    (hkey : StringBody token) (hagrees : ValueAgrees value) (hrest : rest ≠ []) :
    ∃ before, text = before ++ jsonComma :: rest ∧ stringState .outside before = .outside := by
  obtain ⟨before, hbehind, hstate⟩ := h.value.ends hagrees hrest
  refine ⟨front ++ jsonQuote :: (token ++ jsonQuote :: (gap ++ jsonColon :: (gap' ++ before))),
    by rw [h.text_eq, hbehind]; simp, ?_⟩
  calc stringState .outside
        (front ++ jsonQuote :: (token ++ jsonQuote :: (gap ++ jsonColon :: (gap' ++ before))))
    _ = stringState .inside (token ++ jsonQuote :: (gap ++ jsonColon :: (gap' ++ before))) := by
      rw [stringState_append, stringState_space h.front]
      rfl
    _ = stringState .outside (gap ++ jsonColon :: (gap' ++ before)) := hkey.state _
    _ = stringState .outside (gap' ++ before) := by
      rw [stringState_append, stringState_space h.gap]
      rfl
    _ = .outside := by rw [stringState_append, stringState_space h.gap', hstate]

theorem SplitCalls.begins (h : SplitCalls content text) :
    ∃ before, content = before ++ text ∧ stringState .outside before = .outside := by
  induction h with
  | first => exact ⟨[], rfl, rfl⟩
  | @next text token value rest h hclear hsplit hrest ih =>
    obtain ⟨before, rfl, hbefore⟩ := ih
    obtain ⟨front, gap, gap', behind, hparts⟩ := jsonSplit_parts hsplit
    obtain ⟨hkey, hvalue⟩ := hparts.key_iff.2 hclear
    obtain ⟨middle, htext, hmiddle⟩ := hparts.ends hkey hvalue hrest
    refine ⟨before ++ (middle ++ [jsonComma]), by rw [htext]; simp, ?_⟩
    rw [stringState_append, hbefore, stringState_append, hmiddle]
    rfl

end pairs

/-- An item that `json_itemLength` delimits leaves no string open. On its content a pair that
`json_split` finds is delimited as `json_itemLength` sees it if and only if the string in front has
no quote in it and the value behind the colon is clear. -/
theorem jsonSplit_agrees_iff {buffer : List UInt8} {len : Nat}
    (hitem : jsonItemLength buffer = some len) {text token value rest : List UInt8}
    (hcall : SplitCalls (itemContent buffer len) text)
    (hsplit : jsonSplit text = some (token, value, rest)) :
    stringState .outside (itemContent buffer len) = .outside ∧
      (PairAgrees (itemContent buffer len) text token value rest ↔ SplitClear text) := by
  obtain ⟨front, gap, gap', behind, hparts⟩ := jsonSplit_parts hsplit
  refine ⟨jsonItemLength_outside hitem, ?_⟩
  constructor
  · intro hagrees
    exact hparts.key_iff.1 ⟨hagrees.key, hagrees.value⟩
  · intro hclear
    obtain ⟨hkey, hvalue⟩ := hparts.key_iff.2 hclear
    obtain ⟨before, hcontent, hbefore⟩ := hcall.begins
    refine ⟨⟨front, gap, gap', behind, hparts⟩, ⟨before, hcontent, hbefore⟩, ?_, hkey, hvalue⟩
    intro hrest
    obtain ⟨middle, htext, hmiddle⟩ := hparts.ends hkey hvalue hrest
    refine ⟨before ++ middle, by rw [hcontent, htext]; simp, ?_⟩
    rw [stringState_append, hbefore, hmiddle]

/-- `{"n":"x","v":1}`. -/
def clearItem : List UInt8 :=
  [123, 34, 110, 34, 58, 34, 120, 34, 44, 34, 118, 34, 58, 49, 125]

theorem clearItem_agrees : jsonItemLength clearItem = some 15 ∧
    ∃ token value rest, jsonSplit (itemContent clearItem 15) = some (token, value, rest) ∧
      stringState .outside (itemContent clearItem 15) = .outside ∧
      (PairAgrees (itemContent clearItem 15) (itemContent clearItem 15) token value rest ↔
        SplitClear (itemContent clearItem 15)) := by
  have hitem : jsonItemLength clearItem = some 15 := by decide
  have hsplit : jsonSplit (itemContent clearItem 15) =
      some ([110], [34, 120, 34], [34, 118, 34, 58, 49]) := by decide
  exact ⟨hitem, _, _, _, hsplit, jsonSplit_agrees_iff hitem .first hsplit⟩

/-- `{"vs":"a\\",",":1}`, whose value ends in a backslash. -/
def backslashItem : List UInt8 :=
  [123, 34, 118, 115, 34, 58, 34, 97, 92, 92, 34, 44, 34, 44, 34, 58, 49, 125]

/-- `{"a\":1,":2}`, whose key holds a quote. -/
def quoteItem : List UInt8 := [123, 34, 97, 92, 34, 58, 49, 44, 34, 58, 50, 125]

/-- `json_split` takes `"a\\","` for the value of the one, and the key of the other for a key and a
value. -/
theorem backslashItem_differs :
    (jsonItemLength backslashItem = some 18 ∧ ∃ value rest,
      jsonSplit (itemContent backslashItem 18) = some ([118, 115], value, rest) ∧
      value = [34, 97, 92, 92, 34, 44, 34] ∧
      ¬ PairAgrees (itemContent backslashItem 18) (itemContent backslashItem 18) [118, 115] value
        rest) ∧
    jsonItemLength quoteItem = some 12 ∧ ∃ token rest,
      jsonSplit (itemContent quoteItem 12) = some (token, [49], rest) ∧ token = [97, 92] ∧
      ¬ PairAgrees (itemContent quoteItem 12) (itemContent quoteItem 12) token [49] rest := by
  refine ⟨⟨by decide, _, [34, 58, 49], by decide +kernel, rfl, ?_⟩,
    by decide, _, [34, 58, 50], by decide +kernel, rfl, ?_⟩
  · intro hagrees
    have hvalue := hagrees.value
    rw [ValueAgrees,
      if_pos (show ([34, 97, 92, 92, 34, 44, 34] : List UInt8).head? = some jsonQuote from rfl)]
      at hvalue
    obtain ⟨body, heq, hbody⟩ := hvalue
    have hsame : body = [97, 92, 92, 34, 44] :=
      (List.append_cancel_right (List.cons.inj heq).2 : [97, 92, 92, 34, 44] = body).symm
    have hstring := hbody []
    rw [hsame] at hstring
    exact absurd hstring (by decide)
  · intro hagrees
    exact absurd (hagrees.key []) (by decide)

end Wakaama
