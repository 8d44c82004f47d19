import Wakaama.Data.JsonDocument
import Wakaama.Data.Proofs.SenmlJsonBuffers

/-!
# The documents that the JSON parsers accept

A text that is taken is a complete document as it is read, as long as every pair is clear and its
value is written as JSON writes it, no comma is left over, and nothing but white space is behind
the end.
-/

namespace Wakaama

/-! ## Pairs -/

/-- The pairs that `json_split` finds in a text one behind the other, each as it should be. -/
inductive Pairs (fits : List UInt8 → List UInt8 → List UInt8 → List UInt8 → Prop) :
    List UInt8 → Prop
  | last {text token value : List UInt8} (hsplit : jsonSplit text = some (token, value, []))
    (hfits : fits text token value []) : Pairs fits text
  | more {text token value rest : List UInt8} (hsplit : jsonSplit text = some (token, value, rest))
    (hfits : fits text token value rest) (hne : rest ≠ []) (hrest : Pairs fits rest) :
    Pairs fits text

/-- The value under the key of a boolean is one that the parser takes. -/
def BooleanTaken (key : List UInt8) (_text token value _rest : List UInt8) : Prop :=
  token = key →
    strncmpEqual jsonTrueString value = true ∨ strncmpEqual jsonFalseString value = true

/-- The pair is one of a document, as it is read. -/
def PairComplete (key text token value rest : List UInt8) : Prop :=
  PairText key token value text (if rest = [] then [] else jsonComma :: rest)

/-- The text of a boolean is as long as the literal that it begins; any other value is quoted or
a literal. -/
def ValueServed (key token value : List UInt8) : Prop :=
  if token = key then
    (value.head? = some 116 → value.length = 4) ∧ (value.head? = some 102 → value.length = 5)
  else value.head? = some jsonQuote ∨ isJsonLiteral value = true

/-- The call of `json_split` is on a clear pair, no comma is left over behind the last one, and the
value is written as JSON writes it. -/
def PairServed (key text token value rest : List UInt8) : Prop :=
  SplitClear text ∧ (rest = [] → text.getLast? ≠ some jsonComma) ∧ ValueServed key token value

section pairs

variable {fits fits' : List UInt8 → List UInt8 → List UInt8 → List UInt8 → Prop}
  {key text token value rest front gap gap' behind : List UInt8}

theorem Pairs.mono (himp : ∀ text token value rest, jsonSplit text = some (token, value, rest) →
    fits text token value rest → fits' text token value rest) (h : Pairs fits text) :
    Pairs fits' text := by
  induction h with
  | last hsplit hfits => exact .last hsplit (himp _ _ _ _ hsplit hfits)
  | more hsplit hfits hne _ ih => exact .more hsplit (himp _ _ _ _ hsplit hfits) hne ih

theorem Pairs.and (h : Pairs fits text) (h' : Pairs fits' text) :
    Pairs (fun text token value rest => fits text token value rest ∧ fits' text token value rest)
      text := by
  induction h with
  | last hsplit hfits =>
    cases h' with
    | last hsplit' hfits' =>
      rw [hsplit] at hsplit'
      obtain ⟨rfl, rfl, -⟩ := hsplit'
      exact .last hsplit ⟨hfits, hfits'⟩
    | more hsplit' _ hne =>
      rw [hsplit] at hsplit'
      obtain ⟨-, -, rfl⟩ := hsplit'
      exact absurd rfl hne
  | more hsplit hfits hne _ ih =>
    cases h' with
    | last hsplit' _ =>
      rw [hsplit] at hsplit'
      obtain ⟨-, -, rfl⟩ := hsplit'
      exact absurd rfl hne
    | more hsplit' hfits' _ hrest' =>
      rw [hsplit] at hsplit'
      obtain ⟨rfl, rfl, rfl⟩ := hsplit'
      exact .more hsplit ⟨hfits, hfits'⟩ hne (ih hrest')

theorem stringState_unquoted (h : ∀ sign ∈ text, sign ≠ jsonQuote) :
    stringState .outside text = .outside := by
  induction text with
  | nil => rfl
  | cons sign text ih =>
    have hnext : StringState.outside.next sign = .outside :=
      if_neg (h sign List.mem_cons_self)
    rw [stringState_cons, hnext]
    exact ih fun other hmem => h other (List.mem_cons_of_mem _ hmem)

theorem literal_unquoted (h : isJsonLiteral value = true) : ∀ sign ∈ value, sign ≠ jsonQuote := by
  intro sign hmem
  have hsign := isJsonLiteral_signs h sign hmem
  simp only [isLiteralSign, Bool.and_eq_true, bne_iff_ne] at hsign
  exact hsign.1

theorem JsonValueText.cases (h : JsonValueText key token value) :
    isJsonLiteral value = true ∨
      ∃ body, value = jsonQuote :: (body ++ [jsonQuote]) ∧ StringBody body := by
  unfold JsonValueText at h
  split at h
  · obtain rfl | rfl := h
    · exact .inl (by decide)
    · exact .inl (by decide)
  · exact h

theorem JsonValueText.agrees (h : JsonValueText key token value) : ValueAgrees value := by
  obtain hliteral | ⟨body, rfl, hbody⟩ := h.cases
  · have hquote : value.head? ≠ some jsonQuote := fun hhead =>
      literal_unquoted hliteral _ (List.mem_of_mem_head? hhead) rfl
    rw [ValueAgrees, if_neg hquote]
    exact stringState_unquoted (literal_unquoted hliteral)
  · rw [ValueAgrees, if_pos List.head?_cons]
    exact ⟨body, rfl, hbody⟩

theorem JsonValueText.last (h : JsonValueText key token value) :
    ∃ sign, value.getLast? = some sign ∧ sign ≠ jsonComma := by
  obtain hliteral | ⟨body, rfl, -⟩ := h.cases
  · cases hlast : value.getLast? with
    | none =>
      rw [List.getLast?_eq_none_iff] at hlast
      rw [hlast] at hliteral
      exact absurd hliteral (by decide)
    | some sign =>
      have hsign := isJsonLiteral_signs hliteral sign (List.mem_of_getLast? hlast)
      simp only [isLiteralSign, Bool.and_eq_true, bne_iff_ne] at hsign
      exact ⟨sign, rfl, hsign.2⟩
  · refine ⟨jsonQuote, ?_, by decide⟩
    rw [← List.cons_append, List.getLast?_append]
    rfl

theorem PairText.last (h : PairText key token value text []) :
    text.getLast? ≠ some jsonComma := by
  cases h with
  | @intro front gap gap' gap'' _ hfront hgap hgap' hgap'' htoken hvalue =>
    have hshape : front ++ jsonQuote ::
        (token ++ jsonQuote :: (gap ++ jsonColon :: (gap' ++ (value ++ (gap'' ++ []))))) =
        (front ++ jsonQuote :: (token ++ jsonQuote :: (gap ++ jsonColon :: gap'))) ++
          (value ++ gap'') := by simp
    rw [hshape, List.getLast?_append, List.getLast?_append]
    cases hlast : gap''.getLast? with
    | none =>
      obtain ⟨sign, hsign, hcomma⟩ := hvalue.last
      rw [hsign]
      exact fun heq => hcomma (Option.some.inj heq)
    | some sign =>
      have hspace := hgap'' sign (List.mem_of_getLast? hlast)
      intro heq
      obtain rfl := Option.some.inj heq
      exact absurd hspace (by decide)

theorem strncmpEqual_exact {literal : List UInt8} {sign : UInt8} {more : List UInt8}
    (h : strncmpEqual literal value = true) (hliteral : literal = sign :: more) (hne : value ≠ [])
    (hlen : value.head? = some sign → value.length = literal.length) : value = literal := by
  rw [strncmpEqual, Bool.or_eq_true, List.isPrefixOf_iff_prefix, List.isPrefixOf_iff_prefix] at h
  obtain hprefix | ⟨behind, hprefix⟩ := h
  · refine hprefix.eq_of_length (hlen ?_)
    obtain ⟨behind, heq⟩ := hprefix
    cases value with
    | nil => exact absurd rfl hne
    | cons first value =>
      rw [hliteral] at heq
      exact congrArg some (List.cons.inj heq).1
  · have hhead : value.head? = some sign := by
      rw [← hprefix, hliteral]
      rfl
    have hlength := hlen hhead
    rw [← hprefix, List.length_append, List.length_append, List.length_singleton] at hlength
    omega

theorem ValueRead.ne_nil (h : ValueRead value rest behind) : value ≠ [] := by
  cases h with
  | quoted hvalue =>
    rw [hvalue]
    exact List.cons_ne_nil _ _
  | plain hvalue =>
    rw [hvalue]
    exact List.cons_ne_nil _ _

theorem ValueServed.written (hserved : ValueServed key token value)
    (htaken : BooleanTaken key text token value rest) (hne : value ≠ [])
    (hagrees : ValueAgrees value) : JsonValueText key token value := by
  unfold ValueServed at hserved
  unfold JsonValueText
  split
  · rename_i htoken
    rw [if_pos htoken] at hserved
    obtain htrue | hfalse := htaken htoken
    · exact .inl (strncmpEqual_exact htrue rfl hne hserved.1)
    · exact .inr (strncmpEqual_exact hfalse rfl hne hserved.2)
  · rename_i htoken
    rw [if_neg htoken] at hserved
    obtain hquote | hliteral := hserved
    · rw [ValueAgrees, if_pos hquote] at hagrees
      exact .inr hagrees
    · exact .inl hliteral

theorem JsonValueText.served (h : JsonValueText key token value) : ValueServed key token value := by
  unfold JsonValueText at h
  unfold ValueServed
  split
  · rename_i htoken
    rw [if_pos htoken] at h
    obtain rfl | rfl := h
    · decide
    · decide
  · rename_i htoken
    rw [if_neg htoken] at h
    obtain hliteral | ⟨body, rfl, -⟩ := h
    · exact .inr hliteral
    · exact .inl List.head?_cons

theorem pairComplete_iff (hsplit : jsonSplit text = some (token, value, rest))
    (htaken : BooleanTaken key text token value rest) :
    PairComplete key text token value rest ↔ PairServed key text token value rest := by
  obtain ⟨front, gap, gap', behind, hparts⟩ := jsonSplit_parts hsplit
  constructor
  · intro hcomplete
    unfold PairComplete at hcomplete
    have hlast : rest = [] → text.getLast? ≠ some jsonComma := by
      intro hnil
      rw [if_pos hnil] at hcomplete
      exact hcomplete.last
    cases hcomplete with
    | intro _ _ _ _ _ htoken hvalue =>
      exact ⟨hparts.key_iff.1 ⟨htoken, hvalue.agrees⟩, hlast, hvalue.served⟩
  · intro ⟨hclear, hlast, hserved⟩
    obtain ⟨htoken, hagrees⟩ := hparts.key_iff.2 hclear
    have hvalue := hserved.written htaken hparts.value.ne_nil hagrees
    -- The value with the white space and the end behind it.
    have hbehind : ∃ gap'' tail, behind = value ++ (gap'' ++ tail) ∧ AllSpace gap'' ∧
        PairEnd rest tail := by
      cases hparts.value with
      | @quoted body gap'' tail hvalue _ hgap hend =>
        exact ⟨gap'', tail, by rw [hvalue]; simp, hgap, hend⟩
      | @plain sign more gap'' tail hvalue _ _ _ hgap hend =>
        exact ⟨gap'', tail, by rw [hvalue]; simp, hgap, hend⟩
    obtain ⟨gap'', tail, rfl, hgap'', hend⟩ := hbehind
    have htail : tail = if rest = [] then [] else jsonComma :: rest := by
      obtain ⟨rfl, rfl⟩ | rfl := hend
      · rfl
      · split
        · rename_i hnil
          refine absurd ?_ (hlast hnil)
          have hshape : text = (front ++ jsonQuote :: (token ++ jsonQuote ::
              (gap ++ jsonColon :: (gap' ++ (value ++ gap''))))) ++ [jsonComma] := by
            rw [hparts.text_eq, hnil]
            simp
          rw [hshape, List.getLast?_concat]
        · rfl
    rw [PairComplete, ← htail, hparts.text_eq]
    exact .intro tail hparts.front hparts.gap hparts.gap' hgap'' htoken hvalue

theorem Pairs.members (h : Pairs (PairComplete key) text) : MembersText key text := by
  induction h with
  | last _ hfits =>
    rw [PairComplete, if_pos rfl] at hfits
    exact .last hfits
  | more _ hfits hne _ ih =>
    rw [PairComplete, if_neg hne] at hfits
    exact .more hfits ih

end pairs

/-! ## Records -/

def recordContent (text behind : List UInt8) : List UInt8 :=
  (text.drop 1).take (text.length - behind.length - 2)

def RecordTaken (key text behind : List UInt8) : Prop :=
  Pairs (BooleanTaken key) (recordContent text behind)

/-- The item is a record of a document, as it is read. -/
def RecordComplete (key text behind : List UInt8) : Prop :=
  ∃ content, text = jsonItemBegin :: (content ++ jsonItemEnd :: behind) ∧
    jsonItemLength text = some (content.length + 2) ∧ Pairs (PairComplete key) content

/-- The item is not too long for an `int`, and its pairs are served. -/
def RecordServed (key text _behind : List UInt8) : Prop :=
  ∃ len, jsonItemLength text = some len ∧ len < 2 ^ 31 ∧
    Pairs (PairServed key) (itemContent text len)

section records

variable {key text behind content : List UInt8}
  {taken taken' : List UInt8 → List UInt8 → Prop}

theorem itemLengthLoop_end {inString : Bool} {index len : Nat}
    (h : itemLengthLoop inString index text = some len) :
    ∃ body, text = body ++ jsonItemEnd :: text.drop (len - index) ∧
      body.length + 1 = len - index := by
  -- One character, in front of a loop that goes on behind it.
  have hstep : ∀ {inString : Bool} {index : Nat} {front rest : List UInt8},
      itemLengthLoop inString (index + front.length) rest = some len →
      (∃ body, rest = body ++ jsonItemEnd :: rest.drop (len - (index + front.length)) ∧
        body.length + 1 = len - (index + front.length)) →
      ∃ body, front ++ rest = body ++ jsonItemEnd :: (front ++ rest).drop (len - index) ∧
        body.length + 1 = len - index := by
    intro inString index front rest hloop hbody
    obtain ⟨body, heq, hlength⟩ := hbody
    have hpos := itemLengthLoop_pos hloop
    have hlen : len - index = front.length + (len - (index + front.length)) := by omega
    refine ⟨front ++ body, ?_, ?_⟩
    · rw [hlen, List.drop_length_add_append, List.append_assoc, ← heq]
    · rw [hlen, List.length_append]
      omega
  fun_induction itemLengthLoop inString index text with
  | case1 => cases h
  | case2 index rest ih => exact @hstep false index [jsonQuote] rest h (ih h)
  | case3 => cases h
  | case4 index character rest hne ih =>
    exact @hstep true index [backslash, character] rest h (ih h)
  | case5 index sign rest hquote hback ih => exact @hstep true index [sign] rest h (ih h)
  | case6 => cases h
  | case7 inString index rest hin =>
    obtain rfl := Option.some.inj h
    refine ⟨[], ?_, ?_⟩
    · rw [Nat.add_sub_cancel_left]
      rfl
    · rw [Nat.add_sub_cancel_left]
      rfl
  | case8 inString index sign rest hin hbegin hend ih =>
    exact @hstep (sign == jsonQuote) index [sign] rest h (ih h)

theorem jsonItemLength_shape {len : Nat} (h : jsonItemLength text = some len) :
    text = jsonItemBegin :: (itemContent text len ++ jsonItemEnd :: text.drop len) ∧
      (itemContent text len).length + 2 = len := by
  unfold jsonItemLength at h
  split at h
  · cases h
  · rename_i sign rest
    split at h
    · rename_i hbegin
      subst hbegin
      obtain ⟨body, heq, hlength⟩ := itemLengthLoop_end h
      have hpos := itemLengthLoop_pos h
      obtain ⟨more, rfl⟩ : ∃ more, len = more + 1 := ⟨len - 1, by omega⟩
      rw [Nat.add_sub_cancel] at heq hlength
      have hcontent : itemContent (jsonItemBegin :: rest) (more + 1) = body := by
        rw [itemContent, List.drop_succ_cons, List.drop_zero, heq,
          show more + 1 - 2 = body.length by omega, List.take_left]
      rw [hcontent, List.drop_succ_cons]
      exact ⟨congrArg (jsonItemBegin :: ·) heq, by omega⟩
    · cases h

theorem jsonItemBehind_short {len : Nat} (hitem : jsonItemBehind text = some behind)
    (hlen : jsonItemLength text = some len) (hint : len < 2 ^ 31) : behind = text.drop len := by
  have hpos := (jsonItemLength_pos hlen).1
  unfold jsonItemBehind at hitem
  rw [hlen] at hitem
  dsimp only at hitem
  rw [toInt_nat hint, if_neg (by omega), Int.toNat_natCast] at hitem
  exact (Option.some.inj hitem).symm

theorem jsonItemBehind_whole {len : Nat} (hitem : jsonItemBehind text = some behind)
    (hlen : jsonItemLength text = some len) (hlength : text.length = len + behind.length) :
    len < 2 ^ 31 := by
  have hle := jsonItemLength_le hlen
  obtain ⟨hmax, hbound⟩ := toInt_bounds len
  unfold jsonItemBehind at hitem
  rw [hlen] at hitem
  dsimp only at hitem
  split at hitem
  · cases hitem
  · obtain rfl := Option.some.inj hitem
    rw [List.length_drop] at hlength
    have hint := hbound (by omega)
    omega

theorem recordContent_eq (text : List UInt8) {content behind : List UInt8}
    (h : text = jsonItemBegin :: (content ++ jsonItemEnd :: behind)) :
    recordContent text behind = content := by
  have hlength : text.length - behind.length - 2 = content.length := by
    rw [h]
    simp only [List.length_cons, List.length_append]
    omega
  rw [recordContent, hlength, h, List.drop_succ_cons, List.drop_zero, List.take_left]

theorem recordComplete_iff (hitem : jsonItemBehind text = some behind)
    (htaken : RecordTaken key text behind) :
    RecordComplete key text behind ↔ RecordServed key text behind := by
  constructor
  · intro ⟨content, heq, hlen, hpairs⟩
    rw [RecordTaken, recordContent_eq text heq] at htaken
    obtain ⟨hshape, hlength⟩ := jsonItemLength_shape hlen
    have hcontent : itemContent text (content.length + 2) = content := by
      rw [itemContent, heq, List.drop_succ_cons, List.drop_zero, Nat.add_sub_cancel, List.take_left]
    refine ⟨content.length + 2, hlen, jsonItemBehind_whole hitem hlen ?_, ?_⟩
    · rw [heq]
      simp only [List.length_cons, List.length_append]
      omega
    · rw [hcontent]
      exact (htaken.and hpairs).mono fun text token value rest hsplit hboth =>
        (pairComplete_iff hsplit hboth.1).1 hboth.2
  · intro ⟨len, hlen, hint, hpairs⟩
    obtain ⟨hshape, hlength⟩ := jsonItemLength_shape hlen
    rw [← jsonItemBehind_short hitem hlen hint] at hshape
    rw [RecordTaken, recordContent_eq text hshape] at htaken
    refine ⟨itemContent text len, hshape, by rw [hlen, hlength], ?_⟩
    exact (htaken.and hpairs).mono fun text token value rest hsplit hboth =>
      (pairComplete_iff hsplit hboth.1).2 hboth.2

/-! ## Arrays -/

theorem JsonItemsTaken.mono {count : Nat} (h : JsonItemsTaken taken text count behind)
    (himp : ∀ text behind, jsonItemBehind text = some behind → taken text behind →
      taken' text behind) : JsonItemsTaken taken' text count behind := by
  induction h with
  | last hitem htaken hfooter => exact .last hitem (himp _ _ hitem htaken) hfooter
  | more hitem htaken hcomma _ ih => exact .more hitem (himp _ _ hitem htaken) hcomma ih

theorem JsonItemsTaken.and {count count' : Nat} {behind' : List UInt8}
    (h : JsonItemsTaken taken text count behind) (h' : JsonItemsTaken taken' text count' behind') :
    behind = behind' ∧ JsonItemsTaken (fun text behind => taken text behind ∧ taken' text behind)
      text count behind := by
  induction h generalizing count' with
  | last hitem htaken hfooter =>
    cases h' with
    | last hitem' htaken' hfooter' =>
      rw [hitem] at hitem'
      obtain rfl := Option.some.inj hitem'
      rw [hfooter] at hfooter'
      exact ⟨(List.cons.inj hfooter').2, .last hitem ⟨htaken, htaken'⟩ hfooter⟩
    | more hitem' _ hcomma' _ =>
      rw [hitem] at hitem'
      obtain rfl := Option.some.inj hitem'
      rw [hfooter] at hcomma'
      exact absurd (List.cons.inj hcomma').1.symm jsonComma_footer
  | more hitem htaken hcomma _ ih =>
    cases h' with
    | last hitem' _ hfooter' =>
      rw [hitem] at hitem'
      obtain rfl := Option.some.inj hitem'
      rw [hcomma] at hfooter'
      exact absurd (List.cons.inj hfooter').1 jsonComma_footer
    | more hitem' htaken' hcomma' hmore' =>
      rw [hitem] at hitem'
      obtain rfl := Option.some.inj hitem'
      rw [hcomma] at hcomma'
      obtain rfl := (List.cons.inj hcomma').2
      obtain ⟨hbehind, hboth⟩ := ih hmore'
      exact ⟨hbehind, .more hitem ⟨htaken, htaken'⟩ hcomma hboth⟩

theorem recordsComplete_iff {count count' : Nat} {behind' : List UInt8}
    (htaken : JsonItemsTaken (RecordTaken key) text count behind) :
    JsonItemsTaken (RecordComplete key) text count' behind' ↔
      JsonItemsTaken (RecordServed key) text count' behind' := by
  constructor
  · intro hcomplete
    obtain ⟨-, hboth⟩ := hcomplete.and htaken
    exact hboth.mono fun text behind hitem hrecord =>
      (recordComplete_iff hitem hrecord.2).1 hrecord.1
  · intro hserved
    obtain ⟨-, hboth⟩ := hserved.and htaken
    exact hboth.mono fun text behind hitem hrecord =>
      (recordComplete_iff hitem hrecord.2).2 hrecord.1

theorem jsonSkipSpace_split (text : List UInt8) :
    ∃ gap, text = gap ++ jsonSkipSpace text ∧ AllSpace gap :=
  ⟨text.takeWhile prvIsWhiteSpace, List.takeWhile_append_dropWhile.symm, fun sign hmem =>
    List.all_eq_true.1 (@List.all_takeWhile _ prvIsWhiteSpace text) sign hmem⟩

theorem jsonSkipSpace_sign_split {rest : List UInt8} {sign : UInt8}
    (h : jsonSkipSpace text = sign :: rest) : ∃ gap, text = gap ++ sign :: rest ∧ AllSpace gap := by
  obtain ⟨gap, heq, hgap⟩ := jsonSkipSpace_split text
  exact ⟨gap, by rw [← h]; exact heq, hgap⟩

theorem JsonItemsTaken.records {count : Nat}
    (h : JsonItemsTaken (RecordComplete key) text count behind) : RecordsText key text behind := by
  induction h with
  | last hitem hrecord hfooter =>
    obtain ⟨content, rfl, -, hpairs⟩ := hrecord
    obtain ⟨gap, rfl, hgap⟩ := jsonSkipSpace_sign_split hfooter
    exact .last hpairs.members hgap
  | @more text behind rest rest' count hitem hrecord hcomma _ ih =>
    obtain ⟨content, rfl, -, hpairs⟩ := hrecord
    obtain ⟨gap, rfl, hgap⟩ := jsonSkipSpace_sign_split hcomma
    obtain ⟨gap', hrest, hgap'⟩ := jsonSkipSpace_split rest
    rw [hrest]
    exact .more hpairs.members hgap hgap' ih

end records

/-! ## The array of SenML-JSON -/

/-- The text is one array of records, as it is read. -/
def ArrayRead (key text : List UInt8) : Prop :=
  ∃ rest count behind, jsonSkipSpace text = jsonArrayBegin :: rest ∧
    JsonItemsTaken (RecordComplete key) (jsonSkipSpace rest) count behind ∧ AllSpace behind

/-- The records of the array are served, and nothing but white space is behind it. -/
def ArrayServed (key text : List UInt8) : Prop :=
  ∃ rest count behind, jsonSkipSpace text = jsonArrayBegin :: rest ∧
    JsonItemsTaken (RecordServed key) (jsonSkipSpace rest) count behind ∧ AllSpace behind

section floats

variable {textToFloat : List UInt8 → Option UInt64} {text : List UInt8}

theorem ArrayRead.document {key : List UInt8} (h : ArrayRead key text) : ArrayText key text := by
  obtain ⟨rest, count, behind, hbegin, hrecords, hbehind⟩ := h
  obtain ⟨front, htext, hfront⟩ := jsonSkipSpace_sign_split hbegin
  obtain ⟨gap, hrest, hgap⟩ := jsonSkipSpace_split rest
  refine ⟨front, gap, jsonSkipSpace rest, behind, ?_, hfront, hgap, hrecords.records, hbehind⟩
  rw [← hrest]
  exact htext

theorem jsonParseField_boolean {state state' : JsonItemState} {token value rest : List UInt8}
    (h : jsonParseField textToFloat state token value = some state') :
    BooleanTaken senmlBoolean text token value rest := by
  intro htoken
  subst htoken
  simp only [jsonParseField, show senmlBoolean ≠ senmlBaseName by decide,
    show senmlBoolean ≠ senmlBaseTime by decide, show senmlBoolean ≠ senmlBaseValue by decide,
    show senmlBoolean ≠ senmlBaseVersion by decide, show senmlBoolean ≠ senmlName by decide,
    show senmlBoolean ≠ senmlTime by decide, show isValueToken senmlBoolean = true by decide,
    if_true, if_false] at h
  split at h
  · cases h
  · obtain ⟨pair, hvalue, -⟩ := Option.map_eq_some_iff.1 h
    simp only [jsonNewValue, show senmlBoolean ≠ senmlNumber by decide, if_true, if_false] at hvalue
    split at hvalue
    · rename_i htrue
      exact .inl htrue
    · split at hvalue
      · rename_i hfalse
        exact .inr hfalse
      · cases hvalue

theorem senmlItemRounds_pairs {buffer : List UInt8} {bufferLen : Nat}
    (hlen : bufferLen ≤ buffer.length) (hint : bufferLen < 2 ^ 31) (size : Nat) :
    ∀ {state : JsonItemState} {index : Nat} {text : List UInt8}, text.length < size →
      index ≤ bufferLen → (buffer.take bufferLen).drop index = text →
      Inside (fun _ => Pairs (BooleanTaken senmlBoolean) text)
        (senmlItemRounds textToFloat buffer bufferLen state index) := by
  induction size with
  | zero =>
    intro state index text hsize
    exact absurd hsize (Nat.not_lt_zero _)
  | succ size ih =>
    intro state index text hsize hindex h
    have hsub : bufferLen - index ≤ (buffer.drop index).length := by
      rw [List.length_drop]
      omega
    have hagrees := jsonSplitAt_agrees hsub
    rw [take_drop, h] at hagrees
    rw [senmlItemRounds, sizeLess_of_le hindex]
    cases hsplit : jsonSplit text with
    | none =>
      rw [hsplit] at hagrees
      rw [hagrees]
      trivial
    | some found =>
      obtain ⟨token, value, rest⟩ := found
      rw [hsplit] at hagrees
      obtain ⟨range, next, hresult, hfound⟩ := hagrees
      have hnext := hfound.next_le
      have htoken := sliceAt_of hsub hfound.token_inside
      have hvalue := sliceAt_of hsub hfound.value_inside
      rw [take_drop, h, ← hfound.token_eq] at htoken
      rw [take_drop, h, ← hfound.value_eq] at hvalue
      have hrest : (buffer.take bufferLen).drop (index + (next + 1)) = rest := by
        rw [hfound.rest_eq, ← h, List.drop_drop]
      rw [hresult, ok_bind]
      dsimp only
      rw [toInt_nat (by omega), if_neg (by omega), Int.toNat_natCast]
      apply Inside.ite
      · intro _
        trivial
      · intro _
        rw [htoken, ok_bind, hvalue, ok_bind]
        split
        · trivial
        · rename_i state' hfield
          have htaken := @jsonParseField_boolean _ text _ _ _ _ rest hfield
          split
          · rename_i hmore
            have hne : rest ≠ [] := by
              rw [← hrest]
              intro hnil
              have hend := take_end hlen hnil
              omega
            have hless := jsonSplit_rest hsplit
            apply (ih (by omega) (Nat.le_of_lt hmore) hrest).mono
            intro _ hpairs
            exact .more hsplit htaken hne hpairs
          · rename_i hmore
            have hnil : rest = [] := by
              rw [← hrest, List.drop_eq_nil_iff, List.length_take_of_le hlen]
              omega
            rw [hnil] at hsplit htaken
            exact .last hsplit htaken

theorem senmlNextRecord_taken {buffer text behind : List UInt8} {bufferLen index len : Nat}
    (hlen : bufferLen ≤ buffer.length) (state : List SenmlRecord × BaseValues)
    (hhere : ItemHere buffer bufferLen index len text behind) :
    Inside (fun _ => RecordTaken senmlBoolean text behind)
      (senmlNextRecord textToFloat (buffer.drop (index + 1)) (sizeLess len 2) state) := by
  by_cases hone : len = 1
  · subst hone
    rw [senmlNextRecord, senmlItemRounds, List.drop_zero, sizeLess_of_le (Nat.zero_le _),
      itemHere_one hlen hhere]
    trivial
  · obtain ⟨hsize, hsub, hlength, hbody⟩ := itemHere_body hlen hhere hone
    have hint := hhere.2.2.1
    have hcontent : (buffer.drop (index + 1)).take (len - 2) = recordContent text behind := by
      rw [hbody, recordContent, hlength]
    rw [hsize, senmlNextRecord]
    apply (senmlItemRounds_pairs hsub (by omega) _ (Nat.lt_succ_self _) (Nat.zero_le _)
      List.drop_zero).bind
    intro fields hpairs
    rw [hcontent] at hpairs
    split
    · trivial
    · exact hpairs

theorem senmlJsonParseAt_taken {records : List SenmlRecord}
    (h : senmlJsonParseAt textToFloat text = .ok records) :
    ∃ rest count behind, jsonSkipSpace text = jsonArrayBegin :: rest ∧
      JsonItemsTaken (RecordTaken senmlBoolean) (jsonSkipSpace rest) count behind := by
  have hinside : ReadsInside (senmlJsonParseAt textToFloat text) := by
    rw [h]
    trivial
  have hcounts := (senmlJsonParseAt_inside_iff text).1 hinside
  by_cases hbegin : ∃ rest, jsonSkipSpace text = jsonArrayBegin :: rest ∧ jsonSkipSpace rest ≠ []
  · obtain ⟨rest, hbegin, hne⟩ := hbegin
    obtain ⟨first, hfirst, hitems, hparse⟩ := @senmlJsonParseAt_begins textToFloat _ _ hbegin hne
    obtain ⟨hsub, hdrop⟩ := items_front (Nat.le_refl _) hfirst (drop_front_whole hitems)
    have htaken : Inside (fun _ => ∃ count behind,
        JsonItemsTaken (RecordTaken senmlBoolean) (jsonSkipSpace rest) count behind)
        (senmlJsonParseAt textToFloat text) := by
      rw [hparse]
      apply (countItemsRounds_inside hsub _ (Nat.le_refl _) hne (by decide) hdrop
        (hcounts rest hbegin)).bind
      rintro count ⟨left, hcount, -, hcounted⟩
      rw [Nat.zero_add] at hcount
      subst hcount
      rw [if_neg (Nat.ne_of_gt hcounted.pos)]
      apply (jsonItemRounds_inside (Nat.le_refl _) (senmlNextRecord_taken (Nat.le_refl _)) hcounted
        (drop_front_whole hitems)).bind
      rintro result ⟨behind, hitems, -⟩
      exact ⟨_, behind, hitems⟩
    rw [h] at htaken
    obtain ⟨count, behind, htaken⟩ := htaken
    exact ⟨rest, count, behind, hbegin, htaken⟩
  · rw [senmlJsonParseAt_other] at h
    · cases h
    · intro rest hrest
      by_contra hne
      exact hbegin ⟨rest, hrest, hne⟩

theorem arrayRead_iff {records : List SenmlRecord}
    (h : senmlJsonParseAt textToFloat text = .ok records) :
    ArrayRead senmlBoolean text ↔ ArrayServed senmlBoolean text := by
  obtain ⟨rest, count, behind, hbegin, htaken⟩ := senmlJsonParseAt_taken h
  constructor
  · intro ⟨rest', count', behind', hbegin', hrecords, hbehind⟩
    rw [hbegin] at hbegin'
    obtain rfl := (List.cons.inj hbegin').2
    exact ⟨rest, count', behind', hbegin, (recordsComplete_iff htaken).1 hrecords, hbehind⟩
  · intro ⟨rest', count', behind', hbegin', hrecords, hbehind⟩
    rw [hbegin] at hbegin'
    obtain rfl := (List.cons.inj hbegin').2
    exact ⟨rest, count', behind', hbegin, (recordsComplete_iff htaken).2 hrecords, hbehind⟩

end floats

end Wakaama
