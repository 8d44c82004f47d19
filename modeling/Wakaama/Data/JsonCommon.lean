import Wakaama.Data.SenmlCommon

/-!
# What the JSON formats share (`data/json_common.c`)

`json_findDataItem`, `json_extendData`, `json_decreaseLevel`, `json_dataStrip` and
`json_findAndCheckData` do what their SenML counterparts do.
-/

namespace Wakaama

/-- The escape character, `'\\'`. -/
def backslash : UInt8 := 92

/-- `prv_hexValue`. -/
def prvHexValue (digit : UInt8) : UInt8 :=
  if 48 ≤ digit ∧ digit ≤ 57 then digit - 48
  else if 97 ≤ digit ∧ digit ≤ 102 then digit - 97 + 10
  else if 65 ≤ digit ∧ digit ≤ 70 then digit - 65 + 10
  else 0xFF

/-- The character that stands behind a backslash, unless it is a number. -/
def unescapeCharacter (character : UInt8) : Option UInt8 :=
  if character = 34 ∨ character = 92 ∨ character = 47 then some character
  else if character = 98 then some 8
  else if character = 102 then some 12
  else if character = 110 then some 10
  else if character = 114 then some 13
  else if character = 116 then some 9
  else none

/-- `json_unescapeString` on a text that is not empty; `none` is the result 0. The four digits of a
number are read if more than four characters are left: the check is `i >= len - 4`. For a shorter
text it wraps around, and the closing quote behind the text ends the number. -/
def jsonUnescapeString : List UInt8 → Option (List UInt8)
  | [] => some []
  | character :: rest =>
    if character = backslash then
      match rest with
      | [] => none
      | character :: rest =>
        if character = 117 then
          match rest with
          | zero :: zero' :: high :: low :: next :: rest =>
            if zero ≠ 48 ∨ zero' ≠ 48 then none
            else if 15 < prvHexValue high ∨ 15 < prvHexValue low then none
            else
              (jsonUnescapeString (next :: rest)).map fun text =>
                ((prvHexValue high <<< 4) + prvHexValue low) :: text
          | _ => none
        else
          match unescapeCharacter character with
          | none => none
          | some character => (jsonUnescapeString rest).map fun text => character :: text
    else (jsonUnescapeString rest).map fun text => character :: text

/-- `json_convertNumeric` on a node: an integer where the text has no point and no exponent. What
`strtod` makes of a text is a parameter. -/
def jsonConvertNumeric (textToFloat : List UInt8 → Option UInt64) (value : List UInt8)
    (id : UInt16) : Option Lwm2mData :=
  if value.all fun character => character != 46 && character != 101 && character != 69 then
    if value.head? = some minusSign then
      (utilsTextToInt value).map fun value => .node .integer id (.asInteger value)
    else (utilsTextToUInt value).map fun value => .node .unsignedInteger id (.asUnsigned value)
  else (textToFloat value).map fun bits => .node .float id (.asFloat bits)

/-- `json_convertTime`. -/
def jsonConvertTime (value : List UInt8) : Option Int64 := utilsTextToInt value

/-- `'"'`, `','`, `':'`, `'{'`, `'}'` and `']'`. -/
def jsonQuote : UInt8 := 34
def jsonComma : UInt8 := 44
def jsonColon : UInt8 := 58
def jsonItemBegin : UInt8 := 123
def jsonItemEnd : UInt8 := 125
def jsonFooter : UInt8 := 93

/-- `prv_isReserved`. -/
def prvIsReserved (sign : UInt8) : Bool :=
  sign == 91 || sign == jsonItemBegin || sign == jsonFooter || sign == jsonItemEnd ||
    sign == jsonColon || sign == jsonComma || sign == jsonQuote

/-- `prv_isWhiteSpace`. -/
def prvIsWhiteSpace (sign : UInt8) : Bool :=
  sign == 0x20 || sign == 0x09 || sign == 0x0A || sign == 0x0D

/-- The buffer behind what `json_skipSpace` skips. -/
def jsonSkipSpace (buffer : List UInt8) : List UInt8 := buffer.dropWhile prvIsWhiteSpace

/-- `_itemState`. -/
inductive ItemStep where
  | start
  | token
  | anySeparator
  | separator
  | quotedValue
  | value
  | done
  deriving DecidableEq

/-- The steps in front of which `json_split` skips white space. -/
def ItemStep.skipsSpace : ItemStep → Bool
  | .start | .anySeparator | .separator | .done => true
  | .token | .quotedValue | .value => false

/-- The loop of `json_split`, with the token and the value so far and the character that was read
last: the token, the value and what is behind the comma. -/
def jsonSplitLoop (step : ItemStep) (last : UInt8) (token value : List UInt8) :
    List UInt8 → Option (List UInt8 × List UInt8 × List UInt8)
  | [] => if step = .value ∨ step = .done then some (token, value, []) else none
  | sign :: rest =>
    if step.skipsSpace && prvIsWhiteSpace sign then jsonSplitLoop step sign token value rest
    else
      match step with
      | .start => if sign = jsonQuote then jsonSplitLoop .token sign token value rest else none
      | .token =>
        if sign = jsonComma then none
        else if sign = jsonQuote then jsonSplitLoop .anySeparator sign token value rest
        else jsonSplitLoop .token sign (token ++ [sign]) value rest
      | .anySeparator =>
        if sign = jsonColon then jsonSplitLoop .separator sign token value rest else none
      | .separator =>
        if sign = jsonQuote then jsonSplitLoop .quotedValue sign token [sign] rest
        else if prvIsReserved sign then none
        else jsonSplitLoop .value sign token [sign] rest
      | .quotedValue =>
        if sign = jsonQuote ∧ last ≠ backslash then
          jsonSplitLoop .done sign token (value ++ [sign]) rest
        else jsonSplitLoop .quotedValue sign token (value ++ [sign]) rest
      | .value =>
        if sign = jsonComma then some (token, value, rest)
        else if prvIsWhiteSpace sign then jsonSplitLoop .done sign token value rest
        else jsonSplitLoop .value sign token (value ++ [sign]) rest
      | .done => if sign = jsonComma then some (token, value, rest) else none

/-- `json_split`: the token, the value and what is behind the comma. -/
def jsonSplit (buffer : List UInt8) : Option (List UInt8 × List UInt8 × List UInt8) :=
  jsonSplitLoop .start 0 [] [] buffer

theorem jsonSplitLoop_rest {step : ItemStep} {last : UInt8} {token value buffer : List UInt8}
    {pair : List UInt8 × List UInt8 × List UInt8}
    (h : jsonSplitLoop step last token value buffer = some pair) :
    pair.2.2.length < buffer.length ∨ buffer = [] := by
  induction buffer generalizing step last token value with
  | nil => exact Or.inr rfl
  | cons sign rest ih =>
    left
    have hrest : ∀ {step' : ItemStep} {last' : UInt8} {token' value' : List UInt8},
        jsonSplitLoop step' last' token' value' rest = some pair →
          pair.2.2.length < (sign :: rest).length := by
      intro step' last' token' value' hloop
      rcases ih hloop with hless | rfl
      · exact Nat.lt_succ_of_lt hless
      · unfold jsonSplitLoop at hloop
        split at hloop
        · obtain rfl := Option.some.inj hloop
          simp
        · cases hloop
    have hhere : ∀ {token' value' : List UInt8}, some (token', value', rest) = some pair →
        pair.2.2.length < (sign :: rest).length := by
      intro token' value' hpair
      obtain rfl := Option.some.inj hpair
      simp
    unfold jsonSplitLoop at h
    split at h
    · exact hrest h
    · cases step <;> simp only at h <;> (try split at h) <;> (try split at h) <;>
        first
        | exact hrest h
        | exact hhere h
        | cases h

theorem jsonSplit_rest {token value rest buffer : List UInt8}
    (h : jsonSplit buffer = some (token, value, rest)) : rest.length < buffer.length := by
  rcases jsonSplitLoop_rest h with hless | rfl
  · exact hless
  · simp [jsonSplit, jsonSplitLoop] at h

/-- The loop of `json_itemLength` behind the `{`, inside a string or not, with the number of
characters before. White space, which it skips, counts like any other character. -/
def itemLengthLoop (inString : Bool) (index : Nat) : List UInt8 → Option Nat
  | [] => none
  | sign :: rest =>
    if inString then
      if sign = jsonQuote then itemLengthLoop false (index + 1) rest
      else if sign = backslash then
        match rest with
        | [] => none
        | _ :: rest => itemLengthLoop true (index + 2) rest
      else itemLengthLoop true (index + 1) rest
    else if sign = jsonItemBegin then none
    else if sign = jsonItemEnd then some (index + 1)
    else itemLengthLoop (sign == jsonQuote) (index + 1) rest

/-- `json_itemLength`; `none` is the result -1. -/
def jsonItemLength : List UInt8 → Option Nat
  | [] => none
  | sign :: rest => if sign = jsonItemBegin then itemLengthLoop false 1 rest else none

theorem itemLengthLoop_pos {inString : Bool} {index len : Nat} {buffer : List UInt8}
    (h : itemLengthLoop inString index buffer = some len) : index < len := by
  fun_induction itemLengthLoop inString index buffer with
  | case1 | case3 | case6 => cases h
  | case7 =>
    cases h
    exact Nat.lt_succ_self _
  | case2 | case4 | case5 | case8 => grind

theorem jsonItemLength_pos {buffer : List UInt8} {len : Nat}
    (h : jsonItemLength buffer = some len) : 0 < len ∧ 0 < buffer.length := by
  cases buffer with
  | nil => cases h
  | cons sign rest =>
    by_cases hsign : sign = jsonItemBegin
    · rw [jsonItemLength, if_pos hsign] at h
      exact ⟨Nat.lt_of_succ_lt (itemLengthLoop_pos h), by simp⟩
    · rw [jsonItemLength, if_neg hsign] at h
      cases h

/-- `json_countItems`; `none` is the result -1. -/
def jsonCountItems (buffer : List UInt8) : Option Nat :=
  match _hlen : jsonItemLength buffer with
  | none => none
  | some len =>
    match _hspace : jsonSkipSpace (buffer.drop len) with
    | [] => none
    | sign :: rest =>
      if sign = jsonFooter then some 1
      else if sign = jsonComma then
        if jsonSkipSpace rest = [] then none
        else (jsonCountItems (jsonSkipSpace rest)).map (· + 1)
      else none
termination_by buffer.length
decreasing_by
  have hpos := jsonItemLength_pos _hlen
  have hskip : (sign :: rest).length ≤ (buffer.drop len).length := by
    rw [← _hspace]
    exact (List.dropWhile_suffix _).length_le
  have hrest : (jsonSkipSpace rest).length ≤ rest.length := (List.dropWhile_suffix _).length_le
  simp only [List.length_cons, List.length_drop] at hskip
  omega

end Wakaama
