import Wakaama.Data.Proofs.JsonStrings
import Wakaama.Data.SenmlJsonParse
import Wakaama.Misc.Decimal

/-!
# JSON documents of records

What a text has to be like, apart from any parser: an array of records, or an object with such an
array. A record has members with strings and literals; what stands behind a backslash in a string
is not looked at.
-/

namespace Wakaama

/-- What is behind the digits at the front, of which there is one at least. -/
def digitsBehind (text : List UInt8) : Option (List UInt8) :=
  if text.takeWhile isDigit = [] then none else some (text.dropWhile isDigit)

/-- What is behind the integer at the front: a zero alone, or digits. -/
def integerBehind (text : List UInt8) : Option (List UInt8) :=
  if text.head? = some 48 then some text.tail else digitsBehind text

/-- What is behind a fraction, if there is one. -/
def fractionBehind (text : List UInt8) : Option (List UInt8) :=
  if text.head? = some 46 then digitsBehind text.tail else some text

/-- The text without one of the signs at its front. -/
def withoutSign (signs text : List UInt8) : List UInt8 :=
  match text with
  | [] => []
  | sign :: rest => if sign ∈ signs then rest else text

/-- What is behind an exponent, if there is one. -/
def exponentBehind (text : List UInt8) : Option (List UInt8) :=
  if text.head? = some 101 ∨ text.head? = some 69 then
    digitsBehind (withoutSign [43, 45] text.tail)
  else some text

/-- A number. -/
def isJsonNumber (text : List UInt8) : Bool :=
  ((integerBehind (withoutSign [45] text)).bind fractionBehind).bind exponentBehind == some []

/-- `null`. -/
def jsonNullString : List UInt8 := [110, 117, 108, 108]

/-- A number, `true`, `false` or `null`. -/
def isJsonLiteral (text : List UInt8) : Bool :=
  text == jsonTrueString || text == jsonFalseString || text == jsonNullString || isJsonNumber text

/-- A value: a string or a literal. Under the key of a boolean it is `true` or `false`. -/
def JsonValueText (key token value : List UInt8) : Prop :=
  if token = key then value = jsonTrueString ∨ value = jsonFalseString
  else
    isJsonLiteral value = true ∨
      ∃ body, value = jsonQuote :: (body ++ [jsonQuote]) ∧ StringBody body

/-- The text begins with a token, a colon and a value, with white space around them, up to what is
behind. -/
inductive PairText (key token value : List UInt8) : List UInt8 → List UInt8 → Prop
  | intro {front gap gap' gap'' : List UInt8} (tail : List UInt8) (hfront : AllSpace front)
    (hgap : AllSpace gap) (hgap' : AllSpace gap') (hgap'' : AllSpace gap'')
    (htoken : StringBody token) (hvalue : JsonValueText key token value) :
    PairText key token value
      (front ++ jsonQuote ::
        (token ++ jsonQuote :: (gap ++ jsonColon :: (gap' ++ (value ++ (gap'' ++ tail)))))) tail

/-- The members of a record, with a comma behind each but the last. -/
inductive MembersText (key : List UInt8) : List UInt8 → Prop
  | last {text token value : List UInt8} (hpair : PairText key token value text []) :
    MembersText key text
  | more {text token value rest : List UInt8}
    (hpair : PairText key token value text (jsonComma :: rest)) (hrest : MembersText key rest) :
    MembersText key text

/-- The records of an array from the first one on, with a comma behind each but the last, up to
what is behind the `]`. -/
inductive RecordsText (key : List UInt8) : List UInt8 → List UInt8 → Prop
  | last {content gap behind : List UInt8} (hrecord : MembersText key content)
    (hgap : AllSpace gap) :
    RecordsText key
      (jsonItemBegin :: (content ++ jsonItemEnd :: (gap ++ jsonFooter :: behind))) behind
  | more {content gap gap' rest behind : List UInt8} (hrecord : MembersText key content)
    (hgap : AllSpace gap) (hgap' : AllSpace gap') (hrest : RecordsText key rest behind) :
    RecordsText key
      (jsonItemBegin :: (content ++ jsonItemEnd :: (gap ++ jsonComma :: (gap' ++ rest)))) behind

/-- The text is one array of records. -/
def ArrayText (key text : List UInt8) : Prop :=
  ∃ front gap items behind, text = front ++ 91 :: (gap ++ items) ∧ AllSpace front ∧
    AllSpace gap ∧ RecordsText key items behind ∧ AllSpace behind

/-- A member of the object up to the comma or the brace behind it; whether it is the array. -/
inductive MemberText (key : List UInt8) : List UInt8 → List UInt8 → Bool → Prop
  | array {front gap gap' gap'' close items tail : List UInt8} (hfront : AllSpace front)
    (hgap : AllSpace gap) (hgap' : AllSpace gap') (hgap'' : AllSpace gap'')
    (hclose : AllSpace close) (hrecords : RecordsText key items (close ++ tail)) :
    MemberText key
      (front ++ jsonQuote :: 101 :: jsonQuote ::
        (gap ++ jsonColon :: (gap' ++ 91 :: (gap'' ++ items)))) tail true
  | pair {text token value tail : List UInt8} (hpair : PairText key token value text tail) :
    MemberText key text tail false

/-- The members of the object, with a comma behind each but the last, up to what is behind the
`}`; whether the array is among them. -/
inductive ObjectText (key : List UInt8) : List UInt8 → List UInt8 → Bool → Prop
  | last {text behind : List UInt8} {array : Bool}
    (hmember : MemberText key text (jsonItemEnd :: behind) array) :
    ObjectText key text behind array
  | more {text rest behind : List UInt8} {array found : Bool}
    (hmember : MemberText key text (jsonComma :: rest) array)
    (hrest : ObjectText key rest behind found) : ObjectText key text behind (array || found)

/-- The text is one object that has an array of records. -/
def WholeObjectText (key text : List UInt8) : Prop :=
  ∃ front members behind, text = front ++ jsonItemBegin :: members ∧ AllSpace front ∧
    ObjectText key members behind true ∧ AllSpace behind

/-- The signs of a literal. -/
def isLiteralSign (sign : UInt8) : Bool := sign != jsonQuote && sign != jsonComma

/-- A text begins with signs of a literal, up to what is behind. -/
def LiteralFront (text behind : List UInt8) : Prop :=
  ∃ front, text = front ++ behind ∧ ∀ sign ∈ front, isLiteralSign sign = true

theorem LiteralFront.refl (text : List UInt8) : LiteralFront text text :=
  ⟨[], rfl, fun _ hmem => absurd hmem List.not_mem_nil⟩

variable {text behind : List UInt8}

theorem LiteralFront.trans {rest : List UInt8} (h : LiteralFront text behind)
    (h' : LiteralFront behind rest) : LiteralFront text rest := by
  obtain ⟨front, rfl, hfront⟩ := h
  obtain ⟨front', rfl, hfront'⟩ := h'
  refine ⟨front ++ front', (List.append_assoc _ _ _).symm, fun sign hmem => ?_⟩
  obtain hmem | hmem := List.mem_append.1 hmem
  · exact hfront sign hmem
  · exact hfront' sign hmem

theorem LiteralFront.head {sign : UInt8} (h : text.head? = some sign)
    (hsign : isLiteralSign sign = true) : LiteralFront text text.tail := by
  cases text with
  | nil => cases h
  | cons first rest =>
    obtain rfl := Option.some.inj h
    refine ⟨[first], rfl, fun other hmem => ?_⟩
    obtain rfl := List.mem_singleton.1 hmem
    exact hsign

theorem digitsBehind_front (h : digitsBehind text = some behind) : LiteralFront text behind := by
  unfold digitsBehind at h
  split at h
  · cases h
  · obtain rfl := Option.some.inj h
    refine ⟨text.takeWhile isDigit, List.takeWhile_append_dropWhile.symm, fun sign hmem => ?_⟩
    have hdigit : isDigit sign = true :=
      List.all_eq_true.1 (@List.all_takeWhile _ isDigit text) sign hmem
    simp only [isLiteralSign, Bool.and_eq_true, bne_iff_ne]
    constructor <;> intro heq <;> rw [heq] at hdigit <;> exact absurd hdigit (by decide)

theorem integerBehind_front (h : integerBehind text = some behind) : LiteralFront text behind := by
  unfold integerBehind at h
  split at h
  · rename_i hzero
    obtain rfl := Option.some.inj h
    exact .head hzero (by decide)
  · exact digitsBehind_front h

theorem fractionBehind_front (h : fractionBehind text = some behind) :
    LiteralFront text behind := by
  unfold fractionBehind at h
  split at h
  · rename_i hpoint
    exact (LiteralFront.head hpoint (by decide)).trans (digitsBehind_front h)
  · obtain rfl := Option.some.inj h
    exact .refl _

theorem withoutSign_front {signs : List UInt8}
    (hsigns : ∀ sign ∈ signs, isLiteralSign sign = true) :
    LiteralFront text (withoutSign signs text) := by
  unfold withoutSign
  split
  · exact .refl _
  · split
    · rename_i hmem
      exact LiteralFront.head List.head?_cons (hsigns _ hmem)
    · exact .refl _

theorem exponentBehind_front (h : exponentBehind text = some behind) :
    LiteralFront text behind := by
  unfold exponentBehind at h
  split at h
  · rename_i hletter
    have hfront : LiteralFront text text.tail := by
      obtain hletter | hletter := hletter
      · exact .head hletter (by decide)
      · exact .head hletter (by decide)
    have hsign : LiteralFront text.tail (withoutSign [43, 45] text.tail) :=
      withoutSign_front (by simp [isLiteralSign, jsonQuote, jsonComma])
    exact (hfront.trans hsign).trans (digitsBehind_front h)
  · obtain rfl := Option.some.inj h
    exact .refl _

theorem isJsonNumber_front (h : isJsonNumber text = true) : LiteralFront text [] := by
  rw [isJsonNumber, beq_iff_eq, Option.bind_eq_some_iff] at h
  obtain ⟨rest, hrest, hexponent⟩ := h
  obtain ⟨integer, hinteger, hfraction⟩ := Option.bind_eq_some_iff.1 hrest
  have hsign : LiteralFront text (withoutSign [45] text) :=
    withoutSign_front (by simp [isLiteralSign, jsonQuote, jsonComma])
  exact ((hsign.trans (integerBehind_front hinteger)).trans
    (fractionBehind_front hfraction)).trans (exponentBehind_front hexponent)

theorem isJsonLiteral_signs (h : isJsonLiteral text = true) :
    ∀ sign ∈ text, isLiteralSign sign = true := by
  simp only [isJsonLiteral, Bool.or_eq_true, beq_iff_eq] at h
  obtain ((rfl | rfl) | rfl) | hnumber := h
  · simp [isLiteralSign, jsonTrueString, jsonQuote, jsonComma]
  · simp [isLiteralSign, jsonFalseString, jsonQuote, jsonComma]
  · simp [isLiteralSign, jsonNullString, jsonQuote, jsonComma]
  · obtain ⟨front, heq, hfront⟩ := isJsonNumber_front hnumber
    rw [List.append_nil] at heq
    rw [heq]
    exact hfront

end Wakaama
