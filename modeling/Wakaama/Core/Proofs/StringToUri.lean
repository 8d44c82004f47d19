import Mathlib.Data.List.TakeWhile
import Wakaama.Core.Proofs.UriPath
import Wakaama.Core.UriDecode

/-!
# The texts that are read as URIs

A numeral is read as its value modulo 2^32. `lwm2m_stringToUri` accepts exactly its grammar, but
for numerals whose value wraps around to that of an id.
-/

namespace Wakaama

def EndsNumeral (rest : List UInt8) : Prop := rest = [] ∨ rest.head? = some 47

theorem isDigit_ne_slash {character : UInt8} (h : isDigit character = true) : character ≠ 47 := by
  rintro rfl
  exact absurd h (by decide)

theorem parseNumberLoop_step (value digit : Nat) :
    (((value : Int).bmod (2 ^ 32) * 10).bmod (2 ^ 32) + digit).bmod (2 ^ 32) =
      ((value * 10 + digit : Nat) : Int).bmod (2 ^ 32) := by
  rw [Int.bmod_add_bmod, ← Int.bmod_add_bmod (x := (value : Int).bmod (2 ^ 32) * 10),
    Int.bmod_mul_bmod, Int.bmod_add_bmod]
  congr 1

variable {rest text buffer numeral : List UInt8} {numerals : List (List UInt8)} {room : Nat}

theorem parseNumberLoop_wraps (hrest : EndsNumeral rest) :
    ∀ {numeral : List UInt8} (value : Nat), (∀ character ∈ numeral, isDigit character = true) →
      parseNumberLoop ((value : Int).bmod (2 ^ 32)) (numeral ++ rest) =
        some (((decimalFrom value numeral : Nat) : Int).bmod (2 ^ 32), rest) := by
  intro numeral
  induction numeral with
  | nil =>
    intro value _
    rcases hrest with rfl | hslash
    · rfl
    · obtain ⟨tail, rfl⟩ := List.head?_eq_some_iff.1 hslash
      rfl
  | cons character numeral ih =>
    intro value hdigits
    have hdigit := hdigits character List.mem_cons_self
    rw [List.cons_append, parseNumberLoop, if_neg (isDigit_ne_slash hdigit),
      if_pos (isDigit_iff.1 hdigit), isDigit_value hdigit, parseNumberLoop_step]
    exact ih _ fun other hmem => hdigits other (List.mem_cons_of_mem character hmem)

theorem parseNumberLoop_inv :
    ∀ {text : List UInt8} {result readNum : Int} {rest : List UInt8},
      parseNumberLoop result text = some (readNum, rest) →
      ∃ numeral, text = numeral ++ rest ∧ EndsNumeral rest ∧
        ∀ character ∈ numeral, isDigit character = true := by
  intro text
  induction text with
  | nil =>
    intro result readNum rest h
    cases h
    exact ⟨[], rfl, .inl rfl, fun _ hmem => nomatch hmem⟩
  | cons character text ih =>
    intro result readNum rest h
    unfold parseNumberLoop at h
    split at h
    · rename_i hslash
      cases h
      exact ⟨[], rfl, .inr (by rw [hslash]; rfl), fun _ hmem => nomatch hmem⟩
    · split at h
      · rename_i hdigit
        obtain ⟨numeral, rfl, hrest, hdigits⟩ := ih h
        refine ⟨character :: numeral, rfl, hrest, fun other hmem => ?_⟩
        rcases List.mem_cons.1 hmem with rfl | hmem
        · exact isDigit_iff.2 hdigit
        · exact hdigits other hmem
      · cases h

theorem bmod_id_iff (value : Nat) :
    ¬ ((value : Int).bmod (2 ^ 32) < 0 ∨ (lwm2mMaxId.toNat : Int) ≤ (value : Int).bmod (2 ^ 32)) ↔
      value % 2 ^ 32 < 65535 := by
  have hmax : lwm2mMaxId.toNat = 65535 := rfl
  rw [Int.bmod_def]
  split <;> omega

theorem bmod_id_value {value : Nat} (h : value % 2 ^ 32 < 65535) :
    ((value : Int).bmod (2 ^ 32)).toNat = value % 2 ^ 32 := by
  rw [Int.bmod_def]
  split <;> omega

theorem parseId_iff {id : UInt16} (htext : text ≠ []) :
    parseId text = some (id, rest) ↔
      ∃ numeral, IsNumeral numeral ∧ text = numeral ++ rest ∧ EndsNumeral rest ∧
        numeralValue numeral % 2 ^ 32 < 65535 ∧
        id = (numeralValue numeral % 2 ^ 32).toUInt16 := by
  constructor
  · intro h
    unfold parseId at h
    split at h
    · cases h
    · rename_i hslash
      split at h
      · cases h
      · rename_i readNum rest' hloop
        split at h
        · cases h
        · rename_i hrange
          cases h
          obtain ⟨numeral, rfl, hrest, hdigits⟩ := parseNumberLoop_inv hloop
          have hnumeral : IsNumeral numeral := by
            refine ⟨?_, hdigits⟩
            rintro rfl
            rcases hrest with rfl | hrest
            · exact htext rfl
            · exact hslash hrest
          have hvalue := parseNumberLoop_wraps hrest 0 hdigits
          rw [show ((0 : Nat) : Int).bmod (2 ^ 32) = 0 from rfl, hloop] at hvalue
          have hreadNum := (Prod.mk.inj (Option.some.inj hvalue)).1
          rw [hreadNum] at hrange ⊢
          have hlt := (bmod_id_iff _).1 hrange
          refine ⟨numeral, hnumeral, rfl, hrest, hlt, ?_⟩
          exact congrArg Nat.toUInt16 (bmod_id_value hlt)
  · rintro ⟨numeral, hnumeral, rfl, hrest, hlt, rfl⟩
    have hslash : (numeral ++ rest).head? ≠ some 47 := by
      obtain ⟨character, digits, rfl⟩ := List.exists_cons_of_ne_nil hnumeral.nonempty
      rw [List.cons_append, List.head?_cons]
      rintro ⟨⟩
      exact isDigit_ne_slash (hnumeral.digits 47 List.mem_cons_self) rfl
    have hvalue := parseNumberLoop_wraps hrest 0 hnumeral.digits
    rw [show ((0 : Nat) : Int).bmod (2 ^ 32) = 0 from rfl] at hvalue
    have hrange := (bmod_id_iff (decimalFrom 0 numeral)).2 hlt
    unfold parseId
    rw [if_neg hslash, hvalue]
    simp only
    rw [if_neg hrange]
    exact congrArg (fun id => some (Nat.toUInt16 id, rest)) (bmod_id_value hlt)

/-- The nested reads of `lwm2m_stringToUri`, with room for some more ids. -/
def parseIds : Nat → List UInt8 → Option (List UInt16)
  | 0, text => if text = [] then some [] else none
  | room + 1, text =>
    if text = [] then some []
    else do
      let (id, text) ← parseId text
      let ids ← parseIds room (if room = 0 then text else skipSlash text)
      return id :: ids

def uriFromIds (ids : List UInt16) : Lwm2mUri where
  objectId := ids.getD 0 lwm2mMaxId
  instanceId := ids.getD 1 lwm2mMaxId
  resourceId := ids.getD 2 lwm2mMaxId
  resourceInstanceId := ids.getD 3 lwm2mMaxId

theorem stringToUriRest_eq (h : buffer.dropWhile isSpace = 47 :: text) :
    stringToUriRest buffer = (parseIds 4 text).map fun ids => (uriFromIds ids, []) := by
  unfold stringToUriRest
  rw [h]
  simp only [ne_eq, not_true_eq_false, if_false, parseIds, Option.bind_eq_bind, Option.pure_def,
    Nat.add_one_ne_zero, if_true]
  by_cases htext : text = []
  · simp [htext, uriFromIds, Lwm2mUri.reset]
  rw [if_neg htext, if_neg htext]
  cases hobject : parseId text with
  | none => rfl
  | some object =>
    simp only [Option.bind_some]
    by_cases hobjectEnd : skipSlash object.2 = []
    · simp [hobjectEnd, uriFromIds, Lwm2mUri.reset]
    rw [if_neg hobjectEnd, if_neg hobjectEnd]
    cases hinstance : parseId (skipSlash object.2) with
    | none => rfl
    | some objectInstance =>
      simp only [Option.bind_some]
      by_cases hinstanceEnd : skipSlash objectInstance.2 = []
      · simp [hinstanceEnd, uriFromIds, Lwm2mUri.reset]
      rw [if_neg hinstanceEnd, if_neg hinstanceEnd]
      cases hresource : parseId (skipSlash objectInstance.2) with
      | none => rfl
      | some resource =>
        simp only [Option.bind_some]
        by_cases hresourceEnd : skipSlash resource.2 = []
        · simp [hresourceEnd, uriFromIds, Lwm2mUri.reset]
        rw [if_neg hresourceEnd, if_neg hresourceEnd]
        cases hlast : parseId (skipSlash resource.2) with
        | none => rfl
        | some resourceInstance =>
          by_cases hend : resourceInstance.2 = []
          · simp [hend, uriFromIds]
          · simp [hend]

def WrapsToIds (numerals : List (List UInt8)) : Prop :=
  ∀ numeral ∈ numerals, numeralValue numeral % 2 ^ 32 < 65535

def wrappedIds (numerals : List (List UInt8)) : List UInt16 :=
  numerals.map fun numeral => (numeralValue numeral % 2 ^ 32).toUInt16

theorem wrapsToIds_cons :
    WrapsToIds (numeral :: numerals) ↔
      numeralValue numeral % 2 ^ 32 < 65535 ∧ WrapsToIds numerals :=
  List.forall_mem_cons

theorem IsNumeral.parseId (h : IsNumeral numeral) (hrest : EndsNumeral rest)
    (hid : numeralValue numeral % 2 ^ 32 < 65535) :
    parseId (numeral ++ rest) = some ((numeralValue numeral % 2 ^ 32).toUInt16, rest) :=
  (parseId_iff (List.append_ne_nil_of_left_ne_nil h.nonempty rest)).2
    ⟨numeral, h, rfl, hrest, hid, rfl⟩

theorem parseIds_pathText (h : PathText room text numerals) (hids : WrapsToIds numerals) :
    parseIds room text = some (wrappedIds numerals) := by
  induction h with
  | empty room => cases room <;> simp [parseIds, wrappedIds]
  | @last room numeral hnumeral =>
    have hid := (wrapsToIds_cons.1 hids).1
    have hend : EndsNumeral [] := .inl rfl
    have hread := hnumeral.parseId hend hid
    rw [List.append_nil] at hread
    rw [parseIds, if_neg hnumeral.nonempty, hread]
    cases room <;> simp [parseIds, wrappedIds, skipSlash]
  | @more room numeral text numerals hnumeral hnext ih =>
    obtain ⟨hid, hrest⟩ := wrapsToIds_cons.1 hids
    have hslash : EndsNumeral (47 :: text) := .inr rfl
    have hread := hnumeral.parseId hslash hid
    rw [parseIds, if_neg (List.append_ne_nil_of_left_ne_nil hnumeral.nonempty _), hread]
    simp [skipSlash, ih hrest, wrappedIds]

theorem parseIds_inv {ids : List UInt16} (h : parseIds room text = some ids) :
    ∃ numerals, PathText room text numerals ∧ WrapsToIds numerals := by
  induction room generalizing text ids with
  | zero =>
    unfold parseIds at h
    split at h
    · rename_i hempty
      exact ⟨[], hempty ▸ .empty 0, fun _ hmem => nomatch hmem⟩
    · cases h
  | succ room ih =>
    unfold parseIds at h
    split at h
    · rename_i hempty
      exact ⟨[], hempty ▸ .empty _, fun _ hmem => nomatch hmem⟩
    · rename_i htext
      obtain ⟨⟨id, rest⟩, hread, hrests⟩ := Option.bind_eq_some_iff.1 h
      obtain ⟨numeral, hnumeral, rfl, hrest, hid, -⟩ := (parseId_iff htext).1 hread
      obtain ⟨next, hnext, -⟩ := Option.bind_eq_some_iff.1 hrests
      obtain ⟨numerals, hpath, hids⟩ := ih hnext
      rcases hrest with rfl | hslash
      · exact ⟨[numeral], by simpa using PathText.last hnumeral,
          wrapsToIds_cons.2 ⟨hid, fun _ hmem => nomatch hmem⟩⟩
      · obtain ⟨tail, rfl⟩ := List.head?_eq_some_iff.1 hslash
        cases room with
        | zero => nomatch hnext
        | succ room =>
          have htail : skipSlash (47 :: tail) = tail := by rw [skipSlash, if_pos rfl]
          rw [if_neg (Nat.succ_ne_zero room), htail] at hpath
          exact ⟨numeral :: numerals, .more hnumeral hpath, wrapsToIds_cons.2 ⟨hid, hids⟩⟩

theorem takeWhile_numeral (h : IsNumeral numeral) :
    (numeral ++ 47 :: text).takeWhile isDigit = numeral := by
  rw [List.takeWhile_append_of_pos h.digits, List.takeWhile_cons_of_neg (by decide),
    List.append_nil]

theorem append_slash_inj {numeral' text' : List UInt8} (h : IsNumeral numeral)
    (h' : IsNumeral numeral') (heq : numeral ++ 47 :: text = numeral' ++ 47 :: text') :
    numeral = numeral' ∧ text = text' := by
  have hsame : numeral = numeral' := by
    rw [← takeWhile_numeral h, heq, takeWhile_numeral h']
  subst hsame
  exact ⟨rfl, List.tail_eq_of_cons_eq (List.append_cancel_left heq)⟩

theorem PathText.unique {numerals' : List (List UInt8)} (h : PathText room text numerals)
    (h' : PathText room text numerals') : numerals = numerals' := by
  induction h generalizing numerals' with
  | empty room =>
    generalize htext : ([] : List UInt8) = text at h'
    cases h' with
    | empty => rfl
    | last hnumeral => exact absurd htext.symm hnumeral.nonempty
    | more hnumeral hnext => simp at htext
  | @last room numeral hnumeral =>
    cases h' with
    | empty => exact absurd rfl hnumeral.nonempty
    | last => rfl
    | more hother hnext =>
      exact absurd rfl (isDigit_ne_slash (hnumeral.digits 47 (by simp)))
  | @more room numeral text numerals hnumeral hnext ih =>
    generalize htext : numeral ++ 47 :: text = whole at h'
    cases h' with
    | empty => simp at htext
    | last hother =>
      subst htext
      exact absurd rfl (isDigit_ne_slash (hother.digits 47 (by simp)))
    | more hother hnext' =>
      obtain ⟨rfl, rfl⟩ := append_slash_inj hnumeral hother htext
      rw [ih hnext']

theorem uriText_dropWhile (h : UriText buffer numerals) :
    ∃ text, buffer.dropWhile isSpace = 47 :: text ∧ PathText 4 text numerals := by
  obtain ⟨spaces, text, hspaces, rfl, hpath⟩ := h
  refine ⟨text, ?_, hpath⟩
  rw [List.dropWhile_append_of_pos hspaces, List.dropWhile_cons_of_neg (by decide)]

theorem uriText_of_dropWhile (h : buffer.dropWhile isSpace = 47 :: text)
    (hpath : PathText 4 text numerals) : UriText buffer numerals := by
  refine ⟨buffer.takeWhile isSpace, text, fun _ hmem => List.mem_takeWhile_imp hmem, ?_, hpath⟩
  rw [← h, List.takeWhile_append_dropWhile]

theorem uriText_unique {numerals' : List (List UInt8)} (h : UriText buffer numerals)
    (h' : UriText buffer numerals') : numerals = numerals' := by
  obtain ⟨text, hdrop, hpath⟩ := uriText_dropWhile h
  obtain ⟨text', hdrop', hpath'⟩ := uriText_dropWhile h'
  obtain rfl := List.tail_eq_of_cons_eq (hdrop.symm.trans hdrop')
  exact hpath.unique hpath'

theorem stringToUriRest_uriText (h : UriText buffer numerals) (hids : WrapsToIds numerals) :
    stringToUriRest buffer = some (uriFromIds (wrappedIds numerals), []) := by
  obtain ⟨text, hdrop, hpath⟩ := uriText_dropWhile h
  rw [stringToUriRest_eq hdrop, parseIds_pathText hpath hids]
  rfl

theorem stringToUriRest_inv {out : Lwm2mUri × List UInt8} (h : stringToUriRest buffer = some out) :
    ∃ numerals, UriText buffer numerals ∧ WrapsToIds numerals := by
  cases hdrop : buffer.dropWhile isSpace with
  | nil =>
    unfold stringToUriRest at h
    rw [hdrop] at h
    nomatch h
  | cons character text =>
    by_cases hslash : character = 47
    · rw [hslash] at hdrop
      rw [stringToUriRest_eq hdrop] at h
      obtain ⟨ids, hids, -⟩ := Option.map_eq_some_iff.1 h
      obtain ⟨numerals, hpath, hwraps⟩ := parseIds_inv hids
      exact ⟨numerals, uriText_of_dropWhile hdrop hpath, hwraps⟩
    · unfold stringToUriRest at h
      rw [hdrop] at h
      simp only [ne_eq, hslash, not_false_eq_true, if_true] at h
      nomatch h

theorem uriText_ne_nil (h : UriText buffer numerals) : buffer ≠ [] := by
  obtain ⟨spaces, text, -, rfl, -⟩ := h
  simp

theorem lwm2mStringToUriHead_ne_zero (buffer : List UInt8) :
    lwm2mStringToUriHead buffer ≠ 0 ↔
      ∃ numerals, UriText buffer numerals ∧ WrapsToIds numerals := by
  constructor
  · intro h
    unfold lwm2mStringToUriHead at h
    split at h
    · exact absurd rfl h
    · rename_i hread
      exact stringToUriRest_inv hread
  · rintro ⟨numerals, htext, hids⟩
    rw [lwm2mStringToUriHead, stringToUriRest_uriText htext hids]
    exact Nat.ne_of_gt (List.length_pos_iff.2 (uriText_ne_nil htext))

theorem stringToUriRest_fst (buffer : List UInt8) :
    (stringToUriRest buffer).map Prod.fst = lwm2mStringToUri buffer := by
  unfold stringToUriRest lwm2mStringToUri
  cases buffer.dropWhile isSpace with
  | nil => rfl
  | cons character text =>
    simp only
    split
    · rfl
    · split
      · rfl
      · simp only [Option.map_bind, Option.bind_eq_bind, Option.pure_def]
        congr 1
        funext object
        simp only [Function.comp_apply]
        split
        · rfl
        · simp only [Option.map_bind]
          congr 1
          funext objectInstance
          simp only [Function.comp_apply]
          split
          · rfl
          · simp only [Option.map_bind]
            congr 1
            funext resource
            simp only [Function.comp_apply]
            split
            · rfl
            · simp only [Option.map_bind]
              congr 1
              funext resourceInstance
              simp only [Function.comp_apply]
              split
              · rfl
              · rfl

theorem PathText.noNul (h : PathText room text numerals) : 0 ∉ text := by
  have hdigits : ∀ {numeral : List UInt8}, IsNumeral numeral → 0 ∉ numeral := fun hnumeral hmem =>
    absurd (hnumeral.digits 0 hmem) (by decide)
  induction h with
  | empty room => exact List.not_mem_nil
  | last hnumeral => exact hdigits hnumeral
  | more hnumeral _ ih =>
    intro hmem
    rcases List.mem_append.1 hmem with hfirst | hrest
    · exact hdigits hnumeral hfirst
    · rcases List.mem_cons.1 hrest with hslash | htext
      · cases hslash
      · exact ih htext

theorem lwm2mStringToUri_noNul {uri : Lwm2mUri} (h : lwm2mStringToUri text = some uri) :
    0 ∉ text := by
  rw [← stringToUriRest_fst] at h
  obtain ⟨out, hread, -⟩ := Option.map_eq_some_iff.1 h
  obtain ⟨numerals, ⟨spaces, path, hspaces, rfl, hpath⟩, -⟩ := stringToUriRest_inv hread
  intro hmem
  rcases List.mem_append.1 hmem with hspace | hrest
  · exact absurd (hspaces 0 hspace) (by decide)
  · rcases List.mem_cons.1 hrest with hslash | hpathMem
    · cases hslash
    · exact hpath.noNul hpathMem

theorem uriFromIds_wrapped (h : ∀ numeral ∈ numerals, numeralValue numeral < 65535) :
    uriFromIds (wrappedIds numerals) = uriOfIds (numerals.map numeralValue) := by
  have hids : wrappedIds numerals = (numerals.map numeralValue).map Nat.toUInt16 := by
    unfold wrappedIds
    rw [List.map_map]
    refine List.map_congr_left fun numeral hmem => ?_
    rw [Nat.mod_eq_of_lt (by have := h numeral hmem; omega)]
    rfl
  have hget : ∀ i, (wrappedIds numerals).getD i lwm2mMaxId =
      ((numerals.map numeralValue).getD i 65535).toUInt16 := by
    intro i
    rw [hids, List.getD_eq_getElem?_getD, List.getD_eq_getElem?_getD, List.getElem?_map]
    cases (numerals.map numeralValue)[i]? with
    | none => rfl
    | some value => rfl
  simp only [uriFromIds, uriOfIds, hget]

end Wakaama
