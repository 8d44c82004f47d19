import Wakaama.Core.Proofs.LinkChecks
import Wakaama.Core.Proofs.LinkSafety

/-!
# Which payloads are scanned safely

`prv_splitLinkAttribute` takes a value of one character for none. Together with the links that are
read past their end, and those that a `uint16_t` does not reach, this is all that goes wrong.
-/

namespace Wakaama

variable {data : List UInt8}

/-- A text that starts with a value, spaces around it or not. -/
inductive ValueText : List UInt8 → List UInt8 → Prop where
  | intro {lead value trail rest : List UInt8} (hlead : ∀ byte ∈ lead, byte = 32)
    (hvalue : value ≠ []) (hfirst : value.head? ≠ some 32) (hlast : value.getLast? ≠ some 32)
    (hbytes : ∀ byte ∈ value, byte ≠ 59) (htrail : ∀ byte ∈ trail, byte = 32)
    (hrest : rest = [] ∨ ∃ more, rest = 59 :: more) :
    ValueText (lead ++ (value ++ (trail ++ rest))) value

/-- A text that starts with an attribute, spaces in front of its key or not, and the value. -/
inductive AttributeText : List UInt8 → List UInt8 → Prop where
  | intro {blanks key text value : List UInt8} (hblanks : ∀ byte ∈ blanks, byte = 32)
    (hkey : key ≠ []) (hhead : key.head? ≠ some 32)
    (hinner : ∀ byte ∈ key, byte ≠ 59 ∧ byte ≠ 61) (htext : ValueText text value) :
    AttributeText (blanks ++ (key ++ 61 :: text)) value

theorem scanBack_trail (front : List UInt8) {value trail : List UInt8} (rest : List UInt8)
    (hvalue : value ≠ [])
    (hlast : value.getLast? ≠ some 32) (htrail : ∀ byte ∈ trail, byte = 32) :
    scanBack (· == 32) (front ++ (value ++ (trail ++ rest))) front.length
        (front.length + (value.length + trail.length) - 1) =
      .ok (front.length + value.length - 1) := by
  have hpos := List.length_pos_iff.2 hvalue
  induction trail using List.reverseRecOn generalizing rest with
  | nil =>
    obtain ⟨index, hindex⟩ : ∃ index, front.length + value.length = index + 1 :=
      ⟨front.length + value.length - 1, by omega⟩
    rw [List.length_nil, Nat.add_zero, hindex, Nat.add_sub_cancel]
    cases index with
    | zero => rfl
    | succ index =>
      rw [scanBack]
      split
      · have hbyte : byteAt (front ++ (value ++ ([] ++ rest))) (index + 1) =
            .ok (value.getLast hvalue) := by
          rw [byteAt_eq_ok, List.getElem?_append_right (by omega),
            List.getElem?_append_left (by omega), ← List.getLast?_eq_some_getLast,
            List.getLast?_eq_getElem?]
          congr 1
          omega
        have hne : value.getLast hvalue ≠ 32 := fun h => hlast (by
          rw [List.getLast?_eq_some_getLast hvalue, h])
        rw [hbyte, ok_bind, if_neg (by simpa using hne)]
      · rfl
  | append_singleton trail byte ih =>
    have hindex : front.length + (value.length + (trail ++ [byte]).length) - 1 =
        front.length + (value.length + trail.length) - 1 + 1 := by
      rw [List.length_append, List.length_singleton]
      omega
    have hbyte : byteAt (front ++ (value ++ (trail ++ [byte] ++ rest)))
        (front.length + (value.length + trail.length) - 1 + 1) = .ok byte := by
      have hplace : front.length + (value.length + trail.length) - 1 + 1 =
          (front ++ (value ++ trail)).length := by
        simp only [List.length_append]
        omega
      have hmem : front ++ (value ++ (trail ++ [byte] ++ rest)) =
          front ++ (value ++ trail) ++ byte :: rest := by simp
      rw [hplace, hmem, byteAt_head]
    have hspace : byte = 32 := htrail byte (by simp)
    rw [hindex, scanBack, if_pos (by omega), hbyte, ok_bind, if_pos (by simp [hspace]),
      List.append_assoc trail]
    exact ih ([byte] ++ rest) fun other hmem => htrail other (List.mem_append_left _ hmem)

/-- What is split off once the start of the key has been found. -/
theorem prvSplitLinkAttribute_key {front key text value : List UInt8} (blank : Nat) (byte : UInt8)
    (hdata : data = front ++ (key ++ 61 :: text)) (hblank : blank < data.length)
    (hscan : scan (· == 32) data data.length 0 = .ok blank) (hbyte : byteAt data blank = .ok byte)
    (hstart : (if byte = 59 then blank + 1 else blank) = front.length) (hkey : key ≠ [])
    (hinner : ∀ byte ∈ key, byte ≠ 61) (htext : ValueText text value) :
    prvSplitLinkAttribute true data data.length = .ok none ↔ value.length = 1 := by
  obtain @⟨lead, _, trail, rest, hlead, hvalue, hfirst, hlast, hbytes, htrail, hrest⟩ := htext
  have hkeyPos := List.length_pos_iff.2 hkey
  have hvaluePos := List.length_pos_iff.2 hvalue
  have hlength : data.length = front.length + (key.length + (lead.length + (value.length +
      (trail.length + rest.length)) + 1)) := by
    simp only [hdata, List.length_append, List.length_cons]
  -- the scans, one behind the other
  have hequals : scan (· != 61) data data.length front.length =
      .ok (front.length + key.length) := by
    have hfound : (key ++ 61 :: (lead ++ (value ++ (trail ++ rest)))).takeWhile (· != 61) = key := by
      rw [List.takeWhile_append_of_pos (by simpa using hinner), List.takeWhile_cons]
      exact List.append_nil _
    exact scan_found _ (by omega) (by rw [hdata, List.drop_left, hfound])
  have hdropValue : data.drop (front.length + key.length + 1) =
      lead ++ (value ++ (trail ++ rest)) := by
    rw [hdata, ← List.append_assoc, ← List.length_append, drop_behind]
  have hvalueStart : scan (· == 32) data data.length (front.length + key.length + 1) =
      .ok (front.length + key.length + 1 + lead.length) := by
    have hfound : (lead ++ (value ++ (trail ++ rest))).takeWhile (· == 32) = lead := by
      rw [List.takeWhile_append_of_pos (by simpa using hlead)]
      obtain ⟨first, others, rfl⟩ := List.exists_cons_of_ne_nil hvalue
      have hne : first ≠ 32 := fun h => hfirst (congrArg some h)
      rw [List.cons_append, List.takeWhile_cons, if_neg (by simpa using hne), List.append_nil]
    exact scan_found _ (by omega) (by rw [hdropValue, hfound])
  have hdropTrail : data.drop (front.length + key.length + 1 + lead.length) =
      value ++ (trail ++ rest) := by
    rw [← List.drop_drop, hdropValue, List.drop_left]
  have hnext : scan (· != 59) data data.length (front.length + key.length + 1 + lead.length) =
      .ok (front.length + key.length + 1 + lead.length + (value.length + trail.length)) := by
    have hfound : (value ++ (trail ++ rest)).takeWhile (· != 59) = value ++ trail := by
      have htrail' : ∀ byte ∈ trail, (byte != 59) = true := fun byte hmem => by
        rw [htrail byte hmem]
        rfl
      rw [List.takeWhile_append_of_pos (by simpa using hbytes),
        List.takeWhile_append_of_pos htrail']
      rcases hrest with rfl | ⟨more, rfl⟩
      · rw [List.takeWhile_nil, List.append_nil]
      · rw [List.takeWhile_cons, if_neg (by decide), List.append_nil]
    rw [scan_found _ (by omega) (by rw [hdropTrail, hfound]), List.length_append]
  have hlastIndex : scanBack (· == 32) data (front.length + key.length + 1 + lead.length)
      (front.length + key.length + 1 + lead.length + (value.length + trail.length) - 1) =
      .ok (front.length + key.length + 1 + lead.length + value.length - 1) := by
    have hback := scanBack_trail (front ++ (key ++ 61 :: lead)) rest hvalue hlast htrail
    have hfront : (front ++ (key ++ 61 :: lead)).length =
        front.length + key.length + 1 + lead.length := by
      simp only [List.length_append, List.length_cons]
      omega
    have hmem : front ++ (key ++ 61 :: lead) ++ (value ++ (trail ++ rest)) = data := by
      rw [hdata]
      simp
    rwa [hfront, hmem] at hback
  unfold prvSplitLinkAttribute
  rw [hscan, ok_bind, if_neg (by omega), hbyte, ok_bind]
  dsimp only
  rw [hstart, if_neg (by omega), hequals, ok_bind, if_neg (by omega), sub16_le (by omega), ok_bind,
    hvalueStart, ok_bind, if_neg (by omega), hnext, ok_bind, sub16_le (by omega), ok_bind,
    hlastIndex, ok_bind]
  by_cases hone : value.length = 1
  · rw [if_pos (by omega)]
    exact iff_of_true rfl hone
  · rw [if_neg (by omega), sub16_le (by omega)]
    exact iff_of_false nofun hone

theorem prvSplitLinkAttribute_none_iff {text value separator : List UInt8}
    (htext : AttributeText text value) (hseparator : separator = [] ∨ separator = [59]) :
    prvSplitLinkAttribute true (separator ++ text) (separator ++ text).length = .ok none ↔
      value.length = 1 := by
  obtain @⟨blanks, key, text, value, hblanks, hkey, hhead, hinner, htext⟩ := htext
  obtain ⟨first, others, rfl⟩ := List.exists_cons_of_ne_nil hkey
  rcases hseparator with rfl | rfl
  · have hne : first ≠ 32 := fun h => hhead (congrArg some h)
    apply prvSplitLinkAttribute_key blanks.length first rfl
    · simp
    · rw [List.cons_append]
      apply scan_until (by simpa using hblanks) (by simpa using hne)
      · simp
      · simp
    · exact byteAt_head _ _ _
    · exact if_neg (hinner first List.mem_cons_self).1
    · exact hkey
    · exact fun byte hmem => (hinner byte hmem).2
    · exact htext
  · have hdata : [59] ++ (blanks ++ (first :: others ++ 61 :: text)) =
        [59] ++ (blanks ++ first :: others ++ 61 :: text) := by simp
    apply prvSplitLinkAttribute_key 0 59 hdata
    · simp
    · exact @scan_until _ [] _ _ _ (List.forall_mem_nil _) rfl (by simp) (by simp)
    · rfl
    · rfl
    · exact List.append_ne_nil_of_right_ne_nil _ hkey
    · intro byte hmem
      rcases List.mem_append.1 hmem with hmem | hmem
      · rw [hblanks byte hmem]
        decide
      · exact (hinner byte hmem).2
    · exact htext

/-- The links of a payload, without the spaces in front of them. -/
def payloadLinks (payload : List UInt8) : List (List UInt8) :=
  (payload.splitOn 44).map fun piece => piece.dropWhile (· == 32)

/-- An attribute of a link, behind the close tag and a separator. -/
def LinkAttribute (link text value : List UInt8) : Prop :=
  ∃ front, link = front ++ 59 :: text ∧ 62 ∈ front ∧ 62 ∉ text ∧ AttributeText text value

/-- The decoder comes to an end with one result, whatever memory there is behind the payload,
without reading outside of a link, going below zero or cutting a number; and no attribute that has
a value is malformed for it. -/
structure ScannedSafely (payload : List UInt8) : Prop where
  inside : ∃ result, prvDecodeRegisterPayload true payload payload.length = .ok result ∧
    ∀ behind, prvDecodeRegisterPayload false (payload ++ behind) payload.length = .ok result
  accepted : ∀ link ∈ payloadLinks payload, ∀ text value, LinkAttribute link text value →
    ∀ separator, separator = [] ∨ separator = [59] →
      prvSplitLinkAttribute true (separator ++ text) (separator ++ text).length ≠ .ok none

/-- A payload is scanned safely exactly if the links that the decoder comes to are inside, and no
attribute has a value of one character. -/
theorem scannedSafely_iff (payload : List UInt8) :
    ScannedSafely payload ↔
      LinksInside false 0 (payload.splitOn 44) ∧
        ∀ link ∈ payloadLinks payload, ∀ text value, LinkAttribute link text value →
          value.length ≠ 1 := by
  constructor
  · rintro ⟨⟨result, hresult, -⟩, haccepted⟩
    refine ⟨(prvDecodeRegisterPayload_ok_iff payload).1 ⟨result, hresult⟩, ?_⟩
    intro link hlink text value hattribute hone
    have ⟨_, _, _, _, htext⟩ := hattribute
    exact haccepted link hlink text value hattribute [] (.inl rfl)
      ((prvSplitLinkAttribute_none_iff htext (.inl rfl)).2 hone)
  · rintro ⟨hinside, hlong⟩
    obtain ⟨result, hresult⟩ := (prvDecodeRegisterPayload_ok_iff payload).2 hinside
    refine ⟨⟨result, hresult, fun behind => prvDecodeRegisterPayload_extends behind hresult⟩, ?_⟩
    intro link hlink text value hattribute separator hseparator hnone
    have ⟨_, _, _, _, htext⟩ := hattribute
    exact hlong link hlink text value hattribute
      ((prvSplitLinkAttribute_none_iff htext hseparator).1 hnone)

/-- `</3>;ver=1.1` -/
def lastVersionLink : List UInt8 := [60, 47, 51, 62, 59, 118, 101, 114, 61, 49, 46, 49]

/-- `</>;a=0` -/
def shortValueLink : List UInt8 := [60, 47, 62, 59, 97, 61, 48]

/-- The byte behind a version is read, and a value of one character is refused. -/
theorem lastVersionLink_readsPast : ¬ ScannedSafely lastVersionLink ∧ ¬ ScannedSafely shortValueLink := by
  constructor
  · rintro ⟨⟨result, hresult, -⟩, -⟩
    have hfault : prvDecodeRegisterPayload true lastVersionLink lastVersionLink.length =
        .error .outside := by decide +kernel
    rw [hfault] at hresult
    cases hresult
  · rintro ⟨-, haccepted⟩
    have hattribute : LinkAttribute shortValueLink [97, 61, 48] [48] := by
      refine ⟨[60, 47, 62], rfl, by decide, by decide, ?_⟩
      have htext : ValueText [48] [48] :=
        @ValueText.intro [] [48] [] [] (List.forall_mem_nil _) (by simp) (by simp) (by simp)
          (by simp) (List.forall_mem_nil _) (.inl rfl)
      exact @AttributeText.intro [] [97] [48] [48] (List.forall_mem_nil _) (by simp) (by simp)
        (by simp) htext
    exact haccepted shortValueLink (by decide) _ _ hattribute [] (.inl rfl) (by decide +kernel)

end Wakaama
