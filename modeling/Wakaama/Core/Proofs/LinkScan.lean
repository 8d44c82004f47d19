import Mathlib.Data.List.Induction
import Wakaama.Core.Registration.Decode
import Wakaama.Misc.Outcome

/-!
# The scanners of a link

Within the text that they are given the loops never leave it, and what they find depends on the
text alone. What a scanner does with the checks, it does without them and with more memory behind.
-/

namespace Wakaama

variable {data text tail : List UInt8} {keep : UInt8 → Bool}

/-! ## Bytes -/

variable {index length : Nat} {checked : Bool} {rest : List UInt8}

theorem byteAt_lt (h : index < data.length) : byteAt data index = .ok data[index] := by
  unfold byteAt
  rw [List.getElem?_eq_getElem h]

theorem byteAt_append (h : index < text.length) :
    byteAt (text ++ tail) index = byteAt text index := by
  unfold byteAt
  rw [List.getElem?_append_left h]

theorem byteAt_eq_ok {byte : UInt8} : byteAt data index = .ok byte ↔ data[index]? = some byte := by
  unfold byteAt
  cases data[index]? with
  | none => exact iff_of_false nofun nofun
  | some other => exact ⟨fun h => congrArg some (Except.ok.inj h), fun h =>
      congrArg Except.ok (Option.some.inj h)⟩

theorem bytesAt_append {start : Nat} (h : start + length ≤ text.length) :
    bytesAt (text ++ tail) start length = .ok ((text.drop start).take length) := by
  unfold bytesAt
  rw [if_pos (by rw [List.length_append]; omega), List.drop_append_of_le_length (by omega),
    List.take_append_of_le_length (by rw [List.length_drop]; omega)]

theorem sub16_le {a b : Nat} (h : b ≤ a) : sub16 checked a b = .ok (a - b) :=
  if_pos h

theorem scanLoop_eq (tail : List UInt8) :
    ∀ (left index : Nat), index + left = text.length →
      scanLoop keep (text ++ tail) left index =
        .ok (index + ((text.drop index).takeWhile keep).length) := by
  intro left
  induction left with
  | zero =>
    intro index h
    rw [scanLoop, List.drop_of_length_le (by omega)]
    rfl
  | succ left ih =>
    intro index h
    have hlt : index < text.length := by omega
    rw [scanLoop, byteAt_append hlt, byteAt_lt hlt, ok_bind, List.drop_eq_getElem_cons hlt,
      List.takeWhile_cons]
    split
    · rw [ih (index + 1) (by omega), List.length_cons]
      congr 1
      omega
    · rfl

theorem scan_eq (tail : List UInt8) {index : Nat} (h : index ≤ text.length) :
    scan keep (text ++ tail) text.length index =
      .ok (index + ((text.drop index).takeWhile keep).length) :=
  scanLoop_eq tail _ _ (by omega)

theorem scan_found (keep : UInt8 → Bool) {found : List UInt8} (h : index ≤ data.length)
    (hfound : (data.drop index).takeWhile keep = found) :
    scan keep data data.length index = .ok (index + found.length) := by
  have hrun := @scan_eq data keep [] index h
  rwa [List.append_nil, hfound] at hrun

theorem scan_bounds (keep : UInt8 → Bool) (hlength : length ≤ data.length) (h : index ≤ length) :
    ∃ stop, scan keep data length index = .ok stop ∧ index ≤ stop ∧ stop ≤ length := by
  obtain ⟨text, tail, rfl, rfl⟩ : ∃ text tail, data = text ++ tail ∧ length = text.length :=
    ⟨data.take length, data.drop length, (List.take_append_drop _ _).symm, by simp [hlength]⟩
  refine ⟨_, scan_eq tail h, Nat.le_add_right _ _, ?_⟩
  have hkept := (List.takeWhile_prefix keep (l := text.drop index)).length_le
  rw [List.length_drop] at hkept
  omega

theorem trimSpaces_eq (text tail : List UInt8) :
    ∃ body spaces, text = body ++ spaces ∧ (∀ byte ∈ spaces, byte = 32) ∧
      (∀ byte, body.getLast? = some byte → byte ≠ 32) ∧
      trimSpaces (text ++ tail) text.length = .ok body.length := by
  induction text using List.reverseRecOn generalizing tail with
  | nil => exact ⟨[], [], rfl, List.forall_mem_nil _, nofun, rfl⟩
  | append_singleton text byte ih =>
    rw [List.length_append, List.length_singleton, trimSpaces, List.append_assoc]
    have hlast : byteAt (text ++ ([byte] ++ tail)) text.length = .ok byte := by
      rw [byteAt_eq_ok, List.getElem?_append_right (Nat.le_refl _), Nat.sub_self]
      rfl
    rw [hlast, ok_bind]
    by_cases hspace : byte = 32
    · rw [if_pos hspace]
      obtain ⟨body, spaces, hsplit, hspaces, hbody, htrim⟩ := ih ([byte] ++ tail)
      refine ⟨body, spaces ++ [byte], by rw [hsplit, List.append_assoc], ?_, hbody, htrim⟩
      intro other hmem
      rcases List.mem_append.1 hmem with hmem | hmem
      · exact hspaces other hmem
      · rw [List.mem_singleton.1 hmem, hspace]
    · rw [if_neg hspace]
      refine ⟨text ++ [byte], [], (List.append_nil _).symm, List.forall_mem_nil _, ?_, by simp⟩
      intro other hother
      rw [List.getLast?_concat] at hother
      obtain rfl := Option.some.inj hother
      exact hspace

theorem scanBack_bounds (keep : UInt8 → Bool) (low : Nat) (h : index < data.length) :
    ∃ stop, scanBack keep data low index = .ok stop ∧ min low index ≤ stop ∧ stop ≤ index := by
  induction index with
  | zero => exact ⟨0, rfl, Nat.min_le_right _ _, Nat.le_refl _⟩
  | succ index ih =>
    rw [scanBack]
    split
    · rw [byteAt_lt h, ok_bind]
      split
      · obtain ⟨stop, hstop, hlow, hle⟩ := ih (by omega)
        exact ⟨stop, hstop, by omega, by omega⟩
      · exact ⟨_, rfl, Nat.min_le_right _ _, Nat.le_refl _⟩
    · exact ⟨_, rfl, Nat.min_le_right _ _, Nat.le_refl _⟩

/-! ## Link attributes -/

/-- The attribute that is split off lies in the text, and there is some of it. -/
structure SplitAttribute.Within (split : SplitAttribute) (length : Nat) : Prop where
  key : split.keyStart + split.keyLength ≤ length
  value : split.valueStart + split.valueLength ≤ length
  next : 0 < split.next ∧ split.next ≤ length

theorem prvSplitLinkAttribute_within (hlength : length ≤ data.length) :
    ∃ result, prvSplitLinkAttribute true data length = .ok result ∧
      ∀ split ∈ result, split.Within length := by
  unfold prvSplitLinkAttribute
  obtain ⟨blank, hblank, -, hblankLe⟩ :=
    scan_bounds (· == 32) hlength (Nat.zero_le length)
  rw [hblank, ok_bind]
  by_cases hend : blank = length
  · rw [if_pos hend]
    exact ⟨none, rfl, nofun⟩
  rw [if_neg hend, byteAt_lt (by omega), ok_bind]
  dsimp only
  obtain ⟨keyStart, hkeyStart, hkeyLow, hkeyLe⟩ : ∃ keyStart,
      (if data[blank] = 59 then blank + 1 else blank) = keyStart ∧ blank ≤ keyStart ∧
        keyStart ≤ length := by
    split
    · exact ⟨_, rfl, by omega, by omega⟩
    · exact ⟨_, rfl, by omega, by omega⟩
  rw [hkeyStart]
  by_cases hend : keyStart = length
  · rw [if_pos hend]
    exact ⟨none, rfl, nofun⟩
  obtain ⟨equals, hequals, hequalsLow, hequalsLe⟩ :=
    scan_bounds (· != 61) hlength hkeyLe
  rw [if_neg hend, hequals, ok_bind]
  by_cases hkey : equals = keyStart ∨ equals = length
  · rw [if_pos hkey]
    exact ⟨none, rfl, nofun⟩
  have hbehind : equals + 1 ≤ length := by omega
  obtain ⟨valueStart, hvalueStart, hvalueLow, hvalueLe⟩ := scan_bounds (· == 32) hlength hbehind
  rw [if_neg hkey, sub16_le hequalsLow, ok_bind, hvalueStart, ok_bind]
  by_cases hend : valueStart = length
  · rw [if_pos hend]
    exact ⟨none, rfl, nofun⟩
  obtain ⟨next, hnext, hnextLow, hnextLe⟩ :=
    scan_bounds (· != 59) hlength hvalueLe
  have hlastLt : next - 1 < data.length := by omega
  obtain ⟨last, hlast, hlastLow, hlastLe⟩ := scanBack_bounds (· == 32) valueStart hlastLt
  rw [if_neg hend, hnext, ok_bind, sub16_le (by omega), ok_bind, hlast, ok_bind]
  split
  · exact ⟨none, rfl, nofun⟩
  · rw [sub16_le (by omega), ok_bind]
    refine ⟨_, rfl, fun split hsplit => ?_⟩
    obtain rfl := Option.some.inj hsplit
    exact ⟨by dsimp only; omega, by dsimp only; omega, by dsimp only; omega, hnextLe⟩

theorem linkAttributesLoop_within (hlength : length ≤ data.length) :
    ∀ (fuel index rtValCount : Nat) (format : LinkFormat), 0 < fuel → length < index + fuel →
      ∃ result, linkAttributesLoop true data length fuel index rtValCount format = .ok result := by
  intro fuel
  induction fuel with
  | zero => exact fun _ _ _ hpos => absurd hpos (Nat.lt_irrefl 0)
  | succ fuel ih =>
    rintro index rtValCount format - hfuel
    rw [linkAttributesLoop]
    by_cases hend : length ≤ index
    · rw [if_pos hend]
      exact ⟨_, rfl⟩
    rw [if_neg hend]
    have hleft : length - index ≤ (data.drop index).length := by
      rw [List.length_drop]
      omega
    obtain ⟨result, hresult, hwithin⟩ := prvSplitLinkAttribute_within hleft
    rw [hresult, ok_bind]
    cases result with
    | none => exact ⟨none, rfl⟩
    | some split =>
      obtain ⟨hkey, hvalue, hpos, hnext⟩ := hwithin split rfl
      have hbytes : ∀ start count, start + count ≤ length - index →
          ∃ bytes, bytesAt data (index + start) count = .ok bytes := fun start count hle =>
        ⟨_, if_pos (by omega)⟩
      obtain ⟨key, hkeyBytes⟩ := hbytes _ _ hkey
      obtain ⟨value, hvalueBytes⟩ := hbytes _ _ hvalue
      have hnext := fun rtValCount format =>
        ih (index + split.next) rtValCount format (by omega) (by omega)
      dsimp only
      rw [hkeyBytes, ok_bind, hvalueBytes, ok_bind]
      split
      · split
        · exact ⟨none, rfl⟩
        · split
          · exact ⟨none, rfl⟩
          · exact hnext _ _
      · split
        · split
          · exact ⟨none, rfl⟩
          · split
            · exact ⟨none, rfl⟩
            · exact hnext _ _
        · exact hnext _ _

theorem prvParseLinkAttributes_within (link : List UInt8) :
    ∃ result, prvParseLinkAttributes true link link.length = .ok result := by
  unfold prvParseLinkAttributes
  obtain ⟨body, spaces, hlink, -, -, htrim⟩ := trimSpaces_eq link []
  rw [List.append_nil] at htrim
  have hbody : body.length ≤ link.length := by
    rw [hlink, List.length_append]
    omega
  rw [htrim, ok_bind]
  by_cases hshort : body.length < 2
  · rw [if_pos hshort]
    exact ⟨none, rfl⟩
  rw [if_neg hshort, byteAt_lt (by omega), ok_bind]
  split
  · exact ⟨none, rfl⟩
  rw [sub16_le (by omega), ok_bind, sub16_le (by omega), ok_bind]
  have hrest : body.length - 1 ≤ (link.drop 1).length := by
    rw [List.length_drop]
    omega
  have hlastLt : body.length - 1 - 1 < (link.drop 1).length := by omega
  obtain ⟨index, hindex, -, hindexLe⟩ := scanBack_bounds (· != 62) 0 hlastLt
  dsimp only
  rw [hindex, ok_bind]
  by_cases hclose : index = 0 ∨ index + 1 = body.length - 1
  · rw [if_pos hclose]
    exact ⟨none, rfl⟩
  rw [if_neg hclose, byteAt_lt (by omega), ok_bind]
  obtain ⟨pathStart, hpathStart, hpathStartLe⟩ : ∃ pathStart,
      (if (link.drop 1)[0] = 47 then 1 else 0) = pathStart ∧ pathStart ≤ index := by
    split
    · exact ⟨1, rfl, by omega⟩
    · exact ⟨0, rfl, by omega⟩
  rw [hpathStart, sub16_le hpathStartLe, ok_bind]
  split
  · exact ⟨none, rfl⟩
  rw [byteAt_lt (by omega), ok_bind]
  split
  · exact ⟨none, rfl⟩
  obtain ⟨format, hformat⟩ := linkAttributesLoop_within hrest (body.length - 1 + 1) (index + 2) 0
    .tlv (by omega) (by omega)
  rw [hformat, ok_bind]
  cases format with
  | none => exact ⟨none, rfl⟩
  | some format =>
    dsimp only
    split
    · exact ⟨_, rfl⟩
    · rw [bytesAt, if_pos (by omega), ok_bind]
      exact ⟨_, rfl⟩

/-! ## The path of an object link -/

/-- An object id as it stands in a path. -/
structure ObjectSegment (text : List UInt8) (id : UInt16) : Prop where
  nonempty : text ≠ []
  inner : ∀ byte ∈ text, byte ≠ 47 ∧ byte ≠ 62
  number : linkNumber text = some id

/-- The path of an object, with or without a `/` behind it, or of an instance. -/
inductive ObjectPath : List UInt8 → LinkId → Prop where
  | object {text : List UInt8} {objId : UInt16} (h : ObjectSegment text objId) :
    ObjectPath (60 :: 47 :: (text ++ [62])) { objId, instanceId := none }
  | slash {text : List UInt8} {objId : UInt16} (h : ObjectSegment text objId) :
    ObjectPath (60 :: 47 :: (text ++ [47, 62])) { objId, instanceId := none }
  | «instance» {text inner : List UInt8} {objId instanceId : UInt16}
    (h : ObjectSegment text objId) (hne : inner ≠ []) (hinner : ∀ byte ∈ inner, byte ≠ 62)
    (hnumber : linkNumber inner = some instanceId) :
    ObjectPath (60 :: 47 :: (text ++ 47 :: (inner ++ [62])))
      { objId, instanceId := some instanceId }

theorem trimSpaces_none (tail : List UInt8) (h : text.getLast? ≠ some 32) :
    trimSpaces (text ++ tail) text.length = .ok text.length := by
  induction text using List.reverseRecOn with
  | nil => rfl
  | append_singleton text byte =>
    have hlast : byteAt (text ++ [byte] ++ tail) text.length = .ok byte := by
      rw [byteAt_eq_ok, List.append_assoc, List.getElem?_append_right (Nat.le_refl _), Nat.sub_self]
      rfl
    rw [List.getLast?_concat] at h
    rw [List.length_append, List.length_singleton, trimSpaces, hlast, ok_bind,
      if_neg fun hspace => h (congrArg some hspace)]

theorem trimSpaces_spaces {spaces : List UInt8} (tail : List UInt8)
    (hspaces : ∀ byte ∈ spaces, byte = 32) (hlast : text.getLast? ≠ some 32) :
    trimSpaces (text ++ spaces ++ tail) (text ++ spaces).length = .ok text.length := by
  induction spaces using List.reverseRecOn generalizing tail with
  | nil => rw [List.append_nil, trimSpaces_none tail hlast]
  | append_singleton spaces byte ih =>
    have hbyte : byteAt (text ++ (spaces ++ [byte]) ++ tail) (text ++ spaces).length = .ok byte := by
      rw [byteAt_eq_ok, ← List.append_assoc, List.append_assoc, List.getElem?_append_right
        (Nat.le_refl _), Nat.sub_self]
      rfl
    have hmem := fun other h => hspaces other (List.mem_append_left [byte] h)
    have hlength : (text ++ (spaces ++ [byte])).length = (text ++ spaces).length + 1 := by
      rw [← List.append_assoc, List.length_append, List.length_singleton]
    rw [hlength, trimSpaces, hbyte, ok_bind, if_pos (hspaces byte (by simp)),
      ← List.append_assoc text, List.append_assoc, ih ([byte] ++ tail) hmem]

theorem scan_until {head rest : List UInt8} {stop : UInt8} {length : Nat}
    (hkeep : ∀ byte ∈ head, keep byte = true) (hstop : keep stop = false)
    (hlength : head.length < length) (hle : length ≤ (head ++ stop :: rest).length) :
    scan keep (head ++ stop :: rest) length 0 = .ok head.length := by
  obtain ⟨text, tail, htext, rfl⟩ : ∃ text tail, head ++ stop :: rest = text ++ tail ∧
      length = text.length :=
    ⟨_, _, (List.take_append_drop length _).symm, by rw [List.length_take]; omega⟩
  obtain ⟨more, rfl⟩ : ∃ more, text = head ++ stop :: more := by
    have hshort : head.length ≤ text.length := by omega
    have hhead : head ++ [stop] <+: head ++ stop :: rest := ⟨rest, by simp⟩
    have hshorter : (head ++ [stop]).length ≤ text.length := by
      rw [List.length_append, List.length_singleton]
      exact hlength
    obtain ⟨more, hmore⟩ := List.prefix_of_prefix_length_le hhead ⟨tail, htext.symm⟩ hshorter
    exact ⟨more, by rw [← hmore]; simp⟩
  rw [htext, scan_eq tail (Nat.zero_le _), Nat.zero_add, List.drop_zero,
    List.takeWhile_append_of_pos hkeep, List.takeWhile_cons, hstop]
  simp

theorem bytesAt_head (head rest : List UInt8) : bytesAt (head ++ rest) 0 head.length = .ok head := by
  rw [bytesAt_append (by omega), List.drop_zero, List.take_length]

theorem byteAt_head (head rest : List UInt8) (byte : UInt8) :
    byteAt (head ++ byte :: rest) head.length = .ok byte := by
  rw [byteAt_eq_ok, List.getElem?_append_right (Nat.le_refl _), Nat.sub_self]
  rfl

theorem drop_behind (head rest : List UInt8) (byte : UInt8) :
    (head ++ byte :: rest).drop (head.length + 1) = rest := by
  rw [← List.drop_drop, List.drop_left]
  rfl

theorem getIdInstance_none {head : List UInt8} :
    getIdInstance checked (head ++ 62 :: rest) length head.length =
      .ok (some (none, head ++ 62 :: rest, length, head.length)) := by
  unfold getIdInstance
  rw [byteAt_head, ok_bind, if_pos (by decide)]
  rfl

theorem getIdInstance_some {head inner : List UInt8} {instanceId : Option UInt16}
    (hinner : ∀ byte ∈ inner, byte ≠ 62)
    (hnumber : if inner = [] then instanceId = none else linkNumber inner = instanceId ∧ instanceId ≠ none)
    (hlow : head.length + 1 + inner.length < length)
    (hhigh : length ≤ (head ++ 47 :: (inner ++ 62 :: rest)).length) :
    getIdInstance checked (head ++ 47 :: (inner ++ 62 :: rest)) length head.length =
      .ok (some (instanceId, inner ++ 62 :: rest, length - (head.length + 1), inner.length)) := by
  have hscan : scan (· != 62) (inner ++ 62 :: rest) (length - (head.length + 1)) 0 =
      .ok inner.length := by
    apply scan_until
    · intro byte hmem
      simpa using hinner byte hmem
    · rfl
    · omega
    · simp only [List.length_append, List.length_cons] at hhigh ⊢
      omega
  unfold getIdInstance
  rw [byteAt_head, ok_bind, if_neg (by decide), sub16_le (by omega), ok_bind]
  dsimp only
  rw [drop_behind, hscan, ok_bind, if_neg (by omega)]
  by_cases hempty : inner = []
  · rw [if_pos hempty] at hnumber
    rw [hnumber, hempty]
    rfl
  · have hlength : inner.length ≠ 0 := fun h => hempty (List.length_eq_zero_iff.1 h)
    rw [if_neg hempty] at hnumber
    rw [if_neg hlength, bytesAt_head, ok_bind, hnumber.1]
    cases instanceId with
    | none => exact absurd rfl hnumber.2
    | some instanceId => rfl

theorem getIdPath_segment {segment more : List UInt8} {stop : UInt8} {length' : Nat}
    {objId : UInt16} (hdata : data = 60 :: 47 :: (segment ++ stop :: more))
    (htrim : trimSpaces data length = .ok length') (hsegment : ObjectSegment segment objId)
    (hstop : stop = 47 ∨ stop = 62) (hlow : segment.length + 2 < length')
    (hhigh : length' ≤ data.length) :
    getIdPath checked data length =
      (getIdInstance checked (segment ++ stop :: more) (length' - 2) segment.length >>= fun found =>
        match found with
        | none => .ok none
        | some (instanceId, data, length, limit) => do
          if (← byteAt data limit) ≠ 62 then return none
          let length ← sub16 checked length (limit + 1)
          return some ({ objId, instanceId }, data.drop (limit + 1), length)) := by
  subst hdata
  have hscan : scan (fun byte => byte != 47 && byte != 62) (segment ++ stop :: more) (length' - 2) 0 =
      .ok segment.length := by
    apply scan_until
    · intro byte hmem
      have := hsegment.inner byte hmem
      simp [this.1, this.2]
    · rcases hstop with rfl | rfl <;> rfl
    · omega
    · simp only [List.length_cons] at hhigh
      omega
  have hdrop : ∀ (byte : UInt8) (rest : List UInt8), (byte :: rest).drop 1 = rest := fun _ _ => rfl
  have htwo : length' - 1 - 1 = length' - 2 := Nat.sub_sub _ 1 1
  unfold getIdPath
  rw [htrim, ok_bind, if_neg (by omega), byteAt_lt (by simp), ok_bind]
  simp only [hdrop, List.getElem_cons_zero]
  rw [if_neg (not_not_intro rfl), sub16_le (by omega), ok_bind, if_neg (by omega),
    byteAt_lt (by simp), ok_bind, List.getElem_cons_zero, if_neg (not_not_intro rfl),
    sub16_le (by omega), ok_bind, htwo, hscan, ok_bind, if_neg, bytesAt_head, ok_bind,
    hsegment.number]
  · dsimp only
    cases getIdInstance checked (segment ++ stop :: more) (length' - 2) segment.length with
    | error fault => rfl
    | ok found => cases found <;> rfl
  · rintro (hempty | hshort)
    · exact hsegment.nonempty (List.length_eq_zero_iff.1 hempty)
    · omega

theorem getIdPath_of_objectPath (checked : Bool) {path : List UInt8} {id : LinkId}
    (tail : List UInt8) (hpath : ObjectPath path id) (hlast : (path ++ rest).getLast? ≠ some 32) :
    getIdPath checked (path ++ rest ++ tail) (path ++ rest).length =
      .ok (some (id, rest ++ tail, rest.length)) := by
  have htrim := trimSpaces_none tail hlast
  cases hpath with
  | @object segment objId h =>
    have hdata : 60 :: 47 :: (segment ++ [62]) ++ rest ++ tail =
        60 :: 47 :: (segment ++ 62 :: (rest ++ tail)) := by simp
    have hcount : (60 :: 47 :: (segment ++ [62]) ++ rest).length =
        rest.length + (segment.length + 1) + 2 := by simp; omega
    rw [getIdPath_segment hdata htrim h (.inr rfl) (by simp) (by simp), getIdInstance_none,
      ok_bind]
    dsimp only
    rw [byteAt_head, ok_bind, if_neg (not_not_intro rfl), hcount, sub16_le (by omega), ok_bind,
      drop_behind, Nat.add_sub_cancel, Nat.add_sub_cancel]
    rfl
  | @slash segment objId h =>
    have hdata : 60 :: 47 :: (segment ++ [47, 62]) ++ rest ++ tail =
        60 :: 47 :: (segment ++ 47 :: ([] ++ 62 :: (rest ++ tail))) := by simp
    have hcount : (60 :: 47 :: (segment ++ [47, 62]) ++ rest).length =
        rest.length + 1 + (segment.length + 1) + 2 := by simp; omega
    rw [getIdPath_segment hdata htrim h (.inl rfl) (by simp) (by simp),
      getIdInstance_some (List.forall_mem_nil _) rfl (by simp) (by simp), ok_bind]
    dsimp only
    rw [byteAt_head, ok_bind, if_neg (not_not_intro rfl), hcount, List.length_nil,
      sub16_le (by omega), ok_bind, Nat.add_sub_cancel, Nat.add_sub_cancel]
    rfl
  | @«instance» segment inner objId instanceId h hne hinner hnumber =>
    have hdata : 60 :: 47 :: (segment ++ 47 :: (inner ++ [62])) ++ rest ++ tail =
        60 :: 47 :: (segment ++ 47 :: (inner ++ 62 :: (rest ++ tail))) := by simp
    have hcount : (60 :: 47 :: (segment ++ 47 :: (inner ++ [62])) ++ rest).length =
        rest.length + (inner.length + 1) + (segment.length + 1) + 2 := by simp; omega
    rw [getIdPath_segment hdata htrim h (.inl rfl) (by simp) (by simp),
      getIdInstance_some hinner (by rw [if_neg hne]; exact ⟨hnumber, nofun⟩) (by rw [hcount]; omega)
        (by simp), ok_bind]
    dsimp only
    rw [byteAt_head, ok_bind, if_neg (not_not_intro rfl), hcount, sub16_le (by omega), ok_bind,
      drop_behind, Nat.add_sub_cancel, Nat.add_sub_cancel, Nat.add_sub_cancel]
    rfl

theorem takeWhile_split (keep : UInt8 → Bool) (text : List UInt8) :
    (∀ byte ∈ text.takeWhile keep, keep byte = true) ∧
      (text.takeWhile keep = text ∨ ∃ stop rest, keep stop = false ∧
        text = text.takeWhile keep ++ stop :: rest) := by
  refine ⟨fun byte hmem => List.all_eq_true.1 List.all_takeWhile byte hmem, ?_⟩
  have hsplit := List.takeWhile_append_dropWhile (p := keep) (l := text)
  cases hrest : text.dropWhile keep with
  | nil =>
    rw [hrest, List.append_nil] at hsplit
    exact .inl hsplit
  | cons stop rest =>
    rw [hrest] at hsplit
    refine .inr ⟨stop, rest, ?_, hsplit.symm⟩
    have hhead := List.head?_dropWhile_not keep text
    rw [hrest] at hhead
    simpa using hhead

theorem takeWhile_behind {more : List UInt8}
    (hmore : ∀ stop, more.head? = some stop → keep stop = false) :
    (text.dropWhile keep ++ more).takeWhile keep = [] := by
  have hnot := List.head?_dropWhile_not keep text
  cases hrest : text.dropWhile keep with
  | nil =>
    cases more with
    | nil => rfl
    | cons stop more => rw [List.nil_append, List.takeWhile_cons, hmore stop rfl]; rfl
  | cons stop rest =>
    rw [hrest] at hnot
    have hstop : keep stop = false := by simpa using hnot
    rw [List.cons_append, List.takeWhile_cons, hstop]
    rfl

theorem getIdInstance_total (head more tail : List UInt8) :
    (∃ inner rest, more = inner ++ 62 :: rest ∧ (∀ byte ∈ inner, byte ≠ 62) ∧
        (inner = [] ∨ (linkNumber inner).isSome = true)) ∨
      getIdInstance true (head ++ 47 :: (more ++ tail)) (head ++ 47 :: more).length head.length =
        .ok none := by
  obtain ⟨hinner, hall | ⟨stop, rest, hstop, hmore⟩⟩ := takeWhile_split (· != 62) more
  · right
    have hcount : (head ++ 47 :: more).length = more.length + (head.length + 1) := by simp; omega
    unfold getIdInstance
    rw [byteAt_head, ok_bind, if_neg (by decide), hcount, sub16_le (by omega), ok_bind]
    dsimp only
    rw [drop_behind, Nat.add_sub_cancel, scan_eq tail (Nat.zero_le _), ok_bind, List.drop_zero, hall,
      if_pos (by omega)]
    rfl
  · obtain rfl : stop = 62 := by simpa using hstop
    generalize more.takeWhile (· != 62) = inner at *
    have hinner' : ∀ byte ∈ inner, byte ≠ 62 := fun byte hmem => by simpa using hinner byte hmem
    by_cases hempty : inner = []
    · exact .inl ⟨inner, rest, hmore, hinner', .inl hempty⟩
    cases hnumber : linkNumber inner with
    | some instanceId =>
      exact .inl ⟨inner, rest, hmore, hinner', .inr (by rw [hnumber]; rfl)⟩
    | none =>
      right
      have hlength : inner.length ≠ 0 := fun h => hempty (List.length_eq_zero_iff.1 h)
      have hcount : (head ++ 47 :: more).length =
          rest.length + inner.length + 1 + (head.length + 1) := by
        rw [hmore]
        simp
        omega
      have hscan : scan (· != 62) (inner ++ 62 :: (rest ++ tail))
          (rest.length + inner.length + 1) 0 = .ok inner.length := by
        apply scan_until hinner rfl
        · omega
        · simp
          omega
      unfold getIdInstance
      rw [byteAt_head, ok_bind, if_neg (by decide), hcount, sub16_le (by omega), ok_bind]
      dsimp only
      rw [drop_behind, hmore, List.append_assoc, List.cons_append, Nat.add_sub_cancel, hscan,
        ok_bind, if_neg (by omega), if_neg hlength, bytesAt_head, ok_bind, hnumber]
      rfl

theorem getIdPath_open {text spaces : List UInt8}
    (htrim : trimSpaces (60 :: 47 :: text ++ spaces) (60 :: 47 :: text ++ spaces).length =
      .ok (60 :: 47 :: text).length) :
    getIdPath true (60 :: 47 :: text ++ spaces) (60 :: 47 :: text ++ spaces).length =
      (scan (fun byte => byte != 47 && byte != 62) (text ++ spaces) text.length 0 >>= fun limit =>
        if limit = 0 ∨ text.length ≤ limit then .ok none
        else do
          let some objId := linkNumber (← bytesAt (text ++ spaces) 0 limit) | return none
          let some (instanceId, data, length, limit) ←
            getIdInstance true (text ++ spaces) text.length limit | return none
          if (← byteAt data limit) ≠ 62 then return none
          let length ← sub16 true length (limit + 1)
          return some ({ objId, instanceId }, data.drop (limit + 1), length)) := by
  have hdrop : ∀ (byte : UInt8) (rest : List UInt8), (byte :: rest).drop 1 = rest := fun _ _ => rfl
  unfold getIdPath
  rw [htrim, ok_bind, if_neg (by simp), byteAt_lt (by simp), ok_bind]
  simp only [List.cons_append, List.getElem_cons_zero, hdrop]
  rw [if_neg (not_not_intro rfl), sub16_le (by simp), ok_bind, if_neg (by simp),
    byteAt_lt (by simp), ok_bind, List.getElem_cons_zero, if_neg (not_not_intro rfl),
    sub16_le (by simp), ok_bind]
  rfl

/-- `prv_getId` stays in the link up to the close tag, and goes on only behind a path. -/
theorem getIdPath_total (link : List UInt8) :
    (∃ id path rest spaces, ObjectPath path id ∧ link = path ++ rest ++ spaces ∧
        (∀ byte ∈ spaces, byte = 32) ∧ (path ++ rest).getLast? ≠ some 32 ∧
        getIdPath true link link.length = .ok (some (id, rest ++ spaces, rest.length))) ∨
      getIdPath true link link.length = .ok none := by
  obtain ⟨body, spaces, rfl, hspaces, hlast, htrim⟩ := trimSpaces_eq link []
  rw [List.append_nil] at htrim
  have hlast' : body.getLast? ≠ some 32 := fun h => hlast 32 h rfl
  -- what is read is a path as soon as the parts have been found
  have hpath : ∀ (id : LinkId) (path rest : List UInt8), ObjectPath path id → body = path ++ rest →
      ∃ id path rest spaces', ObjectPath path id ∧ body ++ spaces = path ++ rest ++ spaces' ∧
        (∀ byte ∈ spaces', byte = 32) ∧ (path ++ rest).getLast? ≠ some 32 ∧
        getIdPath true (body ++ spaces) (body ++ spaces).length =
          .ok (some (id, rest ++ spaces', rest.length)) := by
    intro id path rest hobject hbody
    refine ⟨id, path, rest, spaces, hobject, by rw [hbody], hspaces, hbody ▸ hlast', ?_⟩
    have hread := getIdPath_of_objectPath true spaces hobject (hbody ▸ hlast')
    rw [← hbody] at hread
    rw [← hread]
    unfold getIdPath
    rw [htrim, trimSpaces_none spaces hlast']
  have hdrop : ∀ (byte : UInt8) (rest : List UInt8), (byte :: rest).drop 1 = rest := fun _ _ => rfl
  match body, htrim, hpath with
  | [], htrim, _ =>
    right
    unfold getIdPath
    rw [htrim]
    rfl
  | [first], htrim, _ =>
    right
    unfold getIdPath
    rw [htrim, ok_bind, if_neg (by simp), byteAt_lt (by simp), ok_bind]
    split
    · rfl
    · rfl
  | first :: second :: text, htrim, hpath =>
    by_cases hopen : first = 60 ∧ second = 47
    · obtain ⟨rfl, rfl⟩ := hopen
      have hread := getIdPath_open htrim
      obtain ⟨hinner, hall | ⟨stop, more, hstop, htext⟩⟩ :=
        takeWhile_split (fun byte => byte != 47 && byte != 62) text
      · right
        rw [hread, scan_eq spaces (Nat.zero_le _), ok_bind, List.drop_zero, hall, if_pos (by omega)]
      generalize text.takeWhile (fun byte => byte != 47 && byte != 62) = segment at *
      have hscan : scan (fun byte => byte != 47 && byte != 62) (text ++ spaces) text.length 0 =
          .ok segment.length := by
        rw [htext, List.append_assoc, List.cons_append]
        apply scan_until hinner hstop
        · simp
        · simp
      have hbytes : bytesAt (text ++ spaces) 0 segment.length = .ok segment := by
        rw [htext, List.append_assoc, bytesAt_head]
      rw [hscan, ok_bind, hbytes, ok_bind] at hread
      by_cases hempty : segment = []
      · right
        rw [hread, if_pos (.inl (by rw [hempty]; rfl))]
      have hlimit : ¬ (segment.length = 0 ∨ text.length ≤ segment.length) := by
        rintro (h | h)
        · exact hempty (List.length_eq_zero_iff.1 h)
        · rw [htext, List.length_append, List.length_cons] at h
          omega
      rw [if_neg hlimit] at hread
      cases hnumber : linkNumber segment with
      | none =>
        right
        rw [hread, hnumber]
        rfl
      | some objId =>
        have hsegment : ObjectSegment segment objId :=
          ⟨hempty, fun byte hmem => by simpa using hinner byte hmem, hnumber⟩
        by_cases hslash : stop = 47
        · subst hslash
          rcases getIdInstance_total segment more spaces with
            ⟨inner, rest, hmore, hinner', hid⟩ | hnone
          · left
            by_cases hblank : inner = []
            · exact hpath _ _ rest (.slash hsegment) (by rw [htext, hmore, hblank]; simp)
            · obtain ⟨instanceId, hinstance⟩ :=
                Option.isSome_iff_exists.1 (hid.resolve_left hblank)
              exact hpath _ _ rest (.instance hsegment hblank hinner' hinstance)
                (by rw [htext, hmore]; simp)
          · right
            rw [← List.cons_append, ← List.append_assoc, ← htext] at hnone
            rw [hread, hnumber, hnone]
            rfl
        · obtain rfl : stop = 62 := by simpa [hslash] using hstop
          exact .inl (hpath _ _ more (.object hsegment) (by rw [htext]; simp))
    · right
      unfold getIdPath
      rw [htrim, ok_bind, if_neg (by simp), byteAt_lt (by simp), ok_bind]
      simp only [List.cons_append, List.getElem_cons_zero, hdrop]
      by_cases hfirst : first = 60
      · have hsecond : second ≠ 47 := fun h => hopen ⟨hfirst, h⟩
        rw [if_neg (not_not_intro hfirst), sub16_le (by simp), ok_bind, if_neg (by simp),
          byteAt_lt (by simp), ok_bind, List.getElem_cons_zero, if_pos hsecond]
        rfl
      · rw [if_pos hfirst]
        rfl

end Wakaama
