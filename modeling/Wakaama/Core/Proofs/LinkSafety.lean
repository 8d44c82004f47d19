import Mathlib.Data.List.TakeWhile
import Wakaama.Core.Proofs.LinkScan

/-!
# Whether a payload is scanned inside of its links

Behind an attribute `prv_getId` looks for the separator without asking whether the link goes on.
It reads past the link exactly if the link is that of an object, all its versions are accepted, and
it ends in an attribute.
-/

namespace Wakaama

/-! ## The version of an object link -/

/-- The value of a version without the quote at its end. -/
def unquoteEnd (value : List UInt8) : List UInt8 :=
  if value.getLast? = some 34 then value.dropLast else value

/-- The numbers in front of and behind the first dot. -/
def versionNumbers : List UInt8 → Option (UInt8 × UInt8)
  | [] => none
  | first :: rest =>
    match rest.dropWhile (· != 46) with
    | [] => none
    | _ :: minor =>
      (versionNumber (first :: rest.takeWhile (· != 46))).bind fun versionMajor =>
        (versionNumber minor).map fun versionMinor => (versionMajor, versionMinor)

/-- The version that a value of `ver` stands for, with or without quotes. -/
def linkVersion (value : List UInt8) : Option (UInt8 × UInt8) :=
  versionNumbers (unquoteEnd (if value.head? = some 34 then value.drop 1 else value))

/-- The version behind one attribute: a second one is refused. -/
def attributeVersion (version : UInt8 × UInt8) (piece : List UInt8) : Option (UInt8 × UInt8) :=
  let piece := piece.dropWhile (· == 32)
  if attrVersionStr <+: piece ∧ attrVersionStr.length < piece.length then
    if version = (0, 0) then linkVersion (piece.drop attrVersionStr.length) else none
  else some version

/-- The version behind all attributes of an object link. -/
def attributesVersion (attributes : List UInt8) : Option (UInt8 × UInt8) :=
  (attributes.splitOn 59).foldlM attributeVersion (0, 0)

theorem versionNumber_nil : versionNumber [] = none := rfl

theorem versionNumbers_cons (first : UInt8) (rest : List UInt8) :
    versionNumbers (first :: rest) =
      match rest.dropWhile (· != 46) with
      | [] => none
      | _ :: minor =>
        (versionNumber (first :: rest.takeWhile (· != 46))).bind fun versionMajor =>
          (versionNumber minor).map fun versionMinor => (versionMajor, versionMinor) := rfl

theorem unquoteEnd_split {value : List UInt8} (hvalue : value ≠ []) :
    ∃ quote, value = unquoteEnd value ++ quote ∧
      quote.length = if value.getLast hvalue = 34 then 1 else 0 := by
  have hlast := List.getLast?_eq_some_getLast hvalue
  have hsplit := List.dropLast_concat_getLast hvalue
  unfold unquoteEnd
  by_cases hquote : value.getLast hvalue = 34
  · refine ⟨[34], ?_, by rw [if_pos hquote]; rfl⟩
    rw [hlast, if_pos (congrArg some hquote), ← hquote, hsplit]
  · refine ⟨[], ?_, by rw [if_neg hquote]; rfl⟩
    rw [hlast, if_neg fun h => hquote (Option.some.inj h), List.append_nil]

theorem getIdNumbers_eq (checked : Bool) {head value : List UInt8} (tail : List UInt8)
    (hhead : head.length = attrVersionStr.length) (hvalue : value ≠ []) :
    getIdNumbers checked (head ++ value ++ tail) (head ++ value).length =
      .ok (versionNumbers (unquoteEnd value)) := by
  have hfour : attrVersionStr.length = 4 := rfl
  have hpos := List.length_pos_iff.2 hvalue
  obtain ⟨quote, hsplit, hquote⟩ := unquoteEnd_split hvalue
  have hlast : byteAt (head ++ value ++ tail) ((head ++ value).length - 1) =
      .ok (value.getLast hvalue) := by
    have hne : head ++ value ≠ [] := List.append_ne_nil_of_right_ne_nil _ hvalue
    rw [byteAt_append (by rw [List.length_append]; omega), byteAt_eq_ok, ← List.getLast?_eq_getElem?,
      List.getLast?_eq_some_getLast hne, List.getLast_append_of_ne_nil hne hvalue]
  have hlimit : (head ++ value).length - quote.length = (head ++ unquoteEnd value).length := by
    rw [hsplit, List.length_append, List.length_append, List.length_append, ← hsplit]
    omega
  have hquoteLe : quote.length ≤ (head ++ value).length := by
    rw [hsplit, List.length_append, List.length_append]
    omega
  unfold getIdNumbers
  rw [hlast, ok_bind, ← hquote]
  dsimp only
  rw [sub16_le hquoteLe, ok_bind, hlimit, if_neg (by rw [List.length_append]; omega)]
  have hdata : head ++ value ++ tail = head ++ unquoteEnd value ++ (quote ++ tail) := by
    conv_lhs => rw [hsplit]
    simp
  rw [hdata]
  generalize unquoteEnd value = numbers, quote ++ tail = tail
  match numbers with
  | [] =>
    have hscan : scan (· != 46) (head ++ [] ++ tail) (head ++ []).length
        (attrVersionStr.length + 1) = .ok (attrVersionStr.length + 1) := by
      unfold scan
      rw [Nat.sub_eq_zero_of_le (by rw [List.append_nil]; omega)]
      rfl
    rw [hscan, ok_bind, if_pos (by rw [List.append_nil]; omega)]
    rfl
  | first :: rest =>
    have hdrop : (head ++ first :: rest).drop (attrVersionStr.length + 1) = rest := by
      rw [← hhead, drop_behind]
    rw [scan_eq tail (by rw [List.length_append, List.length_cons]; omega), ok_bind, hdrop]
    have hrest := List.takeWhile_append_dropWhile (p := (· != 46)) (l := rest)
    rw [versionNumbers_cons]
    generalize rest.takeWhile (· != 46) = front at *
    cases hbehind : rest.dropWhile (· != 46) with
    | nil =>
      rw [hbehind, List.append_nil] at hrest
      rw [if_pos (by rw [← hrest, List.length_append, List.length_cons]; omega)]
      rfl
    | cons dot minor =>
      rw [hbehind] at hrest
      subst hrest
      dsimp only
      cases minor with
      | nil =>
        rw [if_pos (by simp only [List.length_append, List.length_cons, List.length_nil]; omega),
          versionNumber_nil]
        cases versionNumber (first :: front) with
        | none => rfl
        | some versionMajor => rfl
      | cons digit minor =>
        rw [if_neg (by simp only [List.length_append, List.length_cons]; omega)]
        have hmajor : bytesAt (head ++ first :: (front ++ dot :: digit :: minor) ++ tail)
            attrVersionStr.length (attrVersionStr.length + 1 + front.length - attrVersionStr.length) =
            .ok (first :: front) := by
          rw [bytesAt_append (by simp only [List.length_append, List.length_cons]; omega), ← hhead,
            List.drop_left]
          have hcount : head.length + 1 + front.length - head.length = (first :: front).length := by
            rw [List.length_cons]
            omega
          rw [hcount, ← List.cons_append, List.take_left]
        have hminor : bytesAt (head ++ first :: (front ++ dot :: digit :: minor) ++ tail)
            (attrVersionStr.length + 1 + front.length + 1)
            ((head ++ first :: (front ++ dot :: digit :: minor)).length -
              (attrVersionStr.length + 1 + front.length) - 1) = .ok (digit :: minor) := by
          have htext : head ++ first :: (front ++ dot :: digit :: minor) =
              head ++ first :: front ++ dot :: digit :: minor := by simp
          have hstart : attrVersionStr.length + 1 + front.length =
              (head ++ first :: front).length := by
            rw [List.length_append, List.length_cons, hhead]
            omega
          rw [hstart, htext, bytesAt_append (by simp; omega), drop_behind, List.take_of_length_le]
          simp
          omega
        rw [hmajor, ok_bind, hminor]
        cases versionNumber (first :: front) with
        | none => rfl
        | some versionMajor =>
          simp only [ok_bind, Option.bind_some]
          cases versionNumber (digit :: minor) with
          | none => rfl
          | some versionMinor => rfl

theorem getIdVersion_eq (checked : Bool) (value tail : List UInt8) (behind : Nat)
    (hvalue : value ≠ []) :
    ∃ quote, quote ≤ 1 ∧
      getIdVersion checked (attrVersionStr ++ value ++ tail) (attrVersionStr ++ value).length
          ((attrVersionStr ++ value).length + behind) =
        .ok ((linkVersion value).map fun version =>
          (version, (attrVersionStr ++ value).drop quote ++ tail,
            ((attrVersionStr ++ value).drop quote).length,
            ((attrVersionStr ++ value).drop quote).length + behind)) := by
  have hfour : attrVersionStr.length = 4 := rfl
  match value, hvalue with
  | [single], _ =>
    refine ⟨0, Nat.zero_le 1, ?_⟩
    have hnone : linkVersion [single] = none := by
      unfold linkVersion unquoteEnd
      by_cases hquote : single = 34
      · rw [hquote]
        rfl
      · simp [hquote, versionNumbers]
    unfold getIdVersion
    rw [if_pos (by rw [List.length_append, List.length_singleton]; omega), hnone]
    rfl
  | first :: second :: more, _ =>
    unfold getIdVersion linkVersion
    rw [if_neg (by simp only [List.length_append, List.length_cons]; omega), List.append_assoc,
      List.cons_append, byteAt_head, ok_bind, ← List.cons_append, ← List.append_assoc]
    dsimp only
    by_cases hquote : first = 34
    · subst hquote
      refine ⟨1, Nat.le_refl 1, ?_⟩
      have hhead : [(101 : UInt8), 114, 61, 34].length = attrVersionStr.length := rfl
      have hnumbers := getIdNumbers_eq checked tail hhead (List.cons_ne_nil second more)
      rw [if_pos rfl, sub16_le (by rw [List.length_append]; omega), ok_bind,
        sub16_le (by rw [List.length_append]; omega), ok_bind]
      have hcut : (attrVersionStr ++ 34 :: second :: more).length - 1 =
          ([101, 114, 61, 34] ++ second :: more).length := rfl
      have hlength : (attrVersionStr ++ 34 :: second :: more).length + behind - 1 =
          ([101, 114, 61, 34] ++ second :: more).length + behind := by
        rw [← hcut, List.length_append, hfour]
        omega
      have hdata : (attrVersionStr ++ 34 :: second :: more ++ tail).drop 1 =
          [101, 114, 61, 34] ++ second :: more ++ tail := rfl
      rw [hcut, hlength, hdata, hnumbers, ok_bind, List.head?_cons, if_pos rfl]
      cases hversion : versionNumbers (unquoteEnd (second :: more)) with
      | none =>
        rw [show List.drop 1 (34 :: second :: more) = second :: more from rfl, hversion]
        rfl
      | some version =>
        rw [show List.drop 1 (34 :: second :: more) = second :: more from rfl, hversion]
        rfl
    · refine ⟨0, Nat.zero_le 1, ?_⟩
      have hnumbers := getIdNumbers_eq checked tail (rfl : attrVersionStr.length = _)
        (List.cons_ne_nil first (second :: more))
      rw [if_neg hquote, sub16_le (Nat.zero_le _), ok_bind, sub16_le (Nat.zero_le _), ok_bind,
        Nat.sub_zero, Nat.sub_zero, List.drop_zero, hnumbers, ok_bind, List.head?_cons,
        if_neg fun h => hquote (Option.some.inj h)]
      cases versionNumbers (unquoteEnd (first :: second :: more)) with
      | none => rfl
      | some version => rfl

theorem getIdAttribute_eq (checked : Bool) (version : UInt8 × UInt8) (piece tail : List UInt8)
    (behind : Nat) :
    ∃ quote, getIdAttribute checked version (piece.dropWhile (· == 32) ++ tail)
        (piece.dropWhile (· == 32)).length ((piece.dropWhile (· == 32)).length + behind) =
      .ok ((attributeVersion version piece).map fun version =>
        (version, (piece.dropWhile (· == 32)).drop quote ++ tail,
          ((piece.dropWhile (· == 32)).drop quote).length,
          ((piece.dropWhile (· == 32)).drop quote).length + behind)) := by
  unfold getIdAttribute attributeVersion
  generalize piece.dropWhile (· == 32) = piece
  dsimp only
  by_cases hshort : piece.length ≤ attrVersionStr.length
  · rw [if_pos hshort, if_neg fun h => absurd h.2 (Nat.not_lt.2 hshort)]
    exact ⟨0, rfl⟩
  have hlong := Nat.lt_of_not_le hshort
  rw [if_neg hshort, bytesAt_append (by omega), ok_bind, List.drop_zero]
  by_cases hstarts : attrVersionStr <+: piece
  · have htake := List.prefix_iff_eq_take.1 hstarts
    have hboth : attrVersionStr <+: piece ∧ attrVersionStr.length < piece.length := ⟨hstarts, hlong⟩
    rw [if_neg (not_not_intro htake.symm), if_pos hboth]
    by_cases hversion : version = (0, 0)
    · rw [if_neg (not_not_intro hversion), if_pos hversion]
      obtain ⟨value, rfl⟩ := hstarts
      have hvalue : value ≠ [] := by
        rintro rfl
        rw [List.append_nil] at hlong
        exact absurd hlong (Nat.lt_irrefl _)
      obtain ⟨quote, -, hread⟩ := getIdVersion_eq checked value tail behind hvalue
      exact ⟨quote, by rw [hread, List.drop_left]⟩
    · rw [if_pos hversion, if_neg hversion]
      exact ⟨0, rfl⟩
  · have htake : piece.take attrVersionStr.length ≠ attrVersionStr := fun h =>
      hstarts (List.prefix_iff_eq_take.2 h.symm)
    have hboth : ¬ (attrVersionStr <+: piece ∧ attrVersionStr.length < piece.length) := fun h =>
      hstarts h.1
    rw [if_pos htake, if_neg hboth]
    exact ⟨0, rfl⟩

/-! ## All attributes of an object link -/

/-- The attributes end in one: there is neither a separator nor a space behind it. -/
def EndsInAttribute (attributes : List UInt8) : Prop :=
  attributes ≠ [] ∧ attributes.getLast? ≠ some 59 ∧ attributes.getLast? ≠ some 32

instance : DecidablePred EndsInAttribute := fun _ => inferInstanceAs (Decidable (_ ∧ _))

theorem endsInAttribute_behind (head rest : List UInt8) :
    EndsInAttribute (head ++ 59 :: rest) ↔ EndsInAttribute rest := by
  unfold EndsInAttribute
  cases rest with
  | nil => simp
  | cons byte rest => simp [List.getLast?_append]

theorem getIdAttributes_first (checked : Bool) {piece more : List UInt8} (spaces : List UInt8)
    (fuel : Nat) (version : UInt8 × UInt8) (hpiece : 59 ∉ piece) (hmore : more = [] ∨ ∃ rest, more = 59 :: rest)
    (hne : piece.dropWhile (· == 32) ++ more ≠ []) :
    ∃ data, data.length ≤ piece.length ∧
      getIdAttributes checked (fuel + 1) (piece ++ more ++ spaces) (piece ++ more).length version =
        match attributeVersion version piece with
        | none => .ok none
        | some version => (do
          let byte ← byteAt (data ++ (more ++ spaces)) data.length
          let limit := if byte = 59 then (data.length + 1) % 2 ^ 16 else data.length
          getIdAttributes checked fuel ((data ++ (more ++ spaces)).drop limit)
            (← sub16 checked (data.length + more.length) limit) version) := by
  have hsplit := List.takeWhile_append_dropWhile (p := (· == (32 : UInt8))) (l := piece)
  have hblanks := (takeWhile_split (· == 32) piece).1
  have hbody : ∀ byte ∈ piece.dropWhile (· == 32), (byte != 59) = true := by
    intro byte hmem
    rw [bne_iff_ne]
    rintro rfl
    exact hpiece (hsplit ▸ List.mem_append_right _ hmem)
  obtain ⟨quote, hattribute⟩ :=
    getIdAttribute_eq checked version piece (more ++ spaces) more.length
  refine ⟨(piece.dropWhile (· == 32)).drop quote, ?_, ?_⟩
  · rw [List.length_drop]
    have := (List.dropWhile_sublist (· == (32 : UInt8)) (l := piece)).length_le
    omega
  generalize attributeVersion version piece = result at *
  generalize piece.takeWhile (· == 32) = blanks at *
  have hhead : ∀ stop rest, piece.dropWhile (· == 32) ++ more = stop :: rest →
      (stop == 32) = false := by
    intro stop rest hfirst
    have hnot := List.head?_dropWhile_not (· == (32 : UInt8)) piece
    cases hrest : piece.dropWhile (· == 32) with
    | nil =>
      rw [hrest, List.nil_append] at hfirst
      rcases hmore with rfl | ⟨_, rfl⟩
      · cases hfirst
      · cases hfirst
        rfl
    | cons other others =>
      rw [hrest] at hfirst hnot
      cases hfirst
      simpa using hnot
  generalize piece.dropWhile (· == 32) = body at *
  subst hsplit
  obtain ⟨stop, rest, hfirst⟩ := List.exists_cons_of_ne_nil hne
  have hspaces : scan (· == 32) (blanks ++ body ++ more ++ spaces) (blanks ++ body ++ more).length 0 =
      .ok blanks.length := by
    rw [List.append_assoc, List.append_assoc, ← List.append_assoc body, hfirst, List.cons_append]
    have hsum : body.length + more.length = rest.length + 1 := by
      rw [← List.length_append, hfirst, List.length_cons]
    apply scan_until hblanks (hhead _ _ hfirst)
    · simp only [List.length_append]
      omega
    · simp only [List.length_append, List.length_cons]
      omega
  have hlimit : scan (· != 59) (body ++ (more ++ spaces)) (body.length + more.length) 0 =
      .ok body.length := by
    rcases hmore with rfl | ⟨rest, rfl⟩
    · rw [List.nil_append, List.length_nil, Nat.add_zero, scan_eq spaces (Nat.zero_le _),
        List.drop_zero, List.takeWhile_eq_self_iff.2 hbody, Nat.zero_add]
    · rw [List.cons_append]
      apply scan_until hbody rfl
      · simp
      · simp
  have hcount : (blanks ++ body ++ more).length - blanks.length = body.length + more.length := by
    simp only [List.length_append]
    omega
  have hpos : body.length + more.length ≠ 0 := by
    have := List.length_pos_iff.2 hne
    rw [List.length_append] at this
    omega
  have hdrop : (blanks ++ body ++ more ++ spaces).drop blanks.length = body ++ (more ++ spaces) := by
    rw [List.append_assoc, List.append_assoc, List.drop_left]
  rw [getIdAttributes, if_neg (by simp only [List.length_append]; omega), hspaces, ok_bind,
    sub16_le (by simp only [List.length_append]; omega), ok_bind, hcount, if_neg hpos]
  dsimp only
  rw [hdrop, hlimit, ok_bind, hattribute, ok_bind]
  cases result with
  | none => rfl
  | some version => rfl

/-- The attributes are read up to the end of the link; behind the last one a byte more. -/
theorem getIdAttributes_eq {spaces : List UInt8} (hspaces : ∀ byte ∈ spaces, byte = 32) :
    ∀ (fuel : Nat) (attributes : List UInt8) (version : UInt8 × UInt8),
      attributes.length < fuel → attributes.length < 2 ^ 16 → attributes.getLast? ≠ some 32 →
      getIdAttributes true fuel (attributes ++ spaces) attributes.length version =
        if spaces = [] ∧ EndsInAttribute attributes ∧
            ((attributes.splitOn 59).foldlM attributeVersion version).isSome then .error .outside
        else .ok ((attributes.splitOn 59).foldlM attributeVersion version) := by
  intro fuel
  induction fuel with
  | zero => exact fun _ _ h => absurd h (Nat.not_lt_zero _)
  | succ fuel ih =>
    intro attributes version hfuel hsize hlast
    by_cases hempty : attributes = []
    · subst hempty
      rw [if_neg fun h => h.2.1.1 rfl]
      rfl
    obtain ⟨hpiece, hall | ⟨stop, rest, hstop, hrest⟩⟩ := takeWhile_split (· != 59) attributes
    · -- the last attribute
      rw [hall] at hpiece
      have hno : 59 ∉ attributes := fun hmem => by simpa using hpiece 59 hmem
      have hbody : attributes.dropWhile (· == 32) ≠ [] := by
        intro hnil
        have hblank := List.dropWhile_eq_nil_iff.1 hnil _ (List.getLast_mem hempty)
        rw [List.getLast?_eq_some_getLast hempty] at hlast
        exact hlast (congrArg some (by simpa using hblank))
      have hends : EndsInAttribute attributes :=
        ⟨hempty, fun h => hno (List.mem_of_getLast? h), hlast⟩
      obtain ⟨data, hdata, hread⟩ := getIdAttributes_first true spaces fuel version
        hno (.inl rfl) (by rwa [List.append_nil])
      simp only [List.append_nil] at hread
      rw [hread, List.splitOn_eq_singleton hno, List.foldlM_cons]
      cases hversion : attributeVersion version attributes with
      | none =>
        rw [if_neg fun h => by cases h.2.2]
        rfl
      | some version =>
        dsimp only
        cases spaces with
        | nil =>
          have hbehind : byteAt (data ++ ([] ++ [])) data.length = .error .outside := by
            unfold byteAt
            rw [List.append_nil, List.append_nil, List.getElem?_eq_none (Nat.le_refl _)]
          rw [hbehind, if_pos ⟨rfl, hends, rfl⟩]
          rfl
        | cons space spaces =>
          obtain rfl := hspaces space List.mem_cons_self
          obtain ⟨fuel, rfl⟩ : ∃ more, fuel = more + 1 :=
            ⟨fuel - 1, by have := List.length_pos_iff.2 hempty; omega⟩
          rw [List.nil_append, byteAt_head, ok_bind, if_neg (by decide), List.length_nil, Nat.add_zero,
            sub16_le (Nat.le_refl _), ok_bind, Nat.sub_self, if_neg fun h => by cases h.1]
          rfl
    · -- an attribute, and what is behind the separator
      obtain rfl : stop = 59 := by simpa using hstop
      have hno : 59 ∉ attributes.takeWhile (· != 59) := fun hmem => by simpa using hpiece 59 hmem
      generalize attributes.takeWhile (· != 59) = piece at *
      subst hrest
      obtain ⟨data, hdata, hread⟩ := getIdAttributes_first true spaces fuel version
        hno (.inr ⟨rest, rfl⟩) (List.append_ne_nil_of_right_ne_nil _ (List.cons_ne_nil _ _))
      rw [hread, List.splitOn_append_cons_self_of_not_mem hno, List.foldlM_cons]
      simp only [endsInAttribute_behind]
      cases hversion : attributeVersion version piece with
      | none =>
        rw [if_neg fun h => by cases h.2.2]
        rfl
      | some version =>
        dsimp only
        rw [List.length_append, List.length_cons] at hfuel hsize
        have hlimit : (data.length + 1) % 2 ^ 16 = data.length + 1 := Nat.mod_eq_of_lt (by omega)
        have hleft : data.length + (59 :: rest).length - (data.length + 1) = rest.length := by
          rw [List.length_cons]
          omega
        have hlastRest : rest.getLast? ≠ some 32 := by
          cases rest with
          | nil => nofun
          | cons byte rest =>
            rwa [List.getLast?_append, List.getLast?_cons_cons,
              List.getLast?_eq_some_getLast (List.cons_ne_nil _ _), Option.some_or,
              ← List.getLast?_eq_some_getLast] at hlast
        rw [List.cons_append, byteAt_head, ok_bind, if_pos rfl, hlimit,
          sub16_le (by rw [List.length_cons]; omega), ok_bind, hleft, drop_behind]
        exact ih rest version (by omega) (by omega) hlastRest

/-! ## One link -/

/-- A link that is read past its end: an object with attributes, the last one with nothing behind
it, and no version refused. -/
def ReadsPast (link : List UInt8) : Prop :=
  ∃ id path attributes, ObjectPath path id ∧ link = path ++ 59 :: attributes ∧
    EndsInAttribute attributes ∧ (attributesVersion attributes).isSome

/-- A link that announces an object or an instance, with spaces at its end or not. -/
def ObjectLink (link : List UInt8) : Prop :=
  ∃ id path rest spaces, ObjectPath path id ∧ link = path ++ rest ++ spaces ∧
    (∀ byte ∈ spaces, byte = 32) ∧ (path ++ rest).getLast? ≠ some 32 ∧
    ∀ attributes, rest = 59 :: attributes → (attributesVersion attributes).isSome

section

variable {link rest spaces : List UInt8} {id : LinkId}

theorem prvGetId_plain
    (hpath : getIdPath true link link.length = .ok (some (id, rest ++ spaces, rest.length)))
    (hrest : rest.head? ≠ some 59) : prvGetId true link link.length = .ok (some (id, (0, 0))) := by
  unfold prvGetId
  rw [hpath, ok_bind]
  dsimp only
  cases rest with
  | nil => rfl
  | cons first rest =>
    have hfirst : first ≠ 59 := fun h => hrest (congrArg some h)
    split
    · rfl
    · rw [List.cons_append, byteAt_lt (Nat.zero_lt_succ _), ok_bind, List.getElem_cons_zero,
        if_pos hfirst]
      rfl

theorem prvGetId_attributes {attributes : List UInt8} (hspaces : ∀ byte ∈ spaces, byte = 32)
    (hpath : getIdPath true link link.length =
      .ok (some (id, 59 :: attributes ++ spaces, (59 :: attributes).length)))
    (hsize : attributes.length < 2 ^ 16) (hlast : attributes.getLast? ≠ some 32) :
    prvGetId true link link.length =
      if spaces = [] ∧ EndsInAttribute attributes ∧ (attributesVersion attributes).isSome then
        .error .outside
      else .ok ((attributesVersion attributes).map fun version => (id, version)) := by
  unfold prvGetId
  rw [hpath, ok_bind]
  dsimp only
  by_cases hempty : attributes = []
  · subst hempty
    rw [if_neg fun h : spaces = [] ∧ _ => h.2.1.1 rfl]
    rfl
  · have hpos := List.length_pos_iff.2 hempty
    have hdrop : (59 :: attributes ++ spaces).drop 1 = attributes ++ spaces := rfl
    rw [if_neg (by rw [List.length_cons]; omega), List.cons_append,
      byteAt_lt (Nat.zero_lt_succ _), ok_bind, List.getElem_cons_zero, if_neg (not_not_intro rfl),
      sub16_le (by rw [List.length_cons]; omega), ok_bind, ← List.cons_append, hdrop,
      List.length_cons, Nat.add_sub_cancel,
      getIdAttributes_eq hspaces _ attributes (0, 0) (by rw [List.length_append]; omega) hsize hlast]
    unfold attributesVersion
    split
    · rfl
    · cases (attributes.splitOn 59).foldlM attributeVersion (0, 0) with
      | none => rfl
      | some version => rfl

end

theorem getLast?_behind {path rest : List UInt8} {byte : UInt8} (hne : rest ≠ []) :
    (path ++ rest).getLast? = some byte ↔ rest.getLast? = some byte := by
  rw [List.getLast?_append, List.getLast?_eq_some_getLast hne, Option.some_or]

theorem getLast?_attributes {path attributes : List UInt8} :
    (path ++ 59 :: attributes).getLast? ≠ some 32 ↔ attributes.getLast? ≠ some 32 := by
  rw [ne_eq, getLast?_behind (List.cons_ne_nil _ _)]
  cases attributes with
  | nil => simp
  | cons byte attributes => simp

theorem prvGetId_readsPast {link : List UInt8} (hsize : link.length < 2 ^ 16)
    (h : ReadsPast link) : prvGetId true link link.length = .error .outside := by
  obtain ⟨id, path, attributes, hpath, rfl, hends, hversion⟩ := h
  have hread := getIdPath_of_objectPath true [] hpath (getLast?_attributes.2 hends.2.2)
  rw [List.append_nil] at hread
  rw [List.length_append, List.length_cons] at hsize
  rw [prvGetId_attributes (List.forall_mem_nil _) hread (by omega) hends.2.2,
    if_pos ⟨rfl, hends, hversion⟩]

theorem prvGetId_path {path rest spaces : List UInt8} {id : LinkId}
    (hsize : (path ++ rest ++ spaces).length < 2 ^ 16) (hpath : ObjectPath path id)
    (hspaces : ∀ byte ∈ spaces, byte = 32) (hlast : (path ++ rest).getLast? ≠ some 32)
    (hread : getIdPath true (path ++ rest ++ spaces) (path ++ rest ++ spaces).length =
      .ok (some (id, rest ++ spaces, rest.length))) :
    (ObjectLink (path ++ rest ++ spaces) ∧ (ReadsPast (path ++ rest ++ spaces) ∨
      ∃ found, prvGetId true (path ++ rest ++ spaces) (path ++ rest ++ spaces).length =
        .ok (some found))) ∨
    (prvGetId true (path ++ rest ++ spaces) (path ++ rest ++ spaces).length = .ok none ∧
      ∃ attributes, rest = 59 :: attributes ∧ attributesVersion attributes = none) := by
  by_cases hattributes : rest.head? = some 59
  · obtain ⟨attributes, rfl⟩ := List.head?_eq_some_iff.1 hattributes
    simp only [List.length_append, List.length_cons] at hsize
    rw [prvGetId_attributes hspaces hread (by omega) (getLast?_attributes.1 hlast)]
    cases hversion : attributesVersion attributes with
    | none =>
      right
      rw [if_neg fun h : spaces = [] ∧ _ => by cases h.2.2]
      exact ⟨rfl, attributes, rfl, hversion⟩
    | some version =>
      left
      refine ⟨⟨id, path, _, spaces, hpath, rfl, hspaces, hlast, ?_⟩, ?_⟩
      · rintro others hothers
        cases hothers
        rw [hversion]
        rfl
      · by_cases hends : spaces = [] ∧ EndsInAttribute attributes
        · obtain ⟨rfl, hends⟩ := hends
          exact .inl ⟨id, path, attributes, hpath, List.append_nil _, hends, by rw [hversion]; rfl⟩
        · rw [if_neg fun h : spaces = [] ∧ _ => hends ⟨h.1, h.2.1⟩]
          exact .inr ⟨_, rfl⟩
  · left
    refine ⟨⟨id, path, rest, spaces, hpath, rfl, hspaces, hlast, ?_⟩,
      .inr ⟨_, prvGetId_plain hread hattributes⟩⟩
    rintro attributes rfl
    exact absurd rfl hattributes

theorem prvGetId_objectLink {link : List UInt8} (hsize : link.length < 2 ^ 16)
    (h : ObjectLink link) (hpast : ¬ ReadsPast link) :
    ∃ found, prvGetId true link link.length = .ok (some found) := by
  obtain ⟨id, path, rest, spaces, hpath, rfl, hspaces, hlast, hversion⟩ := h
  have hread : getIdPath true (path ++ rest ++ spaces) (path ++ rest ++ spaces).length =
      .ok (some (id, rest ++ spaces, rest.length)) := by
    have htrim := trimSpaces_spaces [] hspaces hlast
    rw [List.append_nil] at htrim
    rw [← getIdPath_of_objectPath true spaces hpath hlast]
    unfold getIdPath
    rw [htrim, trimSpaces_none spaces hlast]
  rcases prvGetId_path hsize hpath hspaces hlast hread with ⟨-, hpast' | hfound⟩ | hnone
  · exact absurd hpast' hpast
  · exact hfound
  · obtain ⟨-, attributes, hrest, hnone⟩ := hnone
    have hsome := hversion attributes hrest
    rw [hnone] at hsome
    cases hsome

theorem prvGetId_other {link : List UInt8} (hsize : link.length < 2 ^ 16)
    (h : ¬ ObjectLink link) : prvGetId true link link.length = .ok none := by
  rcases getIdPath_total link with ⟨id, path, rest, spaces, hpath, rfl, hspaces, hlast, hread⟩ | hnone
  · rcases prvGetId_path hsize hpath hspaces hlast hread with
      ⟨hobject, -⟩ | ⟨hnone, -⟩
    · exact absurd hobject h
    · exact hnone
  · unfold prvGetId
    rw [hnone]
    rfl

/-! ## The payload -/

/-- The text of link attributes that are accepted. -/
def LinkAttributesAccepted (link : List UInt8) : Prop :=
  ∃ found, prvParseLinkAttributes true link link.length = .ok (some found)

/-- The links of a payload, from a given place on, that the decoder comes to. None starts or is
longer than a `uint16_t` can hold, and none is read past its end. It comes to a link when those in
front of it are accepted; only one may have link attributes. -/
def LinksInside : Bool → Nat → List (List UInt8) → Prop
  | _, _, [] => True
  | linkAttrFound, index, piece :: pieces =>
    (piece.dropWhile (· == 32) = [] ∧ pieces = []) ∨
      (index + (piece.takeWhile (· == 32)).length < 2 ^ 16 ∧
        (piece.dropWhile (· == 32)).length < 2 ^ 16 ∧ ¬ ReadsPast (piece.dropWhile (· == 32)) ∧
        (ObjectLink (piece.dropWhile (· == 32)) →
          LinksInside linkAttrFound (index + piece.length + 1) pieces) ∧
        (¬ ObjectLink (piece.dropWhile (· == 32)) → linkAttrFound = false →
          LinkAttributesAccepted (piece.dropWhile (· == 32)) →
          LinksInside true (index + piece.length + 1) pieces))

theorem decodeLink_cases {link : List UInt8} (state : DecodeState) (hsize : link.length < 2 ^ 16) :
    (ReadsPast link ∧ decodeLink true link link.length state = .error .outside) ∨
    (¬ ReadsPast link ∧ ObjectLink link ∧ ∃ state', state'.linkAttrFound = state.linkAttrFound ∧
      decodeLink true link link.length state = .ok (some state')) ∨
    (¬ ReadsPast link ∧ ¬ ObjectLink link ∧ state.linkAttrFound = false ∧
      LinkAttributesAccepted link ∧ ∃ state', state'.linkAttrFound = true ∧
      decodeLink true link link.length state = .ok (some state')) ∨
    (¬ ReadsPast link ∧ ¬ ObjectLink link ∧
      (state.linkAttrFound = false → ¬ LinkAttributesAccepted link) ∧
      decodeLink true link link.length state = .ok none) := by
  unfold decodeLink
  by_cases hpast : ReadsPast link
  · exact .inl ⟨hpast, by rw [prvGetId_readsPast hsize hpast]; rfl⟩
  right
  by_cases hobject : ObjectLink link
  · obtain ⟨⟨id, version⟩, hfound⟩ := prvGetId_objectLink hsize hobject hpast
    exact .inl ⟨hpast, hobject, state.addObject id version, rfl, by rw [hfound]; rfl⟩
  right
  rw [prvGetId_other hsize hobject, ok_bind]
  obtain ⟨result, hresult⟩ := prvParseLinkAttributes_within link
  dsimp only
  cases hattr : state.linkAttrFound with
  | true => exact .inr ⟨hpast, hobject, nofun, rfl⟩
  | false =>
    rw [if_neg Bool.false_ne_true, hresult, ok_bind]
    cases result with
    | none =>
      refine .inr ⟨hpast, hobject, fun _ => ?_, rfl⟩
      rintro ⟨found, haccepted⟩
      rw [hresult] at haccepted
      cases haccepted
    | some found =>
      exact .inl ⟨hpast, hobject, rfl, ⟨found, hresult⟩, _, rfl, rfl⟩

theorem to16_eq (n : Nat) : to16 true n = if n < 2 ^ 16 then .ok n else .error .truncated := rfl

theorem decodeLoop_first (before : List UInt8) {piece more : List UInt8} (fuel : Nat)
    (state : DecodeState) (hpiece : 44 ∉ piece) (hmore : more = [] ∨ ∃ rest, more = 44 :: rest)
    (hne : piece.dropWhile (· == 32) ++ more ≠ []) :
    decodeLoop true (before ++ piece ++ more) (before ++ piece ++ more).length (fuel + 1)
        before.length state =
      if before.length + (piece.takeWhile (· == 32)).length < 2 ^ 16 ∧
          (piece.dropWhile (· == 32)).length < 2 ^ 16 then
        decodeLink true (piece.dropWhile (· == 32)) (piece.dropWhile (· == 32)).length state >>=
          fun found => match found with
            | none => .ok none
            | some state => decodeLoop true (before ++ piece ++ more)
                (before ++ piece ++ more).length fuel (before.length + piece.length + 1) state
      else .error .truncated := by
  have hsplit := List.takeWhile_append_dropWhile (p := (· == (32 : UInt8))) (l := piece)
  have hblanks := (takeWhile_split (· == 32) piece).1
  have hlink : ∀ byte ∈ piece.dropWhile (· == 32), (byte != 44) = true := by
    intro byte hmem
    rw [bne_iff_ne]
    rintro rfl
    exact hpiece (hsplit ▸ List.mem_append_right _ hmem)
  have hhead : (piece.dropWhile (· == 32) ++ more).takeWhile (· == 32) = [] := by
    apply takeWhile_behind
    rcases hmore with rfl | ⟨rest, rfl⟩
    · nofun
    · rintro _ ⟨⟩
      rfl
  generalize piece.takeWhile (· == 32) = blanks at *
  generalize piece.dropWhile (· == 32) = link at *
  subst hsplit
  have hspaces : (blanks ++ (link ++ more)).takeWhile (· == 32) = blanks := by
    rw [List.takeWhile_append_of_pos hblanks, hhead, List.append_nil]
  have hlinkScan : (link ++ more).takeWhile (· != 44) = link := by
    rw [List.takeWhile_append_of_pos hlink]
    rcases hmore with rfl | ⟨rest, rfl⟩
    · exact List.append_nil _
    · exact List.append_nil _
  have hpayload : before ++ (blanks ++ link) ++ more = before ++ (blanks ++ (link ++ more)) := by
    simp only [List.append_assoc]
  have hpayload' : before ++ (blanks ++ (link ++ more)) = before ++ blanks ++ (link ++ more) :=
    (List.append_assoc _ _ _).symm
  have hpos := List.length_pos_iff.2 hne
  have hscan : scan (· == 32) (before ++ (blanks ++ (link ++ more)))
      (before ++ (blanks ++ (link ++ more))).length before.length =
      .ok (before.length + blanks.length) :=
    scan_found _ (by simp) (by rw [List.drop_left, hspaces])
  have hdrop : (before ++ (blanks ++ (link ++ more))).drop (before.length + blanks.length) =
      link ++ more := by
    rw [hpayload', ← List.length_append, List.drop_left]
  have hscan' : scan (· != 44) (before ++ (blanks ++ (link ++ more)))
      (before ++ (blanks ++ (link ++ more))).length (before.length + blanks.length) =
      .ok (before.length + blanks.length + link.length) :=
    scan_found _ (by simp) (by rw [hdrop, hlinkScan])
  rw [hpayload, decodeLoop, if_neg (by simp), hscan, ok_bind, if_neg, to16_eq]
  · by_cases hstart : before.length + blanks.length < 2 ^ 16
    · rw [if_pos hstart, ok_bind, hscan', ok_bind, Nat.add_sub_cancel_left, to16_eq, hdrop]
      by_cases hsize : link.length < 2 ^ 16
      · rw [if_pos hsize, if_pos ⟨hstart, hsize⟩, ok_bind]
        dsimp only
        have hindex : before.length + blanks.length + link.length =
            before.length + (blanks ++ link).length := by
          rw [List.length_append, Nat.add_assoc]
        rw [if_pos rfl, List.take_left, hindex]
        cases decodeLink true link link.length state with
        | error fault => rfl
        | ok found => cases found <;> rfl
      · rw [if_neg hsize, if_neg fun h => hsize h.2]
        rfl
    · rw [if_neg hstart, if_neg fun h => hstart h.1]
      rfl
  · simp only [List.length_append] at hpos ⊢
    omega

theorem linkInside_iff {link : List UInt8} {state : DecodeState} {start : Nat}
    {next : DecodeState → Except ScanFault (Option DecodeState)} (behind : Bool → Prop)
    (hnext : ∀ state, (∃ result, next state = .ok result) ↔ behind state.linkAttrFound) :
    (∃ result, (if start < 2 ^ 16 ∧ link.length < 2 ^ 16 then
        decodeLink true link link.length state >>= fun found => match found with
          | none => .ok none
          | some state => next state
      else .error .truncated) = .ok result) ↔
    start < 2 ^ 16 ∧ link.length < 2 ^ 16 ∧ ¬ ReadsPast link ∧
      (ObjectLink link → behind state.linkAttrFound) ∧
      (¬ ObjectLink link → state.linkAttrFound = false → LinkAttributesAccepted link →
        behind true) := by
  by_cases hboth : start < 2 ^ 16 ∧ link.length < 2 ^ 16
  · rw [if_pos hboth]
    rcases decodeLink_cases state hboth.2 with ⟨hpast, hread⟩ | ⟨hpast, hobject, state', hattr, hread⟩ |
      ⟨hpast, hobject, hfound, haccepted, state', hattr, hread⟩ | ⟨hpast, hobject, hrefused, hread⟩
    · rw [hread, error_bind]
      exact iff_of_false nofun fun h => h.2.2.1 hpast
    · rw [hread, ok_bind, hnext, hattr]
      exact ⟨fun h => ⟨hboth.1, hboth.2, hpast, fun _ => h, fun hno => absurd hobject hno⟩,
        fun h => h.2.2.2.1 hobject⟩
    · rw [hread, ok_bind, hnext, hattr]
      exact ⟨fun h => ⟨hboth.1, hboth.2, hpast, fun hyes => absurd hyes hobject, fun _ _ _ => h⟩,
        fun h => h.2.2.2.2 hobject hfound haccepted⟩
    · rw [hread, ok_bind]
      exact iff_of_true ⟨none, rfl⟩ ⟨hboth.1, hboth.2, hpast, fun hyes => absurd hyes hobject,
        fun _ hfound haccepted => absurd haccepted (hrefused hfound)⟩
  · rw [if_neg hboth]
    exact iff_of_false nofun fun h => hboth ⟨h.1, h.2.1⟩

theorem decodeLoop_ok_iff :
    ∀ (fuel : Nat) (before rest : List UInt8) (state : DecodeState), rest.length < fuel →
      ((∃ result, decodeLoop true (before ++ rest) (before ++ rest).length fuel before.length state =
          .ok result) ↔
        LinksInside state.linkAttrFound before.length (rest.splitOn 44)) := by
  intro fuel
  induction fuel with
  | zero => exact fun _ _ _ h => absurd h (Nat.not_lt_zero _)
  | succ fuel ih =>
    intro before rest state hfuel
    obtain ⟨hpiece, hall | ⟨stop, more, hstop, hrest⟩⟩ := takeWhile_split (· != 44) rest
    · -- the last link
      rw [hall] at hpiece
      have hno : 44 ∉ rest := fun hmem => by simpa using hpiece 44 hmem
      rw [List.splitOn_eq_singleton hno, LinksInside]
      by_cases hempty : rest.dropWhile (· == 32) = []
      · refine iff_of_true ⟨some state, ?_⟩ (.inl ⟨hempty, rfl⟩)
        have hblank := List.takeWhile_append_dropWhile (p := (· == (32 : UInt8))) (l := rest)
        rw [hempty, List.append_nil] at hblank
        have hscan : scan (· == 32) (before ++ rest) (before ++ rest).length before.length =
            .ok (before.length + rest.length) :=
          scan_found _ (by simp) (by rw [List.drop_left, hblank])
        rw [← List.length_append] at hscan
        rw [decodeLoop, if_neg (by simp), hscan, ok_bind, if_pos rfl]
        rfl
      · have hfirst := decodeLoop_first before fuel state hno (.inl rfl)
          (by rwa [List.append_nil])
        rw [List.append_nil] at hfirst
        have hpos : 0 < rest.length := List.length_pos_iff.2 fun hnil => hempty (by rw [hnil]; rfl)
        obtain ⟨fuel, rfl⟩ : ∃ more, fuel = more + 1 := ⟨fuel - 1, by omega⟩
        have hdone : ∀ state, (∃ result, decodeLoop true (before ++ rest) (before ++ rest).length
            (fuel + 1) (before.length + rest.length + 1) state = .ok result) ↔
            LinksInside state.linkAttrFound (before.length + rest.length + 1) [] := by
          intro state
          refine iff_of_true ⟨some state, ?_⟩ trivial
          rw [decodeLoop, if_pos (by rw [List.length_append]; omega)]
        rw [hfirst, linkInside_iff (fun found => LinksInside found _ []) hdone]
        exact ⟨.inr, fun h => h.resolve_left fun h => hempty h.1⟩
    · -- a link with a delimiter behind it
      obtain rfl : stop = 44 := by simpa using hstop
      have hno : 44 ∉ rest.takeWhile (· != 44) := fun hmem => by simpa using hpiece 44 hmem
      generalize rest.takeWhile (· != 44) = piece at *
      subst hrest
      have hpayload : before ++ (piece ++ 44 :: more) = before ++ piece ++ 44 :: more := by simp
      have hpayload' : before ++ piece ++ 44 :: more = before ++ piece ++ [44] ++ more := by simp
      have hindex : before.length + piece.length + 1 = (before ++ piece ++ [44]).length := by
        rw [List.length_append, List.length_append, List.length_singleton]
      have hfirst := decodeLoop_first before fuel state hno (.inr ⟨more, rfl⟩)
        (List.append_ne_nil_of_right_ne_nil _ (List.cons_ne_nil _ _))
      have hbehind : ∀ state, (∃ result, decodeLoop true (before ++ piece ++ 44 :: more)
          (before ++ piece ++ 44 :: more).length fuel (before.length + piece.length + 1) state =
          .ok result) ↔
          LinksInside state.linkAttrFound (before.length + piece.length + 1) (more.splitOn 44) := by
        intro state
        rw [hpayload', hindex]
        apply ih
        rw [List.length_append, List.length_cons] at hfuel
        omega
      rw [hpayload, hfirst, linkInside_iff (fun found => LinksInside found _ _) hbehind, List.splitOn_append_cons_self_of_not_mem hno,
        LinksInside]
      exact ⟨.inr, fun h => h.resolve_left fun h => List.splitOn_ne_nil _ _ h.2⟩

theorem prvDecodeRegisterPayload_ok_iff (payload : List UInt8) :
    (∃ result, prvDecodeRegisterPayload true payload payload.length = .ok result) ↔
      LinksInside false 0 (payload.splitOn 44) :=
  decodeLoop_ok_iff _ [] payload _ (Nat.lt_succ_self _)

end Wakaama
