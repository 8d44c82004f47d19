import Wakaama.Data.Proofs.SenmlRecords
import Wakaama.Data.SenmlJson
import Wakaama.Misc.Outcome

/-!
# The two SenML tree builders

`prv_convertRecord` of `senml_json.c` and the one of `senml_common.c` lead a record along the same
path. They part at a record without a value: one of them keeps the type of the node, the other
takes it away, and no search finds the node again.
-/

namespace Wakaama

/-! ## Runs of a builder -/

/-- What a builder makes of the node of a record: it takes the type and the value of the record,
but may keep the type where the record has no value. -/
structure Landing (land : SenmlRecord → Lwm2mData → Lwm2mData) : Prop where
  lands : ∀ {record : SenmlRecord}, record.Parsed → Lands (land record)
  value : ∀ {record : SenmlRecord}, record.hasValue →
    ∀ data, (land record data).type = record.value.type
  empty : ∀ {record : SenmlRecord}, ¬ record.hasValue → ∀ data,
    (land record data).type = data.type ∨ (land record data).type = .undefined

def builtBy (land : SenmlRecord → Lwm2mData → Lwm2mData) (tree : List Lwm2mData)
    (records : List SenmlRecord) : Conversion (List Lwm2mData) :=
  records.foldlM (fun tree record => reach (land record) 0 record.key tree) tree

section Runs

variable {land : SenmlRecord → Lwm2mData → Lwm2mData} {records : List SenmlRecord}
  {tree : List Lwm2mData}

theorem builtBy_append (earlier later : List SenmlRecord) (tree : List Lwm2mData) :
    builtBy land tree (earlier ++ later) =
      builtBy land tree earlier >>= fun tree => builtBy land tree later := by
  unfold builtBy
  rw [List.foldlM_append]

variable {start : List Lwm2mData} {record : SenmlRecord} {q : List UInt16}

theorem builtBy_last {earlier : List SenmlRecord} :
    builtBy land start (earlier ++ [record]) = .ok tree ↔
      ∃ before, builtBy land start earlier = .ok before ∧
        reach (land record) 0 record.key before = .ok tree := by
  have hone : ∀ before, builtBy land before [record] = reach (land record) 0 record.key before := by
    intro before
    simp [builtBy]
  rw [builtBy_append, bind_eq_ok]
  simp only [hone]

theorem builtBy_cons {later : List SenmlRecord} :
    builtBy land start (record :: later) = .ok tree ↔
      ∃ after, reach (land record) 0 record.key start = .ok after ∧
        builtBy land after later = .ok tree := by
  unfold builtBy
  rw [List.foldlM_cons, bind_eq_ok]

theorem round_of_reach (hland : Landing land) (hparsed : record.Parsed) {tree' : List Lwm2mData}
    (hunique : FoundUnique 3 tree) (h : reach (land record) 0 record.key tree = .ok tree') :
    Round (land record) 0 record.key tree tree' := by
  have hlength := SenmlRecord.key_length_le record
  exact reach_round (hland.lands hparsed) (SenmlRecord.key_ne_nil record) (by omega) hunique h

theorem builtBy_unique (hland : Landing land) (hparsed : ∀ r ∈ records, r.Parsed)
    (hstart : FoundUnique 3 start) (h : builtBy land start records = .ok tree) :
    FoundUnique 3 tree := by
  induction records generalizing start with
  | nil =>
    obtain rfl : start = tree := Except.ok.inj h
    exact hstart
  | cons record later ih =>
    obtain ⟨after, hreach, h⟩ := builtBy_cons.1 h
    have hrecord := hparsed record List.mem_cons_self
    have hround := round_of_reach hland hrecord hstart hreach
    exact ih (fun r hr => hparsed r (List.mem_cons_of_mem _ hr))
      (hround.unique (hland.lands hrecord) hstart) h

/-- One of the records is of a kind, and none behind it ends above a path. -/
def Standing (kind : SenmlRecord → Prop) (records : List SenmlRecord) (q : List UInt16) : Prop :=
  ∃ earlier record later, records = earlier ++ record :: later ∧ kind record ∧
    ∀ r ∈ later, ¬ Above r.key q

theorem standing_append {kind : SenmlRecord → Prop} :
    Standing kind (records ++ [record]) q ↔
      kind record ∨ Standing kind records q ∧ ¬ Above record.key q := by
  constructor
  · rintro ⟨earlier, r, later, hsplit, hkind, hlater⟩
    rcases List.eq_nil_or_concat' later with rfl | ⟨later', r', rfl⟩
    · obtain ⟨-, heq⟩ := List.append_inj' hsplit rfl
      obtain rfl := List.head_eq_of_cons_eq heq
      exact .inl hkind
    · rw [← List.cons_append, ← List.append_assoc] at hsplit
      obtain ⟨rfl, heq⟩ := List.append_inj' hsplit rfl
      obtain rfl := List.head_eq_of_cons_eq heq
      exact .inr ⟨⟨earlier, r, later', rfl, hkind, fun m hm => hlater m (by simp [hm])⟩,
        hlater record (by simp)⟩
  · rintro (hkind | ⟨⟨earlier, r, later, rfl, hkind, hlater⟩, habove⟩)
    · exact ⟨records, record, [], rfl, hkind, by simp⟩
    · refine ⟨earlier, r, later ++ [record], by simp, hkind, fun m hm => ?_⟩
      rcases List.mem_append.1 hm with hm | hm
      · exact hlater m hm
      · rw [List.mem_singleton.1 hm]
        exact habove

def ValueLast (records : List SenmlRecord) (q : List UInt16) : Prop :=
  Standing (fun record => record.key = q ∧ record.hasValue) records q

theorem value_found (hland : Landing land) (hparsed : ∀ r ∈ records, r.Parsed)
    (h : builtBy land [] records = .ok tree) (hlength : q.length ≤ 3) {data : Lwm2mData}
    (hfound : foundAt q tree = some data) (hvalue : data.type.hasChildren = false) :
    ValueLast records q := by
  induction records using List.reverseRecOn generalizing tree data with
  | nil =>
    obtain rfl : [] = tree := Except.ok.inj h
    rw [foundAt_nil] at hfound
    nomatch hfound
  | append_singleton earlier record ih =>
    obtain ⟨before, hbefore, hreach⟩ := builtBy_last.1 h
    have hrecord := hparsed record (by simp)
    have hearlier : ∀ r ∈ earlier, r.Parsed := fun r hr => hparsed r (List.mem_append_left _ hr)
    have hunique := builtBy_unique hland hearlier (foundUnique_nil 3) hbefore
    have hround := round_of_reach hland hrecord hunique hreach
    have hq : q ≠ [] := by
      rintro rfl
      nomatch hfound
    by_cases hkey : record.key = q
    · subst hkey
      obtain ⟨node, hends, hat, -⟩ := hround.at_path (hland.lands hrecord)
      rw [hat (by omega)] at hfound
      by_cases htype : (land record node).type = .undefined
      · rw [if_pos htype] at hfound
        nomatch hfound
      · rw [if_neg htype] at hfound
        obtain rfl := Option.some.inj hfound
        by_cases hhas : record.hasValue
        · exact standing_append.2 (.inl ⟨rfl, hhas⟩)
        · have hsame := (hland.empty hhas node).resolve_right htype
          rw [hsame] at hvalue htype
          rcases hends with ⟨-, hnode⟩ | ⟨-, id, rfl⟩
          · exact standing_append.2 (.inr ⟨ih hearlier hbefore hnode hvalue, fun habove => habove.2 rfl⟩)
          · rcases baseType_cases hq with ⟨-, -, hbase⟩ | ⟨-, hbase⟩
            · have hvalue' : (baseType 0 record.key).hasChildren = false := hvalue
              rw [hbase] at hvalue'
              nomatch hvalue'
            · exact absurd hbase htype
    · by_cases hbelow : record.key <+: q
      · rw [(hround.under (hland.lands hrecord) hbelow (fun h => hkey h.symm) (by omega)).1] at hfound
        nomatch hfound
      · by_cases habove : q <+: record.key
        · obtain ⟨node, hnode, htype⟩ := hround.above hq habove fun h => hkey h.symm
          rw [hfound] at hnode
          obtain rfl := Option.some.inj hnode
          rw [hvalue] at htype
          nomatch htype
        · rw [(hround.other (hland.lands hrecord) hbelow).1 habove] at hfound
          exact standing_append.2
            (.inr ⟨ih hearlier hbefore hfound hvalue, fun habove => hbelow habove.1⟩)

theorem record_found (hland : Landing land) (hparsed : ∀ r ∈ records, r.Parsed)
    (h : builtBy land [] records = .ok tree) (hlength : q.length ≤ 3)
    (hfound : foundAt q tree ≠ none) :
    ∃ record ∈ records, record.key = q ∧ (record.hasValue ∨ baseType 0 q ≠ .undefined) ∨
      Above q record.key := by
  induction records using List.reverseRecOn generalizing tree with
  | nil =>
    obtain rfl : [] = tree := Except.ok.inj h
    exact absurd (foundAt_nil q) hfound
  | append_singleton earlier record ih =>
    obtain ⟨before, hbefore, hreach⟩ := builtBy_last.1 h
    have hrecord := hparsed record (by simp)
    have hearlier : ∀ r ∈ earlier, r.Parsed := fun r hr => hparsed r (List.mem_append_left _ hr)
    have hunique := builtBy_unique hland hearlier (foundUnique_nil 3) hbefore
    have hround := round_of_reach hland hrecord hunique hreach
    have hold : foundAt q before ≠ none → ∃ r ∈ earlier ++ [record],
        r.key = q ∧ (r.hasValue ∨ baseType 0 q ≠ .undefined) ∨ Above q r.key := by
      intro hold
      obtain ⟨r, hr, hr'⟩ := ih hearlier hbefore hold
      exact ⟨r, List.mem_append_left _ hr, hr'⟩
    have hq : q ≠ [] := by
      rintro rfl
      exact hfound rfl
    by_cases hkey : record.key = q
    · subst hkey
      by_cases hhas : record.hasValue
      · exact ⟨record, by simp, .inl ⟨rfl, .inl hhas⟩⟩
      · obtain ⟨node, hends, hat, -⟩ := hround.at_path (hland.lands hrecord)
        rw [hat (by omega)] at hfound
        have htype : (land record node).type ≠ .undefined := by
          intro htype
          exact hfound (if_pos htype)
        have hsame := (hland.empty hhas node).resolve_right htype
        rcases hends with ⟨-, hnode⟩ | ⟨-, id, rfl⟩
        · exact hold (by rw [hnode]; simp)
        · refine ⟨record, by simp, .inl ⟨rfl, .inr ?_⟩⟩
          rw [hsame] at htype
          exact htype
    · by_cases hbelow : record.key <+: q
      · exact absurd
          (hround.under (hland.lands hrecord) hbelow (fun h => hkey h.symm) (by omega)).1 hfound
      · by_cases habove : q <+: record.key
        · exact ⟨record, by simp, .inr ⟨habove, fun h => hkey h.symm⟩⟩
        · rw [(hround.other (hland.lands hrecord) hbelow).1 habove] at hfound
          exact hold hfound

/-- No record is led through a node on which another record has put a value. -/
def NoneThroughValue (records : List SenmlRecord) : Prop :=
  ∀ earlier record later, records = earlier ++ record :: later →
    ∀ before r behind, earlier = before ++ r :: behind → r.hasValue → Above r.key record.key →
      ∃ r' ∈ behind, Above r'.key r.key

theorem noneThroughValue_append (h : NoneThroughValue (records ++ [record])) :
    NoneThroughValue records := by
  intro earlier r later hsplit
  exact h earlier r (later ++ [record]) (by simp [hsplit])

theorem NoneThroughValue.not_last (h : NoneThroughValue records) {earlier later : List SenmlRecord}
    (hsplit : records = earlier ++ record :: later) (habove : Above q record.key) :
    ¬ ValueLast earlier q := by
  rintro ⟨before, r, behind, hearlier, ⟨rfl, hvalue⟩, hbehind⟩
  obtain ⟨r', hr', habove'⟩ := h earlier record later hsplit before r behind hearlier hvalue habove
  exact hbehind r' hr' habove'

theorem builtBy_ok (hland : Landing land) (hparsed : ∀ r ∈ records, r.Parsed)
    (h : NoneThroughValue records) : ∃ tree, builtBy land [] records = .ok tree := by
  induction records using List.reverseRecOn with
  | nil => exact ⟨[], rfl⟩
  | append_singleton earlier record ih =>
    have hearlier : ∀ r ∈ earlier, r.Parsed := fun r hr => hparsed r (List.mem_append_left _ hr)
    obtain ⟨before, hbefore⟩ := ih hearlier (noneThroughValue_append h)
    have hunique := builtBy_unique hland hearlier (foundUnique_nil 3) hbefore
    have hlength := SenmlRecord.key_length_le record
    cases hreach : reach (land record) 0 record.key before with
    | ok tree => exact ⟨tree, builtBy_last.2 ⟨before, hbefore, hreach⟩⟩
    | error e =>
      obtain ⟨-, q, data, hq, hleads, hne, hfound, hvalue⟩ := reach_error (by omega) hunique
        (SenmlRecord.key_dropLast_ne_max record) hreach
      have habove : Above q record.key := ⟨hleads, hne⟩
      have := habove.length_lt
      exact absurd (value_found hland hearlier hbefore (by omega) hfound hvalue)
        (h.not_last rfl habove)

end Runs

/-! ## The builder of the SenML-CBOR parser -/

/-- What the builder of `senml_common.c` makes of the node of a record. -/
def landCbor (record : SenmlRecord) : Lwm2mData → Lwm2mData := landOn record.info

/-- What the builder of `senml_json.c` makes of it. -/
def landJson (record : SenmlRecord) (data : Lwm2mData) : Lwm2mData :=
  .node record.value.type data.id record.value.value

theorem landing_cbor : Landing landCbor where
  lands hparsed := ⟨fun _ => rfl, landOn_children hparsed.noChildren⟩
  value hvalue _ := if_neg hvalue
  empty hvalue _ := .inl (if_pos (not_not.1 hvalue))

theorem landing_json : Landing landJson where
  lands hparsed := by
    refine ⟨fun _ => rfl, fun data => ?_⟩
    unfold landJson Lwm2mData.children Lwm2mData.value
    split
    · rename_i array heq
      exact absurd heq (hparsed.noChildren array)
    · rfl
  value _ _ := rfl
  empty hvalue _ := .inr (not_not.1 hvalue)

theorem buildTree_eq_builtBy {records : List SenmlRecord} (hparsed : ∀ r ∈ records, r.Parsed) :
    buildTree records = builtBy landCbor [] records := by
  unfold buildTree builtBy
  generalize ([] : List Lwm2mData) = tree
  induction records generalizing tree with
  | nil => rfl
  | cons record later ih =>
    have hlater := ih fun r hr => hparsed r (List.mem_cons_of_mem _ hr)
    rw [List.foldlM_cons, List.foldlM_cons,
      convertRecord_eq_place (hparsed record List.mem_cons_self), place_eq_reach]
    simp only [hlater]
    rfl

section Cbor

variable {records : List SenmlRecord} {tree : List Lwm2mData}

/-- With the builder of `senml_common.c` what is found at a path goes only with a node above it. -/
theorem standing_found (hparsed : ∀ r ∈ records, r.Parsed)
    (h : builtBy landCbor [] records = .ok tree) {q : List UInt16} (hq : q ≠ [])
    (hlength : q.length ≤ 3)
    (hstanding : Standing (fun r => r.key = q ∧ r.hasValue ∨ Above q r.key) records q) :
    ∃ data, foundAt q tree = some data := by
  induction records using List.reverseRecOn generalizing tree with
  | nil =>
    obtain ⟨earlier, r, later, hsplit, -⟩ := hstanding
    simp at hsplit
  | append_singleton earlier record ih =>
    obtain ⟨before, hbefore, hreach⟩ := builtBy_last.1 h
    have hrecord := hparsed record (by simp)
    have hearlier : ∀ r ∈ earlier, r.Parsed := fun r hr => hparsed r (List.mem_append_left _ hr)
    have hunique := builtBy_unique landing_cbor hearlier (foundUnique_nil 3) hbefore
    have hround := round_of_reach landing_cbor hrecord hunique hreach
    have hlands := landing_cbor.lands hrecord
    by_cases hkey : record.key = q
    · subst hkey
      obtain ⟨node, hends, hat, -⟩ := hround.at_path hlands
      have htype : (landCbor record node).type ≠ .undefined := by
        by_cases hhas : record.hasValue
        · rw [landing_cbor.value hhas]
          exact hhas
        · have hsame : (landCbor record node).type = node.type := if_pos (not_not.1 hhas)
          rw [hsame]
          rcases standing_append.1 hstanding with (⟨-, hvalue⟩ | habove) | ⟨hold, -⟩
          · exact absurd hvalue hhas
          · exact absurd rfl habove.2
          · obtain ⟨data, hdata⟩ := ih hearlier hbefore hold
            rcases hends with ⟨-, hnode⟩ | ⟨hnone, -⟩
            · exact foundAt_typed hnode
            · rw [hnone (by omega)] at hdata
              nomatch hdata
      exact ⟨landCbor record node, by rw [hat (by omega), if_neg htype]⟩
    · by_cases hbelow : record.key <+: q
      · rcases standing_append.1 hstanding with (⟨hsame, -⟩ | habove) | ⟨-, habove⟩
        · exact absurd hsame hkey
        · exact absurd (habove.1.eq_of_length_le hbelow.length_le) habove.2
        · exact absurd ⟨hbelow, hkey⟩ habove
      · by_cases habove : q <+: record.key
        · obtain ⟨node, hnode, -⟩ := hround.above hq habove fun h => hkey h.symm
          exact ⟨node, hnode⟩
        · rw [(hround.other hlands hbelow).1 habove]
          rcases standing_append.1 hstanding with (⟨hsame, -⟩ | habove') | ⟨hold, -⟩
          · exact absurd hsame hkey
          · exact absurd habove'.1 habove
          · exact ih hearlier hbefore hold

theorem valueLast_found (hparsed : ∀ r ∈ records, r.Parsed)
    (h : builtBy landCbor [] records = .ok tree) {q : List UInt16} (hlength : q.length ≤ 3)
    (hlast : ValueLast records q) :
    ∃ data, foundAt q tree = some data ∧ data.type.hasChildren = false := by
  induction records using List.reverseRecOn generalizing tree with
  | nil =>
    obtain ⟨earlier, r, later, hsplit, -⟩ := hlast
    simp at hsplit
  | append_singleton earlier record ih =>
    obtain ⟨before, hbefore, hreach⟩ := builtBy_last.1 h
    have hrecord := hparsed record (by simp)
    have hearlier : ∀ r ∈ earlier, r.Parsed := fun r hr => hparsed r (List.mem_append_left _ hr)
    have hunique := builtBy_unique landing_cbor hearlier (foundUnique_nil 3) hbefore
    have hround := round_of_reach landing_cbor hrecord hunique hreach
    have hlands := landing_cbor.lands hrecord
    have hkeyLength := SenmlRecord.key_length_le record
    rcases standing_append.1 hlast with ⟨rfl, hvalue⟩ | ⟨hold, habove⟩
    · obtain ⟨node, -, hat, -⟩ := hround.at_path hlands
      have htype := landing_cbor.value hvalue node
      have htyped : (landCbor record node).type ≠ .undefined := by
        rw [htype]
        exact hvalue
      refine ⟨landCbor record node, by rw [hat (by omega), if_neg htyped], ?_⟩
      rw [htype]
      exact hrecord.notChildren
    · obtain ⟨data, hdata, hscalar⟩ := ih hearlier hbefore hold
      have hq : q ≠ [] := by
        rintro rfl
        nomatch hdata
      by_cases hkey : record.key = q
      · subst hkey
        obtain ⟨node, hends, hat, -⟩ := hround.at_path hlands
        obtain rfl : node = data := by
          rcases hends with ⟨-, hnode⟩ | ⟨hnone, -⟩
          · exact Option.some.inj (hnode.symm.trans hdata)
          · rw [hnone (by omega)] at hdata
            nomatch hdata
        have hlanded : (landCbor record node).type ≠ .undefined ∧
            (landCbor record node).type.hasChildren = false := by
          by_cases hhas : record.hasValue
          · rw [landing_cbor.value hhas]
            exact ⟨hhas, hrecord.notChildren⟩
          · have hsame : (landCbor record node).type = node.type := if_pos (not_not.1 hhas)
            rw [hsame]
            exact ⟨foundAt_typed hdata, hscalar⟩
        exact ⟨landCbor record node, by rw [hat (by omega), if_neg hlanded.1], hlanded.2⟩
      · by_cases hbelow : record.key <+: q
        · exact absurd ⟨hbelow, hkey⟩ habove
        · by_cases hway : q <+: record.key
          · have hblocked : reach (landCbor record) 0 record.key before = .error (some .wrongArm) :=
              reach_blocked hq hway (fun h => hkey h.symm) (by omega) hunique hdata hscalar
            rw [hblocked] at hreach
            nomatch hreach
          · exact ⟨data, by rw [(hround.other hlands hbelow).1 hway, hdata], hscalar⟩

/-- The builder of `senml_common.c` gives a tree only where no record is led through a value. -/
theorem noneThroughValue_of_built (hparsed : ∀ r ∈ records, r.Parsed)
    (h : builtBy landCbor [] records = .ok tree) : NoneThroughValue records := by
  intro earlier record later hsplit before r behind hearlier hvalue habove
  by_contra hnone
  subst hsplit
  rw [builtBy_append, bind_eq_ok] at h
  obtain ⟨middle, hmiddle, h⟩ := h
  obtain ⟨after, hreach, -⟩ := builtBy_cons.1 h
  have hparsed' : ∀ r ∈ earlier, r.Parsed := fun r hr => hparsed r (List.mem_append_left _ hr)
  have hkeyLength := SenmlRecord.key_length_le record
  have := habove.length_lt
  have hlast : ValueLast earlier r.key :=
    ⟨before, r, behind, hearlier, ⟨rfl, hvalue⟩, fun r' hr' ha => hnone ⟨r', hr', ha⟩⟩
  obtain ⟨data, hdata, hscalar⟩ := valueLast_found hparsed' hmiddle (by omega) hlast
  have hunique := builtBy_unique landing_cbor hparsed' (foundUnique_nil 3) hmiddle
  have hblocked : reach (landCbor record) 0 record.key middle = .error (some .wrongArm) :=
    reach_blocked (SenmlRecord.key_ne_nil r) habove.1 habove.2 (by omega) hunique hdata hscalar
  rw [hblocked] at hreach
  nomatch hreach

end Cbor

/-! ## The builder of the SenML-JSON parser -/

/-- Records of the SenML-JSON and of the SenML-CBOR parser with the same ids and, once the string
is unescaped, the same value, which is not an opaque. -/
structure SameRecord (json cbor : SenmlRecord) : Prop where
  ids : json.ids = cbor.ids
  parsed : cbor.Parsed
  notOpaque : cbor.value.type ≠ .opaqueBytes
  type : json.value.type = cbor.value.type
  string : cbor.value.type = .string →
    if json.value.asBuffer = [] then cbor.value.asBuffer = []
    else jsonUnescapeString json.value.asBuffer = some cbor.value.asBuffer
  value : cbor.value.type ≠ .string → json.value.value = cbor.value.value

theorem senmlJsonConvertValue_eq {json cbor : SenmlRecord} (h : SameRecord json cbor)
    (target : Lwm2mData) : senmlJsonConvertValue json target = some (landJson cbor target) := by
  have hnot := h.parsed.notChildren
  have hvalue := h.parsed.value
  have hstring := h.string
  have hother := h.value
  unfold senmlJsonConvertValue landJson
  rw [h.type]
  cases htype : cbor.value.type with
  | string =>
    rw [htype] at hvalue hstring
    replace hstring := hstring rfl
    cases hbuffer : cbor.value.value with
    | asBuffer buffer =>
      have hsame : cbor.value.asBuffer = buffer := by rw [Lwm2mData.asBuffer, hbuffer]
      rw [hsame] at hstring
      by_cases hempty : json.value.asBuffer = []
      · rw [if_pos hempty] at hstring ⊢
        rw [hstring]
      · rw [if_neg hempty] at hstring ⊢
        rw [hstring]
        rfl
    | _ => simp [hbuffer, ParsedValue] at hvalue
  | opaqueBytes => exact absurd htype h.notOpaque
  | object => simp [htype, DataType.hasChildren] at hnot
  | objectInstance => simp [htype, DataType.hasChildren] at hnot
  | multipleResource => simp [htype, DataType.hasChildren] at hnot
  | coreLink =>
    rw [htype] at hvalue
    cases hcore : cbor.value.value <;> simp [ParsedValue] at hvalue
  | _ =>
    rw [htype] at hother
    rw [hother (by simp)]

theorem senmlJsonRound_eq_reach {json cbor : SenmlRecord} (h : SameRecord json cbor)
    (root : List Lwm2mData) :
    senmlJsonRound root json = reach (landJson cbor) 0 cbor.key root := by
  unfold senmlJsonRound
  rw [h.ids]
  apply walk_eq_reach h.parsed
  · intro target
    rw [senmlJsonConvertValue_eq h]
    rfl
  · exact fun _ => rfl
  · exact fun _ => rfl

theorem jsonRounds_eq_builtBy {json cbor : List SenmlRecord} (h : List.Forall₂ SameRecord json cbor) :
    json.foldlM senmlJsonRound [] = builtBy landJson [] cbor := by
  unfold builtBy
  generalize ([] : List Lwm2mData) = tree
  induction h generalizing tree with
  | nil => rfl
  | cons hrecord _ ih =>
    rw [List.foldlM_cons, List.foldlM_cons, senmlJsonRound_eq_reach hrecord]
    simp only [ih]

/-! ## Nodes without a type -/

section Ghosts

variable {records : List SenmlRecord} {cborTree jsonTree : List Lwm2mData}

def ghostsAdded (record : SenmlRecord) (q : List UInt16) (landed : Lwm2mData) : Nat :=
  if record.key = q ∧ landed.type = .undefined then 1 else 0

variable {tree : List Lwm2mData} {record : SenmlRecord} {q : List UInt16}

/-- A round adds a node without a type only at its own path, and takes nodes away only with one
above them. -/
theorem ghostsAt_round {land : SenmlRecord → Lwm2mData → Lwm2mData} (hland : Landing land)
    (hparsed : record.Parsed) {tree' : List Lwm2mData}
    (hround : Round (land record) 0 record.key tree tree') (hlength : q.length ≤ 4) :
    ∃ data, EndsAt 0 record.key tree data ∧
      ghostsAt q tree' = if Above record.key q then 0
        else ghostsAt q tree + ghostsAdded record q (land record data) := by
  obtain ⟨data, hends, -, hghosts⟩ := hround.at_path (hland.lands hparsed)
  refine ⟨data, hends, ?_⟩
  by_cases hkey : record.key = q
  · subst hkey
    rw [if_neg fun h => h.2 rfl, hghosts]
    simp [ghostsAdded]
  · have hnone : ghostsAdded record q (land record data) = 0 := if_neg fun h => hkey h.1
    rw [hnone]
    by_cases hbelow : record.key <+: q
    · rw [if_pos ⟨hbelow, hkey⟩]
      exact (hround.under (hland.lands hparsed) hbelow (fun h => hkey h.symm) (by omega)).2
    · rw [if_neg fun h => hbelow h.1]
      exact (hround.other (hland.lands hparsed) hbelow).2

theorem ghostsAdded_le (record : SenmlRecord) (q : List UInt16) (data data' : Lwm2mData) :
    ghostsAdded record q (landCbor record data) ≤ ghostsAdded record q (landJson record data') := by
  by_cases hadded : record.key = q ∧ (landCbor record data).type = .undefined
  · have hvalue : record.value.type = .undefined := by
      by_contra hvalue
      exact hvalue ((landing_cbor.value hvalue data).symm.trans hadded.2)
    have hjson : record.key = q ∧ (landJson record data').type = .undefined := ⟨hadded.1, hvalue⟩
    simp only [ghostsAdded, if_pos hadded, if_pos hjson]
    exact Nat.le_refl 1
  · simp only [ghostsAdded, if_neg hadded]
    exact Nat.zero_le _

/-- The builder of `senml_json.c` leaves at least as many nodes without a type as the other one;
where it is ahead it stays so, unless a record ends above the path. -/
theorem ghosts_gap {later : List SenmlRecord} (hparsed : ∀ r ∈ later, r.Parsed)
    (hlength : q.length ≤ 4) {gap : Nat} (hgap : gap = 0 ∨ ∀ r ∈ later, ¬ Above r.key q)
    {cbor cbor' json json' : List Lwm2mData} (hcbor : builtBy landCbor cbor later = .ok cbor')
    (hjson : builtBy landJson json later = .ok json') (huniqueCbor : FoundUnique 3 cbor)
    (huniqueJson : FoundUnique 3 json) (h : ghostsAt q cbor + gap ≤ ghostsAt q json) :
    ghostsAt q cbor' + gap ≤ ghostsAt q json' := by
  induction later generalizing cbor json with
  | nil =>
    obtain rfl : cbor = cbor' := Except.ok.inj hcbor
    obtain rfl : json = json' := Except.ok.inj hjson
    exact h
  | cons record later ih =>
    obtain ⟨cbor₁, hreachCbor, hcbor⟩ := builtBy_cons.1 hcbor
    obtain ⟨json₁, hreachJson, hjson⟩ := builtBy_cons.1 hjson
    have hrecord := hparsed record List.mem_cons_self
    have hroundCbor := round_of_reach landing_cbor hrecord huniqueCbor hreachCbor
    have hroundJson := round_of_reach landing_json hrecord huniqueJson hreachJson
    apply ih (fun r hr => hparsed r (List.mem_cons_of_mem _ hr))
      (hgap.imp_right fun hgap r hr => hgap r (List.mem_cons_of_mem _ hr)) hcbor hjson
      (hroundCbor.unique (landing_cbor.lands hrecord) huniqueCbor)
      (hroundJson.unique (landing_json.lands hrecord) huniqueJson)
    obtain ⟨data, -, hghostsCbor⟩ := ghostsAt_round landing_cbor hrecord hroundCbor hlength
    obtain ⟨data', -, hghostsJson⟩ := ghostsAt_round landing_json hrecord hroundJson hlength
    rw [hghostsCbor, hghostsJson]
    by_cases habove : Above record.key q
    · rcases hgap with rfl | hgap
      · simp only [if_pos habove]
        exact Nat.le_refl 0
      · exact absurd habove (hgap record List.mem_cons_self)
    · have hadded := ghostsAdded_le record q data data'
      simp only [if_neg habove]
      omega

/-- A record without a value at a node that has a type: the builders part, and no record behind it
brings them together again unless it ends above the node. -/
theorem builders_part {earlier later : List SenmlRecord}
    (hparsed : ∀ r ∈ earlier ++ record :: later, r.Parsed) (hvalue : ¬ record.hasValue)
    (hlater : ∀ r ∈ later, ¬ Above r.key record.key)
    (hcbor : builtBy landCbor [] (earlier ++ record :: later) = .ok tree)
    (hjson : builtBy landJson [] (earlier ++ record :: later) = .ok tree)
    (htyped : ∀ before, builtBy landCbor [] earlier = .ok before → ∀ data, EndsAt 0 record.key before data → data.type ≠ .undefined) :
    False := by
  have hearlier : ∀ r ∈ earlier, r.Parsed := fun r hr => hparsed r (by simp [hr])
  have hrecord : record.Parsed := hparsed record (by simp)
  have hkeyLength := SenmlRecord.key_length_le record
  rw [builtBy_append, bind_eq_ok] at hcbor hjson
  obtain ⟨cbor, hcborEarlier, hcbor⟩ := hcbor
  obtain ⟨json, hjsonEarlier, hjson⟩ := hjson
  obtain ⟨cbor₁, hreachCbor, hcbor⟩ := builtBy_cons.1 hcbor
  obtain ⟨json₁, hreachJson, hjson⟩ := builtBy_cons.1 hjson
  have huniqueCbor := builtBy_unique landing_cbor hearlier (foundUnique_nil 3) hcborEarlier
  have huniqueJson := builtBy_unique landing_json hearlier (foundUnique_nil 3) hjsonEarlier
  have hroundCbor := round_of_reach landing_cbor hrecord huniqueCbor hreachCbor
  have hroundJson := round_of_reach landing_json hrecord huniqueJson hreachJson
  obtain ⟨data, hends, hghostsCbor⟩ := ghostsAt_round landing_cbor hrecord hroundCbor hkeyLength
  obtain ⟨data', -, hghostsJson⟩ := ghostsAt_round landing_json hrecord hroundJson hkeyLength
  have hbefore : ghostsAt record.key cbor + 0 ≤ ghostsAt record.key json :=
    ghosts_gap hearlier hkeyLength (.inl rfl) hcborEarlier hjsonEarlier (foundUnique_nil 3)
      (foundUnique_nil 3) (Nat.le_refl _)
  have hself : ¬ Above record.key record.key := fun h => h.2 rfl
  have hcborAdded : ghostsAdded record record.key (landCbor record data) = 0 := by
    apply if_neg
    rintro ⟨-, htype⟩
    have hsame : (landCbor record data).type = data.type := if_pos (not_not.1 hvalue)
    exact htyped cbor hcborEarlier data hends (hsame.symm.trans htype)
  have hjsonAdded : ghostsAdded record record.key (landJson record data') = 1 :=
    if_pos ⟨rfl, not_not.1 hvalue⟩
  rw [if_neg hself, hcborAdded] at hghostsCbor
  rw [if_neg hself, hjsonAdded] at hghostsJson
  have hafter := ghosts_gap (fun r hr => hparsed r (by simp [hr])) hkeyLength (.inr hlater) hcbor
    hjson (hroundCbor.unique (landing_cbor.lands hrecord) huniqueCbor)
    (hroundJson.unique (landing_json.lands hrecord) huniqueJson)
    (show ghostsAt record.key cbor₁ + 1 ≤ ghostsAt record.key json₁ by omega)
  omega

/-- A record that does not stand out among the records before it: it ends at a new node that has
no type yet. -/
def Unnoticed (earlier : List SenmlRecord) (record : SenmlRecord) : Prop :=
  record.path.length = 4 ∨
    (record.path.length = 3 ∨ record.path = []) ∧
      ∀ r ∈ earlier, ¬ (r.key = record.key ∧ r.hasValue) ∧ ¬ Above record.key r.key

/-- Every record without a value goes unnoticed, or a record behind it ends above it. -/
def ValuelessUnnoticed (records : List SenmlRecord) : Prop :=
  ∀ earlier record later, records = earlier ++ record :: later → ¬ record.hasValue →
    (∃ r ∈ later, Above r.key record.key) ∨ Unnoticed earlier record

theorem key_short (h : ¬ (record.path.length = 3 ∨ record.path = []))
    (h4 : record.path.length ≠ 4) : baseType 0 record.key ≠ .undefined := by
  rcases baseType_cases (SenmlRecord.key_ne_nil record) with ⟨-, -, hbase⟩ | ⟨hshort, -⟩
  · exact hasChildren_typed hbase
  · refine absurd ⟨?_, ?_⟩ hshort
    · have hlength := record.path_length_le
      by_cases hnil : record.path = []
      · exact absurd (.inr hnil) h
      · rw [SenmlRecord.key_of_path_ne_nil hnil]
        omega
    · intro hkey
      by_cases hnil : record.path = []
      · exact h (.inr hnil)
      · rw [SenmlRecord.key_of_path_ne_nil hnil] at hkey
        have hmem : lwm2mMaxId ∈ record.path := by rw [hkey]; simp
        exact SenmlRecord.path_ne_max hmem rfl

theorem key_length_of_ne (h : record.path.length ≠ 4) : record.key.length ≤ 3 := by
  have hlength := record.path_length_le
  by_cases hnil : record.path = []
  · simp [SenmlRecord.key_of_path_eq_nil hnil]
  · rw [SenmlRecord.key_of_path_ne_nil hnil]
    omega

theorem baseType_above (hlength : record.path.length ≠ 4) (hq : q ≠ []) (h : Above q record.key) :
    baseType 0 q ≠ .undefined := by
  rcases baseType_cases hq with ⟨-, -, hbase⟩ | ⟨hshort, -⟩
  · exact hasChildren_typed hbase
  · refine absurd ⟨?_, ?_⟩ hshort
    · have := h.length_lt
      have := key_length_of_ne hlength
      omega
    · rintro rfl
      obtain ⟨⟨rest, hrest⟩, hne⟩ := h
      have hnil : rest ≠ [] := by
        rintro rfl
        exact hne (by rw [← hrest, List.append_nil])
      refine SenmlRecord.key_dropLast_ne_max record lwm2mMaxId ?_ rfl
      rw [← hrest, List.dropLast_append_of_ne_nil hnil]
      simp

/-- Where both builders give the same tree, no record without a value stands out. -/
theorem valuelessUnnoticed_of_same (hparsed : ∀ r ∈ records, r.Parsed)
    (hcbor : builtBy landCbor [] records = .ok tree)
    (hjson : builtBy landJson [] records = .ok tree) : ValuelessUnnoticed records := by
  have hnone := noneThroughValue_of_built hparsed hcbor
  intro earlier record later hsplit hvalue
  subst hsplit
  by_contra hnot
  rw [not_or] at hnot
  obtain ⟨hlater, hnoticed⟩ := hnot
  have hlater' : ∀ r ∈ later, ¬ Above r.key record.key := fun r hr h => hlater ⟨r, hr, h⟩
  have hlength : record.path.length ≠ 4 := fun h => hnoticed (.inl h)
  by_cases habove : ∃ r ∈ earlier, Above r.key record.key
  · -- the last record that ends above it: a value blocks the path, and without one the builders
    -- part there already
    obtain ⟨before, r, behind, rfl, hr, hbehind⟩ := exists_last habove
    by_cases hhas : r.hasValue
    · obtain ⟨r', hr', habove'⟩ := hnone _ record later rfl before r behind rfl hhas hr
      exact hbehind r' hr' (habove'.trans hr)
    · have hsplit : before ++ r :: behind ++ record :: later =
          before ++ r :: (behind ++ record :: later) := by simp
      rw [hsplit] at hparsed hcbor hjson
      have hkeyLength := SenmlRecord.key_length_le record
      have hlt := hr.length_lt
      refine builders_part hparsed hhas (fun r' hr' habove' => ?_) hcbor hjson
        fun tree hbefore data hends => ?_
      · rcases List.mem_append.1 hr' with hr' | hr'
        · exact hbehind r' hr' (habove'.trans hr)
        · rcases List.mem_cons.1 hr' with rfl | hr'
          · have := habove'.length_lt
            omega
          · exact hlater' r' hr' (habove'.trans hr)
      · rcases hends with ⟨-, hfound⟩ | ⟨-, id, rfl⟩
        · exact foundAt_typed hfound
        · exact baseType_above hlength (SenmlRecord.key_ne_nil r) hr
  · refine builders_part hparsed hvalue hlater' hcbor hjson fun before hbefore data hends => ?_
    rcases hends with ⟨-, hfound⟩ | ⟨hfresh, id, rfl⟩
    · exact foundAt_typed hfound
    · by_cases hdeep : record.path.length = 3 ∨ record.path = []
      · have hstanding : Standing (fun r => r.key = record.key ∧ r.hasValue ∨
            Above record.key r.key) earlier record.key := by
          by_contra hstands
          refine hnoticed (.inr ⟨hdeep, fun r hr => ?_⟩)
          have hkind : ¬ (r.key = record.key ∧ r.hasValue ∨ Above record.key r.key) := by
            intro hkind
            obtain ⟨front, behind, rfl⟩ := List.append_of_mem hr
            exact hstands ⟨front, r, behind, rfl, hkind,
              fun r' hr' ha => habove ⟨r', by simp [hr'], ha⟩⟩
          rwa [not_or] at hkind
        have hkeyLength := key_length_of_ne hlength
        obtain ⟨node, hnode⟩ := standing_found (fun r hr => hparsed r (by simp [hr])) hbefore
          (SenmlRecord.key_ne_nil record) hkeyLength hstanding
        rw [hfresh (by omega)] at hnode
        nomatch hnode
      · exact key_short hdeep hlength

end Ghosts

end Wakaama
