import Wakaama.Data.Proofs.JsonTree

/-!
# When the tree that `json.c` builds is sound

The node of a resource holds the value of the last record at its path, or the instances that were
put below it; the node of a resource instance that of the first. From that follows which records
make the builder read a value as children, drop what a node holds, or lose a value.
-/

namespace Wakaama

section Runs

variable {textToFloat : List UInt8 → Option UInt64} {rootLevel : UriDepth}
  {records : List JsonRecord} {root : List Lwm2mData}

variable {q : List UInt16} {e : Option Fault} {record : JsonRecord} {data : Lwm2mData}
  {earlier later : List JsonRecord}

/-- The node of a resource with records holds the value of the last one, and one without has
children. -/
theorem resource_found (hlevel : rootLevel ≠ .none)
    (haccepted : ∀ r ∈ records, Accepted textToFloat rootLevel r)
    (h : jsonRun textToFloat rootLevel records = .ok root)
    (hlength : rootDepth rootLevel + q.length = 3) :
    (∀ r, LastAt rootLevel records q r →
      ∃ data, foundAt q root = some data ∧ Holds textToFloat data r) ∧
    ((∀ r ∈ records, jsonPath rootLevel r ≠ q) → ∀ data, foundAt q root = some data →
      data.type.hasChildren = true ∧ ∃ r ∈ records, Above q (jsonPath rootLevel r)) := by
  induction records using List.reverseRecOn generalizing root with
  | nil =>
    obtain rfl : [] = root := Except.ok.inj h
    refine ⟨fun r hlast => ?_, fun _ data hfound => ?_⟩
    · obtain ⟨earlier, later, hsplit, -⟩ := hlast
      simp at hsplit
    · rw [foundAt_nil] at hfound
      cases hfound
  | append_singleton earlier record ih =>
    obtain ⟨before, hbefore, hround⟩ := jsonRun_last.1 h
    have hearlier := fun r hr => haccepted r (List.mem_append_left _ hr)
    have hunique := jsonRun_unique hlevel hearlier hbefore
    have hrecord := haccepted record (by simp)
    obtain ⟨ihLast, ihNone⟩ := ih hearlier hbefore
    obtain ⟨info, hinfo, hlands, hstep⟩ := round_of_accepted hlevel hrecord hunique hround
    have hpath := jsonPath_length hlevel record
    have hq : q ≠ [] := by
      rintro rfl
      cases rootLevel <;> simp [rootDepth] at hlength
    by_cases hkey : jsonPath rootLevel record = q
    · refine ⟨fun r hlast => ?_, fun hnone => absurd hkey (hnone record (by simp))⟩
      rcases lastAt_append hlast with ⟨-, rfl⟩ | ⟨hne, -⟩
      · obtain ⟨node, -, hat, -⟩ := hstep.at_path hlands
        rw [hkey] at hat
        refine ⟨landAs info node, ?_, hinfo⟩
        rw [hat (by omega), if_neg (show (landAs info node).type ≠ .undefined from
          (converted_leaf textToFloat hinfo).1)]
      · exact absurd hkey hne
    · have hbelow : ¬ jsonPath rootLevel record <+: q := fun hleads =>
        hkey (hleads.eq_of_length_le (by omega))
      by_cases habove : q <+: jsonPath rootLevel record
      · obtain ⟨node, hnode, hchildren⟩ := hstep.above hq habove fun heq => hkey heq.symm
        refine ⟨fun r hlast => ?_, fun _ data hfound => ?_⟩
        · rcases lastAt_append hlast with ⟨hsame, -⟩ | ⟨-, hold⟩
          · exact absurd hsame hkey
          · obtain ⟨data, hdata, hholds⟩ := ihLast r hold
            rw [jsonRound_converted hlevel hrecord.1 hinfo, reach_blocked hq habove
              (fun heq => hkey heq.symm) (by omega) hunique hdata
              (converted_leaf textToFloat hholds).2.1] at hround
            cases hround
        · rw [hfound] at hnode
          obtain rfl := Option.some.inj hnode
          exact ⟨hchildren, record, by simp, habove, fun heq => hkey heq.symm⟩
      · rw [(hstep.other hlands hbelow).1 habove]
        refine ⟨fun r hlast => ?_, fun hnone data hfound => ?_⟩
        · rcases lastAt_append hlast with ⟨hsame, -⟩ | ⟨-, hold⟩
          · exact absurd hsame hkey
          · exact ihLast r hold
        · obtain ⟨hchildren, r, hr, hr'⟩ :=
            ihNone (fun r hr => hnone r (List.mem_append_left _ hr)) data hfound
          exact ⟨hchildren, r, List.mem_append_left _ hr, hr'⟩

/-- The node of a resource instance holds the value of the first record at its path, if no record
ends at the resource. -/
theorem instance_found (hlevel : rootLevel ≠ .none)
    (haccepted : ∀ r ∈ records, Accepted textToFloat rootLevel r)
    (h : jsonRun textToFloat rootLevel records = .ok root)
    (hlength : rootDepth rootLevel + q.length = 4) :
    ((∀ r ∈ records, jsonPath rootLevel r ≠ q) → foundAt q root = none) ∧
    ((∀ r ∈ records, ¬ Above (jsonPath rootLevel r) q) → ∀ r, FirstAt rootLevel records q r →
      ∃ data, foundAt q root = some data ∧ Holds textToFloat data r) := by
  induction records using List.reverseRecOn generalizing root with
  | nil =>
    obtain rfl : [] = root := Except.ok.inj h
    refine ⟨fun _ => foundAt_nil q, fun _ r hfirst => ?_⟩
    obtain ⟨earlier, later, hsplit, -⟩ := hfirst
    simp at hsplit
  | append_singleton earlier record ih =>
    obtain ⟨before, hbefore, hround⟩ := jsonRun_last.1 h
    have hearlier := fun r hr => haccepted r (List.mem_append_left _ hr)
    obtain ⟨ihNone, ihFirst⟩ := ih hearlier hbefore
    obtain ⟨info, hinfo, hlands, hstep⟩ := round_of_accepted hlevel (haccepted record (by simp))
      (jsonRun_unique hlevel hearlier hbefore) hround
    have hpath := jsonPath_length hlevel record
    by_cases hkey : jsonPath rootLevel record = q
    · refine ⟨fun hnone => absurd hkey (hnone record (by simp)), fun habove r hfirst => ?_⟩
      have hold : ∀ r ∈ earlier, ¬ Above (jsonPath rootLevel r) q := fun r hr =>
        habove r (List.mem_append_left _ hr)
      obtain ⟨id, hat⟩ := hstep.at_instance hlands (by rw [hkey]; exact hlength)
      rw [hkey] at hat
      rcases firstAt_append hfirst with hfirst | ⟨-, rfl, hnone⟩
      · obtain ⟨data, hdata, hholds⟩ := ihFirst hold r hfirst
        exact ⟨data, by rw [hat, hdata]; rfl, hholds⟩
      · refine ⟨landAs info (.node .undefined id .zero), ?_, hinfo⟩
        rw [hat, ihNone hnone, if_neg (show (landAs info (.node .undefined id .zero)).type ≠ .undefined
          from (converted_leaf textToFloat hinfo).1)]
        rfl
    · by_cases hbelow : jsonPath rootLevel record <+: q
      · have hdropped := (hstep.under hlands hbelow (fun heq => hkey heq.symm) (by omega)).1
        exact ⟨fun _ => hdropped, fun habove => absurd ⟨hbelow, hkey⟩ (habove record (by simp))⟩
      · have haway : ¬ q <+: jsonPath rootLevel record := fun hleads =>
          hkey (hleads.eq_of_length_le (by omega)).symm
        rw [(hstep.other hlands hbelow).1 haway]
        refine ⟨fun hnone => ihNone fun r hr => hnone r (List.mem_append_left _ hr),
          fun habove r hfirst => ?_⟩
        rcases firstAt_append hfirst with hfirst | ⟨hsame, -, -⟩
        · exact ihFirst (fun r hr => habove r (List.mem_append_left _ hr)) r hfirst
        · exact absurd hsame hkey

theorem root_typed (hlevel : rootLevel ≠ .none)
    (haccepted : ∀ r ∈ records, Accepted textToFloat rootLevel r)
    (h : jsonRun textToFloat rootLevel records = .ok root) : ∀ data ∈ root, data.type ≠ .undefined := by
  induction records using List.reverseRecOn generalizing root with
  | nil =>
    obtain rfl : [] = root := Except.ok.inj h
    exact fun data hdata => absurd hdata List.not_mem_nil
  | append_singleton earlier record ih =>
    obtain ⟨before, hbefore, hround⟩ := jsonRun_last.1 h
    have hearlier := fun r hr => haccepted r (List.mem_append_left _ hr)
    obtain ⟨info, hinfo, hlands, hstep⟩ := round_of_accepted hlevel (haccepted record (by simp))
      (jsonRun_unique hlevel hearlier hbefore) hround
    intro data hdata
    have hdepth : rootDepth rootLevel ≠ 3 := by cases rootLevel <;> simp [rootDepth]
    generalize rootDepth rootLevel = depth at hstep hdepth
    generalize jsonPath rootLevel record = path at hstep
    cases hstep with
    | appended => exact absurd rfl hdepth
    | landed _ _ hex =>
      rcases hex.mem data hdata with rfl | hold
      · exact (converted_leaf textToFloat hinfo).1
      · exact ih hearlier hbefore data hold
    | passed _ _ _ hopens hex _ =>
      rcases hex.mem data hdata with rfl | hold
      · exact hasChildren_typed (passType_typed hopens)
      · exact ih hearlier hbefore data hold

theorem root_unique (hlevel : rootLevel ≠ .none)
    (haccepted : ∀ r ∈ records, Accepted textToFloat rootLevel r)
    (h : jsonRun textToFloat rootLevel records = .ok root) : (root.map Lwm2mData.id).Nodup := by
  have hunique := jsonRun_unique hlevel haccepted h
  have htyped := root_typed hlevel haccepted h
  obtain ⟨levels, hlevels⟩ : ∃ levels, 3 - rootDepth rootLevel = levels + 1 := by
    cases rootLevel with
    | none => exact ⟨2, rfl⟩
    | object => exact ⟨2, rfl⟩
    | objectInstance => exact ⟨1, rfl⟩
    | resource => exact ⟨0, rfl⟩
    | resourceInstance => exact ⟨0, rfl⟩
  rw [hlevels] at hunique
  have hall : (root.filter fun data => data.type != .undefined) = root := by
    apply List.filter_eq_self.2
    intro data hdata
    simpa using htyped data hdata
  have hfind := hunique.1
  unfold FindUnique at hfind
  rwa [hall] at hfind

/-! ## Where a round goes wrong -/

theorem reach_fails (hlevel : rootLevel ≠ .none)
    (haccepted : ∀ r ∈ records, Accepted textToFloat rootLevel r)
    (h : jsonRun textToFloat rootLevel records = .ok root)
    (hdepth : depthChecked rootLevel record = true) {land : Lwm2mData → Lwm2mData}
    (herror : reach land (rootDepth rootLevel) (jsonPath rootLevel record) root = .error e) :
    e = some .wrongArm ∧ ∃ r ∈ records, Above (jsonPath rootLevel r) (jsonPath rootLevel record) := by
  have hpath := jsonPath_length hlevel record
  obtain ⟨rfl, q, data, hq, hleads, hne, hfound, hvalue⟩ := reach_error (by omega)
    (jsonRun_unique hlevel haccepted h) (jsonPath_dropLast_ne_max hlevel hdepth) herror
  refine ⟨rfl, ?_⟩
  have habove : Above q (jsonPath rootLevel record) := ⟨hleads, hne⟩
  have hlt := habove.length_lt
  by_cases hshort : rootDepth rootLevel + q.length < 3
  · rw [above_found hlevel haccepted h hshort hfound] at hvalue
    nomatch hvalue
  · by_contra hnone
    have hends : ∀ r ∈ records, jsonPath rootLevel r ≠ q := by
      rintro r hr rfl
      exact hnone ⟨r, hr, habove⟩
    have hchildren := ((resource_found hlevel haccepted h (by omega)).2 hends data hfound).1
    rw [hchildren] at hvalue
    nomatch hvalue

theorem reach_goesWrong (hlevel : rootLevel ≠ .none)
    (haccepted : ∀ r ∈ records, Accepted textToFloat rootLevel r)
    (h : jsonRun textToFloat rootLevel records = .ok root) {r : JsonRecord} (hr : r ∈ records)
    (habove : Above (jsonPath rootLevel r) (jsonPath rootLevel record))
    (land : Lwm2mData → Lwm2mData) :
    reach land (rootDepth rootLevel) (jsonPath rootLevel record) root = .error (some .wrongArm) := by
  have hpath := jsonPath_length hlevel record
  have hpath' := jsonPath_length hlevel r
  have hlt := habove.length_lt
  obtain ⟨last, hlast⟩ := exists_lastAt ⟨r, hr, rfl⟩
  obtain ⟨data, hdata, hholds⟩ := (resource_found hlevel haccepted h (by omega)).1 last hlast
  exact reach_blocked (jsonPath_ne_nil rootLevel r) habove.1 habove.2 (by omega)
    (jsonRun_unique hlevel haccepted h) hdata (converted_leaf textToFloat hholds).2.1

/-! ## The tree -/

/-- A node that holds children or a string: memory that is lost when its value is written over. -/
def Lwm2mData.holdsMemory (data : Lwm2mData) : Bool :=
  match data.value with
  | .asChildren array => !array.isEmpty
  | .asBuffer buffer => !buffer.isEmpty
  | _ => false

/-- No value is written over children or a string. -/
def NothingDropped (textToFloat : List UInt8 → Option UInt64) (rootLevel : UriDepth)
    (records : List JsonRecord) : Prop :=
  ∀ earlier record later, records = earlier ++ record :: later →
    ∀ root, jsonRun textToFloat rootLevel earlier = .ok root →
      rootDepth rootLevel + (jsonPath rootLevel record).length = 3 →
        ∀ data, foundAt (jsonPath rootLevel record) root = some data → data.holdsMemory = false

/-- The last value of every path is found there. -/
def LastValuesPresent (textToFloat : List UInt8 → Option UInt64) (rootLevel : UriDepth)
    (records : List JsonRecord) (root : List Lwm2mData) : Prop :=
  ∀ earlier record later, records = earlier ++ record :: later →
    (∀ r ∈ later, jsonPath rootLevel r ≠ jsonPath rootLevel record) →
      ∃ data, foundAt (jsonPath rootLevel record) root = some data ∧ Holds textToFloat data record

/-- No record ends below a resource at which a record before it has ended. -/
def NoneThroughResource (textToFloat : List UInt8 → Option UInt64) (rootLevel : UriDepth)
    (records : List JsonRecord) : Prop :=
  ∀ earlier record later, records = earlier ++ record :: later →
    (∀ r ∈ earlier, Accepted textToFloat rootLevel r) → depthChecked rootLevel record = true →
      ∀ r ∈ earlier, ¬ Above (jsonPath rootLevel r) (jsonPath rootLevel record)

/-- What the records before a record have to be for nothing to be dropped and for its value to be
found: none ends at an instance of its resource, none has put a string at the same resource, and the
first one at the same resource instance has the same value as the last. -/
structure Apart (textToFloat : List UInt8 → Option UInt64) (rootLevel : UriDepth)
    (earlier : List JsonRecord) (record : JsonRecord) (later : List JsonRecord) : Prop where
  below : ∀ r ∈ earlier, ¬ Above (jsonPath rootLevel record) (jsonPath rootLevel r)
  string : rootDepth rootLevel + (jsonPath rootLevel record).length = 3 →
    ∀ r ∈ earlier, jsonPath rootLevel r = jsonPath rootLevel record →
      ¬ (r.type = .string ∧ r.value ≠ [])
  same : rootDepth rootLevel + (jsonPath rootLevel record).length = 4 →
    (∀ r ∈ later, jsonPath rootLevel r ≠ jsonPath rootLevel record) →
      ∀ r, FirstAt rootLevel earlier (jsonPath rootLevel record) r →
        r.converted textToFloat = record.converted textToFloat

/-- The condition on an array of records. -/
def AllApart (textToFloat : List UInt8 → Option UInt64) (rootLevel : UriDepth)
    (records : List JsonRecord) : Prop :=
  NoneThroughResource textToFloat rootLevel records ∧
    ((∀ r ∈ records, Accepted textToFloat rootLevel r) →
      ∀ earlier record later, records = earlier ++ record :: later →
        Apart textToFloat rootLevel earlier record later)

theorem holds_memory (h : Holds textToFloat data record) :
    data.holdsMemory = true ↔ record.type = .string ∧ record.value ≠ [] := by
  have hconverts := converted_converts textToFloat h
  unfold Lwm2mData.holdsMemory
  generalize data.type = type at hconverts
  generalize data.value = value at hconverts
  cases hconverts with
  | string htype hempty => simp [htype, hempty]
  | boolean htype => simp [htype]
  | integer htype => simp [htype]
  | unsignedInteger htype => simp [htype]
  | float htype => simp [htype]
  | objectLink htype => simp [htype]

theorem noneThroughResource_split (h : NoneThroughResource textToFloat rootLevel records)
    (hsplit : records = earlier ++ later) : NoneThroughResource textToFloat rootLevel earlier := by
  intro before record behind hbefore
  exact h before record (behind ++ later) (by simp [hsplit, hbefore])

theorem jsonRun_ok (hlevel : rootLevel ≠ .none)
    (haccepted : ∀ r ∈ records, Accepted textToFloat rootLevel r)
    (h : NoneThroughResource textToFloat rootLevel records) :
    ∃ root, jsonRun textToFloat rootLevel records = .ok root := by
  induction records using List.reverseRecOn with
  | nil => exact ⟨[], rfl⟩
  | append_singleton earlier record ih =>
    have hearlier := fun r hr => haccepted r (List.mem_append_left _ hr)
    obtain ⟨before, hbefore⟩ := ih hearlier (noneThroughResource_split h rfl)
    have hrecord := haccepted record (by simp)
    cases hinfo : record.converted textToFloat with
    | none => exact absurd hinfo hrecord.2
    | some info =>
      cases hreach : reach (landAs info) (rootDepth rootLevel) (jsonPath rootLevel record) before with
      | ok root =>
        exact ⟨root, jsonRun_last.2 ⟨before, hbefore, by
          rw [jsonRound_converted hlevel hrecord.1 hinfo, hreach]⟩⟩
      | error e =>
        obtain ⟨-, r, hr, habove⟩ := reach_fails hlevel hearlier hbefore hrecord.1 hreach
        exact absurd habove (h earlier record [] rfl hearlier hrecord.1 r hr)

theorem jsonRun_error {before : List Lwm2mData}
    (hbefore : jsonRun textToFloat rootLevel earlier = .ok before)
    (h : jsonRound textToFloat rootLevel before record = .error e) :
    jsonRun textToFloat rootLevel (earlier ++ record :: later) = .error e := by
  rw [jsonRun_append, hbefore, ok_bind, List.foldlM_cons, h]
  rfl

theorem jsonRun_rejected (hlevel : rootLevel ≠ .none)
    (hnot : ∃ r ∈ records, ¬ Accepted textToFloat rootLevel r)
    (h : NoneThroughResource textToFloat rootLevel records) :
    jsonRun textToFloat rootLevel records = .error none := by
  obtain ⟨earlier, record, later, rfl, hrecord, hbefore⟩ := exists_first hnot
  have hearlier : ∀ r ∈ earlier, Accepted textToFloat rootLevel r := fun r hr =>
    not_not.1 (hbefore r hr)
  obtain ⟨before, hrun⟩ := jsonRun_ok hlevel hearlier (noneThroughResource_split h rfl)
  apply jsonRun_error hrun
  cases hdepth : depthChecked rootLevel record with
  | false =>
    rw [jsonRound, if_pos hdepth]
    rfl
  | true =>
    have hinfo : record.converted textToFloat = none := by
      by_contra hinfo
      exact hrecord ⟨hdepth, hinfo⟩
    rw [jsonRound_unconverted hlevel hdepth hinfo]
    cases hreach : reach (landAs (.boolean, .zero)) (rootDepth rootLevel)
        (jsonPath rootLevel record) before with
    | ok root => rfl
    | error e =>
      obtain ⟨-, r, hr, habove⟩ := reach_fails hlevel hearlier hrun hdepth hreach
      exact absurd habove (h earlier record later rfl hearlier hdepth r hr)

theorem jsonRun_accepted_error (hlevel : rootLevel ≠ .none)
    (haccepted : ∀ r ∈ records, Accepted textToFloat rootLevel r)
    (h : jsonRun textToFloat rootLevel records = .error e) : e = some .wrongArm := by
  induction records using List.reverseRecOn with
  | nil => nomatch h
  | append_singleton earlier record ih =>
    have hearlier := fun r hr => haccepted r (List.mem_append_left _ hr)
    have hrecord := haccepted record (by simp)
    cases hbefore : jsonRun textToFloat rootLevel earlier with
    | error e' =>
      rw [jsonRun_append, hbefore] at h
      obtain rfl := Except.error.inj h
      exact ih hearlier hbefore
    | ok before =>
      rw [jsonRun_append, hbefore, ok_bind, List.foldlM_cons] at h
      cases hinfo : record.converted textToFloat with
      | none => exact absurd hinfo hrecord.2
      | some info =>
        rw [jsonRound_converted hlevel hrecord.1 hinfo] at h
        cases hreach : reach (landAs info) (rootDepth rootLevel) (jsonPath rootLevel record) before with
        | ok root =>
          rw [hreach] at h
          nomatch h
        | error e' =>
          rw [hreach] at h
          obtain rfl := Except.error.inj h
          exact (reach_fails hlevel hearlier hbefore hrecord.1 hreach).1

/-! ## Sound trees -/

theorem foundAt_children (hq : q ≠ []) {rest : List UInt16} (hrest : rest ≠ [])
    {array : List Lwm2mData} (h : foundAt (q ++ rest) array = some data) :
    ∃ parent, foundAt q array = some parent ∧ parent.children ≠ [] := by
  induction q generalizing array with
  | nil => exact absurd rfl hq
  | cons id tail ih =>
    rw [List.cons_append] at h
    cases hitem : foundItem array id with
    | none =>
      rw [foundAt_of_none hitem] at h
      nomatch h
    | some item =>
      rw [foundAt_cons hitem (by simp [hrest])] at h
      by_cases htail : tail = []
      · subst htail
        refine ⟨item, by rw [foundAt_single, hitem], fun hnil => ?_⟩
        rw [List.nil_append, hnil, foundAt_nil] at h
        nomatch h
      · rw [foundAt_cons hitem htail]
        exact ih htail h

theorem holdsMemory_of_children (h : data.children ≠ []) : data.holdsMemory = true := by
  unfold Lwm2mData.children at h
  unfold Lwm2mData.holdsMemory
  split at h
  · rename_i array heq
    rw [heq]
    simpa using h
  · exact absurd rfl h

/-- Records that lie apart give a tree in which nothing was dropped and every last value is. -/
theorem sound_of_apart (hlevel : rootLevel ≠ .none)
    (haccepted : ∀ r ∈ records, Accepted textToFloat rootLevel r)
    (hnone : NoneThroughResource textToFloat rootLevel records)
    (hapart : ∀ earlier record later, records = earlier ++ record :: later →
      Apart textToFloat rootLevel earlier record later)
    (h : jsonRun textToFloat rootLevel records = .ok root) :
    NothingDropped textToFloat rootLevel records ∧
      LastValuesPresent textToFloat rootLevel records root := by
  constructor
  · intro earlier record later hsplit before hbefore hlength data hdata
    have hearlier : ∀ r ∈ earlier, Accepted textToFloat rootLevel r := fun r hr =>
      haccepted r (by simp [hsplit, hr])
    obtain ⟨hlast, hnever⟩ := resource_found hlevel hearlier hbefore hlength
    have hthis := hapart earlier record later hsplit
    by_cases hends : ∃ r ∈ earlier, jsonPath rootLevel r = jsonPath rootLevel record
    · obtain ⟨r, hr⟩ := exists_lastAt hends
      obtain ⟨node, hnode, hholds⟩ := hlast r hr
      rw [hdata] at hnode
      obtain rfl := Option.some.inj hnode
      obtain ⟨front, behind, rfl, hpath, -⟩ := hr
      apply Bool.eq_false_iff.mpr
      intro hmemory
      exact hthis.string hlength r (by simp) hpath ((holds_memory hholds).1 hmemory)
    · obtain ⟨-, r, hr, habove⟩ := hnever (fun r hr heq => hends ⟨r, hr, heq⟩) data hdata
      exact absurd habove (hthis.below r hr)
  · intro earlier record later hsplit hlater
    rcases jsonPath_length hlevel record with hlength | hlength
    · exact (resource_found hlevel haccepted h hlength).1 record
        ⟨earlier, later, hsplit, rfl, hlater⟩
    · -- no record ends at the resource, neither before nor behind it
      have habove : ∀ r ∈ records, ¬ Above (jsonPath rootLevel r) (jsonPath rootLevel record) := by
        intro r hr
        rw [hsplit] at hr
        rcases List.mem_append.1 hr with hr | hr
        · exact hnone earlier record later hsplit (fun r hr => haccepted r (by simp [hsplit, hr]))
            (haccepted record (by simp [hsplit])).1 r hr
        · rcases List.mem_cons.1 hr with rfl | hr
          · exact fun h => h.2 rfl
          · obtain ⟨front, behind, rfl⟩ := List.append_of_mem hr
            exact (hapart (earlier ++ record :: front) r behind (by simp [hsplit])).below record
              (by simp)
      have hmem : record ∈ records := by simp [hsplit]
      obtain ⟨r, hr⟩ := exists_firstAt (q := jsonPath rootLevel record) ⟨record, hmem, rfl⟩
      obtain ⟨data, hdata, hholds⟩ := (instance_found hlevel haccepted h hlength).2 habove r hr
      refine ⟨data, hdata, ?_⟩
      obtain ⟨front, behind, hsplit', hpath, hfront⟩ := hr
      have hsame : r = record ∨
          FirstAt rootLevel earlier (jsonPath rootLevel record) r := by
        rw [hsplit] at hsplit'
        rcases List.append_eq_append_iff.1 hsplit' with ⟨middle, rfl, hbehind⟩ | ⟨middle, rfl, hbehind⟩
        · cases middle with
          | nil => exact .inl (List.cons.inj hbehind).1.symm
          | cons first middle =>
            have heq : record = first := (List.cons.inj hbehind).1
            exact absurd rfl (hfront record (by simp [heq]))
        · cases middle with
          | nil => exact .inl (List.cons.inj hbehind).1
          | cons first middle =>
            obtain ⟨rfl, -⟩ := List.cons.inj hbehind
            exact .inr ⟨front, middle, rfl, hpath, hfront⟩
      rcases hsame with rfl | hfirst
      · exact hholds
      · unfold Holds at hholds ⊢
        rw [← (hapart earlier record later hsplit).same hlength hlater r hfirst]
        exact hholds

/-! ## What soundness asks of the records -/

theorem children_of_holdsMemory (hq : q ≠ []) {lower : List UInt16} (habove : Above q lower)
    {array : List Lwm2mData} (h : foundAt lower array = some data) :
    ∃ parent, foundAt q array = some parent ∧ parent.holdsMemory = true := by
  obtain ⟨⟨rest, rfl⟩, hne⟩ := habove
  have hrest : rest ≠ [] := by
    rintro rfl
    exact hne (by simp)
  obtain ⟨parent, hparent, hchildren⟩ := foundAt_children hq hrest h
  exact ⟨parent, hparent, holdsMemory_of_children hchildren⟩

theorem first_behind {behind : List JsonRecord} {r : JsonRecord}
    (hsplit : records = earlier ++ r :: behind ++ record :: later) :
    ∃ middle first rest, records = (earlier ++ r :: middle) ++ first :: rest ∧
      jsonPath rootLevel first = jsonPath rootLevel record ∧
      ∀ x ∈ middle, jsonPath rootLevel x ≠ jsonPath rootLevel record := by
  have hmem : record ∈ behind ++ record :: later := by simp
  obtain ⟨middle, first, rest, heq, hfirst, hmiddle⟩ :=
    exists_first (p := fun x => jsonPath rootLevel x = jsonPath rootLevel record) ⟨record, hmem, rfl⟩
  refine ⟨middle, first, rest, ?_, hfirst, hmiddle⟩
  rw [hsplit, List.append_assoc, List.cons_append, heq]
  simp

section Necessary

variable (hlevel : rootLevel ≠ .none)
  (haccepted : ∀ r ∈ records, Accepted textToFloat rootLevel r)
  (hnone : NoneThroughResource textToFloat rootLevel records)
  (hdropped : NothingDropped textToFloat rootLevel records)

include hlevel haccepted hnone hdropped

variable {earlier later : List JsonRecord} {record : JsonRecord}

/-- If nothing is dropped, no record ends at a resource behind a record for one of its instances. -/
theorem below_of_kept (hsplit : records = earlier ++ record :: later) :
    ∀ r ∈ earlier, ¬ Above (jsonPath rootLevel record) (jsonPath rootLevel r) := by
  intro r hr habove
  have hlengths := jsonPath_length hlevel record
  have hlengths' := jsonPath_length hlevel r
  have hlt := habove.length_lt
  obtain ⟨front, behind, rfl⟩ := List.append_of_mem hr
  obtain ⟨middle, first, rest, hfirst, hpath, hmiddle⟩ := first_behind hsplit
  have hbefore : ∀ x ∈ front ++ r :: middle, Accepted textToFloat rootLevel x := fun x hx =>
    haccepted x (by rw [hfirst]; exact List.mem_append_left _ hx)
  obtain ⟨before, hrun⟩ := jsonRun_ok hlevel hbefore (noneThroughResource_split hnone hfirst)
  -- a record above the instance ends at the resource, and there is none before it or up to `first`
  have hfree : ∀ x ∈ front ++ r :: middle,
      ¬ Above (jsonPath rootLevel x) (jsonPath rootLevel r) := by
    intro x hx habove'
    rcases List.mem_append.1 hx with hx | hx
    · exact hnone front r (middle ++ first :: rest) (by simp [hfirst])
        (fun y hy => hbefore y (List.mem_append_left _ hy))
        (hbefore r (by simp)).1 x hx habove'
    · rcases List.mem_cons.1 hx with rfl | hx
      · exact habove'.2 rfl
      · have hlt' := habove'.length_lt
        have hlengths'' := jsonPath_length hlevel x
        have heq := List.prefix_of_prefix_length_le habove'.1 habove.1 (by omega)
        exact hmiddle x hx (heq.eq_of_length_le (by omega))
  have hmem : r ∈ front ++ r :: middle := by simp
  obtain ⟨oldest, holdest⟩ := exists_firstAt (q := jsonPath rootLevel r) ⟨r, hmem, rfl⟩
  obtain ⟨data, hdata, -⟩ :=
    (instance_found hlevel hbefore hrun (by omega)).2 hfree oldest holdest
  obtain ⟨parent, hparent, hmemory⟩ :=
    children_of_holdsMemory (jsonPath_ne_nil rootLevel record) habove hdata
  rw [← hpath] at hparent
  have hkept := hdropped _ first rest hfirst before hrun (by rw [hpath]; omega) parent hparent
  rw [hmemory] at hkept
  nomatch hkept

theorem string_of_kept (hsplit : records = earlier ++ record :: later)
    (hlength : rootDepth rootLevel + (jsonPath rootLevel record).length = 3) :
    ∀ r ∈ earlier, jsonPath rootLevel r = jsonPath rootLevel record →
      ¬ (r.type = .string ∧ r.value ≠ []) := by
  intro r hr hsame hstring
  obtain ⟨front, behind, rfl⟩ := List.append_of_mem hr
  obtain ⟨middle, first, rest, hfirst, hpath, hmiddle⟩ := first_behind hsplit
  have hbefore : ∀ x ∈ front ++ r :: middle, Accepted textToFloat rootLevel x := fun x hx =>
    haccepted x (by rw [hfirst]; exact List.mem_append_left _ hx)
  obtain ⟨before, hrun⟩ := jsonRun_ok hlevel hbefore (noneThroughResource_split hnone hfirst)
  obtain ⟨data, hdata, hholds⟩ := (resource_found hlevel hbefore hrun hlength).1 r
    ⟨front, middle, rfl, hsame, hmiddle⟩
  rw [← hpath] at hdata hlength
  have hkept := hdropped _ first rest hfirst before hrun hlength data hdata
  rw [(holds_memory hholds).2 hstring] at hkept
  nomatch hkept

theorem same_of_present (h : jsonRun textToFloat rootLevel records = .ok root)
    (hpresent : LastValuesPresent textToFloat rootLevel records root)
    (hsplit : records = earlier ++ record :: later)
    (hlength : rootDepth rootLevel + (jsonPath rootLevel record).length = 4)
    (hlater : ∀ r ∈ later, jsonPath rootLevel r ≠ jsonPath rootLevel record) :
    ∀ r, FirstAt rootLevel earlier (jsonPath rootLevel record) r →
      r.converted textToFloat = record.converted textToFloat := by
  intro r hfirst
  have hfree : ∀ x ∈ records, ¬ Above (jsonPath rootLevel x) (jsonPath rootLevel record) := by
    intro x hx
    rw [hsplit] at hx
    rcases List.mem_append.1 hx with hx | hx
    · exact hnone earlier record later hsplit (fun y hy => haccepted y (by simp [hsplit, hy]))
        (haccepted record (by simp [hsplit])).1 x hx
    · rcases List.mem_cons.1 hx with rfl | hx
      · exact fun habove => habove.2 rfl
      · obtain ⟨front, behind, rfl⟩ := List.append_of_mem hx
        have hsplit' : records = (earlier ++ record :: front) ++ x :: behind := by simp [hsplit]
        exact below_of_kept hlevel haccepted hnone hdropped hsplit' record (by simp)
  obtain ⟨last, hlast, hholds⟩ := hpresent earlier record later hsplit hlater
  obtain ⟨front, behind, rfl, hpath, hfront⟩ := hfirst
  obtain ⟨data, hdata, hheld⟩ := (instance_found hlevel haccepted h hlength).2 hfree r
    ⟨front, behind ++ record :: later, by simp [hsplit], hpath, hfront⟩
  rw [hlast] at hdata
  obtain rfl := Option.some.inj hdata
  exact hheld.trans hholds.symm

end Necessary

theorem noneThroughResource_of_run (hlevel : rootLevel ≠ .none)
    (h : jsonRun textToFloat rootLevel records ≠ .error (some .wrongArm)) :
    NoneThroughResource textToFloat rootLevel records := by
  intro earlier record later hsplit hearlier hdepth r hr habove
  apply h
  cases hbefore : jsonRun textToFloat rootLevel earlier with
  | error e =>
    rw [hsplit, jsonRun_append, hbefore, jsonRun_accepted_error hlevel hearlier hbefore]
    rfl
  | ok before =>
    rw [hsplit]
    apply jsonRun_error hbefore
    cases hinfo : record.converted textToFloat with
    | none =>
      rw [jsonRound_unconverted hlevel hdepth hinfo,
        reach_goesWrong hlevel hearlier hbefore hr habove]
      rfl
    | some info =>
      rw [jsonRound_converted hlevel hdepth hinfo,
        reach_goesWrong hlevel hearlier hbefore hr habove]

end Runs

section Statement

variable (textToFloat : List UInt8 → Option UInt64) (base : Option Lwm2mUri)
  (records : List JsonRecord)

/-- `prv_convertRecord` fails, or its tree is one: no value is read as children, the items of the
root have types and unique ids, nothing was dropped and every last value is found. -/
def JsonTreeSound : Prop :=
  jsonConvertRecord textToFloat base records = .error none ∨
    ∃ root, jsonConvertRecord textToFloat base records = .ok (jsonAround base root) ∧
      jsonRoot textToFloat base records = .ok root ∧
      (∀ data ∈ root, data.type ≠ .undefined) ∧ (root.map Lwm2mData.id).Nodup ∧
      NothingDropped textToFloat (jsonRootLevel base) records ∧
      LastValuesPresent textToFloat (jsonRootLevel base) records root

theorem jsonConvertRecord_ok {root : List Lwm2mData}
    (h : jsonRoot textToFloat base records = .ok root) :
    jsonConvertRecord textToFloat base records = .ok (jsonAround base root) := by
  rw [jsonConvertRecord, h]
  rfl

theorem jsonConvertRecord_error {e : Option Fault}
    (h : jsonRoot textToFloat base records = .error e) :
    jsonConvertRecord textToFloat base records = .error e := by
  rw [jsonConvertRecord, h]
  rfl

theorem jsonConvertRecord_sound_of_apart
    (h : AllApart textToFloat (jsonRootLevel base) records) :
    JsonTreeSound textToFloat base records := by
  obtain ⟨hnone, hapart⟩ := h
  have hlevel := jsonRootLevel_ne_none base
  by_cases haccepted : ∀ r ∈ records, Accepted textToFloat (jsonRootLevel base) r
  · obtain ⟨root, hroot⟩ := jsonRun_ok hlevel haccepted hnone
    exact .inr ⟨root, jsonConvertRecord_ok textToFloat base records hroot, hroot,
      root_typed hlevel haccepted hroot, root_unique hlevel haccepted hroot,
      sound_of_apart hlevel haccepted hnone (hapart haccepted) hroot⟩
  · have hnot : ∃ r ∈ records, ¬ Accepted textToFloat (jsonRootLevel base) r := by
      simpa using haccepted
    exact .inl (jsonConvertRecord_error textToFloat base records
      (jsonRun_rejected hlevel hnot hnone))

theorem apart_of_jsonTreeSound (h : JsonTreeSound textToFloat base records) :
    AllApart textToFloat (jsonRootLevel base) records := by
  have hlevel := jsonRootLevel_ne_none base
  have hrun : jsonRun textToFloat (jsonRootLevel base) records ≠ .error (some .wrongArm) := by
    intro hwrong
    have herror := jsonConvertRecord_error textToFloat base records hwrong
    rcases h with hfails | ⟨root, hok, -⟩
    · rw [herror] at hfails
      nomatch hfails
    · rw [herror] at hok
      nomatch hok
  have hnone := noneThroughResource_of_run hlevel hrun
  refine ⟨hnone, fun haccepted earlier record later hsplit => ?_⟩
  obtain ⟨root, hroot⟩ := jsonRun_ok hlevel haccepted hnone
  rcases h with hfails | ⟨root', -, hroot', -, -, hdropped, hpresent⟩
  · rw [jsonConvertRecord_ok textToFloat base records hroot] at hfails
    nomatch hfails
  · exact ⟨below_of_kept hlevel haccepted hnone hdropped hsplit,
      string_of_kept hlevel haccepted hnone hdropped hsplit,
      same_of_present hlevel haccepted hnone hdropped hroot' hpresent hsplit⟩

/-- The tree of `prv_convertRecord` is sound exactly for records that lie apart. -/
theorem jsonConvertRecord_sound_iff :
    JsonTreeSound textToFloat base records ↔
      AllApart textToFloat (jsonRootLevel base) records :=
  ⟨apart_of_jsonTreeSound textToFloat base records,
    jsonConvertRecord_sound_of_apart textToFloat base records⟩

end Statement

/-- A number for `/3/0/5` and one for `/3/0/5/1`. -/
def numberThenInstance : List JsonRecord :=
  [{ ids := ⟨3, 0, 5, lwm2mMaxId⟩, type := .float, value := [0x37] },
    { ids := ⟨3, 0, 5, 1⟩, type := .float, value := [0x38] }]

/-- The number of the resource is read as its children. -/
theorem numberThenInstance_unsound : ¬ JsonTreeSound (fun _ => none) none numberThenInstance := by
  have hwrong : jsonConvertRecord (fun _ => none) none numberThenInstance =
      .error (some .wrongArm) := rfl
  rintro (hfails | ⟨root, hok, -⟩)
  · rw [hwrong] at hfails
    nomatch hfails
  · rw [hwrong] at hok
    nomatch hok

end Wakaama
