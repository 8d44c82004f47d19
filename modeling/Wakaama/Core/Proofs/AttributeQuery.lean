import Wakaama.Core.Proofs.AttributeReading

/-!
# Attributes on the wire (`core/management.c`)

The segments that the server writes for periods, as the client reads them. A segment for an
attribute that is cleared ends within a key, so that the byte behind it decides what it says.
-/

namespace Wakaama

variable {query : QuerySegment} {textToFloat : AttributeKey → List UInt8 → Option UInt64}

/-! ## Attributes without floats -/

/-- The flags of the periods. -/
def periodFlags : UInt8 := attrFlagMinPeriod ||| attrFlagMaxPeriod

/-- No float attribute is set or cleared. -/
structure OnlyPeriods (attr : Lwm2mAttributes) : Prop where
  set : attr.toSet ≤ periodFlags
  cleared : attr.toClear ≤ periodFlags

/-- The attributes that are set and those that are cleared, in the order of their segments. -/
def attributeEntries (attr : Lwm2mAttributes) : List (AttributeKey × Bool) :=
  (attributeKeys.filter fun key => attr.toSet &&& key.flag != 0).map (fun key => (key, true)) ++
    (attributeKeys.filter fun key => attr.toClear &&& key.flag != 0).map fun key => (key, false)

def entryText (attr : Lwm2mAttributes) (entry : AttributeKey × Bool) : List UInt8 :=
  if entry.2 then entry.1.text ++ decimalText (attr.period entry.1).toNat else entry.1.name

variable {key : AttributeKey} {attr : Lwm2mAttributes} {flags : UInt8}

theorem mem_attributeEntries {sets : Bool} :
    (key, sets) ∈ attributeEntries attr ↔
      (if sets then attr.toSet else attr.toClear) &&& key.flag ≠ 0 := by
  have hkey := mem_attributeKeys key
  cases sets <;> simp [attributeEntries, hkey]

theorem smallFlags (h : flags ≤ periodFlags) : flags = 0 ∨ flags = 1 ∨ flags = 2 ∨ flags = 3 := by
  have hle : flags.toNat ≤ 3 := UInt8.le_iff_toNat_le.1 h
  simp only [← UInt8.toNat_inj]
  change flags.toNat = 0 ∨ flags.toNat = 1 ∨ flags.toNat = 2 ∨ flags.toNat = 3
  omega

theorem flag_isPeriod (h : flags ≤ periodFlags) (hset : flags &&& key.flag ≠ 0) :
    key.isPeriod = true := by
  revert hset
  obtain rfl | rfl | rfl | rfl := smallFlags h <;> cases key <;> decide

theorem flags_ext {a b : UInt8} (ha : a ≤ periodFlags) (hb : b ≤ periodFlags)
    (h : ∀ key : AttributeKey, a &&& key.flag ≠ 0 ↔ b &&& key.flag ≠ 0) : a = b := by
  have hmin := h .minPeriod
  have hmax := h .maxPeriod
  revert hmin hmax
  obtain rfl | rfl | rfl | rfl := smallFlags ha <;>
    obtain rfl | rfl | rfl | rfl := smallFlags hb <;> decide

theorem flags_or (h : flags ≤ periodFlags) (hkind : key.isPeriod = true) :
    flags ||| key.flag ≤ periodFlags := by
  revert hkind
  obtain rfl | rfl | rfl | rfl := smallFlags h <;> cases key <;> decide

theorem attributeEntries_nodup (honly : OnlyPeriods attr)
    (hapart : attr.toSet &&& attr.toClear = 0) :
    ((attributeEntries attr).map Prod.fst).Nodup := by
  revert hapart
  unfold attributeEntries
  obtain h | h | h | h := smallFlags honly.set <;>
    obtain h' | h' | h' | h' := smallFlags honly.cleared <;> rw [h, h'] <;> decide

theorem mapM_some {α β : Type} {f : α → Option β} {g : α → β} {l : List α}
    (h : ∀ a ∈ l, f a = some (g a)) : l.mapM f = some (l.map g) := by
  induction l with
  | nil => rfl
  | cons a l ih =>
    rw [List.mapM_cons, h a (List.mem_cons_self ..),
      ih fun b hb => h b (List.mem_cons_of_mem _ hb)]
    rfl

theorem setSegment_period (floatToText : UInt64 → Nat → List UInt8) (attr : Lwm2mAttributes)
    (hkind : key.isPeriod = true) :
    setSegment floatToText attr key = some (entryText attr (key, true)) := by
  have hlt := (attr.period key).toNat_lt
  have hint : (attr.period key).toUInt64.toInt64.toInt = (attr.period key).toNat := by
    change (attr.period key).toUInt64.toBitVec.toInt = _
    rw [BitVec.toInt_eq_toNat_of_lt]
    · simp
    · simp
      omega
  have hlength : (decimalText (attr.period key).toNat).length ≤ 9 + 1 :=
    decimalText_length_le (by omega)
  have hroom : 10 ≤ attributeBufferSize - key.text.length := by
    cases key <;> decide
  have hnumber : utilsIntToText (attr.period key).toUInt64.toInt64
      (attributeBufferSize - key.text.length) = decimalText (attr.period key).toNat := by
    rw [utilsIntToText_nonneg (by rw [hint]; exact Int.natCast_nonneg _), hint, Int.toNat_natCast,
      if_pos (Nat.le_trans hlength hroom)]
  rw [setSegment, if_pos hkind, hnumber, if_neg]
  · rfl
  · rw [List.isEmpty_iff]
    exact decimalText_ne_nil _

theorem attributeSegments_eq (floatToText : UInt64 → Nat → List UInt8) (honly : OnlyPeriods attr) :
    attributeSegments floatToText attr = some ((attributeEntries attr).map (entryText attr)) := by
  have hsets : (attributeKeys.filter fun key => attr.toSet &&& key.flag != 0).mapM
      (setSegment floatToText attr) =
        some ((attributeKeys.filter fun key => attr.toSet &&& key.flag != 0).map
          fun key => entryText attr (key, true)) := by
    refine mapM_some fun key hkey => ?_
    have hset : attr.toSet &&& key.flag ≠ 0 := by simpa using (List.mem_filter.1 hkey).2
    exact setSegment_period floatToText attr (flag_isPeriod honly.set hset)
  rw [attributeSegments, hsets, attributeEntries, List.map_append, List.map_map, List.map_map]
  rfl

theorem addOptions_map {α : Type} (alloc : Nat → Bool) (f : α → List UInt8) (entries : List α) :
    ∀ call, ∃ kept : List α, addOptions alloc call (entries.map f) = kept.map f ∧
      kept.Sublist entries ∧ (kept = entries ↔ ∀ n < entries.length, alloc (call + n) = true) := by
  induction entries with
  | nil => exact fun call => ⟨[], rfl, List.Sublist.refl [], iff_of_true rfl nofun⟩
  | cons entry entries ih =>
    intro call
    obtain ⟨kept, hadded, hsub, hall⟩ := ih (call + 1)
    rw [List.map_cons, addOptions]
    have hshift : (∀ n < entries.length, alloc (call + 1 + n) = true) ↔
        ∀ n < entries.length, alloc (call + (n + 1)) = true := by
      refine forall₂_congr fun n _ => ?_
      rw [Nat.add_assoc, Nat.add_comm 1 n]
    by_cases halloc : alloc call = true
    · rw [if_pos halloc, hadded]
      refine ⟨entry :: kept, rfl, hsub.cons_cons entry, ?_⟩
      rw [List.cons_inj_right, hall, hshift, List.length_cons]
      constructor
      · intro h n hn
        cases n with
        | zero => exact halloc
        | succ n => exact h n (Nat.lt_of_succ_lt_succ hn)
      · exact fun h n hn => h (n + 1) (Nat.succ_lt_succ hn)
    · rw [if_neg halloc, hadded]
      refine ⟨kept, rfl, hsub.cons entry, iff_of_false ?_ ?_⟩
      · intro heq
        have hlength := hsub.length_le
        rw [heq, List.length_cons] at hlength
        omega
      · exact fun h => halloc (h 0 (Nat.succ_pos _))

/-- How a produced segment is read: one that clears is taken for one that sets where a `=` stands
behind it. -/
def readAs (query : QuerySegment) (entry : AttributeKey × Bool) : AttributeKey × Bool :=
  (entry.1, entry.2 || query.behind 0 == 61)

def afterEntry (attr : Lwm2mAttributes) (query : QuerySegment) (entry : AttributeKey × Bool)
    (read : Lwm2mAttributes) : Lwm2mAttributes :=
  if (readAs query entry).2 then
    entry.1.setPeriod (if entry.2 then attr.period entry.1 else 0) read
  else { read with toClear := read.toClear ||| entry.1.flag }

theorem periodNumeral_decimal (period : UInt32) : PeriodNumeral (decimalText period.toNat) ∧
    numeralValue (decimalText period.toNat) = period.toNat := by
  have hvalue : numeralValue (decimalText period.toNat) = period.toNat :=
    decimalFrom_decimalText period.toNat
  exact ⟨⟨⟨decimalText_ne_nil _, decimalText_isDigit _⟩, by rw [hvalue]; exact period.toNat_lt⟩,
    hvalue⟩

theorem readAttribute_entry {attr read : Lwm2mAttributes} {entry : AttributeKey × Bool}
    (hkind : entry.1.isPeriod = true)
    (hunset : (read.toSet ||| read.toClear) &&& entry.1.flag = 0)
    (htext : query.text = entryText attr entry) :
    readAttribute textToFloat query read = .ok (some (afterEntry attr query entry read)) := by
  obtain ⟨key, sets⟩ := entry
  cases sets with
  | true =>
    obtain ⟨hnumeral, hvalue⟩ := periodNumeral_decimal (attr.period key)
    obtain ⟨number, hread⟩ := readsPeriod_iff.2 (.inl hnumeral)
    have hstored : number.toUInt64.toUInt32 = attr.period key :=
      UInt32.toNat_inj.1 ((readsPeriod_value hread hnumeral).trans hvalue)
    have htext' : query.text = key.text ++ decimalText (attr.period key).toNat := htext
    have hwhole : ¬ TruncatedAttribute query.text :=
      @SegmentTaken.whole query textToFloat [] ⟨key, _, htext',
        ⟨hnumeral.1.nonempty, by rw [if_pos hkind]; exact ⟨number, hread⟩⟩, nofun⟩
    obtain ⟨hdrop, hlength, hlong⟩ := text_prefix_length htext'
    have hsign : ¬ number < 0 := by
      rw [Int64.lt_iff_toInt_lt]
      exact Int.not_lt.2 hread.2
    rw [readAttribute, @findAttribute_starts query hwhole key true ⟨_, htext'.symm⟩ nofun]
    dsimp only
    rw [setAttribute, if_neg (fun hne => hne hunset),
      if_neg (fun heq => hnumeral.1.nonempty (hlength.1 heq)), if_pos hkind, readPeriod,
      if_neg hlong, hdrop, hread.1]
    dsimp only
    rw [if_neg hsign, hstored]
    rfl
  | false =>
    have htext' : query.text = key.name := htext
    have hlength : query.text.length = key.text.length - 1 := by
      rw [htext', attributeKey_length, Nat.add_sub_cancel]
    have hfind : findAttribute query attributeKeys = some (key, query.behind 0 == 61) := by
      cases key with
      | minPeriod =>
        have h61 := Bool.eq_false_or_eq_true (query.behind 0 == 61)
        rcases h61 with h61 | h61 <;>
          simp [findAttribute, attributeKeys, QuerySegment.startsWith, QuerySegment.byte, htext',
            AttributeKey.name, AttributeKey.text, h61]
      | maxPeriod =>
        have h61 := Bool.eq_false_or_eq_true (query.behind 0 == 61)
        rcases h61 with h61 | h61 <;>
          simp [findAttribute, attributeKeys, QuerySegment.startsWith, QuerySegment.byte, htext',
            AttributeKey.name, AttributeKey.text, h61]
      | greaterThan => cases hkind
      | lessThan => cases hkind
      | step => cases hkind
    have hpos : 0 < key.text.length := by
      rw [attributeKey_length]
      exact Nat.succ_pos _
    rw [readAttribute, hfind]
    unfold afterEntry readAs
    rw [Bool.false_or]
    cases hequals : query.behind 0 == 61 with
    | true =>
      dsimp only
      rw [setAttribute, if_neg (fun hne => hne hunset), if_neg (by omega), if_pos hkind, readPeriod,
        if_pos (by omega)]
      rfl
    | false =>
      dsimp only
      rw [clearAttribute, if_neg (fun hne => hne hunset), if_neg (fun hne => hne hlength)]
      rfl

structure EntriesRead (attr : Lwm2mAttributes) (query : List QuerySegment)
    (entries : List (AttributeKey × Bool)) (before after : Lwm2mAttributes) : Prop where
  set : ∀ key : AttributeKey, after.toSet &&& key.flag ≠ 0 ↔
    before.toSet &&& key.flag ≠ 0 ∨ (key, true) ∈ List.zipWith readAs query entries
  cleared : ∀ key : AttributeKey, after.toClear &&& key.flag ≠ 0 ↔
    before.toClear &&& key.flag ≠ 0 ∨ (key, false) ∈ List.zipWith readAs query entries
  only : OnlyPeriods after
  periods : ∀ key : AttributeKey, (key, true) ∈ entries → after.period key = attr.period key
  others : ∀ key : AttributeKey, key ∉ entries.map Prod.fst → after.period key = before.period key

theorem afterEntry_only {read : Lwm2mAttributes} {entry : AttributeKey × Bool}
    (hkind : entry.1.isPeriod = true) (h : OnlyPeriods read) (query : QuerySegment) :
    OnlyPeriods (afterEntry attr query entry read) := by
  have hset := flags_or h.set hkind
  have hcleared := flags_or h.cleared hkind
  obtain ⟨key, sets⟩ := entry
  unfold afterEntry
  split
  · refine ⟨?_, ?_⟩
    · cases key <;> exact hset
    · cases key <;> exact h.cleared
  · exact ⟨h.set, hcleared⟩

theorem afterEntry_set (attr : Lwm2mAttributes) (query : QuerySegment)
    (entry : AttributeKey × Bool) (read : Lwm2mAttributes) (key : AttributeKey) :
    ((afterEntry attr query entry read).toSet &&& key.flag ≠ 0 ↔
        read.toSet &&& key.flag ≠ 0 ∨ (key, true) = readAs query entry) ∧
      ((afterEntry attr query entry read).toClear &&& key.flag ≠ 0 ↔
        read.toClear &&& key.flag ≠ 0 ∨ (key, false) = readAs query entry) := by
  have hfields : (afterEntry attr query entry read).toSet =
        (if (readAs query entry).2 then read.toSet ||| entry.1.flag else read.toSet) ∧
      (afterEntry attr query entry read).toClear =
        if (readAs query entry).2 then read.toClear else read.toClear ||| entry.1.flag := by
    unfold afterEntry
    split
    · obtain ⟨key, sets⟩ := entry
      cases key <;> exact ⟨rfl, rfl⟩
    · exact ⟨rfl, rfl⟩
  rw [hfields.1, hfields.2]
  have hfirst : (readAs query entry).1 = entry.1 := rfl
  rw [Prod.ext_iff, Prod.ext_iff, hfirst]
  cases (readAs query entry).2 with
  | true => simp [flag_set]
  | false => simp [flag_set]

theorem afterEntry_period (attr : Lwm2mAttributes) (query : QuerySegment)
    (entry : AttributeKey × Bool) (read : Lwm2mAttributes) :
    (entry.2 = true → (afterEntry attr query entry read).period entry.1 = attr.period entry.1) ∧
      ∀ key, key ≠ entry.1 → (afterEntry attr query entry read).period key = read.period key := by
  obtain ⟨own, sets⟩ := entry
  constructor
  · intro hsets
    obtain rfl : sets = true := hsets
    cases own <;> rfl
  · intro key hne
    unfold afterEntry
    split
    · cases own <;> cases key <;> first | rfl | exact absurd rfl hne
    · rfl

/-- By induction on the entries, whose keys are apart: each is read into the attributes. -/
theorem readAttributesLoop_entries {attr : Lwm2mAttributes}
    (entries : List (AttributeKey × Bool)) : ∀ {query : List QuerySegment}
      {before : Lwm2mAttributes}, query.map QuerySegment.text = entries.map (entryText attr) →
      (entries.map Prod.fst).Nodup → (∀ entry ∈ entries, entry.1.isPeriod = true) →
      (∀ entry ∈ entries, (before.toSet ||| before.toClear) &&& entry.1.flag = 0) →
      OnlyPeriods before →
      ∃ after inside, readAttributesLoop textToFloat query before = .ok (some after, inside) ∧
        EntriesRead attr query entries before after := by
  induction entries with
  | nil =>
    intro query before htexts _ _ _ honly
    obtain rfl := List.map_eq_nil_iff.1 htexts
    exact ⟨before, true, rfl, by simp, by simp, honly, nofun, fun _ _ => rfl⟩
  | cons entry entries ih =>
    intro query before htexts hnodup hkinds hunset honly
    obtain ⟨segment, next, rfl, htext, htexts⟩ := List.map_eq_cons_iff.1 htexts
    obtain ⟨hfresh, hnodup⟩ := List.nodup_cons.1 hnodup
    have hkind := hkinds entry (List.mem_cons_self ..)
    have hread := @readAttribute_entry segment textToFloat attr before entry hkind
      (hunset entry (List.mem_cons_self ..)) htext
    have hflags := afterEntry_set attr segment entry before
    obtain ⟨hown, hother⟩ := afterEntry_period attr segment entry before
    have hnext : ∀ later ∈ entries,
        ((afterEntry attr segment entry before).toSet |||
          (afterEntry attr segment entry before).toClear) &&& later.1.flag = 0 := by
      intro later hlater
      have hne : later.1 ≠ entry.1 := fun heq =>
        hfresh (heq ▸ List.mem_map_of_mem hlater)
      have hold := hunset later (List.mem_cons_of_mem _ hlater)
      rw [uint8_or_and, UInt8.or_eq_zero_iff] at hold ⊢
      refine ⟨?_, ?_⟩
      · by_contra hset
        rcases (hflags later.1).1.1 hset with hset | heq
        · exact hset hold.1
        · have hsame := congrArg Prod.fst heq
          exact hne hsame
      · by_contra hset
        rcases (hflags later.1).2.1 hset with hset | heq
        · exact hset hold.2
        · have hsame := congrArg Prod.fst heq
          exact hne hsame
    obtain ⟨after, inside, hloop, hall⟩ := ih htexts hnodup
      (fun later hlater => hkinds later (List.mem_cons_of_mem _ hlater)) hnext
      (afterEntry_only hkind honly segment)
    refine ⟨after, findsInside segment attributeKeys && inside, ?_, ?_⟩
    · rw [readAttributesLoop, hread]
      dsimp only
      rw [hloop]
      rfl
    · refine ⟨fun key => ?_, fun key => ?_, hall.only, fun key hmem => ?_, fun key hmem => ?_⟩
      · rw [hall.set, (hflags key).1, List.zipWith_cons_cons, List.mem_cons, or_assoc]
      · rw [hall.cleared, (hflags key).2, List.zipWith_cons_cons, List.mem_cons, or_assoc]
      · rcases List.mem_cons.1 hmem with rfl | hmem
        · rw [hall.others key hfresh]
          exact hown rfl
        · exact hall.periods key hmem
      · rw [List.map_cons, List.mem_cons, not_or] at hmem
        rw [hall.others key hmem.2, hother key hmem.1]

/-- What is read is what was written: the same attributes are set and cleared, and each period that is
set is the same. -/
def SurvivesWire (attr : Lwm2mAttributes)
    (read : Except Fault (Option Lwm2mAttributes × Bool)) : Prop :=
  ∃ result inside, read = .ok (some result, inside) ∧ result.toSet = attr.toSet ∧
    result.toClear = attr.toClear ∧
    ∀ key, AttributeKey.isPeriod key = true → attr.toSet &&& key.flag ≠ 0 →
      result.period key = attr.period key

/-- Each segment has been added to the request, and none that clears an attribute stands in front of
a `=`. -/
structure WireKeeps (alloc : Nat → Bool) (attr : Lwm2mAttributes) (query : List QuerySegment) :
    Prop where
  added : ∀ call < (attributeEntries attr).length, alloc call = true
  behind : ∀ segment ∈ query, (∃ key : AttributeKey, segment.text = key.name) →
    segment.behind 0 ≠ 61

theorem mem_reads {query : List QuerySegment} {entries : List (AttributeKey × Bool)}
    {read : AttributeKey × Bool} : read ∈ List.zipWith readAs query entries ↔
      ∃ pair ∈ query.zip entries, readAs pair.1 pair.2 = read := by
  rw [← List.map_uncurry_zip_eq_zipWith, List.mem_map]
  rfl

theorem zip_texts (entries : List (AttributeKey × Bool)) :
    ∀ {query : List QuerySegment},
      query.map QuerySegment.text = entries.map (entryText attr) →
      (∀ pair ∈ query.zip entries, pair.1.text = entryText attr pair.2) ∧
        (∀ segment ∈ query, ∃ entry, (segment, entry) ∈ query.zip entries) ∧
        ∀ entry ∈ entries, ∃ segment, (segment, entry) ∈ query.zip entries := by
  induction entries with
  | nil =>
    intro query htexts
    obtain rfl := List.map_eq_nil_iff.1 htexts
    exact ⟨nofun, nofun, nofun⟩
  | cons entry entries ih =>
    intro query htexts
    obtain ⟨segment, next, rfl, htext, htexts⟩ := List.map_eq_cons_iff.1 htexts
    obtain ⟨hpairs, hsegments, hentries⟩ := ih htexts
    rw [List.zip_cons_cons]
    refine ⟨fun pair hpair => ?_, fun other hother => ?_, fun other hother => ?_⟩
    · rcases List.mem_cons.1 hpair with rfl | hpair
      · exact htext
      · exact hpairs pair hpair
    · rcases List.mem_cons.1 hother with rfl | hother
      · exact ⟨entry, List.mem_cons_self ..⟩
      · obtain ⟨found, hfound⟩ := hsegments other hother
        exact ⟨found, List.mem_cons_of_mem _ hfound⟩
    · rcases List.mem_cons.1 hother with rfl | hother
      · exact ⟨segment, List.mem_cons_self ..⟩
      · obtain ⟨found, hfound⟩ := hentries other hother
        exact ⟨found, List.mem_cons_of_mem _ hfound⟩

theorem entryText_name {entry : AttributeKey × Bool} (h : entryText attr entry = key.name) :
    entry = (key, false) := by
  obtain ⟨own, sets⟩ := entry
  cases sets with
  | true =>
    have htext : own.text ++ decimalText (attr.period own).toNat = key.name := h
    have hpre : own.text <+: key.name := ⟨_, htext⟩
    obtain rfl := attributeKey_starts (((name_starts own).trans hpre).trans (name_starts key))
    have hlength := hpre.length_le
    rw [attributeKey_length] at hlength
    omega
  | false =>
    have htext : own.name = key.name := h
    rw [attributeKey_starts (htext ▸ name_starts key : own.name <+: key.text)]

theorem entries_apart {entries : List (AttributeKey × Bool)} (hnodup : (entries.map Prod.fst).Nodup)
    {a b : AttributeKey × Bool} (ha : a ∈ entries) (hb : b ∈ entries) (h : a.1 = b.1) : a = b :=
  List.inj_on_of_nodup_map hnodup ha hb h

/-- The attributes come back exactly where the request has all segments and no `=` stands behind one
that clears. -/
theorem survivesWire_iff {floatToText : UInt64 → Nat → List UInt8}
    {tooClose : UInt64 → UInt64 → UInt64 → Bool} {alloc : Nat → Bool} {uri : Lwm2mUri}
    (honly : OnlyPeriods attr) {texts : List (List UInt8)}
    (hwritten : lwm2mDmWriteAttributes floatToText tooClose alloc uri attr = some texts)
    {query : List QuerySegment} (hquery : query.map QuerySegment.text = texts) :
    SurvivesWire attr (prvReadAttributes textToFloat query) ↔ WireKeeps alloc attr query := by
  have hwrite : attr.toSet &&& attr.toClear = 0 ∧
      addOptions alloc 0 ((attributeEntries attr).map (entryText attr)) = texts := by
    unfold lwm2mDmWriteAttributes at hwritten
    rw [attributeSegments_eq floatToText honly] at hwritten
    split at hwritten
    · cases hwritten
    · rename_i hapart
      split at hwritten
      · cases hwritten
      · split at hwritten
        · cases hwritten
        · exact ⟨Decidable.not_not.1 hapart, Option.some.inj hwritten⟩
  obtain ⟨hapart, htexts⟩ := hwrite
  obtain ⟨kept, hadded, hsub, hall⟩ := addOptions_map alloc (entryText attr) (attributeEntries attr) 0
  have hkept : query.map QuerySegment.text = kept.map (entryText attr) := by
    rw [hquery, ← htexts, hadded]
  have hnodup := attributeEntries_nodup honly hapart
  have hkinds : ∀ entry ∈ kept, entry.1.isPeriod = true := by
    intro entry hentry
    obtain ⟨key, sets⟩ := entry
    have hflag := mem_attributeEntries.1 (hsub.subset hentry)
    cases sets with
    | true => exact flag_isPeriod honly.set hflag
    | false => exact flag_isPeriod honly.cleared hflag
  have hzero : ∀ key : AttributeKey, ¬ noAttributes.toSet &&& key.flag ≠ 0 := fun key h =>
    h UInt8.zero_and
  obtain ⟨after, inside, hloop, hread⟩ := @readAttributesLoop_entries textToFloat attr kept query
    noAttributes hkept (hnodup.sublist (hsub.map Prod.fst)) hkinds
    (fun entry _ => UInt8.zero_and) ⟨UInt8.zero_le, UInt8.zero_le⟩
  obtain ⟨hpairs, hsegments, hentries⟩ := zip_texts kept hkept
  have hset : ∀ key : AttributeKey, after.toSet &&& key.flag ≠ 0 ↔
      (key, true) ∈ List.zipWith readAs query kept := by
    intro key
    rw [hread.set, or_iff_right (hzero key)]
  have hcleared : ∀ key : AttributeKey, after.toClear &&& key.flag ≠ 0 ↔
      (key, false) ∈ List.zipWith readAs query kept := by
    intro key
    rw [hread.cleared]
    exact or_iff_right (hzero key)
  constructor
  · intro h
    obtain ⟨result, _, hresult, hsame, hsameClear, -⟩ := h
    have heq := hloop.symm.trans hresult
    cases heq
    have hmem : ∀ read, read ∈ List.zipWith readAs query kept ↔ read ∈ attributeEntries attr := by
      intro read
      obtain ⟨key, sets⟩ := read
      rw [mem_attributeEntries]
      cases sets with
      | true => rw [← hset, hsame, if_pos rfl]
      | false => rw [← hcleared, hsameClear, if_neg Bool.noConfusion]
    have hincluded : ∀ entry ∈ attributeEntries attr, entry ∈ kept := by
      intro entry hentry
      obtain ⟨pair, hpair, hpairRead⟩ := mem_reads.1 ((hmem entry).2 hentry)
      have hfound := (List.of_mem_zip hpair).2
      have hfirst := congrArg Prod.fst hpairRead
      change pair.2.1 = entry.1 at hfirst
      rw [← entries_apart hnodup (hsub.subset hfound) hentry hfirst]
      exact hfound
    have hlength : (attributeEntries attr).length ≤ kept.length :=
      (List.subperm_of_subset (List.Nodup.of_map _ hnodup) hincluded).length_le
    refine ⟨?_, ?_⟩
    · have hsame := hall.1 (hsub.eq_of_length_le hlength)
      simpa using hsame
    · intro segment hsegment hname hequals
      obtain ⟨key, hname⟩ := hname
      obtain ⟨entry, hpair⟩ := hsegments segment hsegment
      have hentry := entryText_name ((hpairs _ hpair).symm.trans hname)
      subst hentry
      have hreadSet : (key, true) ∈ List.zipWith readAs query kept :=
        mem_reads.2 ⟨_, hpair, by simp [readAs, hequals]⟩
      have hclash := entries_apart hnodup ((hmem _).1 hreadSet)
        (hsub.subset (List.of_mem_zip hpair).2) rfl
      cases hclash
  · intro h
    have hsame : kept = attributeEntries attr := hall.2 (by simpa using h.added)
    have hreads : ∀ pair ∈ query.zip kept, readAs pair.1 pair.2 = pair.2 := by
      intro pair hpair
      obtain ⟨segment, key, sets⟩ := pair
      cases sets with
      | true => rfl
      | false =>
        have hbehind := h.behind segment (List.of_mem_zip hpair).1 ⟨key, hpairs _ hpair⟩
        simp [readAs, hbehind]
    have hmem : ∀ read, read ∈ List.zipWith readAs query kept ↔ read ∈ attributeEntries attr := by
      intro read
      rw [mem_reads, ← hsame]
      constructor
      · intro hread
        obtain ⟨pair, hpair, rfl⟩ := hread
        rw [hreads pair hpair]
        exact (List.of_mem_zip hpair).2
      · intro hentry
        obtain ⟨segment, hpair⟩ := hentries read hentry
        exact ⟨_, hpair, hreads _ hpair⟩
    refine ⟨after, inside, hloop, flags_ext hread.only.set honly.set fun key => ?_,
      flags_ext hread.only.cleared honly.cleared fun key => ?_, fun key _ hkey => ?_⟩
    · rw [hset, hmem, mem_attributeEntries, if_pos rfl]
    · rw [hcleared, hmem, mem_attributeEntries, if_neg Bool.noConfusion]
    · exact hread.periods key (hsame ▸ mem_attributeEntries.2 hkey)

/-- Attributes without floats come back exactly where every segment of them is added to the request
and no `=` stands behind one that clears; and the client reads a query inside its segments, and takes
numerals that fit only, exactly where it comes to no segment that ends within a key and takes no odd
period. -/
theorem attributeQueries_iff (floatToText : UInt64 → Nat → List UInt8)
    (tooClose : UInt64 → UInt64 → UInt64 → Bool)
    (textToFloat : AttributeKey → List UInt8 → Option UInt64) :
    (∀ alloc uri attr texts (query : List QuerySegment), OnlyPeriods attr →
      lwm2mDmWriteAttributes floatToText tooClose alloc uri attr = some texts →
      query.map QuerySegment.text = texts →
      (SurvivesWire attr (prvReadAttributes textToFloat query) ↔ WireKeeps alloc attr query)) ∧
    ∀ query, ReadsPeriods textToFloat query ↔ QueryReadable textToFloat query :=
  ⟨fun _ _ _ _ _ honly hwritten hquery => survivesWire_iff honly hwritten hquery, readsPeriods_iff⟩

/-- `pmin=60`, in front of other bytes of the packet. -/
def minPeriodSegment : QuerySegment := ⟨[112, 109, 105, 110, 61, 54, 48], fun _ => 255⟩

/-- A minimum period of a minute, and no maximum period any more. -/
def minuteAttributes : Lwm2mAttributes :=
  { noAttributes with toSet := attrFlagMinPeriod, toClear := attrFlagMaxPeriod, minPeriod := 60 }

theorem attributeQueries_minute :
    SurvivesWire minuteAttributes (prvReadAttributes (fun _ _ => none)
      [minPeriodSegment, ⟨AttributeKey.maxPeriod.name, fun _ => 255⟩]) ∧
    ReadsPeriods (fun _ _ => none) [minPeriodSegment] := by
  obtain ⟨hsurvives, hreads⟩ := attributeQueries_iff (fun _ _ => []) (fun _ _ _ => false)
    fun _ _ => none
  constructor
  · refine (hsurvives (fun _ => true) ⟨3, 0, 13, lwm2mMaxId⟩ minuteAttributes _ _
      ⟨by decide, by decide⟩ rfl rfl).2 ⟨fun _ _ => rfl, ?_⟩
    intro segment hsegment _
    rcases List.mem_pair.1 hsegment with rfl | rfl <;> decide
  · refine (hreads [minPeriodSegment]).2 ⟨?_, ?_⟩
    · intro before segment rest hsplit _ htruncated
      have hmem : segment ∈ [minPeriodSegment] := by simp [hsplit]
      obtain rfl := List.mem_singleton.1 hmem
      exact findsInside_iff.1 (by decide) htruncated
    · intro _ segment hsegment key value _ htext hodd
      obtain rfl := List.mem_singleton.1 hsegment
      obtain rfl : key = .minPeriod :=
        attributeKey_unique ((name_starts key).trans ⟨value, htext.symm⟩) (by decide)
      have hvalue : AttributeKey.minPeriod.text ++ [54, 48] = AttributeKey.minPeriod.text ++ value :=
        htext
      obtain rfl := List.append_cancel_left hvalue
      exact hodd.not_numeral ⟨⟨nofun, by simp [isDigit]⟩, by decide⟩

/-- A period of 2^32 + 1 is taken for 1; a segment that clears is read past its end, and clears
nothing where a `=` stands there. -/
theorem attributeQueries_wrong :
    ¬ ReadsPeriods (fun _ _ => none)
        [⟨[112, 109, 105, 110, 61, 52, 50, 57, 52, 57, 54, 55, 50, 57, 55], fun _ => 255⟩] ∧
    ¬ ReadsPeriods (fun _ _ => none) [⟨AttributeKey.maxPeriod.name, fun _ => 255⟩] ∧
    lwm2mDmWriteAttributes (fun _ _ => []) (fun _ _ _ => false) (fun _ => true)
        ⟨3, 0, 13, lwm2mMaxId⟩ { noAttributes with toClear := attrFlagMinPeriod } =
      some [AttributeKey.minPeriod.name] ∧
    ¬ SurvivesWire { noAttributes with toClear := attrFlagMinPeriod }
      (prvReadAttributes (fun _ _ => none) [⟨AttributeKey.minPeriod.name, fun _ => 61⟩]) := by
  refine ⟨?_, ?_, rfl, ?_⟩
  · intro h
    obtain ⟨result, hrun, hperiods⟩ := h
    cases hrun
    have hnumeral := (hperiods _ rfl _ (List.mem_singleton.2 rfl) .minPeriod
      [52, 50, 57, 52, 57, 54, 55, 50, 57, 55] rfl rfl).1
    exact absurd hnumeral.2 (by decide)
  · intro h
    obtain ⟨result, hrun, -⟩ := h
    cases hrun
  · intro h
    obtain ⟨result, inside, hrun, hset, -⟩ := h
    cases hrun
    exact absurd hset (by decide)

end Wakaama
