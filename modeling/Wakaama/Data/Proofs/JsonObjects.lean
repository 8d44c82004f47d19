import Wakaama.Data.Proofs.JsonDocuments

/-!
# The objects that `json_parse` accepts

The members of the object one behind the other. The value of the base time is not looked at.
-/

namespace Wakaama

/-- The key of a boolean in `json.c`, `bv`, and the keys `bt` and `bn`. -/
def jsonBooleanKey : List UInt8 := [98, 118]
def jsonTimeKey : List UInt8 := [98, 116]
def jsonNameKey : List UInt8 := [98, 110]

/-- A member, from behind the brace or the comma in front of it up to the one behind it; whether it
is the array. The records, the base time and the base name are each as they should be. -/
inductive MemberRead (record : List UInt8 → List UInt8 → Prop) (time base : List UInt8 → Prop) :
    List UInt8 → List UInt8 → Bool → Prop
  | array {rest items behind tail : List UInt8} {count : Nat}
    (hbegins : JsonArrayBegins (jsonSkipSpace rest) items)
    (hrecords : JsonItemsTaken record items count behind) (htail : jsonSkipSpace behind = tail) :
    MemberRead record time base rest tail true
  | time {rest more tail : List UInt8} (hbegins : JsonBaseBegins 116 (jsonSkipSpace rest) more)
    (htime : time (memberFront (jsonSkipSpace rest))) (htail : memberBehind more = tail) :
    MemberRead record time base rest tail false
  | base {rest more tail : List UInt8} (hbegins : JsonBaseBegins 110 (jsonSkipSpace rest) more)
    (hbase : base (memberFront (jsonSkipSpace rest))) (htail : memberBehind more = tail) :
    MemberRead record time base rest tail false

/-- The members up to the brace behind the last one; whether the array is among them. -/
inductive ObjectRead (record : List UInt8 → List UInt8 → Prop) (time base : List UInt8 → Prop) :
    List UInt8 → List UInt8 → Bool → Prop
  | last {rest behind : List UInt8} {array : Bool}
    (hmember : MemberRead record time base rest (jsonItemEnd :: behind) array) :
    ObjectRead record time base rest behind array
  | more {rest next behind : List UInt8} {array found : Bool}
    (hmember : MemberRead record time base rest (jsonComma :: next) array)
    (hmore : ObjectRead record time base next behind found) :
    ObjectRead record time base rest behind (array || found)

/-- The base time is written as a pair of a document. -/
def TimeWritten (front : List UInt8) : Prop :=
  ∃ value, PairText jsonBooleanKey jsonTimeKey value front []

/-- The text is one object with an array of records, as it is read. -/
def WholeObjectRead (text : List UInt8) : Prop :=
  ∃ rest behind, jsonSkipSpace text = jsonItemBegin :: rest ∧
    ObjectRead (RecordComplete jsonBooleanKey) TimeWritten (Pairs (PairComplete jsonBooleanKey)) rest
      behind true ∧
    AllSpace behind

/-- The records and the base name are served, the base time is written as a pair, and nothing but
white space is behind the object. -/
def WholeObjectServed (text : List UInt8) : Prop :=
  ∃ rest behind, jsonSkipSpace text = jsonItemBegin :: rest ∧
    ObjectRead (RecordServed jsonBooleanKey) TimeWritten (Pairs (PairServed jsonBooleanKey)) rest
      behind true ∧
    AllSpace behind

/-- The members as `json_parse` takes them. -/
def ObjectTaken : List UInt8 → List UInt8 → Bool → Prop :=
  ObjectRead (RecordTaken jsonBooleanKey) (fun _ => True) (Pairs (BooleanTaken jsonBooleanKey))

section members

variable {record record' : List UInt8 → List UInt8 → Prop}
  {time base time' base' : List UInt8 → Prop}
  {text rest more behind behind' tail tail' : List UInt8} {array array' found found' : Bool}

theorem MemberRead.mono (h : MemberRead record time base rest tail array)
    (hrecord : ∀ text behind, jsonItemBehind text = some behind → record text behind →
      record' text behind)
    (htime : ∀ front, time front → time' front) (hbase : ∀ front, base front → base' front) :
    MemberRead record' time' base' rest tail array := by
  cases h with
  | array hbegins hrecords htail => exact .array hbegins (hrecords.mono hrecord) htail
  | time hbegins hhere htail => exact .time hbegins (htime _ hhere) htail
  | base hbegins hhere htail => exact .base hbegins (hbase _ hhere) htail

theorem ObjectRead.mono (h : ObjectRead record time base rest behind found)
    (hrecord : ∀ text behind, jsonItemBehind text = some behind → record text behind →
      record' text behind)
    (htime : ∀ front, time front → time' front) (hbase : ∀ front, base front → base' front) :
    ObjectRead record' time' base' rest behind found := by
  induction h with
  | last hmember => exact .last (hmember.mono hrecord htime hbase)
  | more hmember _ ih => exact .more (hmember.mono hrecord htime hbase) ih

variable {key : List UInt8} {kind : UInt8}

theorem JsonBaseBegins.unique {kind' : UInt8} {more' : List UInt8}
    (h : JsonBaseBegins kind key more) (h' : JsonBaseBegins kind' key more') :
    kind = kind' ∧ more = more' := by
  have heq := h.1.symm.trans h'.1
  simp only [List.cons.injEq, true_and] at heq
  exact heq

theorem JsonArrayBegins.not_base {items : List UInt8} (h : JsonArrayBegins key items) :
    ¬ JsonBaseBegins kind key more := by
  intro h'
  obtain ⟨more', hkey⟩ := h.key
  have heq := hkey.symm.trans h'.1
  simp only [List.cons.injEq, true_and] at heq
  exact absurd heq.1 (by decide)

theorem MemberRead.and (h : MemberRead record time base rest tail array)
    (h' : MemberRead record' time' base' rest tail' array') :
    tail = tail' ∧ array = array' ∧
      MemberRead (fun text behind => record text behind ∧ record' text behind)
        (fun front => time front ∧ time' front) (fun front => base front ∧ base' front) rest tail
        array := by
  cases h with
  | array hbegins hrecords htail =>
    cases h' with
    | array hbegins' hrecords' htail' =>
      obtain rfl := hbegins.unique hbegins'
      obtain ⟨rfl, hboth⟩ := hrecords.and hrecords'
      exact ⟨htail.symm.trans htail', rfl, .array hbegins hboth htail⟩
    | time hbegins' => exact absurd hbegins' hbegins.not_base
    | base hbegins' => exact absurd hbegins' hbegins.not_base
  | time hbegins hhere htail =>
    cases h' with
    | array hbegins' => exact absurd hbegins hbegins'.not_base
    | time hbegins' hhere' htail' =>
      obtain ⟨-, rfl⟩ := hbegins.unique hbegins'
      exact ⟨htail.symm.trans htail', rfl, .time hbegins ⟨hhere, hhere'⟩ htail⟩
    | base hbegins' => exact absurd (hbegins.unique hbegins').1 (by decide)
  | base hbegins hhere htail =>
    cases h' with
    | array hbegins' => exact absurd hbegins hbegins'.not_base
    | time hbegins' => exact absurd (hbegins.unique hbegins').1 (by decide)
    | base hbegins' hhere' htail' =>
      obtain ⟨-, rfl⟩ := hbegins.unique hbegins'
      exact ⟨htail.symm.trans htail', rfl, .base hbegins ⟨hhere, hhere'⟩ htail⟩

theorem jsonComma_end : jsonComma ≠ jsonItemEnd := by decide

theorem ObjectRead.and (h : ObjectRead record time base rest behind found)
    (h' : ObjectRead record' time' base' rest behind' found') :
    ObjectRead (fun text behind => record text behind ∧ record' text behind)
      (fun front => time front ∧ time' front) (fun front => base front ∧ base' front) rest behind
      found := by
  induction h generalizing behind' found' with
  | last hmember =>
    cases h' with
    | last hmember' => exact .last (hmember.and hmember').2.2
    | more hmember' _ =>
      exact absurd (List.cons.inj (hmember.and hmember').1).1.symm jsonComma_end
  | more hmember _ ih =>
    cases h' with
    | last hmember' => exact absurd (List.cons.inj (hmember.and hmember').1).1 jsonComma_end
    | more hmember' hmore' =>
      obtain ⟨heq, -, hboth⟩ := hmember.and hmember'
      obtain rfl := (List.cons.inj heq).2
      exact .more hboth (ih hmore')

/-! ## Documents -/

theorem PairText.widen {token value front gap : List UInt8} (h : PairText key token value front [])
    (hgap : AllSpace gap) (tail : List UInt8) :
    PairText key token value (gap ++ (front ++ tail)) tail := by
  cases h with
  | @intro front gap' gap'' close _ hfront hgap' hgap'' hclose htoken hvalue =>
    have hshape : gap ++ ((front ++ jsonQuote :: (token ++ jsonQuote ::
        (gap' ++ jsonColon :: (gap'' ++ (value ++ (close ++ [])))))) ++ tail) =
        (gap ++ front) ++ jsonQuote :: (token ++ jsonQuote ::
          (gap' ++ jsonColon :: (gap'' ++ (value ++ (close ++ tail))))) := by simp
    rw [hshape]
    refine .intro tail (fun sign hmem => ?_) hgap' hgap'' hclose htoken hvalue
    obtain hmem | hmem := List.mem_append.1 hmem
    · exact hgap sign hmem
    · exact hfront sign hmem

theorem PairText.mem_tail {token value tail : List UInt8} (h : PairText key token value text tail) :
    ∀ sign ∈ tail, sign ∈ text := by
  intro sign hmem
  cases h with
  | intro => simp [hmem]

theorem Pairs.single (h : Pairs (PairComplete key) (memberFront text)) :
    ∃ token value, PairText key token value (memberFront text) [] := by
  cases h with
  | last _ hfits =>
    rw [PairComplete, if_pos rfl] at hfits
    exact ⟨_, _, hfits⟩
  | more _ hfits hne _ =>
    rw [PairComplete, if_neg hne] at hfits
    exact absurd (hfits.mem_tail jsonComma List.mem_cons_self) jsonComma_front

theorem JsonBaseBegins.shape (h : JsonBaseBegins kind key more)
    (hkind : ¬ isMemberEnd kind = true) : key = memberFront key ++ memberBehind more := by
  have hbehind := (@memberFront_key more kind hkind).2
  rw [← h.1] at hbehind
  rw [← hbehind, memberFront_behind]

theorem MemberRead.document
    (h : MemberRead (RecordComplete jsonBooleanKey) TimeWritten
      (Pairs (PairComplete jsonBooleanKey)) rest tail array) :
    MemberText jsonBooleanKey rest tail array := by
  obtain ⟨front, hrest, hfront⟩ := jsonSkipSpace_split rest
  cases h with
  | array hbegins hrecords htail =>
    rename_i items behind count
    obtain ⟨close, hbehind, hclose⟩ := jsonSkipSpace_split behind
    rw [htail] at hbehind
    rw [hrest]
    generalize jsonSkipSpace rest = key at hbegins
    cases hbegins with
    | @intro more colon bracket _ hcolon hbracket _ =>
      obtain ⟨gap, hmore, hgap⟩ := jsonSkipSpace_sign_split hcolon
      obtain ⟨gap', hcolon', hgap'⟩ := jsonSkipSpace_sign_split hbracket
      obtain ⟨gap'', hitems, hgap''⟩ := jsonSkipSpace_split bracket
      rw [hmore, hcolon', hitems]
      exact .array hfront hgap hgap' hgap'' hclose (hbehind ▸ hrecords.records)
  | time hbegins htime htail =>
    obtain ⟨value, hpair⟩ := htime
    rw [hrest, hbegins.shape kind_time, htail]
    exact .pair (hpair.widen hfront tail)
  | base hbegins hbase htail =>
    obtain ⟨token, value, hpair⟩ := hbase.single
    rw [hrest, hbegins.shape kind_name, htail]
    exact .pair (hpair.widen hfront tail)

theorem WholeObjectRead.document (h : WholeObjectRead text) :
    WholeObjectText jsonBooleanKey text := by
  obtain ⟨rest, behind, hbegin, hobject, hbehind⟩ := h
  obtain ⟨front, htext, hfront⟩ := jsonSkipSpace_sign_split hbegin
  refine ⟨front, rest, behind, htext, hfront, ?_, hbehind⟩
  clear hbegin htext
  generalize true = found at hobject
  induction hobject with
  | last hmember => exact .last hmember.document
  | more hmember _ ih => exact .more hmember.document (ih hbehind)

theorem objectComplete_iff (htaken : ObjectTaken rest behind found) :
    ObjectRead (RecordComplete jsonBooleanKey) TimeWritten (Pairs (PairComplete jsonBooleanKey))
        rest behind' found' ↔
      ObjectRead (RecordServed jsonBooleanKey) TimeWritten (Pairs (PairServed jsonBooleanKey))
        rest behind' found' := by
  constructor
  · intro hcomplete
    refine (hcomplete.and htaken).mono (fun text behind hitem hboth => ?_) (fun _ h => h.1)
      fun front hboth => ?_
    · exact (recordComplete_iff hitem hboth.2).1 hboth.1
    · exact (hboth.1.and hboth.2).mono fun text token value rest hsplit h =>
        (pairComplete_iff hsplit h.2).1 h.1
  · intro hserved
    refine (hserved.and htaken).mono (fun text behind hitem hboth => ?_) (fun _ h => h.1)
      fun front hboth => ?_
    · exact (recordComplete_iff hitem hboth.2).2 hboth.1
    · exact (hboth.1.and hboth.2).mono fun text token value rest hsplit h =>
        (pairComplete_iff hsplit h.2).2 h.1

end members

/-! ## What `json_parse` takes -/

section taken

variable {text rest more : List UInt8} {seen seen' : JsonSeen} {quote index last : Nat}

theorem jsonPairAt_boolean {record record' : JsonRecord} {token value : List UInt8}
    (h : jsonPairAt record token value = .ok record') :
    BooleanTaken jsonBooleanKey text token value rest := by
  intro htoken
  subst htoken
  simp only [jsonPairAt, jsonBooleanKey, ne_eq, not_true_eq_false, if_false, if_true] at h
  split at h
  · cases h
  · split at h
    · rename_i htrue
      exact .inl htrue
    · split at h
      · rename_i hfalse
        exact .inr hfalse
      · cases h

theorem jsonParseRecord_pairs (size : Nat) : ∀ {record record' : JsonRecord} {text : List UInt8},
    text.length < size → jsonParseRecord record text = .ok record' →
    Pairs (BooleanTaken jsonBooleanKey) text := by
  induction size with
  | zero =>
    intro record record' text hsize
    exact absurd hsize (Nat.not_lt_zero _)
  | succ size ih =>
    intro record record' text hsize h
    cases hsplit : jsonSplit text with
    | none =>
      rw [jsonParseRecord_none hsplit] at h
      cases h
    | some found =>
      obtain ⟨token, value, rest⟩ := found
      have hless := jsonSplit_rest hsplit
      rw [jsonParseRecord_some hsplit, bind_eq_ok] at h
      obtain ⟨next, hpair, h⟩ := h
      have htaken := @jsonPairAt_boolean text rest _ _ _ _ hpair
      split at h
      · rename_i hnil
        rw [hnil] at hsplit htaken
        exact .last hsplit htaken
      · rename_i hne
        exact .more hsplit htaken hne (ih (by omega) h)

theorem JsonRecordTaken.pairs {behind : List UInt8} (h : JsonRecordTaken text behind) :
    RecordTaken jsonBooleanKey text behind := by
  obtain ⟨record, hrecord⟩ := h
  exact jsonParseRecord_pairs _ (Nat.lt_succ_self _) hrecord

theorem jsonArrayAt_read {records : List JsonRecord} (hdrop : text.drop index = jsonQuote :: more)
    (hmin : jsonMinArrayLen ≤ more.length + 2)
    (hrun : jsonArrayAt text text.length index = .ok (records, last)) :
    ∃ items count behind, JsonArrayBegins (jsonQuote :: 101 :: jsonQuote :: more) items ∧
      JsonItemsTaken (RecordTaken jsonBooleanKey) items count behind ∧
      text.drop last = jsonFooter :: behind := by
  have hwhole := drop_front_whole hdrop
  have hinside := jsonArrayAt_inside (Nat.le_refl _) hwhole hmin fun items hbegins hfront => by
    have hover := jsonArrayAt_over (Nat.le_refl _) hwhole hbegins hfront
    rw [hrun] at hover
    cases hover
  rw [hrun] at hinside
  obtain ⟨items, count, behind, hbegins, -, hrecords, hlast⟩ := hinside
  rw [List.take_length] at hlast
  exact ⟨items, count, behind, hbegins,
    hrecords.mono fun text behind _ htaken => htaken.pairs, hlast⟩

theorem memberEnd_drop {key : List UInt8} (hdrop : text.drop index = key)
    (hpos : 0 < (memberFront key).length) (hne : memberBehind key ≠ []) :
    ∃ sign behind, text.drop (index + (memberFront key).length - 1) = sign :: behind ∧
      jsonSkipSpace behind = memberBehind key := by
  obtain ⟨sign, behind, hbehind⟩ := List.exists_cons_of_ne_nil hne
  obtain ⟨-, front, hlast⟩ :=
    member_last (Nat.le_refl _) (drop_front_whole hdrop) hpos hbehind
  rw [List.take_length] at hlast
  exact ⟨front, sign :: behind, hlast, by rw [jsonSkipSpace_behind hbehind, hbehind]⟩

theorem jsonTimeAt_read (hdrop : text.drop index = jsonQuote :: more)
    (hrun : jsonTimeAt text text.length index = .ok last) :
    ∃ sign behind, text.drop last = sign :: behind ∧
      jsonSkipSpace behind = memberBehind more := by
  have hinside := drop_inside hdrop
  have hquote : ¬ isMemberEnd jsonQuote = true := by decide
  have hpos : 0 < (memberFront (jsonQuote :: more)).length := by
    rw [(memberFront_sign hquote).1]
    exact Nat.succ_pos _
  obtain ⟨hcut, hend⟩ := jsonTimeAt_front (Nat.le_refl _) (drop_front_whole hdrop) (by omega)
  by_cases hnil : memberBehind (jsonQuote :: more) = []
  · rw [hcut hnil] at hrun
    cases hrun
  · rw [hend hpos hnil] at hrun
    obtain rfl := Except.ok.inj hrun
    obtain ⟨sign, behind, hlast, hspace⟩ := memberEnd_drop hdrop hpos hnil
    rw [(memberFront_sign hquote).2] at hspace
    exact ⟨sign, behind, hlast, hspace⟩

theorem jsonBaseNameAt_read {base : Nat × Nat}
    (hbegins : JsonBaseBegins 110 (jsonSkipSpace rest) more)
    (hdrop : text.drop index = jsonSkipSpace rest)
    (hrun : jsonBaseNameAt text text.length index = .ok (base, last)) :
    (∃ sign behind, text.drop last = sign :: behind ∧
      jsonSkipSpace behind = memberBehind more) ∧
    Pairs (BooleanTaken jsonBooleanKey) (memberFront (jsonSkipSpace rest)) := by
  obtain ⟨hfront, hbehind⟩ := @memberFront_key more _ kind_name
  rw [← hbegins.1] at hfront hbehind
  have hinside : index ≤ text.length := by
    have hcons := hdrop
    rw [hbegins.1] at hcons
    have hlt := drop_inside hcons
    omega
  obtain ⟨hfound, hwrong⟩ := @itemLenFrom_front text index _ 0 (by decide) hdrop (by omega)
  rw [Nat.zero_add] at hfound hwrong
  by_cases hend : memberBehind (jsonSkipSpace rest) ≠ [] ∧
      (memberFront (jsonSkipSpace rest)).length < 2 ^ 31
  · obtain ⟨hne, hint⟩ := hend
    have hpos : 0 < (memberFront (jsonSkipSpace rest)).length := by
      rw [hfront]
      exact Nat.succ_pos _
    obtain ⟨sign, behind, hcons⟩ := List.exists_cons_of_ne_nil hne
    obtain ⟨hnone, hsome⟩ := jsonBaseNameAt_front hdrop hcons hint
    cases hsplit : jsonSplit (memberFront (jsonSkipSpace rest)) with
    | none =>
      rw [hnone hsplit] at hrun
      cases hrun
    | some found =>
      obtain ⟨token, value, tail⟩ := found
      obtain ⟨base', hresult, -⟩ := hsome (by rw [hsplit]; exact Option.some_ne_none _)
      rw [hrun] at hresult
      obtain ⟨-, rfl⟩ := Prod.mk.inj (Except.ok.inj hresult)
      obtain ⟨last, behind, hlast, hspace⟩ := memberEnd_drop hdrop hpos hne
      rw [hbehind] at hspace
      refine ⟨⟨last, behind, hlast, hspace⟩, ?_⟩
      obtain ⟨front, gap, gap', behind, hparts⟩ := jsonSplit_parts hsplit
      -- The key is the one that the code has found, and no comma is in front of the end.
      have htoken : token = jsonNameKey := by
        have heq := hparts.text_eq
        rw [hfront] at heq
        have hnil : front = [] := by
          cases front with
          | nil => rfl
          | cons first front =>
            have hspace := hparts.front first List.mem_cons_self
            rw [← (List.cons.inj heq).1] at hspace
            exact absurd hspace (by decide)
        rw [hnil, List.nil_append] at heq
        exact (@firstQuote_unique jsonNameKey token _ _ (by decide) hparts.token
          (List.cons.inj heq).2).1.symm
      have htail : tail = [] := by
        by_contra hne
        obtain ⟨before, hbefore⟩ : ∃ before, behind = before ++ jsonComma :: tail := by
          cases hparts.value with
          | @quoted body gap'' tail' _ _ _ hend =>
            obtain ⟨-, hnil⟩ | rfl := hend
            · exact absurd hnil hne
            · exact ⟨jsonQuote :: (body ++ jsonQuote :: gap''), by simp⟩
          | @plain first more gap'' tail' _ _ _ _ _ hend =>
            obtain ⟨-, hnil⟩ | rfl := hend
            · exact absurd hnil hne
            · exact ⟨first :: (more ++ gap''), by simp⟩
        refine absurd ?_ (@jsonComma_front (jsonSkipSpace rest))
        rw [hparts.text_eq, hbefore]
        simp
      rw [htail] at hsplit
      refine .last hsplit fun heq => ?_
      rw [htoken] at heq
      exact absurd heq (by decide)
  · have hout : ¬ ReadsInside (jsonBaseNameAt text text.length index) := by
      unfold jsonBaseNameAt
      exact not_inside_bind (hwrong hend)
    rw [hrun] at hout
    exact absurd trivial hout

theorem jsonMemberAt_read {key : UInt8} {found : { seen' : JsonSeen // seen'.left < seen.left }}
    (hdrop : text.drop quote = jsonSkipSpace rest)
    (hkey : jsonSkipSpace rest = jsonQuote :: key :: more)
    (hrun : jsonMemberAt text text.length seen key (quote + 1) = .ok (found, last)) :
    ∃ sign behind array, text.drop last = sign :: behind ∧
      MemberRead (RecordTaken jsonBooleanKey) (fun _ => True) (Pairs (BooleanTaken jsonBooleanKey))
        rest (jsonSkipSpace behind) array ∧
      found.val.records.isSome = (seen.records.isSome || array) := by
  have hquote := hdrop
  rw [hkey] at hquote
  unfold jsonMemberAt at hrun
  rw [sizeLess_key hquote (List.cons_ne_nil _ _)] at hrun
  have hnext := drop_next (drop_next hquote)
  split at hrun
  · -- The array.
    rename_i harray
    subst harray
    split at hrun
    · cases hrun
    · rename_i hmin
      rw [bind_eq_ok] at hrun
      obtain ⟨sign, hsign, hrun⟩ := hrun
      cases more with
      | nil => exact absurd (show 1 < jsonMinArrayLen by decide) hmin
      | cons first more =>
        rw [peekAt_drop hnext] at hsign
        obtain rfl := Except.ok.inj hsign
        split at hrun
        · cases hrun
        · rename_i hfirst
          obtain rfl := Decidable.not_not.1 hfirst
          split at hrun
          · rename_i hnone
            rw [bind_eq_ok] at hrun
            obtain ⟨⟨records, last'⟩, harray, hrun⟩ := hrun
            obtain ⟨rfl, rfl⟩ := Prod.mk.inj (Except.ok.inj hrun)
            simp only [List.length_cons] at hmin
            obtain ⟨items, count, behind, hbegins, hrecords, hlast⟩ :=
              jsonArrayAt_read hnext (by omega) harray
            rw [← hkey] at hbegins
            refine ⟨jsonFooter, behind, true, hlast, .array hbegins hrecords rfl, ?_⟩
            rw [Bool.or_true]
            rfl
          · cases hrun
  · split at hrun
    · rename_i hbase
      subst hbase
      split at hrun
      · cases hrun
      · rename_i hmin
        rw [bind_eq_ok] at hrun
        obtain ⟨kind, hkind, hrun⟩ := hrun
        match more, hmin, hkey, hquote, hnext with
        | [], hmin, _, _, _ => exact absurd (show 1 < jsonMinBxLen by decide) hmin
        | [_], hmin, _, _, _ => exact absurd (show 2 < jsonMinBxLen by decide) hmin
        | first :: second :: more, hmin, hkey, hquote, hnext =>
          have hsecond := drop_next hnext
          rw [peekAt_drop hnext] at hkind
          obtain rfl := Except.ok.inj hkind
          have hmin' : jsonMinBxLen ≤ more.length + 3 := by
            simp only [List.length_cons] at hmin
            omega
          split at hrun
          · rename_i htime
            subst htime
            rw [bind_eq_ok] at hrun
            obtain ⟨sign, hsign, hrun⟩ := hrun
            rw [peekAt_drop hsecond] at hsign
            obtain rfl := Except.ok.inj hsign
            split at hrun
            · cases hrun
            · rename_i hfirst
              obtain rfl := Decidable.not_not.1 hfirst
              split at hrun
              · rw [bind_eq_ok] at hrun
                obtain ⟨last', htime, hrun⟩ := hrun
                obtain ⟨rfl, rfl⟩ := Prod.mk.inj (Except.ok.inj hrun)
                obtain ⟨sign, behind, hlast, hspace⟩ := jsonTimeAt_read hsecond htime
                refine ⟨sign, behind, false, hlast, .time ⟨hkey, hmin'⟩ trivial hspace.symm, ?_⟩
                rw [Bool.or_false]
              · cases hrun
          · split at hrun
            · rename_i hname
              subst hname
              rw [bind_eq_ok] at hrun
              obtain ⟨sign, hsign, hrun⟩ := hrun
              rw [peekAt_drop hsecond] at hsign
              obtain rfl := Except.ok.inj hsign
              split at hrun
              · cases hrun
              · rename_i hfirst
                obtain rfl := Decidable.not_not.1 hfirst
                split at hrun
                · rw [bind_eq_ok] at hrun
                  obtain ⟨⟨base, last'⟩, hbase, hrun⟩ := hrun
                  obtain ⟨rfl, rfl⟩ := Prod.mk.inj (Except.ok.inj hrun)
                  obtain ⟨⟨sign, behind, hlast, hspace⟩, hpairs⟩ :=
                    jsonBaseNameAt_read ⟨hkey, hmin'⟩ hdrop hbase
                  refine ⟨sign, behind, false, hlast, .base ⟨hkey, hmin'⟩ hpairs hspace.symm, ?_⟩
                  rw [Bool.or_false]
                · cases hrun
            · cases hrun
    · cases hrun

theorem jsonMembersAt_read (left : Nat) :
    ∀ {seen result : JsonSeen} {index : Nat} {sign : UInt8} {rest : List UInt8}, seen.left < left →
      text.drop index = sign :: rest → jsonMembersAt text text.length seen index = .ok result →
      ∃ behind found, ObjectTaken rest behind found ∧
        result.records.isSome = (seen.records.isSome || found) := by
  induction left with
  | zero =>
    intro seen result index sign rest hleft
    exact absurd hleft (Nat.not_lt_zero _)
  | succ left ih =>
    intro seen result index sign rest hleft hdrop hrun
    rw [jsonMembersAt] at hrun
    by_cases hspace : jsonSkipSpace rest = []
    · rw [goToNextChar_end (Nat.le_refl _) (drop_front_whole hdrop) hspace] at hrun
      cases hrun
    obtain ⟨quote, hgo, hquote⟩ :=
      goToNextChar_next (Nat.le_refl _) (drop_front_whole hdrop) hspace
    rw [List.take_length] at hquote
    obtain ⟨first, more, hcons⟩ := List.exists_cons_of_ne_nil hspace
    have hfirst := hquote
    rw [hcons] at hfirst
    rw [hgo, ok_bind, peekAt_drop hfirst, ok_bind] at hrun
    split at hrun
    · cases hrun
    · rename_i hsign
      obtain rfl := Decidable.not_not.1 hsign
      split at hrun
      · cases hrun
      · rw [bind_eq_ok] at hrun
        obtain ⟨key, hkey, hrun⟩ := hrun
        cases more with
        | nil =>
          have hcut : text.length ≤ quote.val + 1 := by
            have hlength := congrArg List.length hfirst
            rw [List.length_drop, List.length_singleton] at hlength
            omega
          rw [peekAt_end hcut] at hkey
          cases hkey
        | cons first more =>
          rw [peekAt_drop (drop_next hfirst)] at hkey
          obtain rfl := Except.ok.inj hkey
          rw [bind_eq_ok] at hrun
          obtain ⟨⟨seen', last⟩, hmember, hrun⟩ := hrun
          obtain ⟨sign', behind, array, hlast, hread, hrecords⟩ :=
            jsonMemberAt_read hquote hcons hmember
          dsimp only at hrun
          by_cases hspace' : jsonSkipSpace behind = []
          · rw [goToNextChar_end (Nat.le_refl _) (drop_front_whole hlast) hspace'] at hrun
            cases hrun
          obtain ⟨next, hgo', hnext⟩ :=
            goToNextChar_next (Nat.le_refl _) (drop_front_whole hlast) hspace'
          rw [List.take_length] at hnext
          obtain ⟨found, behind', hcons'⟩ := List.exists_cons_of_ne_nil hspace'
          rw [hcons'] at hnext hread
          rw [hgo', ok_bind, peekAt_drop hnext, ok_bind] at hrun
          split at hrun
          · rename_i hcomma
            subst hcomma
            have hless := seen'.property
            obtain ⟨end', found', hmore, hresult⟩ := ih (by omega) hnext hrun
            refine ⟨end', array || found', .more hread hmore, ?_⟩
            rw [hresult, hrecords, Bool.or_assoc]
          · split at hrun
            · rename_i hend
              subst hend
              obtain rfl := Except.ok.inj hrun
              exact ⟨behind', array, .last hread, hrecords⟩
            · cases hrun

theorem jsonParseAt_taken {uri : Option Lwm2mUri} {result : Option Lwm2mUri × List JsonRecord}
    (h : jsonParseAt uri text = .ok (some result)) :
    ∃ rest behind, jsonSkipSpace text = jsonItemBegin :: rest ∧ ObjectTaken rest behind true := by
  by_cases hfirst : ∃ first, jsonSkipSpace text = jsonItemBegin :: first
  · obtain ⟨first, hfirst⟩ := hfirst
    obtain ⟨begin, hbegin, hparse⟩ := @jsonParseAt_begins text uri first hfirst
    rw [hparse, bind_eq_ok] at h
    obtain ⟨seen, hmembers, hfinish⟩ := h
    obtain ⟨behind, found, hobject, hrecords⟩ :=
      jsonMembersAt_read _ (Nat.lt_succ_self _) hbegin hmembers
    refine ⟨first, behind, hfirst, ?_⟩
    unfold jsonFinishAt at hfinish
    split at hfinish
    · cases hfinish
    · rename_i records hsome
      rw [hsome] at hrecords
      have hfound : found = true := hrecords.symm
      rw [← hfound]
      exact hobject
  · rw [jsonParseAt_other fun first hcons => hfirst ⟨first, hcons⟩] at h
    cases h

theorem wholeObjectRead_iff {uri : Option Lwm2mUri} {result : Option Lwm2mUri × List JsonRecord}
    (h : jsonParseAt uri text = .ok (some result)) :
    WholeObjectRead text ↔ WholeObjectServed text := by
  obtain ⟨rest, behind, hbegin, htaken⟩ := jsonParseAt_taken h
  constructor
  · intro ⟨rest', behind', hbegin', hobject, hbehind⟩
    rw [hbegin] at hbegin'
    obtain rfl := (List.cons.inj hbegin').2
    exact ⟨rest, behind', hbegin, (objectComplete_iff htaken).1 hobject, hbehind⟩
  · intro ⟨rest', behind', hbegin', hobject, hbehind⟩
    rw [hbegin] at hbegin'
    obtain rfl := (List.cons.inj hbegin').2
    exact ⟨rest, behind', hbegin, (objectComplete_iff htaken).2 hobject, hbehind⟩

end taken

/-! ## Both parsers -/

/-- A text that a parser takes is read as a complete document, and is one, exactly where its pairs
are served, the base time of an object is written as a pair, and nothing but white space is behind
the end. -/
theorem jsonDocuments_iff (textToFloat : List UInt8 → Option UInt64) (uri : Option Lwm2mUri)
    (text : List UInt8) :
    (∀ records, senmlJsonParseAt textToFloat text = .ok records →
      (ArrayRead senmlBoolean text ∧ ArrayText senmlBoolean text ↔
        ArrayServed senmlBoolean text)) ∧
    ∀ result, jsonParseAt uri text = .ok (some result) →
      (WholeObjectRead text ∧ WholeObjectText jsonBooleanKey text ↔ WholeObjectServed text) := by
  constructor
  · intro records h
    rw [← arrayRead_iff h]
    exact ⟨fun hboth => hboth.1, fun hread => ⟨hread, hread.document⟩⟩
  · intro result h
    rw [← wholeObjectRead_iff h]
    exact ⟨fun hboth => hboth.1, fun hread => ⟨hread, hread.document⟩⟩

theorem any_ok {ε α : Type} {x : Except ε α} {p : α → Bool} (h : x.toOption.any p = true) :
    ∃ a, x = .ok a ∧ p a = true := by
  cases x with
  | error e => cases h
  | ok a => exact ⟨a, rfl, h⟩

/-- `[{"n":"/1/0/1","vb":true}]` -/
def arraySample : List UInt8 :=
  [91, 123, 34, 110, 34, 58, 34, 47, 49, 47, 48, 47, 49, 34, 44, 34, 118, 98, 34, 58, 116, 114, 117,
    101, 125, 93]

theorem jsonDocuments_sample :
    ∃ records, senmlJsonParseAt (fun _ => none) arraySample = .ok records ∧
      (ArrayRead senmlBoolean arraySample ∧ ArrayText senmlBoolean arraySample ↔
        ArrayServed senmlBoolean arraySample) := by
  have haccepted : (senmlJsonParseAt (fun _ => none) arraySample).toOption.any (fun _ => true) =
      true := by decide +kernel
  obtain ⟨records, hrun, -⟩ := any_ok haccepted
  exact ⟨records, hrun, (jsonDocuments_iff (fun _ => none) none arraySample).1 records hrun⟩

/-! ## Text behind the end -/

theorem getLast_closed {text front behind : List UInt8} {close sign : UInt8}
    (h : text = front ++ close :: behind) (hbehind : AllSpace behind)
    (hlast : text.getLast? = some sign) : sign = close ∨ prvIsWhiteSpace sign = true := by
  rw [h, List.getLast?_append] at hlast
  cases hspace : behind.getLast? with
  | none =>
    rw [List.getLast?_eq_none_iff] at hspace
    rw [hspace] at hlast
    exact .inl (Option.some.inj hlast).symm
  | some last =>
    rw [List.getLast?_cons, hspace] at hlast
    obtain rfl := Option.some.inj hlast
    exact .inr (hbehind _ (List.mem_of_getLast? hspace))

variable {key : List UInt8}

theorem RecordsText.footer {items behind : List UInt8} (h : RecordsText key items behind) :
    ∃ front, items = front ++ jsonFooter :: behind := by
  induction h with
  | @last content gap behind _ _ =>
    exact ⟨jsonItemBegin :: (content ++ jsonItemEnd :: gap), by simp⟩
  | @more content gap gap' rest behind _ _ _ _ ih =>
    obtain ⟨front, rfl⟩ := ih
    exact ⟨jsonItemBegin :: (content ++ jsonItemEnd :: (gap ++ jsonComma :: (gap' ++ front))),
      by simp⟩

theorem MemberText.tail {text tail : List UInt8} {array : Bool}
    (h : MemberText key text tail array) : ∃ front, text = front ++ tail := by
  cases h with
  | @array front gap gap' gap'' close items _ _ _ _ _ _ hrecords =>
    obtain ⟨before, rfl⟩ := hrecords.footer
    exact ⟨front ++ jsonQuote :: 101 :: jsonQuote ::
      (gap ++ jsonColon :: (gap' ++ 91 :: (gap'' ++ (before ++ jsonFooter :: close)))), by simp⟩
  | pair hpair =>
    rename_i token value
    cases hpair with
    | @intro front gap gap' gap'' _ _ _ _ _ _ _ =>
      exact ⟨front ++ jsonQuote ::
        (token ++ jsonQuote :: (gap ++ jsonColon :: (gap' ++ (value ++ gap'')))), by simp⟩

theorem ObjectText.brace {text behind : List UInt8} {found : Bool}
    (h : ObjectText key text behind found) : ∃ front, text = front ++ jsonItemEnd :: behind := by
  induction h with
  | last hmember => exact hmember.tail
  | more hmember _ ih =>
    obtain ⟨front, rfl⟩ := hmember.tail
    obtain ⟨before, rfl⟩ := ih
    exact ⟨front ++ jsonComma :: before, by simp⟩

/-- `[{"n":"/1/0/1","vb":t}]x` -/
def trailingArray : List UInt8 :=
  [91, 123, 34, 110, 34, 58, 34, 47, 49, 47, 48, 47, 49, 34, 44, 34, 118, 98, 34, 58, 116, 125, 93,
    120]

/-- `{"e":[{"n":"/1/0/1","bv":t}]}x` -/
def trailingObject : List UInt8 :=
  [123, 34, 101, 34, 58, 91, 123, 34, 110, 34, 58, 34, 47, 49, 47, 48, 47, 49, 34, 44, 34, 98, 118,
    34, 58, 116, 125, 93, 125, 120]

/-- Both parsers take a text with a letter behind the end, and make a tree of it. -/
theorem trailingText_taken :
    (∃ records tree, senmlJsonParseAt (fun _ => none) trailingArray = .ok records ∧
      senmlJsonConvertRecord records = .ok tree ∧ tree ≠ [] ∧
      ¬ ArrayText senmlBoolean trailingArray) ∧
    ∃ base records tree, jsonParseAt none trailingObject = .ok (some (base, records)) ∧
      jsonConvertRecord (fun _ => none) base records = .ok tree ∧ tree ≠ [] ∧
      ¬ WholeObjectText jsonBooleanKey trailingObject := by
  constructor
  · have haccepted : (senmlJsonParseAt (fun _ => none) trailingArray).toOption.any
        (fun records => (senmlJsonConvertRecord records).toOption.any fun tree => !tree.isEmpty) =
        true := by decide +kernel
    obtain ⟨records, hrun, htree⟩ := any_ok haccepted
    obtain ⟨tree, htree, hsome⟩ := any_ok htree
    have hne : tree ≠ [] := by
      intro hnil
      rw [hnil] at hsome
      cases hsome
    refine ⟨records, tree, hrun, htree, hne, ?_⟩
    intro ⟨front, gap, items, behind, htext, _, _, hrecords, hbehind⟩
    obtain ⟨before, rfl⟩ := hrecords.footer
    have hend := @getLast_closed trailingArray (front ++ 91 :: (gap ++ before)) behind jsonFooter 120
      (by rw [htext]; simp) hbehind rfl
    exact absurd hend (by decide)
  · have haccepted : (jsonParseAt none trailingObject).toOption.any (fun result =>
        result.any fun result => (jsonConvertRecord (fun _ => none) result.1 result.2).toOption.any
          fun tree => !tree.isEmpty) = true := by decide +kernel
    obtain ⟨result, hrun, hresult⟩ := any_ok haccepted
    cases result with
    | none => cases hresult
    | some result =>
      obtain ⟨base, records⟩ := result
      obtain ⟨tree, htree, hsome⟩ := any_ok hresult
      have hne : tree ≠ [] := by
        intro hnil
        rw [hnil] at hsome
        cases hsome
      refine ⟨base, records, tree, hrun, htree, hne, ?_⟩
      intro ⟨front, members, behind, htext, _, hobject, hbehind⟩
      obtain ⟨before, rfl⟩ := hobject.brace
      have hend := @getLast_closed trailingObject (front ++ jsonItemBegin :: before) behind
        jsonItemEnd 120 (by rw [htext]; simp) hbehind rfl
      exact absurd hend (by decide)

end Wakaama
