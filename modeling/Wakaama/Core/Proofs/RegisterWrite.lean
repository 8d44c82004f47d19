import Wakaama.Core.Proofs.RegisterPayload
import Wakaama.Misc.Outcome

/-!
# The writing pass of the registration payload

With room for the text and a NUL each piece is written as it is meant. Whatever the room, an
object that is written leaves all the marks `<` and `/` of its links in the buffer, so that an
OSCORE object cannot go unseen.
-/

namespace Wakaama

variable {Node : Type}

/-! ## With room -/

variable {bufferLen : Nat} {text str template before text' : List UInt8} {object : Lwm2mObject Node}
  {ident : Node → UInt16} {altPath : Option (List UInt8)} {objectList : List (Lwm2mObject Node)}

theorem roomBehind_le (h : text.length ≤ bufferLen) :
    roomBehind bufferLen text = .ok (bufferLen - text.length) := if_pos h

theorem writeString_fits (hsmall : bufferLen < 2 ^ 31)
    (h : text.length + str.length + 1 ≤ bufferLen) :
    writeString bufferLen str text = .ok (text ++ str) := by
  have hroom : text.length ≤ bufferLen := by omega
  have hstr : str.length < 2 ^ 31 := by omega
  have hcopied : utilsStrncpy (bufferLen - text.length) str = str := by
    rw [utilsStrncpy, if_neg (by omega), List.take_of_length_le (by omega)]
  have hpos : ¬ (str.length : Int) < 0 := by omega
  rw [writeString, roomBehind_le hroom, ok_bind]
  simp only [hcopied, intOfSize_small hstr]
  rw [if_neg hpos, Int.toNat_natCast, List.take_length]

theorem writeTemplate_fits {id : UInt16}
    (h : text.length + (objectPath id).length + 2 ≤ bufferLen) :
    writeTemplate bufferLen id text = .ok (text ++ (objectPath id ++ [47])) := by
  have hroom : text.length ≤ bufferLen := by omega
  have htemplate : prvGetObjectTemplate (bufferLen - text.length) id = some (objectPath id ++ [47]) :=
    prvGetObjectTemplate_fits (by omega)
  simp only [writeTemplate, roomBehind_le hroom, ok_bind, htemplate]

theorem writeVersionNumber_fits {number : UInt8}
    (h : text.length + (decimalText number.toNat).length ≤ bufferLen) :
    writeVersionNumber bufferLen number text = .ok (text ++ decimalText number.toNat) := by
  have hroom : text.length ≤ bufferLen := by omega
  simp only [writeVersionNumber, roomBehind_le hroom, ok_bind]
  rw [versionText_eq, if_pos (by omega)]

theorem writeId_fits {id : UInt16} (h : text.length + (decimalText id.toNat).length ≤ bufferLen) :
    writeId bufferLen id text = .ok (text ++ decimalText id.toNat) := by
  have hroom : text.length ≤ bufferLen := by omega
  have hdigits : idToText id (bufferLen - text.length) = decimalText id.toNat := by
    rw [idToText_eq, if_pos (by omega)]
  simp only [writeId, roomBehind_le hroom, ok_bind, hdigits]
  exact if_neg (decimalText_ne_nil _)

theorem writeByte_fits {character : UInt8} (h : text.length < bufferLen) :
    writeByte bufferLen character text = .ok (text ++ [character]) :=
  if_neg (Nat.not_le.mpr h)

theorem take_template (before template more : List UInt8) :
    ((before ++ template ++ more).drop before.length).take template.length = template := by
  rw [List.append_assoc, List.drop_left, List.take_left]

theorem copyTemplate_fits {more : List UInt8}
    (h : (before ++ template ++ more).length + template.length < bufferLen) :
    copyTemplate bufferLen before.length template.length (before ++ template ++ more) =
      .ok (before ++ template ++ more ++ template) := by
  have hroom : (before ++ template ++ more).length ≤ bufferLen := by omega
  simp only [copyTemplate, roomBehind_le hroom, ok_bind, take_template]
  exact if_neg (by omega)

theorem writeId_end {id : UInt16} (hsmall : bufferLen < 2 ^ 31)
    (h : text.length + (decimalText id.toNat).length + regPathEnd.length + 1 ≤ bufferLen) :
    (writeId bufferLen id text >>= writeString bufferLen regPathEnd) =
      .ok (text ++ decimalText id.toNat ++ regPathEnd) := by
  rw [writeId_fits (by omega), ok_bind]
  exact writeString_fits hsmall (by rwa [List.length_append])

theorem writeInstances_cons (bufferLen start length : Nat) (id : UInt16) (next : List UInt16)
    (text : List UInt8) :
    writeInstances bufferLen start length (id :: next) text =
      ((if text.length ≠ start + length then copyTemplate bufferLen start length text
        else .ok text) >>= fun text =>
          (writeId bufferLen id text >>= writeString bufferLen regPathEnd) >>=
            writeInstances bufferLen start length next) := by
  rw [writeInstances]
  split <;> simp only [bind_assoc]

theorem writeInstances_later (hsmall : bufferLen < 2 ^ 31) :
    ∀ {ids : List UInt16} {more : List UInt8}, more ≠ [] →
      (before ++ template ++ more ++ instancesText template ids).length + 1 ≤ bufferLen →
      writeInstances bufferLen before.length template.length ids (before ++ template ++ more) =
        .ok (before ++ template ++ more ++ instancesText template ids) := by
  intro ids
  induction ids with
  | nil =>
    intro more _ _
    rw [instancesText, List.flatMap_nil, List.append_nil]
    rfl
  | cons id ids ih =>
    intro more hmore hroom
    have hpos := List.length_pos_iff.mpr hmore
    rw [instancesText_cons] at hroom ⊢
    simp only [List.length_append] at hroom
    have hdiffers : (before ++ template ++ more).length ≠ before.length + template.length := by
      simp only [List.length_append]
      omega
    have hcopied : copyTemplate bufferLen before.length template.length (before ++ template ++ more) =
        .ok (before ++ template ++ more ++ template) :=
      copyTemplate_fits (by simp only [List.length_append]; omega)
    have hid : (writeId bufferLen id (before ++ template ++ more ++ template) >>=
        writeString bufferLen regPathEnd) =
          .ok (before ++ template ++ more ++ template ++ decimalText id.toNat ++ regPathEnd) :=
      writeId_end hsmall (by simp only [List.length_append]; omega)
    have hne : more ++ template ++ decimalText id.toNat ++ regPathEnd ≠ [] := by simp [hmore]
    have hnext := ih hne (by simp only [List.length_append]; omega)
    simp only [List.append_assoc] at hcopied hid hnext hdiffers ⊢
    rw [writeInstances_cons, if_pos hdiffers, hcopied, ok_bind, hid, ok_bind, hnext]

theorem writeInstances_fits {id : UInt16} {ids : List UInt16} (hsmall : bufferLen < 2 ^ 31)
    (h : (before ++ instancesText template (id :: ids)).length + 1 ≤ bufferLen) :
    writeInstances bufferLen before.length template.length (id :: ids) (before ++ template) =
      .ok (before ++ instancesText template (id :: ids)) := by
  rw [instancesText_cons] at h ⊢
  simp only [List.length_append] at h
  have hsame : ¬ (before ++ template).length ≠ before.length + template.length :=
    not_not.mpr List.length_append
  have hid : (writeId bufferLen id (before ++ template) >>= writeString bufferLen regPathEnd) =
      .ok (before ++ template ++ decimalText id.toNat ++ regPathEnd) :=
    writeId_end hsmall (by simp only [List.length_append]; omega)
  have hne : decimalText id.toNat ++ regPathEnd ≠ [] := by simp [decimalText_ne_nil]
  have hnext : writeInstances bufferLen before.length template.length ids
      (before ++ template ++ (decimalText id.toNat ++ regPathEnd)) =
        .ok (before ++ template ++ (decimalText id.toNat ++ regPathEnd) ++
          instancesText template ids) := by
    apply writeInstances_later hsmall hne
    simp only [List.length_append]
    omega
  simp only [List.append_assoc] at hid hnext hsame ⊢
  rw [writeInstances_cons, if_neg hsame, ok_bind, hid, ok_bind, hnext]

theorem writeVersion_fits (hsmall : bufferLen < 2 ^ 31)
    (h : (text ++ objectPath object.objID ++ regVersionStart ++ decimalText object.versionMajor.toNat ++ 46 :: decimalText object.versionMinor.toNat).length + 1 ≤ bufferLen) :
    writeVersion bufferLen object (text ++ objectPath object.objID) =
      .ok (text ++ (versionLink object ++ [regDelimiter])) := by
  simp only [List.length_append, List.length_cons] at h
  rw [writeVersion, writeString_fits hsmall (by simp only [List.length_append]; omega), ok_bind,
    writeVersionNumber_fits (by simp only [List.length_append]; omega), ok_bind,
    writeByte_fits (by simp only [List.length_append]; omega), ok_bind,
    writeVersionNumber_fits (by simp only [List.length_append, List.length_singleton]; omega), ok_bind,
    writeByte_fits (by simp only [List.length_append, List.length_singleton]; omega)]
  simp [versionLink]

theorem dropLast_template (text : List UInt8) (id : UInt16) :
    (text ++ (objectPath id ++ [47])).dropLast = text ++ objectPath id := by
  rw [← List.append_assoc, List.dropLast_concat]

theorem writeTemplate_instances (objectId id : UInt16) (ids : List UInt16) (text : List UInt8)
    (hsmall : bufferLen < 2 ^ 31)
    (h : text.length + (instancesText (objectPath objectId ++ [47]) (id :: ids)).length + 1 ≤ bufferLen) :
    writeTemplate bufferLen objectId text = .ok (text ++ (objectPath objectId ++ [47])) ∧
      writeInstances bufferLen text.length
        ((text ++ (objectPath objectId ++ [47])).length - text.length) (id :: ids)
        (text ++ (objectPath objectId ++ [47])) =
          .ok (text ++ instancesText (objectPath objectId ++ [47]) (id :: ids)) := by
  have hlength : (text ++ (objectPath objectId ++ [47])).length - text.length =
      (objectPath objectId ++ [47]).length := by
    rw [List.length_append, Nat.add_sub_cancel_left]
  constructor
  · apply writeTemplate_fits
    rw [instancesText_cons] at h
    simp only [List.length_append, List.length_singleton] at h
    have hpos := decimalText_length_pos id.toNat
    omega
  · rw [hlength]
    exact writeInstances_fits hsmall (by rwa [List.length_append])

theorem writeObject_fits (hsmall : bufferLen < 2 ^ 31)
    (h : text.length + (objectEntry ident object).length + 1 ≤ bufferLen) :
    writeObject ident bufferLen object text = .ok (text ++ objectEntry ident object) := by
  rw [objectEntry_eq] at h ⊢
  simp only [writeObject, hasVersion_iff]
  by_cases hversion : hasVersion object = true
  · rw [if_pos hversion] at h ⊢
    have htemplate : writeTemplate bufferLen object.objID text =
        .ok (text ++ (objectPath object.objID ++ [47])) := by
      apply writeTemplate_fits
      simp only [versionLink, regVersionStart, List.length_append, List.length_cons] at h
      omega
    have hversioned : writeVersion bufferLen object (text ++ objectPath object.objID) =
        .ok (text ++ (versionLink object ++ [regDelimiter])) := by
      apply writeVersion_fits hsmall
      simp only [versionLink, List.length_append, List.length_cons] at h ⊢
      omega
    rw [htemplate, ok_bind, dropLast_template, if_pos hversion, hversioned, ok_bind]
    cases hids : object.instanceList.map ident with
    | nil =>
      rw [if_pos rfl]
      simp [instancesText]
    | cons id ids =>
      rw [hids, ← Nat.add_zero 1] at h
      obtain ⟨hagain, hinstances⟩ := writeTemplate_instances object.objID id ids
        (text ++ (versionLink object ++ [regDelimiter])) hsmall (by simp only [List.length_append] at h ⊢; omega)
      rw [if_neg (List.cons_ne_nil _ _), hagain, ok_bind, hinstances]
      simp only [List.append_assoc]
  · rw [if_neg hversion] at h ⊢
    cases hids : object.instanceList.map ident with
    | nil =>
      have hnil := List.map_eq_nil_iff.mp hids
      rw [if_pos hnil] at h ⊢
      simp only [regPathEnd, List.length_append, List.length_cons, List.length_nil] at h
      have htemplate : writeTemplate bufferLen object.objID text =
          .ok (text ++ (objectPath object.objID ++ [47])) := writeTemplate_fits (by omega)
      rw [htemplate, ok_bind, dropLast_template, if_neg hversion, if_pos rfl,
        writeString_fits hsmall (by simp [regPathEnd]; omega), List.append_assoc]
    | cons id ids =>
      have hne : object.instanceList ≠ [] := fun h => by simp [h] at hids
      rw [if_neg hne, hids] at h
      rw [if_neg hne]
      obtain ⟨htemplate, hinstances⟩ := writeTemplate_instances object.objID id ids text hsmall
        (by omega)
      rw [htemplate, ok_bind, if_neg hversion, if_neg (List.cons_ne_nil _ _), hinstances]

theorem writeObjects_fits (hsmall : bufferLen < 2 ^ 31) :
    ∀ {objectList : List (Lwm2mObject Node)} {text : List UInt8},
      (∀ object ∈ objectList, object.objID ≠ lwm2mOscoreObjectId) →
      text.length + (objectsEntry ident objectList).length + 1 ≤ bufferLen →
      writeObjects ident bufferLen objectList text =
        .ok (text ++ objectsEntry ident objectList) := by
  intro objectList
  induction objectList with
  | nil =>
    intro text _ _
    rw [objectsEntry, List.filter_nil, List.flatMap_nil, List.append_nil]
    rfl
  | cons object next ih =>
    intro text hoscore hroom
    have hnext := fun other hmem => hoscore other (List.mem_cons_of_mem _ hmem)
    rw [writeObjects]
    by_cases hsecurity : object.objID = lwm2mSecurityObjectId
    · have hskip : registered object = false := by simp [registered, hsecurity]
      rw [objectsEntry_skip ident next hskip] at hroom ⊢
      rw [if_pos hsecurity]
      exact ih hnext hroom
    · have hkeep : registered object = true := by
        simp [registered, hsecurity, hoscore object List.mem_cons_self]
      rw [objectsEntry_keep ident next hkeep] at hroom ⊢
      rw [List.length_append] at hroom
      rw [if_neg hsecurity, writeObject_fits hsmall (by omega), ok_bind, ← List.append_assoc]
      apply ih hnext
      rw [List.length_append]
      omega

/-! ## Marks -/

/-- `<` and `/`: what a link cannot do without. -/
def isMark (character : UInt8) : Bool := character == 60 || character == 47

def marks (text : List UInt8) : Nat := text.countP isMark

@[simp] theorem marks_append (text text' : List UInt8) :
    marks (text ++ text') = marks text + marks text' := List.countP_append

theorem writeString_ok (h : writeString bufferLen str text = .ok text') :
    ∃ tail, text' = text ++ tail := by
  obtain ⟨room, -, h⟩ := bind_eq_ok.mp h
  dsimp only at h
  split at h
  · nomatch h
  · exact ⟨_, (Except.ok.inj h).symm⟩

theorem writeString_marks (h : writeString bufferLen str text = .ok text') :
    marks text ≤ marks text' := by
  obtain ⟨tail, rfl⟩ := writeString_ok h
  rw [marks_append]
  exact Nat.le_add_right _ _

theorem writeVersionNumber_marks {number : UInt8}
    (h : writeVersionNumber bufferLen number text = .ok text') : marks text ≤ marks text' := by
  obtain ⟨room, -, h⟩ := bind_eq_ok.mp h
  rw [← Except.ok.inj h, marks_append]
  exact Nat.le_add_right _ _

theorem writeByte_marks {character : UInt8} (h : writeByte bufferLen character text = .ok text') :
    marks text ≤ marks text' := by
  unfold writeByte at h
  split at h
  · nomatch h
  · rw [← Except.ok.inj h, marks_append]
    exact Nat.le_add_right _ _

theorem writeVersion_marks (h : writeVersion bufferLen object text = .ok text') :
    marks text ≤ marks text' := by
  obtain ⟨start, hstart, h⟩ := bind_eq_ok.mp h
  obtain ⟨major, hmajor, h⟩ := bind_eq_ok.mp h
  obtain ⟨dot, hdot, h⟩ := bind_eq_ok.mp h
  obtain ⟨minor, hminor, h⟩ := bind_eq_ok.mp h
  calc marks text ≤ marks start := writeString_marks hstart
    _ ≤ marks major := writeVersionNumber_marks hmajor
    _ ≤ marks dot := writeByte_marks hdot
    _ ≤ marks minor := writeVersionNumber_marks hminor
    _ ≤ marks text' := writeByte_marks h

theorem idToText_cases (id : UInt16) (length : Nat) :
    idToText id length = [] ∨ idToText id length = decimalText id.toNat := by
  rw [idToText_eq]
  split
  · exact .inr rfl
  · exact .inl rfl

theorem prvGetObjectTemplate_some {length : Nat} {id : UInt16}
    (h : prvGetObjectTemplate length id = some template) : template = objectPath id ++ [47] := by
  simp only [prvGetObjectTemplate] at h
  rcases idToText_cases id (length - 2) with htext | htext
  · rw [if_pos htext, ite_self] at h
    cases h
  · rw [htext, if_neg (decimalText_ne_nil _)] at h
    split at h
    · cases h
    split at h
    · cases h
    · rw [← Option.some.inj h]
      rfl

theorem writeTemplate_ok {id : UInt16} (h : writeTemplate bufferLen id text = .ok text') :
    text' = text ++ (objectPath id ++ [47]) := by
  obtain ⟨room, -, h⟩ := bind_eq_ok.mp h
  cases htemplate : prvGetObjectTemplate room id with
  | none =>
    rw [htemplate] at h
    nomatch h
  | some template =>
    rw [htemplate] at h
    rw [← Except.ok.inj h, prvGetObjectTemplate_some htemplate]

theorem writeId_ok {id : UInt16} (h : writeId bufferLen id text = .ok text') :
    text' = text ++ decimalText id.toNat := by
  obtain ⟨room, -, h⟩ := bind_eq_ok.mp h
  dsimp only at h
  split at h
  · nomatch h
  · rename_i hwritten
    rw [← Except.ok.inj h, (idToText_cases id room).resolve_left hwritten]

theorem decimalText_marks (n : Nat) : marks (decimalText n) = 0 := by
  apply List.countP_eq_zero.mpr
  intro character hmem
  have hdigit := decimalText_isDigit n character hmem
  simp only [isDigit, Bool.and_eq_true, decide_eq_true_eq] at hdigit
  simp only [isMark, Bool.or_eq_true, beq_iff_eq, not_or]
  constructor
  · rintro rfl
    exact absurd hdigit.2 (by decide)
  · rintro rfl
    exact absurd hdigit.1 (by decide)

theorem copyTemplate_ok {more : List UInt8}
    (h : copyTemplate bufferLen before.length template.length (before ++ template ++ more) = .ok text') :
    text' = before ++ template ++ more ++ template := by
  obtain ⟨room, -, h⟩ := bind_eq_ok.mp h
  rw [take_template] at h
  split at h
  · nomatch h
  · exact (Except.ok.inj h).symm

theorem writeInstances_later_marks :
    ∀ {ids : List UInt16} {more text' : List UInt8}, more ≠ [] →
      writeInstances bufferLen before.length template.length ids (before ++ template ++ more) =
        .ok text' →
      marks (before ++ template ++ more) + ids.length * marks template ≤ marks text' := by
  intro ids
  induction ids with
  | nil =>
    intro more text' _ h
    rw [← Except.ok.inj h]
    simp
  | cons id ids ih =>
    intro more text' hmore h
    have hpos := List.length_pos_iff.mpr hmore
    have hdiffers : (before ++ template ++ more).length ≠ before.length + template.length := by
      simp only [List.length_append]
      omega
    rw [writeInstances_cons, if_pos hdiffers] at h
    obtain ⟨copied, hcopied, h⟩ := bind_eq_ok.mp h
    obtain ⟨ended, hended, h⟩ := bind_eq_ok.mp h
    obtain ⟨named, hnamed, hended⟩ := bind_eq_ok.mp hended
    obtain rfl := copyTemplate_ok hcopied
    obtain rfl := writeId_ok hnamed
    obtain ⟨tail, rfl⟩ := writeString_ok hended
    have hne : more ++ template ++ decimalText id.toNat ++ tail ≠ [] := by simp [hmore]
    have hrest := ih hne (by simpa only [List.append_assoc] using h)
    simp only [marks_append, List.length_cons, Nat.succ_mul] at hrest ⊢
    omega

theorem writeInstances_marks {id : UInt16} {ids : List UInt16}
    (h : writeInstances bufferLen before.length template.length (id :: ids) (before ++ template) = .ok text') :
    marks before + (ids.length + 1) * marks template ≤ marks text' := by
  have hsame : ¬ (before ++ template).length ≠ before.length + template.length :=
    not_not.mpr List.length_append
  rw [writeInstances_cons, if_neg hsame, ok_bind] at h
  obtain ⟨ended, hended, h⟩ := bind_eq_ok.mp h
  obtain ⟨named, hnamed, hended⟩ := bind_eq_ok.mp hended
  obtain rfl := writeId_ok hnamed
  obtain ⟨tail, rfl⟩ := writeString_ok hended
  have hne : decimalText id.toNat ++ tail ≠ [] := by simp [decimalText_ne_nil]
  have hrest := writeInstances_later_marks hne (by simpa only [List.append_assoc] using h)
  simp only [marks_append, Nat.succ_mul] at hrest ⊢
  omega

theorem instancesText_marks (template : List UInt8) (ids : List UInt16) :
    marks (instancesText template ids) = ids.length * marks template := by
  induction ids with
  | nil => simp [instancesText, marks]
  | cons id ids ih =>
    have hend : marks regPathEnd = 0 := by decide
    rw [instancesText_cons, List.length_cons, Nat.succ_mul]
    simp only [marks_append, decimalText_marks, hend, ih]
    omega

theorem objectPath_marks (id : UInt16) : marks (objectPath id) = 2 := by
  have hdigits := decimalText_marks id.toNat
  simp only [marks] at hdigits
  simp [objectPath, marks, isMark, hdigits]

theorem template_marks (id : UInt16) : marks (objectPath id ++ [47]) = 3 := by
  rw [marks_append, objectPath_marks]
  rfl

theorem versionLink_marks (object : Lwm2mObject Node) :
    marks (versionLink object ++ [regDelimiter]) = 2 := by
  have hstart : marks regVersionStart = 0 := by decide
  have hdot : 46 :: decimalText object.versionMinor.toNat =
      [46] ++ decimalText object.versionMinor.toNat := rfl
  rw [versionLink, hdot]
  simp only [marks_append, objectPath_marks, decimalText_marks, hstart]
  rfl

theorem objectEntry_marks (ident : Node → UInt16) (object : Lwm2mObject Node) :
    marks (objectEntry ident object) =
      if hasVersion object then 2 + object.instanceList.length * 3
      else if object.instanceList = [] then 2 else object.instanceList.length * 3 := by
  have hend : marks regPathEnd = 0 := by decide
  rw [objectEntry_eq]
  split
  · rw [marks_append, versionLink_marks, instancesText_marks, template_marks, List.length_map]
  split
  · rw [marks_append, objectPath_marks, hend]
  · rw [instancesText_marks, template_marks, List.length_map]

theorem objectEntry_marks_ge (ident : Node → UInt16) (object : Lwm2mObject Node) :
    2 ≤ marks (objectEntry ident object) := by
  rw [objectEntry_marks]
  split
  · exact Nat.le_add_right _ _
  split
  · exact Nat.le_refl 2
  · rename_i hne
    have hpos := List.length_pos_iff.mpr hne
    omega

theorem writeObject_marks (h : writeObject ident bufferLen object text = .ok text') :
    marks text + marks (objectEntry ident object) ≤ marks text' := by
  simp only [writeObject, hasVersion_iff] at h
  obtain ⟨withTemplate, htemplate, h⟩ := bind_eq_ok.mp h
  obtain rfl := writeTemplate_ok htemplate
  rw [dropLast_template] at h
  have hcount : (object.instanceList.map ident).length = object.instanceList.length :=
    List.length_map _
  have hlength : ∀ before : List UInt8, (before ++ (objectPath object.objID ++ [47])).length -
      before.length = (objectPath object.objID ++ [47]).length := fun before => by
    rw [List.length_append, Nat.add_sub_cancel_left]
  have hnil : object.instanceList.map ident = [] ↔ object.instanceList = [] := List.map_eq_nil_iff
  rw [objectEntry_marks]
  by_cases hversion : hasVersion object = true
  · rw [if_pos hversion] at h ⊢
    obtain ⟨versioned, hversioned, h⟩ := bind_eq_ok.mp h
    have hown := writeVersion_marks hversioned
    rw [marks_append, objectPath_marks] at hown
    cases hids : object.instanceList.map ident with
    | nil =>
      rw [hids, if_pos rfl] at h
      rw [hids, List.length_nil] at hcount
      rw [← Except.ok.inj h, ← hcount]
      omega
    | cons id ids =>
      rw [hids, if_neg (List.cons_ne_nil _ _)] at h
      rw [hids, List.length_cons] at hcount
      obtain ⟨again, hagain, h⟩ := bind_eq_ok.mp h
      obtain rfl := writeTemplate_ok hagain
      rw [hlength] at h
      have hinstances := writeInstances_marks h
      rw [template_marks] at hinstances
      omega
  · rw [if_neg hversion] at h ⊢
    cases hids : object.instanceList.map ident with
    | nil =>
      rw [hids, if_pos rfl] at h
      have hown := writeString_marks h
      rw [marks_append, objectPath_marks] at hown
      rwa [if_pos (hnil.mp hids)]
    | cons id ids =>
      rw [hids, if_neg (List.cons_ne_nil _ _), hlength] at h
      rw [hids, List.length_cons] at hcount
      have hinstances := writeInstances_marks h
      rw [template_marks] at hinstances
      have hne : object.instanceList ≠ [] := fun h => by simp [h] at hids
      rw [if_neg hne]
      omega

def oscoreObjects (objectList : List (Lwm2mObject Node)) : Nat :=
  objectList.countP fun object => object.objID == lwm2mOscoreObjectId

theorem writeObjects_marks :
    ∀ {objectList : List (Lwm2mObject Node)} {text text' : List UInt8},
      writeObjects ident bufferLen objectList text = .ok text' →
      marks text + marks (objectsEntry ident objectList) + 2 * oscoreObjects objectList ≤
        marks text' := by
  intro objectList
  induction objectList with
  | nil =>
    intro text text' h
    rw [← Except.ok.inj h]
    exact Nat.le_refl _
  | cons object next ih =>
    intro text text' h
    rw [writeObjects] at h
    rw [oscoreObjects, List.countP_cons]
    by_cases hsecurity : object.objID = lwm2mSecurityObjectId
    · have hskip : registered object = false := by simp [registered, hsecurity]
      have hother : (object.objID == lwm2mOscoreObjectId) = false := by rw [hsecurity]; decide
      rw [if_pos hsecurity] at h
      rw [objectsEntry_skip ident next hskip, hother]
      exact ih h
    · rw [if_neg hsecurity] at h
      obtain ⟨written, hwritten, h⟩ := bind_eq_ok.mp h
      have hrest := ih h
      have hown := writeObject_marks hwritten
      have hge := objectEntry_marks_ge ident object
      rw [oscoreObjects] at hrest
      by_cases hoscore : object.objID = lwm2mOscoreObjectId
      · have hskip : registered object = false := by simp [registered, hoscore]
        rw [objectsEntry_skip ident next hskip, hoscore, if_pos (beq_self_eq_true _)]
        omega
      · have hkeep : registered object = true := by simp [registered, hsecurity, hoscore]
        rw [objectsEntry_keep ident next hkeep, marks_append, if_neg (by simpa using hoscore)]
        omega

/-! ## Both passes -/

theorem objectGetRegisterPayload_start (hsmall : bufferLen < 2 ^ 31)
    (h : (registerStart altPath).length + 1 ≤ bufferLen) :
    objectGetRegisterPayload ident altPath objectList bufferLen =
      (writeObjects ident bufferLen objectList (registerStart altPath) >>= closePayload bufferLen) := by
  simp only [registerStart, List.length_append] at h
  rw [objectGetRegisterPayload, writeString_fits hsmall (by simp only [List.length_nil]; omega),
    ok_bind, List.nil_append, writeString_fits hsmall (by omega), ok_bind,
    writeString_fits hsmall (by simp only [List.length_append]; omega), ok_bind]
  rfl

/-- The passes agree: the length is positive, the writer called with a buffer of this length
writes the payload that is meant, and this is two bytes shorter. -/
def PassesAgree (ident : Node → UInt16) (altPath : Option (List UInt8))
    (objectList : List (Lwm2mObject Node)) : Prop :=
  0 < objectGetRegisterPayloadBufferLength ident altPath objectList ∧
    objectGetRegisterPayload ident altPath objectList
      (objectGetRegisterPayloadBufferLength ident altPath objectList).toNat =
        .ok (registerText ident altPath objectList) ∧
    ((registerText ident altPath objectList).length : Int) =
      objectGetRegisterPayloadBufferLength ident altPath objectList - 2

theorem registerText_length (ident : Node → UInt16) (altPath : Option (List UInt8))
    (objectList : List (Lwm2mObject Node)) :
    (registerText ident altPath objectList).length + 1 =
      (registerStart altPath).length + (objectsEntry ident objectList).length := by
  have h := congrArg List.length (registerText_delimited ident altPath objectList)
  rwa [List.length_append, List.length_append] at h

theorem bufferLength_eq_text (ident : Node → UInt16) (altPath : Option (List UInt8))
    (objectList : List (Lwm2mObject Node)) :
    objectGetRegisterPayloadBufferLength ident altPath objectList =
      intOfSize ((registerText ident altPath objectList).length + 2) := by
  rw [objectGetRegisterPayloadBufferLength_eq, List.length_append,
    ← registerText_length ident altPath objectList]

theorem objectGetRegisterPayload_fits
    (hoscore : ∀ object ∈ objectList, object.objID ≠ lwm2mOscoreObjectId)
    (hsmall : (registerText ident altPath objectList).length + 2 < 2 ^ 31) :
    objectGetRegisterPayload ident altPath objectList
      ((registerText ident altPath objectList).length + 2) =
        .ok (registerText ident altPath objectList) := by
  have hlength := registerText_length ident altPath objectList
  rw [objectGetRegisterPayload_start hsmall (by omega),
    writeObjects_fits hsmall hoscore (by omega), ok_bind, ← registerText_delimited, closePayload,
    List.dropLast_concat, if_pos (by omega)]

theorem objectGetRegisterPayload_oscore (hmem : object ∈ objectList)
    (hoscore : object.objID = lwm2mOscoreObjectId)
    (hsmall : (registerText ident altPath objectList).length + 2 < 2 ^ 31) :
    objectGetRegisterPayload ident altPath objectList
      ((registerText ident altPath objectList).length + 2) ≠
        .ok (registerText ident altPath objectList) := by
  intro h
  have hlength := registerText_length ident altPath objectList
  rw [objectGetRegisterPayload_start hsmall (by omega)] at h
  obtain ⟨text, hwritten, hclosed⟩ := bind_eq_ok.mp h
  have hmarks := writeObjects_marks hwritten
  have hone : 0 < oscoreObjects objectList :=
    List.countP_pos_iff.mpr ⟨object, hmem, by simp [hoscore]⟩
  -- the byte that gives way to the NUL is one mark at most
  have hlast : marks text ≤ marks text.dropLast + 1 := by
    rcases List.eq_nil_or_concat text with rfl | ⟨init, last, rfl⟩
    · exact Nat.zero_le _
    · rw [List.concat_eq_append, List.dropLast_concat, marks_append]
      have := List.countP_le_length (p := isMark) (l := [last])
      simp only [marks, List.length_singleton] at this ⊢
      omega
  have hmeant := congrArg marks (registerText_delimited ident altPath objectList)
  have hcomma : marks [regDelimiter] = 0 := by decide
  rw [closePayload] at hclosed
  split at hclosed
  · rw [Except.ok.inj hclosed] at hlast
    rw [marks_append, marks_append, hcomma] at hmeant
    omega
  · nomatch hclosed

/-- The passes agree on the lists without an OSCORE object whose length an `int` can hold. -/
theorem registerPayload_passesAgree (ident : Node → UInt16) (altPath : Option (List UInt8))
    (objectList : List (Lwm2mObject Node)) :
    PassesAgree ident altPath objectList ↔
      (∀ object ∈ objectList, object.objID ≠ lwm2mOscoreObjectId) ∧
        (registerText ident altPath objectList).length + 2 < 2 ^ 31 := by
  rw [PassesAgree, bufferLength_eq_text]
  constructor
  · rintro ⟨hpos, hwritten, hlength⟩
    have hsmall : (registerText ident altPath objectList).length + 2 < 2 ^ 31 := by
      have hrange := (intOfSize_range ((registerText ident altPath objectList).length + 2)).2
      omega
    refine ⟨fun object hmem hoscore => ?_, hsmall⟩
    rw [intOfSize_small hsmall, Int.toNat_natCast] at hwritten
    exact objectGetRegisterPayload_oscore hmem hoscore hsmall hwritten
  · rintro ⟨hoscore, hsmall⟩
    rw [intOfSize_small hsmall, Int.toNat_natCast]
    exact ⟨by omega, objectGetRegisterPayload_fits hoscore hsmall, by omega⟩

/-- A client whose only object is OSCORE. -/
def oscoreOnly : List (Lwm2mObject UInt16) :=
  [{ objID := 21, versionMajor := 0, versionMinor := 0, instanceList := [],
     writeFunc := none, createFunc := none }]

/-- The OSCORE object is written, but there is no room for it. -/
theorem oscoreOnly_disagree : objectGetRegisterPayloadBufferLength id none oscoreOnly = 27 ∧
    objectGetRegisterPayload id none oscoreOnly 27 = .error .refused ∧
    ¬ PassesAgree id none oscoreOnly := by
  have hlength : objectGetRegisterPayloadBufferLength id none oscoreOnly = 27 := by decide
  have hrefused : objectGetRegisterPayload id none oscoreOnly 27 = .error .refused := by decide
  refine ⟨hlength, hrefused, fun h => ?_⟩
  have hwritten := h.2.1
  rw [hlength] at hwritten
  exact absurd (hrefused.symm.trans hwritten) nofun

end Wakaama
