import Wakaama.Core.Proofs.NumberText
import Wakaama.Core.RegisterPayload
import Wakaama.Data.Proofs.CborReaders

/-!
# Both passes of the registration payload

What the payload is meant to be is the list of links of the objects. The length pass adds up
their lengths, and the writing pass writes them where there is room for them and a NUL; but it
also writes the OSCORE object, which the length pass leaves out.
-/

namespace Wakaama

variable {Node : Type}

/-- `</id`. -/
def objectPath (id : UInt16) : List UInt8 := 60 :: 47 :: decimalText id.toNat

/-- The object has a version of its own. -/
def hasVersion (object : Lwm2mObject Node) : Bool :=
  object.versionMajor != 0 || object.versionMinor != 0

/-- `</id>;ver=major.minor`. -/
def versionLink (object : Lwm2mObject Node) : List UInt8 :=
  objectPath object.objID ++ regVersionStart ++ decimalText object.versionMajor.toNat ++
    46 :: decimalText object.versionMinor.toNat

/-- `</id/instance>`. -/
def instanceLink (objectId id : UInt16) : List UInt8 :=
  objectPath objectId ++ 47 :: decimalText id.toNat ++ [62]

/-- The links of an object: its version, and its instances; `</id>` where there is neither. -/
def objectLinks (ident : Node → UInt16) (object : Lwm2mObject Node) : List (List UInt8) :=
  let instances := object.instanceList.map fun node => instanceLink object.objID (ident node)
  if hasVersion object then versionLink object :: instances
  else if object.instanceList = [] then [objectPath object.objID ++ [62]]
  else instances

/-- The objects that are registered. -/
def registered (object : Lwm2mObject Node) : Bool :=
  object.objID != lwm2mSecurityObjectId && object.objID != lwm2mOscoreObjectId

/-- The link of the client and those of its objects, in the order of the list. -/
def registerLinks (ident : Node → UInt16) (altPath : Option (List UInt8))
    (objectList : List (Lwm2mObject Node)) : List (List UInt8) :=
  (regStart ++ registerPath altPath ++ regLwm2mResourceType.dropLast) ::
    (objectList.filter registered).flatMap (objectLinks ident)

/-- The payload that is meant. -/
def registerText (ident : Node → UInt16) (altPath : Option (List UInt8))
    (objectList : List (Lwm2mObject Node)) : List UInt8 :=
  [regDelimiter].intercalate (registerLinks ident altPath objectList)

def delimited (links : List (List UInt8)) : List UInt8 :=
  links.flatMap fun link => link ++ [regDelimiter]

theorem delimited_cons (link : List UInt8) (links : List (List UInt8)) :
    delimited (link :: links) = link ++ [regDelimiter] ++ delimited links := by
  simp [delimited]

theorem delimited_intercalate :
    ∀ {links : List (List UInt8)}, links ≠ [] →
      delimited links = [regDelimiter].intercalate links ++ [regDelimiter] := by
  intro links
  induction links with
  | nil => exact fun h => absurd rfl h
  | cons link links ih =>
    intro _
    cases links with
    | nil => simp [delimited, List.intercalate]
    | cons next links =>
      rw [delimited_cons, ih (List.cons_ne_nil _ _)]
      simp [List.intercalate, List.intersperse]

def objectEntry (ident : Node → UInt16) (object : Lwm2mObject Node) : List UInt8 :=
  delimited (objectLinks ident object)

theorem idToText_eq (id : UInt16) (length : Nat) :
    idToText id length =
      if (decimalText id.toNat).length ≤ length then decimalText id.toNat else [] := by
  exact utilsIntToText_id id length

theorem versionText_eq (number : UInt8) (length : Nat) :
    utilsUintToText number.toUInt64 length =
      if (decimalText number.toNat).length ≤ length then decimalText number.toNat else [] := by
  rw [utilsUintToText_eq, UInt8.toNat_toUInt64]

theorem decimalText_version_length (number : UInt8) : (decimalText number.toNat).length ≤ 3 :=
  decimalText_length_le (k := 2) (by have := number.toNat_lt; omega)

theorem objectPath_length (id : UInt16) :
    (objectPath id).length = 2 + (decimalText id.toNat).length := by
  simp [objectPath]
  omega

theorem prvGetObjectTemplate_fits {length : Nat} {id : UInt16}
    (h : (objectPath id).length + 2 ≤ length) :
    prvGetObjectTemplate length id = some (objectPath id ++ [47]) := by
  rw [objectPath_length] at h
  have hpos := decimalText_length_pos id.toNat
  have htext : idToText id (length - 2) = decimalText id.toNat := by
    rw [idToText_eq, if_pos (by omega)]
  have hmin : ¬ length < regObjectMinLen := by
    simp only [regObjectMinLen]
    omega
  have hrest : ¬ length - (2 + (decimalText id.toNat).length) < regObjectMinLen - 3 := by
    simp only [regObjectMinLen]
    omega
  rw [prvGetObjectTemplate, if_neg hmin]
  simp only [htext]
  rw [if_neg (decimalText_ne_nil _), if_neg hrest]
  rfl

/-- The entries of the instances, each with the template in front. -/
def instancesText (template : List UInt8) (ids : List UInt16) : List UInt8 :=
  ids.flatMap fun id => template ++ decimalText id.toNat ++ regPathEnd

theorem instancesText_cons (template : List UInt8) (id : UInt16) (ids : List UInt16) :
    instancesText template (id :: ids) =
      template ++ decimalText id.toNat ++ regPathEnd ++ instancesText template ids := by
  simp [instancesText]

theorem delimited_instances (objectId : UInt16) (ids : List UInt16) :
    delimited (ids.map (instanceLink objectId)) = instancesText (objectPath objectId ++ [47]) ids := by
  induction ids with
  | nil => rfl
  | cons id ids ih =>
    rw [List.map_cons, delimited_cons, ih, instancesText_cons]
    simp [instanceLink, regPathEnd, regDelimiter]

theorem idToText_scratch (id : UInt16) : idToText id registerScratch = decimalText id.toNat := by
  have hlength := decimalText_id_length id
  rw [idToText_eq, if_pos (hlength.trans (by decide))]

theorem versionText_scratch (number : UInt8) :
    utilsUintToText number.toUInt64 registerScratch = decimalText number.toNat := by
  have hlength := decimalText_version_length number
  rw [versionText_eq, if_pos (hlength.trans (by decide))]

theorem instancesLength_later {start : Nat} {template : List UInt8} :
    ∀ {ids : List UInt16} {index : Nat}, start + template.length < index →
      instancesLength start template.length ids index =
        some (index + (instancesText template ids).length) := by
  intro ids
  induction ids with
  | nil => exact fun _ => rfl
  | cons id ids ih =>
    intro index hindex
    have hlater : start + template.length <
        index + template.length + (decimalText id.toNat).length + regPathEnd.length := by omega
    simp only [instancesLength, idToText_scratch]
    rw [if_neg (decimalText_ne_nil _), if_pos (by omega : index ≠ start + template.length),
      ih hlater, instancesText_cons]
    simp only [List.length_append]
    congr 1
    omega

theorem instancesLength_first {start : Nat} {template : List UInt8} {id : UInt16}
    {ids : List UInt16} :
    instancesLength start template.length (id :: ids) (start + template.length) =
      some (start + (instancesText template (id :: ids)).length) := by
  have hpos := decimalText_length_pos id.toNat
  have hlater : start + template.length <
      start + template.length + (decimalText id.toNat).length + regPathEnd.length := by omega
  simp only [instancesLength, idToText_scratch]
  rw [if_neg (decimalText_ne_nil _), if_neg (not_not.mpr rfl), instancesLength_later hlater,
    instancesText_cons]
  simp only [List.length_append]
  congr 1
  omega

theorem hasVersion_iff (object : Lwm2mObject Node) :
    (object.versionMajor ≠ 0 ∨ object.versionMinor ≠ 0) ↔ hasVersion object = true := by
  simp [hasVersion]

theorem objectEntry_eq (ident : Node → UInt16) (object : Lwm2mObject Node) :
    objectEntry ident object =
      if hasVersion object then
        versionLink object ++ [regDelimiter] ++
          instancesText (objectPath object.objID ++ [47]) (object.instanceList.map ident)
      else if object.instanceList = [] then objectPath object.objID ++ regPathEnd
      else instancesText (objectPath object.objID ++ [47]) (object.instanceList.map ident) := by
  have hinstances : (object.instanceList.map fun node => instanceLink object.objID (ident node)) =
      (object.instanceList.map ident).map (instanceLink object.objID) := by
    rw [List.map_map]
    rfl
  simp only [objectEntry, objectLinks, hinstances]
  split
  · rw [delimited_cons, delimited_instances]
  split
  · simp [delimited, regPathEnd, regDelimiter]
  · exact delimited_instances _ _

theorem objectLength_eq (ident : Node → UInt16) (object : Lwm2mObject Node) (index : Nat) :
    objectLength ident object index = some (index + (objectEntry ident object).length) := by
  have htemplate : prvGetObjectTemplate registerScratch object.objID =
      some (objectPath object.objID ++ [47]) := by
    apply prvGetObjectTemplate_fits
    have hlength := decimalText_id_length object.objID
    rw [objectPath_length]
    simp only [registerScratch, regObjectMinLen]
    omega
  simp only [objectLength, htemplate, Option.bind_some, hasVersion_iff, versionText_scratch,
    objectEntry_eq, List.map_eq_nil_iff]
  by_cases hversion : hasVersion object = true
  · rw [if_pos hversion, if_pos hversion]
    have hindex : index + (objectPath object.objID ++ [47]).length - 1 + regVersionStart.length +
        (decimalText object.versionMajor.toNat).length + 1 +
        (decimalText object.versionMinor.toNat).length + 1 =
          index + (versionLink object ++ [regDelimiter]).length := by
      simp only [versionLink, List.length_append, List.length_cons, List.length_nil]
      omega
    rw [hindex]
    cases hids : object.instanceList.map ident with
    | nil =>
      rw [if_pos (List.map_eq_nil_iff.mp hids)]
      simp [instancesText]
    | cons id ids =>
      have hne : object.instanceList ≠ [] := fun h => by simp [h] at hids
      rw [if_neg hne, instancesLength_first]
      simp only [List.length_append]
      congr 1
      omega
  · rw [if_neg hversion, if_neg hversion]
    cases hids : object.instanceList.map ident with
    | nil =>
      have hnil := List.map_eq_nil_iff.mp hids
      rw [if_pos hnil, if_pos hnil]
      simp only [List.length_append, List.length_singleton]
      congr 1
    | cons id ids =>
      have hne : object.instanceList ≠ [] := fun h => by simp [h] at hids
      rw [if_neg hne, if_neg hne, instancesLength_first]

def objectsEntry (ident : Node → UInt16) (objectList : List (Lwm2mObject Node)) : List UInt8 :=
  (objectList.filter registered).flatMap (objectEntry ident)

theorem objectsEntry_skip (ident : Node → UInt16) {object : Lwm2mObject Node}
    (next : List (Lwm2mObject Node)) (h : registered object = false) :
    objectsEntry ident (object :: next) = objectsEntry ident next := by
  rw [objectsEntry, objectsEntry, List.filter_cons_of_neg (by simp [h])]

theorem objectsEntry_keep (ident : Node → UInt16) {object : Lwm2mObject Node}
    (next : List (Lwm2mObject Node)) (h : registered object = true) :
    objectsEntry ident (object :: next) = objectEntry ident object ++ objectsEntry ident next := by
  rw [objectsEntry, objectsEntry, List.filter_cons_of_pos h, List.flatMap_cons]

theorem objectsLength_eq (ident : Node → UInt16) :
    ∀ (objectList : List (Lwm2mObject Node)) (index : Nat),
      objectsLength ident objectList index =
        some (index + (objectsEntry ident objectList).length) := by
  intro objectList
  induction objectList with
  | nil => exact fun _ => rfl
  | cons object next ih =>
    intro index
    rw [objectsLength]
    by_cases hsecurity : object.objID = lwm2mSecurityObjectId
    · have hskip : registered object = false := by simp [registered, hsecurity]
      rw [if_pos hsecurity, ih, objectsEntry_skip ident next hskip]
    · rw [if_neg hsecurity]
      by_cases hoscore : object.objID = lwm2mOscoreObjectId
      · have hskip : registered object = false := by simp [registered, hoscore]
        rw [if_pos hoscore, ih, objectsEntry_skip ident next hskip]
      · have hkeep : registered object = true := by simp [registered, hsecurity, hoscore]
        rw [if_neg hoscore, objectLength_eq, Option.bind_some, ih, objectsEntry_keep ident next hkeep,
          List.length_append, Nat.add_assoc]

/-- The start of the payload: the client's own link and its delimiter. -/
def registerStart (altPath : Option (List UInt8)) : List UInt8 :=
  regStart ++ registerPath altPath ++ regLwm2mResourceType

theorem objectGetRegisterPayloadBufferLength_eq (ident : Node → UInt16)
    (altPath : Option (List UInt8)) (objectList : List (Lwm2mObject Node)) :
    objectGetRegisterPayloadBufferLength ident altPath objectList =
      intOfSize ((registerStart altPath ++ objectsEntry ident objectList).length + 1) := by
  simp only [objectGetRegisterPayloadBufferLength, objectsLength_eq, registerStart,
    List.length_append]

theorem registerText_delimited (ident : Node → UInt16) (altPath : Option (List UInt8))
    (objectList : List (Lwm2mObject Node)) :
    registerText ident altPath objectList ++ [regDelimiter] =
      registerStart altPath ++ objectsEntry ident objectList := by
  have hentries : objectsEntry ident objectList =
      delimited ((objectList.filter registered).flatMap (objectLinks ident)) := by
    simp only [objectsEntry, delimited, List.flatMap_assoc]
    rfl
  rw [registerText, registerLinks, ← delimited_intercalate (List.cons_ne_nil _ _), delimited_cons,
    hentries]
  simp [registerStart, regLwm2mResourceType, regDelimiter]

end Wakaama
