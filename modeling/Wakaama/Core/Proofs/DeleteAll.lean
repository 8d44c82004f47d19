import Wakaama.Core.DeleteAll
import Wakaama.Core.Proofs.Instances
import Wakaama.Misc.Run

/-!
# What DELETE on `/` leaves and what it answers

Every object comes to one outcome, whatever the objects before it came to: the callbacks of an
object see its own instances only. The result of the loop is that of the last object, so a failure
is told only if the last object fails.
-/

namespace Wakaama

variable {Node : Type} {ident : Node → UInt16} {own : UInt16}

/-! ## Outcomes -/

variable {code' code result : CoapCode} {last last' nodes : List Node}
  {delete : UInt16 → List Node → List Node × CoapCode} {object : Lwm2mObject Node} {rounds : Nat}
  {context after before : ClientContext Node} {objects : List (Lwm2mObject Node)}
  {out : ClientContext Node × CoapCode}

theorem DeletedUntil.unique {pick : List Node → Option Node}
    {attempt : Node → List Node → List Node → CoapCode → Prop}
    (hattempt : ∀ {node nodes last last' code code'}, attempt node nodes last code → attempt node nodes last' code' → last = last' ∧ code = code')
    (h : DeletedUntil pick attempt nodes last code)
    (h' : DeletedUntil pick attempt nodes last' code') : last = last' ∧ code = code' := by
  induction h with
  | done hnone =>
    cases h' with
    | done => exact ⟨rfl, rfl⟩
    | next hpick => exact absurd (hnone.symm.trans hpick) nofun
    | refused hpick => exact absurd (hnone.symm.trans hpick) nofun
  | next hpick hdeleted _ ih =>
    cases h' with
    | done hnone => exact absurd (hnone.symm.trans hpick) nofun
    | next hpick' hdeleted' hnext' =>
      obtain rfl := Option.some.inj (hpick.symm.trans hpick')
      obtain ⟨rfl, -⟩ := hattempt hdeleted hdeleted'
      exact ih hnext'
    | refused hpick' hrefused hcode =>
      obtain rfl := Option.some.inj (hpick.symm.trans hpick')
      exact absurd (hattempt hdeleted hrefused).2.symm hcode
  | refused hpick hrefused hcode =>
    cases h' with
    | done hnone => exact absurd (hnone.symm.trans hpick) nofun
    | next hpick' hdeleted' =>
      obtain rfl := Option.some.inj (hpick.symm.trans hpick')
      exact absurd (hattempt hrefused hdeleted').2 hcode
    | refused hpick' hrefused' =>
      obtain rfl := Option.some.inj (hpick.symm.trans hpick')
      exact hattempt hrefused hrefused'

theorem DeletedUntil.none_left {pick : List Node → Option Node}
    {attempt : Node → List Node → List Node → CoapCode → Prop}
    (h : DeletedUntil pick attempt nodes last code) (hcode : code = .deleted202) :
    pick last = none := by
  induction h with
  | done hnone => exact hnone
  | next _ _ _ ih => exact ih hcode
  | refused _ _ hne => exact absurd hcode hne

theorem InstancesDeleted.unique (h : InstancesDeleted ident delete nodes last code)
    (h' : InstancesDeleted ident delete nodes last' code') : last = last' ∧ code = code' :=
  DeletedUntil.unique (fun h h' => Prod.mk.inj (h.symm.trans h')) h h'

theorem DeleteAnswers.unique {instanceId : UInt16}
    (h : DeleteAnswers ident object instanceId nodes last code)
    (h' : DeleteAnswers ident object instanceId nodes last' code') :
    last = last' ∧ code = code' := by
  unfold DeleteAnswers at h h'
  split at h
  · rename_i hnone
    simp only [hnone] at h'
    exact ⟨h.1.trans h'.1.symm, h.2.trans h'.2.symm⟩
  · rename_i delete hsome
    simp only [hsome] at h'
    split at h
    · rename_i hmax
      rw [if_pos hmax] at h'
      exact h.unique h'
    · rename_i hmax
      rw [if_neg hmax] at h'
      exact Prod.mk.inj (h.symm.trans h')

theorem ObjectOutcome.unique (h : ObjectOutcome ident own object last code)
    (h' : ObjectOutcome ident own object last' code') : last = last' ∧ code = code' := by
  unfold ObjectOutcome at h h'
  split at h
  · rename_i hsecurity
    rw [if_pos hsecurity] at h'
    exact DeletedUntil.unique (fun h h' => h.unique h') h h'
  · rename_i hsecurity
    rw [if_neg hsecurity] at h'
    exact h.unique h'

theorem ObjectOutcome.left (h : ObjectOutcome ident own object last .deleted202) :
    ∀ node ∈ last, object.objID = lwm2mSecurityObjectId ∧ ident node = own := by
  intro node hnode
  unfold ObjectOutcome at h
  split at h
  · rename_i hsecurity
    have hnone := h.none_left rfl
    rw [pickOther, List.find?_eq_none] at hnone
    exact ⟨hsecurity, by simpa using hnone node hnode⟩
  · unfold DeleteAnswers at h
    split at h
    · exact absurd h.2 nofun
    · rw [if_pos rfl] at h
      have hnone := DeletedUntil.none_left h rfl
      rw [List.head?_eq_none_iff] at hnone
      rw [hnone] at hnode
      nomatch hnode

/-! ## The loops -/

theorem deleteInstances_deleted (h : deleteInstances ident delete rounds nodes = .ok (last, code)) :
    InstancesDeleted ident delete nodes last code := by
  induction rounds generalizing nodes with
  | zero =>
    cases nodes with
    | nil =>
      cases h
      exact .done rfl
    | cons node next => nomatch h
  | succ rounds ih =>
    cases nodes with
    | nil =>
      cases h
      exact .done rfl
    | cons node next =>
      simp only [deleteInstances] at h
      split at h
      · rename_i hcode
        exact .next rfl (Prod.ext rfl hcode) (ih h)
      · rename_i hcode
        cases h
        exact .refused rfl rfl hcode

/-- The object has these instances now; the others and the servers are as they were. -/
structure Emptied (object : Lwm2mObject Node) (last : List Node)
    (before after : ClientContext Node) : Prop where
  found : after.findObject object.objID = some { object with instanceList := last }
  others : ∀ key, key ≠ object.objID → after.findObject key = before.findObject key
  servers : EqualServers before after

theorem Emptied.refl (hfind : context.findObject object.objID = some object) :
    Emptied object object.instanceList context context :=
  ⟨hfind, fun _ _ => rfl, rfl, rfl⟩

theorem Emptied.trans {mid : List Node} (h : Emptied object mid before context)
    (h' : Emptied { object with instanceList := mid } last context after) :
    Emptied object last before after :=
  ⟨h'.found, fun key hkey => (h'.others key hkey).trans (h.others key hkey),
    h'.servers.1.trans h.servers.1, h'.servers.2.trans h.servers.2⟩

theorem Emptied.set (hfind : context.findObject object.objID = some object) (last : List Node) :
    Emptied object last context (context.setInstances object.objID last) := by
  refine ⟨?_, fun key hkey => ?_, rfl, rfl⟩
  · simp [lwm2mListFind_setInstances, hfind]
  · rw [lwm2mListFind_setInstances]
    cases hother : context.findObject key with
    | none => rfl
    | some other =>
      have hne : other.objID ≠ object.objID := findObject_id hother ▸ hkey
      simp [hne]

theorem objectDeleteWithin_answers {instanceId : UInt16}
    (hfind : context.findObject object.objID = some object)
    (h : objectDeleteWithin rounds ident context ⟨object.objID, instanceId, lwm2mMaxId, lwm2mMaxId⟩ = .ok (after, code)) :
    ∃ last, DeleteAnswers ident object instanceId object.instanceList last code ∧
      Emptied object last context after := by
  unfold objectDeleteWithin at h
  simp only [hfind] at h
  unfold DeleteAnswers
  cases hfunc : object.deleteFunc with
  | none =>
    simp only [hfunc] at h
    obtain ⟨rfl, rfl⟩ := Prod.mk.inj (Except.ok.inj h)
    exact ⟨_, ⟨rfl, rfl⟩, .refl hfind⟩
  | some delete =>
    simp only [hfunc] at h
    split at h
    · rename_i hset
      have hmax : instanceId ≠ lwm2mMaxId := by simpa [Lwm2mUri.isSetInstance] using hset
      obtain ⟨rfl, rfl⟩ := Prod.mk.inj (Except.ok.inj h)
      exact ⟨_, by simp only [if_neg hmax], .set hfind _⟩
    · rename_i hset
      have hmax : instanceId = lwm2mMaxId := by simpa [Lwm2mUri.isSetInstance] using hset
      obtain ⟨⟨last, code'⟩, hloop, heq⟩ := exceptMap_inv h
      obtain ⟨rfl, rfl⟩ := Prod.mk.inj heq
      exact ⟨last, by simp only [if_pos hmax]; exact deleteInstances_deleted hloop, .set hfind _⟩

theorem deleteOthersWithin_outcome {left : Nat} (hsecurity : object.objID = lwm2mSecurityObjectId)
    (hfind : context.findObject object.objID = some object)
    (h : deleteOthersWithin rounds ident own left context = .ok (after, code)) :
    ∃ last, ObjectOutcome ident own object last code ∧ Emptied object last context after := by
  simp only [ObjectOutcome, if_pos hsecurity]
  induction left generalizing context object with
  | zero =>
    simp only [deleteOthersWithin] at h
    cases hother : otherInstance ident own context with
    | some node =>
      rw [hother] at h
      nomatch h
    | none =>
      simp only [hother] at h
      obtain ⟨rfl, rfl⟩ := Prod.mk.inj (Except.ok.inj h)
      rw [otherInstance, ← hsecurity, hfind] at hother
      exact ⟨_, .done hother, .refl hfind⟩
  | succ left ih =>
    simp only [deleteOthersWithin] at h
    cases hother : otherInstance ident own context with
    | none =>
      simp only [hother] at h
      obtain ⟨rfl, rfl⟩ := Prod.mk.inj (Except.ok.inj h)
      rw [otherInstance, ← hsecurity, hfind] at hother
      exact ⟨_, .done hother, .refl hfind⟩
    | some node =>
      simp only [hother] at h
      rw [otherInstance, ← hsecurity, hfind] at hother
      split at h
      · nomatch h
      · rename_i context' result hdelete
        rw [← hsecurity] at hdelete
        obtain ⟨mid, hanswer, hmid⟩ := objectDeleteWithin_answers hfind hdelete
        split at h
        · rename_i hresult
          subst hresult
          obtain ⟨last, hrest, hlast⟩ := @ih { object with instanceList := mid } context'
            hsecurity hmid.found h
          exact ⟨last, .next hother hanswer hrest, hmid.trans hlast⟩
        · rename_i hresult
          obtain ⟨rfl, rfl⟩ := Prod.mk.inj (Except.ok.inj h)
          exact ⟨mid, .refused hother hanswer hresult, hmid⟩

/-! ## Every object once -/

def Untouched (context : ClientContext Node) (objects : List (Lwm2mObject Node)) : Prop :=
  ∀ object ∈ objects, context.findObject object.objID = some object

theorem Untouched.tail (hasc : Ascending Lwm2mObject.objID (object :: objects))
    (h : Untouched before (object :: objects)) (hemptied : Emptied object last before after) :
    Untouched after objects := by
  intro other hother
  have hlt : object.objID < other.objID := (ascending_cons.1 hasc).1 other hother
  have hne : other.objID ≠ object.objID := fun heq => uint16_lt_irrefl _ (heq ▸ hlt)
  rw [hemptied.others _ hne]
  exact h other (List.mem_cons_of_mem _ hother)

/-- The result an object other than the Security object leaves. -/
def taken (code : CoapCode) : CoapCode :=
  if code = .methodNotAllowed405 then .deleted202 else code

/-- Each of the objects has come to its outcome, and the last one has decided the result. -/
structure EachDeleted (ident : Node → UInt16) (own : UInt16) (objects : List (Lwm2mObject Node))
    (before after : ClientContext Node) (result code : CoapCode) : Prop where
  outcomes : ∀ object ∈ objects, ∃ last code, ObjectOutcome ident own object last code ∧
    after.findObject object.objID = some { object with instanceList := last }
  kept : ∀ key, key ∉ objects.map Lwm2mObject.objID →
    after.findObject key = before.findObject key
  servers : EqualServers before after
  none : objects = [] → code = result
  last : ∀ object ∈ objects.getLast?, ∃ last answer,
    ObjectOutcome ident own object last answer ∧ code = taken answer

theorem deleteAllWithin_outcomes (hasc : Ascending Lwm2mObject.objID objects)
    (hothers : ∀ object ∈ objects, object.objID ≠ lwm2mSecurityObjectId)
    (huntouched : Untouched before objects)
    (h : deleteAllWithin rounds ident own (objects.map Lwm2mObject.objID) result before = .ok (after, code)) :
    EachDeleted ident own objects before after result code := by
  induction objects generalizing before result with
  | nil =>
    obtain ⟨rfl, rfl⟩ := Prod.mk.inj (Except.ok.inj h)
    exact ⟨List.forall_mem_nil _, fun _ _ => rfl, ⟨rfl, rfl⟩, fun _ => rfl,
      fun _ hmem => absurd hmem nofun⟩
  | cons object objects ih =>
    have hother : object.objID ≠ lwm2mSecurityObjectId := hothers object List.mem_cons_self
    simp only [List.map_cons, deleteAllWithin, if_neg hother] at h
    split at h
    · nomatch h
    · rename_i context answer hdelete
      obtain ⟨last, hanswer, hemptied⟩ :=
        objectDeleteWithin_answers (huntouched object List.mem_cons_self) hdelete
      have houtcome : ObjectOutcome ident own object last answer := by
        rw [ObjectOutcome, if_neg hother]
        exact hanswer
      have hrest := ih (ascending_cons.1 hasc).2
        (fun other hmem => hothers other (List.mem_cons_of_mem _ hmem))
        (huntouched.tail hasc hemptied) h
      have hfresh : object.objID ∉ objects.map Lwm2mObject.objID := by
        intro hmem
        obtain ⟨other, hmem, heq⟩ := List.mem_map.1 hmem
        exact uint16_lt_irrefl _ (heq ▸ (ascending_cons.1 hasc).1 other hmem)
      refine ⟨fun other hmem => ?_, fun key hkey => ?_,
        ⟨hrest.servers.1.trans hemptied.servers.1, hrest.servers.2.trans hemptied.servers.2⟩,
        fun hnil => absurd hnil (List.cons_ne_nil _ _), fun other hmem => ?_⟩
      · rcases List.mem_cons.1 hmem with rfl | hmem
        · exact ⟨last, answer, houtcome, (hrest.kept _ hfresh).trans hemptied.found⟩
        · exact hrest.outcomes other hmem
      · obtain ⟨hne, hkey⟩ := not_or.1 (mt List.mem_cons.2 hkey)
        exact (hrest.kept key hkey).trans (hemptied.others key hne)
      · cases objects with
        | nil =>
          obtain rfl := Option.some.inj hmem
          exact ⟨last, answer, houtcome, hrest.none rfl⟩
        | cons next objects =>
          rw [List.getLast?_cons_cons] at hmem
          exact hrest.last other hmem

/-! ## The whole command -/

theorem Untouched.all (hasc : Ascending Lwm2mObject.objID context.objectList) :
    Untouched context context.objectList := fun _ hmem =>
  (lwm2mListFind_eq_some_iff hasc).2 ⟨hmem, rfl⟩

theorem taken_isError (code : CoapCode) :
    (taken code).isError = true ↔ code.isError = true ∧ code ≠ .methodNotAllowed405 := by
  cases code <;> decide

/-- What the Security object came to, and what follows for the servers. -/
structure SecurityStep (ident : Node → UInt16) (own : UInt16) (security : Lwm2mObject Node)
    (before after : ClientContext Node) (last : List Node) (code : CoapCode) : Prop where
  outcome : ObjectOutcome ident own security last code
  found : after.findObject security.objID = some { security with instanceList := last }
  others : ∀ key, key ≠ security.objID → after.findObject key = before.findObject key
  tagged : code = .deleted202 → EqualServers (prvTagAllServer before (some own)) after
  untagged : code ≠ .deleted202 → EqualServers before after

theorem deleteSecurityWithin_step {security : Lwm2mObject Node}
    (hsecurity : security.objID = lwm2mSecurityObjectId)
    (hfind : before.findObject security.objID = some security)
    (h : deleteSecurityWithin rounds ident own .deleted202 before = .ok (after, code)) :
    ∃ last, SecurityStep ident own security before after last code := by
  rw [deleteSecurityWithin, if_neg (not_not_intro rfl)] at h
  obtain ⟨⟨context, answer⟩, hloop, heq⟩ := exceptMap_inv h
  obtain ⟨last, houtcome, hemptied⟩ := deleteOthersWithin_outcome hsecurity hfind hloop
  obtain ⟨rfl, rfl⟩ := Prod.mk.inj heq
  refine ⟨last, houtcome, ?_, fun key hkey => ?_, fun hcode => ?_, fun hcode => ?_⟩
  · dsimp only
    split
    · exact hemptied.found
    · exact hemptied.found
  · dsimp only
    split
    · exact hemptied.others key hkey
    · exact hemptied.others key hkey
  · dsimp only
    rw [if_pos hcode]
    exact ⟨by simp only [prvTagAllServer, hemptied.servers.1],
      by simp only [prvTagAllServer, hemptied.servers.2]⟩
  · dsimp only
    rw [if_neg hcode]
    exact hemptied.servers

theorem truthful_iff
    (houtcomes : ∀ object ∈ before.objectList, ∃ last answer, ObjectOutcome ident own object last answer ∧ (answer = .deleted202 → after.findObject object.objID = some { object with instanceList := last }))
    (hlast : code.isError = true ↔ LastObjectFails ident own before)
    (htagged : SecurityDeleted ident own before after → EqualServers (prvTagAllServer before (some own)) after)
    (huntagged : ¬ SecurityDeleted ident own before after → EqualServers before after) :
    DeleteAllTruthful ident own before after code ↔
      (DeletionFails ident own before → LastObjectFails ident own before) := by
  constructor
  · exact fun h hfails => hlast.1 (h.failed hfails)
  · intro h
    refine ⟨fun hcode object hmem => ?_, fun hfails => hlast.2 (h hfails), htagged, huntagged⟩
    obtain ⟨last, answer, houtcome, hfound⟩ := houtcomes object hmem
    by_cases hdeleted : answer = .deleted202
    · subst hdeleted
      exact .inl ⟨last, houtcome, hfound rfl, houtcome.left⟩
    · by_cases hunsupported : answer = .methodNotAllowed405
      · subst hunsupported
        exact .inr ⟨last, houtcome⟩
      · have herror := hlast.2 (h ⟨object, hmem, last, answer, houtcome, hdeleted, hunsupported⟩)
        rw [hcode] at herror
        nomatch herror

theorem EachDeleted.lastFails (h : EachDeleted ident own objects before after result code)
    (hothers : ∀ object ∈ objects, object.objID ≠ lwm2mSecurityObjectId) (hne : objects ≠ []) :
    code.isError = true ↔ ∃ object ∈ objects.getLast?, ∃ last code,
      ObjectOutcome ident own object last code ∧ code.isError = true ∧
        (code = .methodNotAllowed405 → object.objID = lwm2mSecurityObjectId) := by
  have hsome : objects.getLast? = some (objects.getLast hne) := List.getLast?_eq_some_getLast hne
  obtain ⟨last, answer, houtcome, rfl⟩ := h.last _ hsome
  have hother := hothers _ (List.getLast_mem hne)
  rw [taken_isError, hsome]
  constructor
  · rintro ⟨herror, hsupported⟩
    exact ⟨_, rfl, last, answer, houtcome, herror, fun heq => absurd heq hsupported⟩
  · rintro ⟨object, hmem, last', code, houtcome', herror, hsupported⟩
    obtain rfl := Option.some.inj hmem
    obtain ⟨-, rfl⟩ := houtcome.unique houtcome'
    exact ⟨herror, fun heq => hother (hsupported heq)⟩

theorem others_behind (hasc : Ascending Lwm2mObject.objID (object :: objects)) :
    ∀ other ∈ objects, other.objID ≠ lwm2mSecurityObjectId := by
  intro other hother heq
  have hlt := (ascending_cons.1 hasc).1 other hother
  rw [heq, UInt16.lt_iff_toNat_lt] at hlt
  exact Nat.not_lt_zero _ hlt

theorem deleteAllWithin_others (hasc : Ascending Lwm2mObject.objID before.objectList)
    (hothers : ∀ object ∈ before.objectList, object.objID ≠ lwm2mSecurityObjectId)
    (h : deleteAllWithin rounds ident own (before.objectList.map Lwm2mObject.objID) .deleted202 before = .ok (after, code)) :
    DeleteAllTruthful ident own before after code ↔
      (DeletionFails ident own before → LastObjectFails ident own before) := by
  have heach := deleteAllWithin_outcomes hasc hothers (.all hasc) h
  have hnone : ¬ SecurityDeleted ident own before after := fun ⟨object, hmem, hsecurity, _⟩ =>
    hothers object hmem hsecurity
  refine truthful_iff (fun object hmem => ?_) ?_ (fun hdeleted => absurd hdeleted hnone)
    fun _ => heach.servers
  · obtain ⟨last, answer, houtcome, hfound⟩ := heach.outcomes object hmem
    exact ⟨last, answer, houtcome, fun _ => hfound⟩
  · by_cases hnil : before.objectList = []
    · rw [heach.none hnil, LastObjectFails, hnil]
      exact iff_of_false nofun fun ⟨_, hmem, _⟩ => absurd hmem nofun
    · exact heach.lastFails hothers hnil

theorem deleteAllWithin_security {security : Lwm2mObject Node}
    (hasc : Ascending Lwm2mObject.objID before.objectList)
    (hlist : before.objectList = security :: objects)
    (hsecurity : security.objID = lwm2mSecurityObjectId)
    (h : deleteAllWithin rounds ident own (before.objectList.map Lwm2mObject.objID) .deleted202 before = .ok (after, code)) :
    DeleteAllTruthful ident own before after code ↔
      (DeletionFails ident own before → LastObjectFails ident own before) := by
  have hfind : Untouched before (security :: objects) := hlist ▸ .all hasc
  rw [hlist] at hasc
  have hothers := others_behind hasc
  rw [hlist, List.map_cons, deleteAllWithin, if_pos hsecurity] at h
  split at h
  · nomatch h
  · rename_i context result hstep
    obtain ⟨kept, hstep⟩ :=
      deleteSecurityWithin_step hsecurity (hfind security List.mem_cons_self) hstep
    have hfresh : security.objID ∉ objects.map Lwm2mObject.objID := by
      intro hmem
      obtain ⟨other, hmem, heq⟩ := List.mem_map.1 hmem
      exact hothers other hmem (heq.trans hsecurity)
    have huntouched : Untouched context objects := by
      intro other hmem
      rw [hstep.others _ fun heq => hothers other hmem (heq.trans hsecurity)]
      exact hfind other (List.mem_cons_of_mem _ hmem)
    have heach := deleteAllWithin_outcomes (ascending_cons.1 hasc).2 hothers huntouched h
    have hfound : after.findObject security.objID = some { security with instanceList := kept } :=
      (heach.kept _ hfresh).trans hstep.found
    have hdeleted : SecurityDeleted ident own before after ↔ result = .deleted202 := by
      constructor
      · rintro ⟨object, hmem, hid, last, houtcome, -⟩
        rw [hlist] at hmem
        rcases List.mem_cons.1 hmem with rfl | hmem
        · exact (hstep.outcome.unique houtcome).2
        · exact absurd hid (hothers object hmem)
      · intro hresult
        have houtcome := hresult ▸ hstep.outcome
        exact ⟨security, hlist ▸ List.mem_cons_self, hsecurity, kept, houtcome, hfound,
          houtcome.left⟩
    refine truthful_iff (fun object hmem => ?_) ?_ (fun h => ?_) fun h => ?_
    · rw [hlist] at hmem
      rcases List.mem_cons.1 hmem with rfl | hmem
      · exact ⟨kept, result, hstep.outcome, fun _ => hfound⟩
      · obtain ⟨last, answer, houtcome, hlast⟩ := heach.outcomes object hmem
        exact ⟨last, answer, houtcome, fun _ => hlast⟩
    · rw [LastObjectFails, hlist]
      cases objects with
      | nil =>
        rw [heach.none rfl, List.getLast?_singleton]
        constructor
        · exact fun herror => ⟨security, rfl, kept, result, hstep.outcome, herror,
            fun _ => hsecurity⟩
        · rintro ⟨object, hmem, last, answer, houtcome, herror, -⟩
          obtain rfl := Option.some.inj hmem
          exact (hstep.outcome.unique houtcome).2 ▸ herror
      | cons next objects =>
        rw [List.getLast?_cons_cons]
        exact heach.lastFails hothers (List.cons_ne_nil _ _)
    · have htagged := hstep.tagged (hdeleted.1 h)
      exact ⟨heach.servers.1.trans htagged.1, heach.servers.2.trans htagged.2⟩
    · have hsame := hstep.untagged (mt hdeleted.2 h)
      exact ⟨heach.servers.1.trans hsame.1, heach.servers.2.trans hsame.2⟩

/-- The answer to DELETE on `/` is true exactly if no deletion fails or the last object tells of an
error. -/
theorem bootstrapHandleDeleteAll_truthful_iff (rounds : Nat) (ident : Node → UInt16) (now : Int)
    (server : Lwm2mServer) (context after : ClientContext Node) (result : CoapCode)
    (hasc : Ascending Lwm2mObject.objID context.objectList)
    (haccepted : (prvCheckServerStatus now server).2 = .noError)
    (hreturns : bootstrapHandleDeleteAllWithin rounds ident now server context =
      .ok (after, result)) :
    DeleteAllTruthful ident server.secObjInstID (checkedContext now server context) after result ↔
      (DeletionFails ident server.secObjInstID context →
        LastObjectFails ident server.secObjInstID context) := by
  have hown : (prvCheckServerStatus now server).1.secObjInstID = server.secObjInstID := by
    unfold prvCheckServerStatus
    split <;> rfl
  simp only [bootstrapHandleDeleteAllWithin, haccepted, ne_eq, not_true_eq_false, if_false,
    hown] at hreturns
  change DeleteAllTruthful ident server.secObjInstID (checkedContext now server context) after
    result ↔ (DeletionFails ident server.secObjInstID (checkedContext now server context) →
      LastObjectFails ident server.secObjInstID (checkedContext now server context))
  cases hlist : context.objectList with
  | nil => exact deleteAllWithin_others hasc (by simp [checkedContext, hlist]) hreturns
  | cons object objects =>
    by_cases hsecurity : object.objID = lwm2mSecurityObjectId
    · exact deleteAllWithin_security hasc hlist hsecurity hreturns
    · refine deleteAllWithin_others hasc (fun other hmem => ?_) hreturns
      rcases List.mem_cons.1 (hlist ▸ hmem) with rfl | hmem
      · exact hsecurity
      · exact others_behind (hlist ▸ hasc) other hmem

/-! ## A failure that is hidden -/

/-- An object whose instances are their identifiers, `deleteFunc` answering 5.00 for some. -/
def idObject (objID : UInt16) (refused instanceList : List UInt16) : Lwm2mObject UInt16 where
  objID := objID
  versionMajor := 1
  versionMinor := 0
  instanceList := instanceList
  writeFunc := none
  createFunc := none
  deleteFunc := some fun id nodes =>
    if id ∈ refused then (nodes, .internalServerError500) else (nodes.erase id, .deleted202)

/-- The Device object, which does not support deletion. -/
def deviceObject : Lwm2mObject UInt16 where
  objID := 3
  versionMajor := 1
  versionMinor := 0
  instanceList := [0]
  writeFunc := none
  createFunc := none

/-- The bootstrap server that asks, Security instance 1 being its own. -/
def askingServer : Lwm2mServer := ⟨1, 0, 300, 0, some 7, .bsPending, false, 0xFFFF, 0⟩

/-- A client with Security instances 0 and 1, Server instance 0 and the Device object. -/
def deletingClient (refused : List UInt16) : ClientContext UInt16 where
  state := .bootstrapRequired
  bootstrapServerList := [askingServer]
  serverList := [⟨0, 1, 300, 0, some 8, .registered, false, 0, 85⟩]
  objectList := [idObject 0 [] [0, 1], idObject 1 refused [0], deviceObject]

/-- The Server instance cannot be deleted, but the Device object behind it makes the answer
2.02. -/
theorem refusedServer_hidden : ∃ after,
    bootstrapHandleDeleteAllWithin 3 id 0 askingServer (deletingClient [0]) =
      .ok (after, .deleted202) ∧
    DeletionFails id 1 (deletingClient [0]) ∧
    ¬ DeleteAllTruthful id 1 (checkedContext 0 askingServer (deletingClient [0])) after
      .deleted202 := by
  have hfails : DeletionFails id 1 (deletingClient [0]) :=
    ⟨idObject 1 [0] [0], .tail _ (.head _), [0], .internalServerError500,
      .refused rfl rfl nofun, nofun, nofun⟩
  exact ⟨_, rfl, hfails, fun htruthful => absurd (htruthful.failed hfails) nofun⟩

/-- Where all can be deleted, the answer is true. -/
theorem deletingClient_truthful : ∃ after,
    bootstrapHandleDeleteAllWithin 3 id 0 askingServer (deletingClient []) =
      .ok (after, .deleted202) ∧
    DeleteAllTruthful id 1 (checkedContext 0 askingServer (deletingClient [])) after
      .deleted202 := by
  refine ⟨_, rfl, ?_⟩
  have hasc : Ascending Lwm2mObject.objID (deletingClient []).objectList := by
    unfold Ascending
    decide
  refine (bootstrapHandleDeleteAll_truthful_iff 3 id 0 askingServer (deletingClient []) _ _ hasc
    rfl rfl).2 fun hfails => ?_
  have hsecurity : ObjectOutcome id 1 (idObject 0 [] [0, 1]) [1] .deleted202 :=
    .next rfl rfl (.done rfl)
  have hserver : ObjectOutcome id 1 (idObject 1 [] [0]) [] .deleted202 := .next rfl rfl (.done rfl)
  have hdevice : ObjectOutcome id 1 deviceObject [0] .methodNotAllowed405 := ⟨rfl, rfl⟩
  obtain ⟨object, hmem, last, code, houtcome, hdeleted, hunsupported⟩ := hfails
  have hcases : object = idObject 0 [] [0, 1] ∨ object = idObject 1 [] [0] ∨
      object = deviceObject := by
    simpa [deletingClient] using hmem
  rcases hcases with rfl | rfl | rfl
  · exact absurd (houtcome.unique hsecurity).2 hdeleted
  · exact absurd (houtcome.unique hserver).2 hdeleted
  · exact absurd (houtcome.unique hdevice).2 hunsupported

end Wakaama
