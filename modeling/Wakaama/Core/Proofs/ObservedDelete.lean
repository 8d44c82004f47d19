import Wakaama.Core.ObservedDelete

/-!
# Deletions that clear what is observed below (`core/objects.c`, `core/observe.c`)

An instance that is deleted by name takes its observations along. Where a whole object is deleted,
the first deletion that succeeds is followed by a read of the instance that was freed.
-/

namespace Wakaama

variable {Node : Type} {ident : Node → UInt16}
variable {delete : UInt16 → List Node → List Node × CoapCode} {uri : Lwm2mUri}
variable {nodes : List Node} {observedList : List Observed}

theorem observeClear_filter (uri : Lwm2mUri)
    (hlive : ∀ observed ∈ observedList, observed.freed = false) :
    observeClear uri observedList =
      .ok (observedList.filter fun observed => !clearedBy uri observed) := by
  induction observedList with
  | nil => rfl
  | cons observed next ih =>
    have hhead := hlive observed (by simp)
    have htail := ih fun observed hmem => hlive observed (by simp [hmem])
    simp only [observeClear, hhead, htail, Bool.false_eq_true, if_false, List.filter_cons]
    by_cases hcleared : clearedBy uri observed = true
    · rw [if_pos (by simpa [clearedBy] using hcleared)]
      simp [hcleared]
    · rw [if_neg (by simpa [clearedBy] using hcleared)]
      simp [hcleared]

theorem observeClear_freed (uri : Lwm2mUri)
    (hfreed : ∃ observed ∈ observedList, observed.freed = true) :
    ∃ fault, observeClear uri observedList = .error fault := by
  induction observedList with
  | nil =>
    obtain ⟨observed, hmem, -⟩ := hfreed
    cases hmem
  | cons observed next ih =>
    by_cases hhead : observed.freed = true
    · exact ⟨.useAfterFree, by simp [observeClear, hhead]⟩
    · obtain ⟨other, hmem, hother⟩ := hfreed
      have hnext : other ∈ next := by
        refine (List.mem_cons.mp hmem).resolve_left fun heq => hhead ?_
        rwa [← heq]
      obtain ⟨fault, hfault⟩ := ih ⟨other, hnext, hother⟩
      exact ⟨fault, by simp [observeClear, hhead, hfault]⟩

theorem prvUnlinkObserved_split {node : Nat × Observed} {kept next : List (Nat × Observed)}
    (hkept : node.1 ∉ kept.map Prod.fst) :
    prvUnlinkObserved node.1 (kept ++ node :: next) = kept ++ next := by
  induction kept with
  | nil => simp [prvUnlinkObserved]
  | cons parentP kept ih =>
    obtain ⟨hparent, hbehind⟩ : ¬node.1 = parentP.1 ∧ node.1 ∉ kept.map Prod.fst := by
      simpa [not_or] using hkept
    simp [prvUnlinkObserved, Ne.symm hparent, ih hbehind]

/-- Behind the nodes that it has kept the loop keeps those that are not to be removed. -/
theorem observeClearNodes_kept {kept rest : List (Nat × Observed)}
    (hnodup : ((kept ++ rest).map Prod.fst).Nodup) (hlive : ∀ node ∈ rest, node.2.freed = false) :
    observeClearNodes uri (kept ++ rest) rest =
      .ok (kept ++ rest.filter fun node => !clearedBy uri node.2) := by
  induction rest generalizing kept with
  | nil => simp [observeClearNodes]
  | cons node next ih =>
    have hhead := hlive node (by simp)
    have htail : ∀ node ∈ next, node.2.freed = false := fun node hmem => hlive node (by simp [hmem])
    simp only [observeClearNodes, hhead, Bool.false_eq_true, if_false, List.filter_cons]
    by_cases hcleared : clearedBy uri node.2 = true
    · have hkept : node.1 ∉ kept.map Prod.fst := by
        intro hmem
        rw [List.map_append] at hnodup
        exact (List.nodup_append.mp hnodup).2.2 _ hmem _ (by simp) rfl
      have hless : ((kept ++ next).map Prod.fst).Nodup :=
        hnodup.sublist (((List.sublist_cons_self node next).append_left kept).map Prod.fst)
      rw [if_pos hcleared, prvUnlinkObserved_split hkept, ih hless htail]
      simp [hcleared]
    · have hmore : (((kept ++ [node]) ++ next).map Prod.fst).Nodup := by simpa using hnodup
      have hrest := ih hmore htail
      rw [if_neg hcleared]
      simpa [hcleared] using hrest

/-- On a list whose nodes lie at different addresses, `observe_clear` leaves the entries that the
model leaves, with their addresses. -/
theorem observeClearNodes_refines {observedNodes : List (Nat × Observed)}
    (hnodup : (observedNodes.map Prod.fst).Nodup)
    (hlive : ∀ node ∈ observedNodes, node.2.freed = false) :
    (observeClearNodes uri observedNodes observedNodes).map (List.map Prod.snd) =
      observeClear uri (observedNodes.map Prod.snd) := by
  have hloop : observeClearNodes uri ([] ++ observedNodes) observedNodes = _ :=
    observeClearNodes_kept hnodup hlive
  rw [List.nil_append, List.nil_append] at hloop
  rw [hloop, observeClear_filter uri (by simpa using fun o a h => hlive (a, o) h)]
  simp [Except.map, List.filter_map, Function.comp_def]

theorem belowDeleted_cons {objectId id : UInt16} {calls : List (UInt16 × CoapCode)}
    {observed : Observed} (hid : id ≠ lwm2mMaxId) (hobject : uri.objectId = objectId) :
    belowDeleted objectId ((id, .deleted202) :: calls) observed =
      (clearedBy { uri with instanceId := id } observed || belowDeleted objectId calls observed) := by
  simp only [belowDeleted, clearedBy, Lwm2mUri.isSetInstance, hobject, List.contains_cons]
  have hset : (id != lwm2mMaxId) = true := by simpa using hid
  rw [hset]
  cases observed.uri.objectId == objectId with
  | false => rfl
  | true =>
    rw [Bool.eq_iff_iff]
    simp

theorem belowDeleted_refused {objectId id : UInt16} {code : CoapCode} {observed : Observed}
    (hcode : code ≠ .deleted202) : belowDeleted objectId [(id, code)] observed = false := by
  simp [belowDeleted, hcode.symm]

/-- Where an instance that was deleted can still be read, each round of the loop takes one from the
list, with the observations below it. -/
theorem deleteObserved_unlinked (hremoves : RemovesGiven ident delete) (uri : Lwm2mUri)
    (calls : List (UInt16 × CoapCode))
    (hmax : ∀ node ∈ nodes, ident node ≠ lwm2mMaxId)
    (hlive : ∀ observed ∈ observedList, observed.freed = false) :
    ∃ out more, (∀ rounds, nodes.length ≤ rounds →
        deleteObserved ident (readUnlinked ident) delete uri rounds nodes observedList calls =
          .ok out) ∧
      out.calls = calls ++ more ∧
      out.observedList = observedList.filter (fun observed =>
        !belowDeleted uri.objectId more observed) ∧
      out.result = (more.getLast?.map Prod.snd).getD .deleted202 := by
  induction hlen : nodes.length generalizing nodes observedList calls with
  | zero =>
    obtain rfl := List.length_eq_zero_iff.mp hlen
    exact ⟨⟨[], observedList, calls, .deleted202⟩, [], fun rounds _ => by simp only [deleteObserved],
      by simp, by simp [belowDeleted], rfl⟩
  | succ n ih =>
    cases nodes with
    | nil => cases hlen
    | cons instanceP next =>
      by_cases hdone : (delete (ident instanceP) (instanceP :: next)).2 = .deleted202
      · obtain ⟨before, node, after, hnodes, -, hleft⟩ := hremoves _ _ hdone
        have hshorter : (before ++ after).length = n := by
          have := congrArg List.length hnodes
          simp only [List.length_append, List.length_cons] at this hlen ⊢
          omega
        have hmaxLeft : ∀ node ∈ before ++ after, ident node ≠ lwm2mMaxId := by
          intro other hmem
          refine hmax other ?_
          rw [hnodes]
          simp only [List.mem_append, List.mem_cons] at hmem ⊢
          tauto
        have hclear := observeClear_filter { uri with instanceId := ident instanceP } hlive
        obtain ⟨out, more, hrun, hcalls, hkept, hresult⟩ :=
          ih (calls ++ [(ident instanceP, .deleted202)]) hmaxLeft
            (fun observed hmem => hlive observed (List.mem_filter.mp hmem).1) hshorter
        refine ⟨out, (ident instanceP, .deleted202) :: more, ?_, by simp [hcalls], ?_, ?_⟩
        · intro rounds hrounds
          obtain ⟨rounds, rfl⟩ : ∃ r, rounds = r + 1 := ⟨rounds - 1, by omega⟩
          simp only [deleteObserved, hdone, if_true, readUnlinked, hclear, hleft]
          exact hrun rounds (by omega)
        · rw [hkept, List.filter_filter]
          refine List.filter_congr fun observed _ => ?_
          rw [belowDeleted_cons (hmax instanceP (by simp)) rfl, Bool.not_or, Bool.and_comm]
        · rw [hresult, List.getLast?_cons]
          cases more.getLast? <;> rfl
      · rcases hcall : delete (ident instanceP) (instanceP :: next) with ⟨left, code⟩
        rw [hcall] at hdone
        refine ⟨⟨left, observedList, calls ++ [(ident instanceP, code)], code⟩,
          [(ident instanceP, code)], fun rounds hrounds => ?_, rfl,
          by simp [belowDeleted_refused hdone], rfl⟩
        obtain ⟨rounds, rfl⟩ : ∃ r, rounds = r + 1 := ⟨rounds - 1, by omega⟩
        simp only [deleteObserved, hcall, hdone, if_false]

/-- The deletion does what it promises as long as the memory of the instances is not given back. -/
theorem clearsDeleted_unlinked (hremoves : RemovesGiven ident delete)
    (hmax : ∀ node ∈ nodes, ident node ≠ lwm2mMaxId) (huri : uri.isSetInstance = false)
    (hlive : ∀ observed ∈ observedList, observed.freed = false) :
    ClearsDeleted ident (readUnlinked ident) delete uri nodes observedList := by
  obtain ⟨out, more, hrun, hcalls, hkept, hresult⟩ :=
    deleteObserved_unlinked hremoves uri [] hmax hlive
  rw [List.nil_append] at hcalls
  refine ⟨out, fun rounds hrounds => ?_, by rw [hkept, hcalls], by rw [hresult, hcalls]⟩
  simp only [objectDeleteObserved, huri, Bool.false_eq_true, if_false]
  exact hrun rounds hrounds

theorem clearsDeleted_named (huri : uri.isSetInstance = true) :
    ClearsDeleted ident readFreed delete uri nodes observedList ↔
      ((delete uri.instanceId nodes).2 = .deleted202 →
        ∀ observed ∈ observedList, observed.freed = false) := by
  rcases hcall : delete uri.instanceId nodes with ⟨left, code⟩
  by_cases hdone : code = .deleted202
  · subst hdone
    constructor
    · intro hclears _
      by_contra hnot
      obtain ⟨fault, hfault⟩ := observeClear_freed uri (by simpa using hnot)
      obtain ⟨out, hrun, -⟩ := hclears
      have hfails := hrun nodes.length (Nat.le_refl _)
      simp [objectDeleteObserved, huri, hcall, hfault, Except.map] at hfails
    · intro hlive
      have hid : uri.instanceId ≠ lwm2mMaxId := by simpa [Lwm2mUri.isSetInstance] using huri
      refine ⟨⟨left, observedList.filter fun observed => !clearedBy uri observed,
        [(uri.instanceId, .deleted202)], .deleted202⟩, fun rounds _ => ?_, ?_, rfl⟩
      · simp only [objectDeleteObserved, huri, hcall, if_true, observeClear_filter uri (hlive rfl),
          Except.map]
      · refine List.filter_congr fun observed _ => ?_
        rw [belowDeleted_cons hid rfl]
        simp [belowDeleted]
  · refine iff_of_true ⟨⟨left, observedList, [(uri.instanceId, code)], code⟩, fun rounds _ => ?_,
      by simp [belowDeleted_refused hdone], rfl⟩ fun h => absurd h hdone
    simp only [objectDeleteObserved, huri, hcall, hdone, if_true, if_false]

theorem clearsDeleted_whole (huri : uri.isSetInstance = false) :
    ClearsDeleted ident readFreed delete uri nodes observedList ↔
      ∀ instanceP ∈ nodes.head?, (delete (ident instanceP) nodes).2 ≠ .deleted202 := by
  cases nodes with
  | nil =>
    refine iff_of_true ⟨⟨[], observedList, [], .deleted202⟩, fun rounds _ => ?_,
      by simp [belowDeleted], rfl⟩ (by simp)
    simp only [objectDeleteObserved, huri, Bool.false_eq_true, if_false, deleteObserved]
  | cons instanceP next =>
    rcases hcall : delete (ident instanceP) (instanceP :: next) with ⟨left, code⟩
    by_cases hdone : code = .deleted202
    · refine iff_of_false ?_ (by simp [hcall, hdone])
      intro hclears
      obtain ⟨out, hrun, -⟩ := hclears
      have hfails := hrun (instanceP :: next).length (Nat.le_refl _)
      simp [objectDeleteObserved, huri, deleteObserved, hcall, hdone, readFreed] at hfails
    · refine iff_of_true ⟨⟨left, observedList, [(ident instanceP, code)], code⟩,
        fun rounds hrounds => ?_, by simp [belowDeleted_refused hdone], rfl⟩
        (by simpa [hcall] using hdone)
      obtain ⟨rounds, rfl⟩ : ∃ r, rounds = r + 1 := ⟨rounds - 1, by simp at hrounds; omega⟩
      simp only [objectDeleteObserved, huri, Bool.false_eq_true, deleteObserved, hcall, hdone,
        if_false, List.nil_append]

/-- Where `deleteFunc` frees what it removes, a deletion clears exactly the observations below what
it deletes, and reads nothing that was freed, unless its first call of `deleteFunc` succeeds for a
whole object. -/
theorem clearsDeleted_iff (ident : Node → UInt16)
    (delete : UInt16 → List Node → List Node × CoapCode) (uri : Lwm2mUri) (nodes : List Node)
    (observedList : List Observed) :
    ClearsDeleted ident readFreed delete uri nodes observedList ↔
      (firstAnswer ident delete uri nodes = some .deleted202 →
        uri.isSetInstance = true ∧ ∀ observed ∈ observedList, observed.freed = false) := by
  cases huri : uri.isSetInstance with
  | true => simp [clearsDeleted_named huri, firstAnswer, huri]
  | false =>
    rw [clearsDeleted_whole huri]
    cases nodes <;> simp [firstAnswer, huri]

/-- A `deleteFunc` of instances that are nothing but their ids. -/
def deleteHeld (id : UInt16) (nodes : List UInt16) : List UInt16 × CoapCode :=
  if id ∈ nodes then (nodes.erase id, .deleted202) else (nodes, .notFound404)

/-- The only instance of an object is deleted with its object, and is read once it is freed. -/
theorem wholeObject_readsFreed : RemovesGiven id deleteHeld ∧
    ¬ClearsDeleted id readFreed deleteHeld ⟨3, lwm2mMaxId, lwm2mMaxId, lwm2mMaxId⟩ [0] [] := by
  constructor
  · intro id nodes hdone
    by_cases hmem : id ∈ nodes
    · obtain ⟨before, after, -, hnodes, herase⟩ := List.exists_erase_eq hmem
      exact ⟨before, id, after, hnodes, rfl, by simp [deleteHeld, hmem, herase]⟩
    · simp [deleteHeld, hmem] at hdone
  · intro hclears
    obtain ⟨out, hrun, -⟩ := hclears
    have hone := hrun 1 (by decide)
    simp [objectDeleteObserved, deleteObserved, deleteHeld, readFreed, Lwm2mUri.isSetInstance] at hone

end Wakaama
