import Wakaama.Core.Proofs.NumberText
import Wakaama.Core.Proofs.RegistrationUpdate
import Wakaama.Core.Registration.Registry

/-!
# One client for each endpoint name (`core/registration.c`, `core/packet.c`)

A Register with Block1 comes in through a client without a name, which is given the name or goes.
Where the client of its session has a name already it is another registration that goes, or the one
that is renewed.
-/

namespace Wakaama

variable {Session : Type} {clientList clientList' : List (Registration Session)}
variable {clientP : Registration Session} {p : Registration Session → Prop}

/-- The clients do not have one endpoint name. -/
def NamesApart (a b : Registration Session) : Prop := a.endpoint ≠ none → a.endpoint ≠ b.endpoint

/-- The ids are in order, and no two clients have one endpoint name. -/
structure OnePerName (clientList : List (Registration Session)) : Prop where
  ascending : Ascending Registration.id clientList
  names : clientList.Pairwise NamesApart

/-- Of the clients that meet a condition the list has the same as before. -/
def SameOf (p : Registration Session → Prop) (clientList clientList' : List (Registration Session)) :
    Prop :=
  ∀ other, p other → (other ∈ clientList' ↔ other ∈ clientList)

/-- The client is registered. -/
def Named (clientP : Registration Session) : Prop := clientP.endpoint ≠ none

/-- Behind a Register: one client has its name and what it registers, its id is told in the
Location-Path, and the clients with other names are the same. -/
def RegistersClient (request : RegistryRequest Session)
    (clientList clientList' : List (Registration Session)) (location : Option (List UInt8)) : Prop :=
  ∃ accepted clientP, checkRegister request.now request.fromSessionH request.message =
      .ok (.ok accepted) ∧
    clientP ∈ clientList' ∧ accepted.fill clientP = clientP ∧
    (∀ other ∈ clientList', other.endpoint = clientP.endpoint → other = clientP) ∧
    location = some ([47, 114, 100, 47] ++ decimalText clientP.id.toNat) ∧
    SameOf (fun other => Named other ∧ other.endpoint ≠ clientP.endpoint) clientList clientList'

/-- What a request does to the registered clients, by the code of its answer. -/
def Answers (request : RegistryRequest Session)
    (clientList clientList' : List (Registration Session)) : Option RegistryReply → Prop
  | none => SameOf Named clientList clientList'
  | some reply =>
    match reply.code with
    | .created201 => RegistersClient request clientList clientList' reply.location
    | .changed204 =>
      SameOf (fun other => Named other ∧ other.id ≠ request.uri.objectId) clientList clientList'
    | .deleted202 =>
      SameOf (fun other => Named other ∧ other.id ≠ request.uri.objectId) clientList clientList' ∧
        ∀ other ∈ clientList', other.id ≠ request.uri.objectId
    | _ => SameOf Named clientList clientList'

/-- What a call does to the registered clients. -/
def Serves (clientList clientList' : List (Registration Session)) (call : RegistryCall Session)
    (reply : Option RegistryReply) : Prop :=
  match call with
  | .request request => Answers request clientList clientList' reply
  | .step currentTime =>
    clientList' = clientList.filter fun clientP => decide (currentTime < clientP.endOfLife)

/-- There is an id that is free, and the client of the session that a complete Register with Block1
comes from has no name. -/
def FromNewSession (sessionIsEqual : Session → Session → Bool)
    (clientList : List (Registration Session)) : RegistryCall Session → Prop
  | .request request => (∃ key, ∀ clientP ∈ clientList, clientP.id ≠ key) ∧
      (request.isBlock1 = true → request.complete = true → request.uri.isSetObject = false →
        ∀ found ∈ utilsFindClient sessionIsEqual request.fromSessionH clientList,
          found.endpoint = none)
  | .step _ => True

/-! ## The lists -/

theorem NamesApart.symm {a b : Registration Session} (h : NamesApart a b) : NamesApart b a :=
  fun hnamed heq => h (heq ▸ hnamed) heq.symm

theorem OnePerName.sublist (h : OnePerName clientList) (hsub : clientList'.Sublist clientList) :
    OnePerName clientList' :=
  ⟨List.Pairwise.sublist hsub h.ascending, List.Pairwise.sublist hsub h.names⟩

theorem OnePerName.id_inj (h : OnePerName clientList) {a b : Registration Session}
    (ha : a ∈ clientList) (hb : b ∈ clientList) (hid : a.id = b.id) : a = b := by
  have hfind := (lwm2mListFind_eq_some_iff h.ascending).2 ⟨ha, hid⟩
  have hsame := (lwm2mListFind_eq_some_iff h.ascending).2 ⟨hb, rfl⟩
  exact Option.some.inj (hfind.symm.trans hsame)

theorem OnePerName.name_inj (h : OnePerName clientList) {a b : Registration Session}
    (ha : a ∈ clientList) (hb : b ∈ clientList) (hnamed : Named a) (heq : a.endpoint = b.endpoint) :
    a = b := by
  by_contra hne
  have : Std.Symm (@NamesApart Session) := ⟨fun _ _ => NamesApart.symm⟩
  exact h.names.forall ha hb hne hnamed heq

theorem OnePerName.add (h : OnePerName clientList)
    (hfresh : ∀ other ∈ clientList, other.id ≠ clientP.id)
    (hname : ∀ other ∈ clientList, NamesApart clientP other) :
    OnePerName (lwm2mListAdd Registration.id clientList clientP) := by
  refine ⟨lwm2mListAdd_ascending h.ascending hfresh, ?_⟩
  rw [List.Perm.pairwise_iff NamesApart.symm (lwm2mListAdd_perm clientList clientP)]
  exact List.pairwise_cons.2 ⟨hname, h.names⟩

theorem OnePerName.map (h : OnePerName clientList) {f : Registration Session → Registration Session}
    (hid : ∀ other, (f other).id = other.id)
    (hname : ∀ a ∈ clientList, ∀ b ∈ clientList, a.id ≠ b.id → NamesApart (f a) (f b)) :
    OnePerName (clientList.map f) := by
  constructor
  · refine List.pairwise_map.2 (List.Pairwise.imp (fun {a b} hlt => ?_) h.ascending)
    rwa [hid, hid]
  · refine List.pairwise_map.2 (List.Pairwise.imp_of_mem (fun {a b} ha hb hlt => ?_) h.ascending)
    exact hname a ha b hb fun heq => uint16_lt_irrefl _ (heq ▸ hlt)

theorem sameOf_refl : SameOf p clientList clientList := fun _ _ => Iff.rfl

theorem SameOf.trans {last : List (Registration Session)} (h : SameOf p clientList clientList')
    (hlast : SameOf p clientList' last) : SameOf p clientList last :=
  fun other hp => (hlast other hp).trans (h other hp)

theorem SameOf.imp {q : Registration Session → Prop} (h : SameOf p clientList clientList')
    (himp : ∀ other, q other → p other) : SameOf q clientList clientList' :=
  fun other hq => h other (himp other hq)

theorem sameOf_add (hnot : ¬ p clientP) :
    SameOf p clientList (lwm2mListAdd Registration.id clientList clientP) := by
  intro other hp
  rw [(lwm2mListAdd_perm clientList clientP).mem_iff, List.mem_cons]
  exact or_iff_right fun heq => hnot (heq ▸ hp)

theorem sameOf_map {f : Registration Session → Registration Session}
    (hkept : ∀ other ∈ clientList, p other ∨ p (f other) → f other = other) :
    SameOf p clientList (clientList.map f) := by
  intro other hp
  rw [List.mem_map]
  constructor
  · rintro ⟨old, hold, rfl⟩
    rwa [hkept old hold (.inr hp)]
  · intro hmem
    exact ⟨other, hmem, hkept other hmem (.inl hp)⟩

theorem sameOf_filter {q : Registration Session → Bool}
    (hkept : ∀ other ∈ clientList, p other → q other = true) :
    SameOf p clientList (clientList.filter q) := by
  intro other hp
  rw [List.mem_filter]
  exact and_iff_left_of_imp fun hmem => hkept other hmem hp

/-! ## The clients that expire -/

/-- By induction on the clients to come: the loop takes away those that have expired. -/
theorem expireRegistrations_eq (currentTime : Int) (nextP : List (Registration Session)) :
    ∀ clientList : List (Registration Session), Ascending Registration.id clientList →
      expireRegistrations currentTime nextP clientList = clientList.filter fun other =>
        nextP.all fun clientP => decide (currentTime < clientP.endOfLife) || other.id != clientP.id := by
  induction nextP with
  | nil => exact fun clientList _ => (List.filter_eq_self.2 fun _ _ => rfl).symm
  | cons clientP nextP ih =>
    intro clientList hasc
    rw [expireRegistrations]
    by_cases hexpired : clientP.endOfLife ≤ currentTime
    · rw [if_pos hexpired, lwm2mListRemove_eq hasc, ih _ (hasc.filter _), List.filter_filter]
      refine List.filter_congr fun other _ => ?_
      simp [Int.not_lt.2 hexpired, Bool.and_comm]
    · rw [if_neg hexpired, ih _ hasc]
      refine List.filter_congr fun other _ => ?_
      simp [Int.not_le.1 hexpired]

theorem OnePerName.expire (h : OnePerName clientList) (currentTime : Int) :
    expireRegistrations currentTime clientList clientList =
      clientList.filter fun clientP => decide (currentTime < clientP.endOfLife) := by
  rw [expireRegistrations_eq currentTime clientList clientList h.ascending]
  refine List.filter_congr fun other hmem => ?_
  rw [Bool.eq_iff_iff, List.all_eq_true]
  constructor
  · intro hall
    simpa using hall other hmem
  · intro hlater clientP hclient
    by_cases hid : other.id = clientP.id
    · rw [← h.id_inj hmem hclient hid, hlater]
      rfl
    · simp [hid]

/-! ## One request -/

variable {sessionIsEqual : Session → Session → Bool} {sessionH : Session}
variable {request : RegistryRequest Session} {reply : RegistryReply}

theorem prvGetLocationString_eq (id : UInt16) :
    prvGetLocationString id = [47, 114, 100, 47] ++ decimalText id.toNat := by
  rw [prvGetLocationString, utilsIntToText_id,
    if_pos (Nat.le_succ_of_le (decimalText_id_length id))]

/-- The name is free for a client: none of the others has it. -/
def NameFree (name : List UInt8) (clientList : List (Registration Session))
    (clientP : Option (Registration Session)) : Prop :=
  ∀ other ∈ clientList, (∀ found ∈ clientP, other.id ≠ found.id) →
    other.endpoint ≠ some (cString name)

theorem OnePerName.nameFree (h : OnePerName clientList) (name : List UInt8) :
    NameFree name clientList (prvGetClientByName name clientList) := by
  intro other hother hne hname
  cases hfound : prvGetClientByName name clientList with
  | none => exact List.find?_eq_none.1 hfound other hother (by simp [hname])
  | some found =>
    have hsame : found.endpoint = some (cString name) := by simpa using List.find?_some hfound
    have hmem := List.mem_of_find?_eq_some hfound
    have hnamed : Named other := by simp [Named, hname]
    exact hne found hfound (congrArg _ (h.name_inj hother hmem hnamed (hname.trans hsame.symm)))

/-- What the search for the client of a Register leads to, where the client of the session of one
with Block1 has no name. -/
theorem registerClientP_spec (h : OnePerName clientList) (name : List UInt8) {isBlock1 : Bool}
    (hpeer : isBlock1 = true → ∃ found, utilsFindClient sessionIsEqual sessionH clientList =
      some found ∧ found.endpoint = none) :
    ∃ clientP clientList', registerClientP sessionIsEqual sessionH isBlock1
        (prvGetClientByName name clientList) clientList = .ok (clientP, clientList') ∧
      clientList'.Sublist clientList ∧ SameOf Named clientList clientList' ∧
      NameFree name clientList' clientP ∧ (clientP = none → isBlock1 = false) ∧
      ∀ found ∈ clientP, found ∈ clientList' ∧
        (Named found → found.endpoint = some (cString name)) := by
  have hfree := h.nameFree name
  have hnamed : ∀ found ∈ prvGetClientByName name clientList,
      found ∈ clientList ∧ found.endpoint = some (cString name) := by
    intro found hfound
    exact ⟨List.mem_of_find?_eq_some hfound, by simpa using List.find?_some hfound⟩
  unfold registerClientP
  cases isBlock1 with
  | false =>
    exact ⟨_, clientList, rfl, List.Sublist.refl _, sameOf_refl, hfree, fun _ => rfl,
      fun found hfound => ⟨(hnamed found hfound).1, fun _ => (hnamed found hfound).2⟩⟩
  | true =>
    obtain ⟨tmpClientP, htmp, hunnamed⟩ := hpeer rfl
    rw [htmp]
    cases hname : prvGetClientByName name clientList with
    | none =>
      rw [hname] at hfree
      refine ⟨some tmpClientP, clientList, rfl, List.Sublist.refl _, sameOf_refl, ?_, nofun, ?_⟩
      · exact fun other hother _ => hfree other hother fun _ hmem => by cases hmem
      · rintro found ⟨⟩
        exact ⟨List.mem_of_find?_eq_some htmp, fun hnot => absurd hunnamed hnot⟩
    | some clientP =>
      obtain ⟨hmem, hsame⟩ := hnamed clientP hname
      rw [hname] at hfree
      have hapart : tmpClientP.id ≠ clientP.id := by
        intro hid
        rw [h.id_inj (List.mem_of_find?_eq_some htmp) hmem hid, hsame] at hunnamed
        cases hunnamed
      have hleft : clientP ∈ clientList.filter fun other => other.id != tmpClientP.id :=
        List.mem_filter.2 ⟨hmem, by simpa using hapart.symm⟩
      simp only [Bool.not_true, Bool.false_eq_true, if_false, if_neg hapart,
        lwm2mListRemove_eq h.ascending]
      refine ⟨some clientP, _, rfl, List.filter_sublist, sameOf_filter ?_, ?_, nofun, ?_⟩
      · intro other hother hnamed
        rw [bne_iff_ne]
        intro hid
        rw [h.id_inj hother (List.mem_of_find?_eq_some htmp) hid] at hnamed
        exact hnamed hunnamed
      · exact fun other hother => hfree other (List.mem_of_mem_filter hother)
      · rintro found ⟨⟩
        exact ⟨hleft, fun _ => hsame⟩

variable {accepted : RegisterRequest Session} {allocated : Bool}

theorem fill_endpoint (accepted : RegisterRequest Session) (clientP : Registration Session) :
    (accepted.fill clientP).endpoint = some (cString accepted.name) := rfl

/-- The list behind a Register, from the one that has the client to be filled. -/
theorem registersClient_of (h : OnePerName clientList')
    (hcheck : checkRegister request.now request.fromSessionH request.message = .ok (.ok accepted))
    (hmem : accepted.fill clientP ∈ clientList')
    (hsame : SameOf (fun other => Named other ∧ other.endpoint ≠ some (cString accepted.name))
      clientList clientList') :
    RegistersClient request clientList clientList' (some (prvGetLocationString clientP.id)) := by
  refine ⟨accepted, accepted.fill clientP, hcheck, hmem, rfl, ?_, ?_, hsame⟩
  · intro other hother heq
    exact (h.name_inj hmem hother (by simp [Named, fill_endpoint]) heq.symm).symm
  · rw [prvGetLocationString_eq]
    rfl

theorem OnePerName.fill (h : OnePerName clientList)
    (hfree : NameFree accepted.name clientList (some clientP)) :
    OnePerName (clientList.map fun other =>
      if other.id = clientP.id then accepted.fill other else other) := by
  refine h.map (fun other => by split <;> rfl) ?_
  intro a ha b hb hne
  by_cases hself : a.id = clientP.id
  · rw [if_pos hself, if_neg (fun heq => hne (hself.trans heq.symm))]
    intro _ heq
    exact hfree b hb (fun found hfound => by cases hfound; exact hself ▸ hne.symm) heq.symm
  · rw [if_neg hself]
    split
    · intro _ heq
      exact hfree a ha (fun found hfound => by cases hfound; exact hself) heq
    · exact fun hnamed heq => hne (congrArg _ (h.name_inj ha hb hnamed heq))

theorem registerOperation_serves (h : OnePerName clientList)
    (hcheck : checkRegister request.now request.fromSessionH request.message = .ok (.ok accepted))
    (hpeer : request.isBlock1 = true → ∃ found, utilsFindClient sessionIsEqual
      accepted.fromSessionH clientList = some found ∧ found.endpoint = none)
    (hid : request.isBlock1 = false → ∃ key, ∀ clientP ∈ clientList, clientP.id ≠ key) :
    ∃ clientList' reply, registerOperation sessionIsEqual request.isBlock1 allocated accepted
        clientList = .ok (clientList', reply) ∧
      OnePerName clientList' ∧ Answers request clientList clientList' (some reply) := by
  obtain ⟨found, kept, hfound, hsub, hsame, hfree, hnone, hsome⟩ :=
    registerClientP_spec h accepted.name hpeer
  have hkept := h.sublist hsub
  have hothers := hsame.imp (q := fun other =>
    Named other ∧ other.endpoint ≠ some (cString accepted.name)) fun _ hnamed => hnamed.1
  unfold registerOperation
  rw [hfound]
  cases found with
  | some clientP =>
    obtain ⟨hmem, hname⟩ := hsome clientP rfl
    have hfilled := hkept.fill hfree
    refine ⟨_, _, rfl, hfilled, registersClient_of hfilled hcheck ?_ (hothers.trans (sameOf_map ?_))⟩
    · exact List.mem_map.2 ⟨clientP, hmem, if_pos rfl⟩
    · intro other hother hp
      split at hp
      · rename_i heq
        rw [hkept.id_inj hother hmem heq] at hp
        rcases hp with ⟨hnamed, hne⟩ | ⟨-, hne⟩
        · exact absurd (hname hnamed) hne
        · exact absurd rfl hne
      · exact if_neg ‹_›
  | none =>
    obtain ⟨key, hkey⟩ := hid (hnone rfl)
    have hfresh := lwm2mListNewId_fresh hkept.ascending
      ⟨key, fun other hother => hkey other (hsub.subset hother)⟩
    cases allocated with
    | false => exact ⟨kept, _, rfl, hkept, hsame⟩
    | true =>
      let clientP := accepted.fill
        (newClient (lwm2mListNewId Registration.id kept) accepted.fromSessionH)
      have hadded : OnePerName (lwm2mListAdd Registration.id kept clientP) :=
        hkept.add hfresh fun other hother _ heq =>
          hfree other hother (fun _ hmem => by cases hmem) heq.symm
      refine ⟨_, _, rfl, hadded, registersClient_of hadded hcheck ?_ (hothers.trans (sameOf_add ?_))⟩
      · exact (lwm2mListAdd_perm _ _).mem_iff.2 (List.mem_cons_self ..)
      · exact fun hnot => hnot.2 rfl

theorem answers_refused (herror : reply.code.isError = true)
    (hsame : SameOf Named clientList clientList') :
    Answers request clientList clientList' (some reply) := by
  obtain ⟨code, location⟩ := reply
  cases code <;> first | exact hsame | cases herror

theorem Answers.behind {first : List (Registration Session)} {reply : Option RegistryReply}
    (h : Answers request clientList clientList' reply) (hfirst : SameOf Named first clientList) :
    Answers request first clientList' reply := by
  have hsome : ∀ q : Registration Session → Prop,
      SameOf (fun other => Named other ∧ q other) first clientList :=
    fun q => hfirst.imp fun _ hq => hq.1
  cases reply with
  | none => exact hfirst.trans h
  | some reply =>
    obtain ⟨code, location⟩ := reply
    cases code with
    | created201 =>
      obtain ⟨accepted, clientP, hcheck, hmem, hfill, honly, hlocation, hothers⟩ := h
      exact ⟨accepted, clientP, hcheck, hmem, hfill, honly, hlocation, (hsome _).trans hothers⟩
    | changed204 => exact (hsome _).trans h
    | deleted202 => exact ⟨(hsome _).trans h.1, h.2⟩
    | _ => exact hfirst.trans h

/-- The request goes wrong where it is read: its query or its payload, or, in an update, the
observations of the client. -/
def ReadsWrong (request : RegistryRequest Session) (fault : Fault) : Prop :=
  checkRegister request.now request.fromSessionH request.message = .error fault ∨
    ∃ clients, registrationUpdate request.now request.uri request.fromSessionH request.message
      clients = .error fault

/-- What becomes of a call. -/
def Served (clientList : List (Registration Session)) (call : RegistryCall Session) :
    Except Fault (List (Registration Session) × Option RegistryReply) → Prop
  | .error fault => ∃ request, call = .request request ∧ ReadsWrong request fault
  | .ok (clientList', reply) => OnePerName clientList' ∧ Serves clientList clientList' call reply

theorem checkRegister_refuses {now : Int} {message : RegistrationMessage} {code : CoapCode}
    (h : checkRegister now sessionH message = .ok (.error code)) : code.isError = true := by
  unfold checkRegister at h
  repeat' split at h
  all_goals cases h
  all_goals rfl

theorem checkRegister_session {now : Int} {message : RegistrationMessage}
    (h : checkRegister now sessionH message = .ok (.ok accepted)) :
    accepted.fromSessionH = sessionH := by
  unfold checkRegister at h
  repeat' split at h
  all_goals cases h
  rfl

theorem registrationUpdate_code {now : Int} {uri : Lwm2mUri} {message : RegistrationMessage}
    {clients : ClientList Session} {out : UpdateAnswer Session}
    (h : registrationUpdate now uri sessionH message clients = .ok out) :
    out.code = .changed204 ∨ out.code.isError = true := by
  unfold registrationUpdate acceptUpdate at h
  dsimp only at h
  repeat' split at h
  all_goals cases h
  all_goals first | exact .inl rfl | exact .inr rfl

theorem registrationUpdateIn_serves (h : OnePerName clientList) :
    Served clientList (.request request) ((registrationUpdateIn request.now request.uri
      request.fromSessionH request.message clientList).map fun out => (out.1, some out.2)) := by
  unfold registrationUpdateIn
  dsimp only
  cases hupdate : registrationUpdate request.now request.uri request.fromSessionH request.message
      fun id => (lwm2mListFind Registration.id id clientList).map Registration.toRegisteredClient with
  | error fault => exact ⟨request, rfl, .inr ⟨_, hupdate⟩⟩
  | ok answer =>
    have hcode := registrationUpdate_code hupdate
    have hleft := fun hcode => (registrationUpdate_unchanged hupdate hcode).1
    obtain ⟨code, clients, callbacks⟩ := answer
    dsimp only at hcode hleft
    cases hput : clients request.uri.objectId with
    | none =>
      simp only [Except.map, hput]
      refine ⟨h, ?_⟩
      rcases hcode with rfl | herror
      · exact sameOf_refl
      · exact answers_refused herror sameOf_refl
    | some updated =>
      simp only [Except.map, hput]
      refine ⟨h.map (fun other => by split <;> rfl) fun a ha b hb hne hnamed heq => ?_, ?_⟩
      · have hkept : ∀ other : Registration Session, (if other.id = request.uri.objectId then
            other.refresh updated else other).endpoint = other.endpoint := by
          intro other
          split <;> rfl
        rw [hkept] at hnamed
        rw [hkept, hkept] at heq
        exact hne (congrArg _ (h.name_inj ha hb hnamed heq))
      · rcases hcode with rfl | herror
        · refine sameOf_map fun other _ hp => ?_
          split at hp
          · rename_i heq
            rcases hp with ⟨-, hne⟩ | ⟨-, hne⟩
            · exact absurd heq hne
            · exact absurd heq hne
          · exact if_neg ‹_›
        · -- the fields that are written are those of the client that was found
          refine answers_refused herror (sameOf_map fun other hother _ => ?_)
          split
          · rename_i heq
            have hfound := (lwm2mListFind_eq_some_iff h.ascending).2 ⟨hother, heq⟩
            rw [hleft fun hchanged => by rw [hchanged] at herror; cases herror] at hput
            dsimp only at hput
            rw [hfound] at hput
            cases hput
            rfl
          · rfl

theorem registrationDeregister_serves (h : OnePerName clientList) :
    OnePerName (registrationDeregister request.uri clientList).1 ∧
      Answers request clientList (registrationDeregister request.uri clientList).1
        (some (registrationDeregister request.uri clientList).2) := by
  unfold registrationDeregister
  split
  · exact ⟨h, sameOf_refl⟩
  · split
    · exact ⟨h, sameOf_refl⟩
    · rename_i clientP hfound
      rw [lwm2mListRemove_eq h.ascending, lwm2mListFind_id hfound]
      refine ⟨h.sublist List.filter_sublist, sameOf_filter fun other _ hp => ?_, ?_⟩
      · simpa using hp.2
      · intro other hother
        simpa using (List.mem_filter.1 hother).2

theorem registrationHandleRequest_serves (h : OnePerName clientList)
    (hpeer : request.isBlock1 = true → request.uri.isSetObject = false → ∃ found, utilsFindClient
      sessionIsEqual request.fromSessionH clientList = some found ∧ found.endpoint = none)
    (hid : request.isBlock1 = false → ∃ key, ∀ clientP ∈ clientList, clientP.id ≠ key) :
    Served clientList (.request request) ((registrationHandleRequest sessionIsEqual request
      clientList).map fun out => (out.1, some out.2)) := by
  unfold registrationHandleRequest
  split
  · exact ⟨h, sameOf_refl⟩
  · split
    · split
      · exact registrationUpdateIn_serves h
      · rename_i hobject
        split
        · rename_i fault hcheck
          exact ⟨request, rfl, .inl hcheck⟩
        · rename_i code hcheck
          exact ⟨h, answers_refused (checkRegister_refuses hcheck) sameOf_refl⟩
        · rename_i accepted hcheck
          obtain ⟨clientList', reply, hrun, hserved⟩ := registerOperation_serves h hcheck
            (fun hblock => checkRegister_session hcheck ▸ hpeer hblock (by simpa using hobject)) hid
          rw [hrun]
          exact hserved
    · split
      · exact registrationDeregister_serves h
      · exact ⟨h, sameOf_refl⟩

theorem findBlock1Peer_spec (hrefl : ∀ sessionH, sessionIsEqual sessionH sessionH = true)
    (h : OnePerName clientList) (hid : ∃ key, ∀ clientP ∈ clientList, clientP.id ≠ key)
    (hpeer : findBlock1Peer sessionIsEqual request clientList = some clientList') :
    OnePerName clientList' ∧ SameOf Named clientList clientList' ∧
      ∃ found, utilsFindClient sessionIsEqual request.fromSessionH clientList' = some found ∧
        (found.endpoint = none ∨
          utilsFindClient sessionIsEqual request.fromSessionH clientList = some found) := by
  unfold findBlock1Peer at hpeer
  split at hpeer
  · rename_i found hfound
    cases hpeer
    exact ⟨h, sameOf_refl, found, hfound, .inr hfound⟩
  · rename_i hnone
    split at hpeer
    · cases hpeer
    · cases hpeer
      refine ⟨h.add (lwm2mListNewId_fresh h.ascending hid) fun _ _ hnamed => absurd rfl hnamed,
        sameOf_add fun hnamed => hnamed rfl, ?_⟩
      cases hfind : utilsFindClient sessionIsEqual request.fromSessionH (lwm2mListAdd Registration.id
          clientList _) with
      | none =>
        have hnew := List.find?_eq_none.1 hfind _
          ((lwm2mListAdd_perm _ _).mem_iff.2 (List.mem_cons_self ..))
        exact absurd (hrefl _) hnew
      | some found =>
        refine ⟨found, rfl, .inl ?_⟩
        rcases List.mem_cons.1 ((lwm2mListAdd_perm _ _).mem_iff.1
          (List.mem_of_find?_eq_some hfind)) with rfl | hold
        · rfl
        · exact absurd (List.find?_some hfind) (List.find?_eq_none.1 hnone found hold)

/-! ## The run -/

theorem OnePerName.step (hrefl : ∀ sessionH, sessionIsEqual sessionH sessionH = true)
    (h : OnePerName clientList) {call : RegistryCall Session}
    (hcall : FromNewSession sessionIsEqual clientList call) :
    Served clientList call (clientListStep sessionIsEqual clientList call) := by
  cases call with
  | step currentTime =>
    have hexpired := h.expire currentTime
    exact ⟨hexpired ▸ h.sublist List.filter_sublist, hexpired⟩
  | request request =>
    obtain ⟨hid, hsession⟩ := hcall
    rw [clientListStep, handleRegistryRequest]
    cases hblock : request.isBlock1 with
    | false =>
      simp only [Bool.false_and, Bool.false_eq_true, if_false]
      exact registrationHandleRequest_serves h (by rw [hblock]; nofun) fun _ => hid
    | true =>
      simp only [if_true, Bool.true_and]
      cases hpeer : findBlock1Peer sessionIsEqual request clientList with
      | none => exact ⟨h, sameOf_refl⟩
      | some clients =>
        obtain ⟨hclients, hsame, found, hfound, hname⟩ := findBlock1Peer_spec hrefl h hid hpeer
        cases hcomplete : request.complete with
        | false => exact ⟨hclients, hsame⟩
        | true =>
          have hserved : Served clients (.request request) ((registrationHandleRequest
              sessionIsEqual request clients).map fun out => (out.1, some out.2)) := by
            refine registrationHandleRequest_serves hclients (fun _ hobject => ⟨found, hfound, ?_⟩)
              (by rw [hblock]; nofun)
            exact hname.elim id fun hold => hsession hblock hcomplete hobject found hold
          dsimp only [Bool.not_true, Bool.false_eq_true, if_false]
          cases hrun : registrationHandleRequest sessionIsEqual request clients with
          | error fault =>
            rw [hrun] at hserved
            exact hserved
          | ok out =>
            rw [hrun] at hserved
            have hanswers : Answers request clients out.1 (some out.2) := hserved.2
            exact ⟨hserved.1, hanswers.behind hsame⟩

/-- In every run from no clients on, in which each Register with Block1 comes from a session that
has no registered client: no two clients have one id or one endpoint name, and each call registers,
updates or removes the client that it is about and leaves the other registered ones as they are. It
goes wrong only in reading the request. -/
theorem registryRun_serves (sessionIsEqual : Session → Session → Bool)
    (hrefl : ∀ sessionH, sessionIsEqual sessionH sessionH = true)
    (calls : List (RegistryCall Session)) (call : RegistryCall Session)
    (hmeet : StepsMeet (clientListStep sessionIsEqual) (FromNewSession sessionIsEqual) []
      (calls ++ [call])) {replies : List (Option RegistryReply)}
    (hrun : run (clientListStep sessionIsEqual) [] calls = .ok (clientList, replies)) :
    OnePerName clientList ∧
      Served clientList call (clientListStep sessionIsEqual clientList call) := by
  have hstart : OnePerName ([] : List (Registration Session)) :=
    ⟨ascending_nil, List.Pairwise.nil⟩
  revert hstart hmeet hrun
  generalize ([] : List (Registration Session)) = start
  induction calls generalizing start replies with
  | nil =>
    intro hmeet hrun hstart
    cases hrun
    exact ⟨hstart, hstart.step hrefl hmeet.1⟩
  | cons first calls ih =>
    intro hmeet hrun hstart
    obtain ⟨next, reply, rest, hstep, hrest, -⟩ := run_cons_inv hrun
    have hserved := hstart.step hrefl hmeet.1
    rw [hstep] at hserved
    exact ih next (hmeet.2 next reply hstep) hrest hserved.1

/-- A Register of the client `n` with its Device object, from a session. -/
def deviceRegister (fromSessionH : Nat) (isBlock1 : Bool) : RegistryCall Nat :=
  .request {
    now := 0
    fromSessionH
    code := coapPost
    uri := ⟨lwm2mMaxId, lwm2mMaxId, lwm2mMaxId, lwm2mMaxId⟩
    isBlock1
    complete := true
    allocated := true
    message := {
      uriQuery := [(⟨4, [101, 112, 61, 110]⟩, true), (⟨9, [108, 119, 109, 50, 109, 61, 49, 46, 49]⟩, true)]
      contentType := lwm2mContentLink
      payload := deviceLinkPayload } }

/-- What it registers. -/
def registeredDevice : Registration Nat where
  internalID := 0
  binding := bindingUnknown
  msisdn := none
  lifetime := lwm2mDefaultLifetime
  endOfLife := 86400
  sessionH := 1
  objectList := [{ id := 3, versionMajor := 0, versionMinor := 0, instanceList := [0] }]
  observationList := []
  name := some [110]
  version := .version11
  altPath := none
  format := .tlv

/-- The client registers again in blocks, from another session. -/
theorem deviceRegister_served :
    OnePerName [registeredDevice] ∧ Served [registeredDevice] (deviceRegister 2 true)
      (clientListStep (· == ·) [registeredDevice] (deviceRegister 2 true)) := by
  have hfirst : clientListStep (· == ·) [] (deviceRegister 1 false) =
      .ok ([registeredDevice], some ⟨.created201, some [47, 114, 100, 47, 48]⟩) := by decide +kernel
  refine registryRun_serves (· == ·) beq_self_eq_true [deviceRegister 1 false] _ ?_ (run_cons_ok hfirst [])
  refine StepsMeet.cons ⟨⟨0, by simp⟩, by simp⟩ hfirst ⟨⟨⟨1, ?_⟩, ?_⟩, fun _ _ _ => trivial⟩
  · simp [Registration.id, registeredDevice]
  · simp [utilsFindClient, registeredDevice]

/-! ## The other clients -/

/-- The call is about other clients: it does not name the id or the endpoint of this one, and its
lifetime is not over. -/
def AboutOthers (clientP : Registration Session) : RegistryCall Session → Prop
  | .request request => request.uri.objectId ≠ clientP.id ∧
      ∀ accepted, checkRegister request.now request.fromSessionH request.message =
        .ok (.ok accepted) → clientP.endpoint ≠ some (cString accepted.name)
  | .step currentTime => currentTime < clientP.endOfLife

theorem Serves.stays {call : RegistryCall Session} {reply : Option RegistryReply}
    (h : Serves clientList clientList' call reply) (hmem : clientP ∈ clientList)
    (hnamed : Named clientP) (hothers : AboutOthers clientP call) : clientP ∈ clientList' := by
  cases call with
  | step currentTime =>
    obtain rfl : clientList' = _ := h
    exact List.mem_filter.2 ⟨hmem, decide_eq_true hothers⟩
  | request request =>
    obtain ⟨hid, hname⟩ := hothers
    cases reply with
    | none => exact (h clientP hnamed).2 hmem
    | some reply =>
      obtain ⟨code, location⟩ := reply
      cases code with
      | created201 =>
        obtain ⟨accepted, own, hcheck, -, hfill, -, -, hsame⟩ := h
        refine (hsame clientP ⟨hnamed, ?_⟩).2 hmem
        rw [← hfill, fill_endpoint]
        exact hname accepted hcheck
      | changed204 => exact (h clientP ⟨hnamed, hid.symm⟩).2 hmem
      | deleted202 => exact (h.1 clientP ⟨hnamed, hid.symm⟩).2 hmem
      | _ => exact (h clientP hnamed).2 hmem

/-- A DELETE on `/rd/5`. -/
def otherDeleted : RegistryCall Nat :=
  .request {
    now := 0
    fromSessionH := 2
    code := coapDelete
    uri := ⟨5, lwm2mMaxId, lwm2mMaxId, lwm2mMaxId⟩
    isBlock1 := false
    complete := true
    allocated := true
    message := { uriQuery := [], contentType := lwm2mContentText, payload := [] } }

end Wakaama
