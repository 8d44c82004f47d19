import Wakaama.Core.Proofs.ListSweep
import Wakaama.Core.Proofs.ObservationIntent
import Wakaama.Core.Registration.Update
import Wakaama.Misc.Outcome

/-!
# What a registration update keeps (`core/registration.c`, `core/observe.c`)

The observations that are left after an update with an object list, and the callbacks that it
calls. A node is unlinked by its id: it is the right one exactly where no node that is kept stands
in front of it with the same id.
-/

namespace Wakaama

/-! ## The object list of a payload -/

/-- The objects are in order, and so are the instances of each. -/
structure ObjectsSorted (objects : List ClientObject) : Prop where
  ascending : Ascending ClientObject.id objects
  instances : ∀ object ∈ objects, NonDescending (fun id => id) object.instanceList

theorem announce_id (link : LinkId) (version : UInt8 × UInt8) (object : ClientObject) :
    (object.announce link version).id = object.id := by
  unfold ClientObject.announce
  split
  · rfl
  · split <;> rfl

theorem announce_nonDescending {object : ClientObject}
    (h : NonDescending (fun id => id) object.instanceList) (link : LinkId)
    (version : UInt8 × UInt8) :
    NonDescending (fun id => id) (object.announce link version).instanceList := by
  unfold ClientObject.announce
  split
  · exact h
  · split
    · exact lwm2mListAdd_nonDescending h
    · exact h

variable {Session : Type} {state : DecodeState} {checked : Bool} {objects : List ClientObject}
  {clientP : RegisteredClient Session} {now : Int} {parameters : RegisterParameters}
  {clientList : ClientList Session} {uri : Lwm2mUri} {message : RegistrationMessage}

theorem addObject_sorted (h : ObjectsSorted state.objList) (link : LinkId)
    (version : UInt8 × UInt8) : ObjectsSorted (state.addObject link version).objList := by
  have hadded : ObjectsSorted
      (if (lwm2mListFind ClientObject.id link.objId state.objList).isNone then
        lwm2mListAdd ClientObject.id state.objList
          { id := link.objId, versionMajor := 0, versionMinor := 0, instanceList := [] }
      else state.objList) := by
    split
    · rename_i hnone
      have hfresh := (lwm2mListFind_eq_none_iff h.ascending).1 (Option.isNone_iff_eq_none.1 hnone)
      refine ⟨lwm2mListAdd_ascending h.ascending hfresh, ?_⟩
      intro object hobject
      rcases List.mem_cons.1 ((lwm2mListAdd_perm _ _).mem_iff.1 hobject) with rfl | hold
      · exact .nil
      · exact h.instances object hold
    · exact h
  unfold DecodeState.addObject
  generalize (if (lwm2mListFind ClientObject.id link.objId state.objList).isNone then
    lwm2mListAdd ClientObject.id state.objList
      { id := link.objId, versionMajor := 0, versionMinor := 0, instanceList := [] }
    else state.objList) = objList at hadded
  constructor
  · refine List.pairwise_map.2 (hadded.ascending.imp ?_)
    intro a b hlt
    have hid : ∀ object : ClientObject,
        (if object.id = link.objId then object.announce link version else object).id =
          object.id := by
      intro object
      split
      · exact announce_id link version object
      · rfl
    rw [hid, hid]
    exact hlt
  · intro object hobject
    obtain ⟨old, hold, rfl⟩ := List.mem_map.1 hobject
    split
    · exact announce_nonDescending (hadded.instances old hold) link version
    · exact hadded.instances old hold

theorem decodeLink_sorted {data : List UInt8} {length : Nat} {state' : DecodeState}
    (h : ObjectsSorted state.objList)
    (hdecode : decodeLink checked data length state = .ok (some state')) :
    ObjectsSorted state'.objList := by
  obtain ⟨found, hid, hrest⟩ := bind_eq_ok.1 hdecode
  cases found with
  | some link =>
    cases hrest
    exact addObject_sorted h ..
  | none =>
    dsimp only at hrest
    split at hrest
    · cases hrest
    · obtain ⟨attributes, -, hrest⟩ := bind_eq_ok.1 hrest
      cases attributes with
      | none => cases hrest
      | some attributes =>
        cases hrest
        exact h

theorem decodeLoop_sorted {buffer : List UInt8} {payloadLength : Nat} (fuel : Nat) :
    ∀ (index : Nat) (state state' : DecodeState), ObjectsSorted state.objList →
      decodeLoop checked buffer payloadLength fuel index state = .ok (some state') →
      ObjectsSorted state'.objList := by
  induction fuel with
  | zero =>
    intro index state state' _ h
    cases h
  | succ fuel ih =>
    intro index state state' hsorted h
    rw [decodeLoop] at h
    split at h
    · cases h
      exact hsorted
    · obtain ⟨start, -, h⟩ := bind_eq_ok.1 h
      split at h
      · cases h
        exact hsorted
      · obtain ⟨short, -, h⟩ := bind_eq_ok.1 h
        obtain ⟨behind, -, h⟩ := bind_eq_ok.1 h
        obtain ⟨length, -, h⟩ := bind_eq_ok.1 h
        obtain ⟨next, hnext, h⟩ := bind_eq_ok.1 h
        cases next with
        | none => cases h
        | some next => exact ih _ next state' (decodeLink_sorted hsorted hnext) h

theorem prvDecodeRegisterPayload_sorted {buffer : List UInt8} {payloadLength : Nat}
    (h : prvDecodeRegisterPayload checked buffer payloadLength = .ok (some state)) :
    ObjectsSorted state.objList :=
  have hempty : ObjectsSorted [] := ⟨ascending_nil, fun _ hobject => nomatch hobject⟩
  decodeLoop_sorted _ _ _ _ hempty h

/-! ## What is listed -/

/-- The object of the path is listed, and its instance with it where it has one. -/
def Listed (objects : List ClientObject) (uri : Lwm2mUri) : Prop :=
  ∃ object ∈ objects, object.id = uri.objectId ∧
    (uri.isSetInstance = true → uri.instanceId ∈ object.instanceList)

instance (objects : List ClientObject) (uri : Lwm2mUri) : Decidable (Listed objects uri) :=
  inferInstanceAs (Decidable (∃ object ∈ objects, object.id = uri.objectId ∧
    (uri.isSetInstance = true → uri.instanceId ∈ object.instanceList)))

theorem isGone_eq (hsorted : ObjectsSorted objects) (uri : Lwm2mUri) :
    isGone objects uri = !decide (Listed objects uri) := by
  have hiff : isGone objects uri = false ↔ Listed objects uri := by
    unfold isGone
    cases hfind : lwm2mListFind ClientObject.id uri.objectId objects with
    | none =>
      have habsent := (lwm2mListFind_eq_none_iff hsorted.ascending).1 hfind
      refine iff_of_false nofun ?_
      intro hlisted
      obtain ⟨object, hobject, hid, -⟩ := hlisted
      exact habsent object hobject hid
    | some objP =>
      obtain ⟨hmem, hid⟩ := (lwm2mListFind_eq_some_iff hsorted.ascending).1 hfind
      have honly : Listed objects uri ↔
          (uri.isSetInstance = true → uri.instanceId ∈ objP.instanceList) := by
        constructor
        · intro hlisted
          obtain ⟨object, hobject, hsame, hinstance⟩ := hlisted
          have hfound := (lwm2mListFind_eq_some_iff hsorted.ascending).2 ⟨hobject, hsame⟩
          rw [hfind] at hfound
          cases hfound
          exact hinstance
        · intro hinstance
          exact ⟨objP, hmem, hid, hinstance⟩
      rw [honly]
      have hnone := @lwm2mListFind_none_iff _ _ _ (hsorted.instances objP hmem) uri.instanceId
      have hinstance : (lwm2mListFind (fun id => id) uri.instanceId objP.instanceList).isNone =
          true ↔ uri.instanceId ∉ objP.instanceList := by
        rw [Option.isNone_iff_eq_none, hnone]
        constructor
        · intro hall hmem
          exact hall _ hmem rfl
        · intro habsent node hnode heq
          exact habsent (heq ▸ hnode)
      dsimp only
      rw [Bool.and_eq_false_imp]
      constructor
      · intro h hset
        by_contra habsent
        exact absurd (h hset) (by rw [hinstance.2 habsent]; exact nofun)
      · intro h hset
        rw [Bool.eq_false_iff]
        intro hgone
        exact hinstance.1 hgone (h hset)
  by_cases hlisted : Listed objects uri
  · rw [hiff.2 hlisted, decide_eq_true hlisted]
    rfl
  · rw [decide_eq_false hlisted]
    exact Bool.eq_true_of_not_eq_false fun h => hlisted (hiff.1 h)

/-! ## The loop over the observations -/

def observationMarks : NodeMarks ObservationNode where
  id := ObservationNode.id
  freed := ObservationNode.freed
  free node := { node with freed := true }
  id_free _ := rfl
  freed_free _ := rfl

/-- No node of the list is freed. -/
def AllLive (nodes : List ObservationNode) : Prop := ∀ node ∈ nodes, node.freed = false

theorem walkReadsFreed_eq (id : UInt16) (nodes : List ObservationNode) :
    walkReadsFreed id nodes = observationMarks.walkReadsFreed id nodes := by
  induction nodes with
  | nil => rfl
  | cons target next ih =>
    rw [walkReadsFreed, NodeMarks.walkReadsFreed, ih]
    rfl

theorem observeRemoveNode_eq (before : List ObservationNode) (observationP : ObservationNode) :
    observeRemoveNode before observationP = observationMarks.remove before observationP := by
  have hreads : removeReadsFreed observationP.id before =
      observationMarks.removeReadsFreed observationP.id before := by
    cases before with
    | nil => rfl
    | cons head next =>
      rw [removeReadsFreed, NodeMarks.removeReadsFreed, walkReadsFreed_eq]
      rfl
  rw [observeRemoveNode, NodeMarks.remove, hreads]
  rfl

/-- No observation that is kept stands in front of a dropped one with its id. -/
def DropsOwn (objects : List ClientObject) (observationList : List ObservationNode) : Prop :=
  observationList.Pairwise fun a b => isGone objects a.observation.uri = false →
    isGone objects b.observation.uri = true → a.id ≠ b.id

/-- The observations that are kept, and the callbacks of the others. -/
def pruned (clientID : UInt16) (objects : List ClientObject)
    (observationList : List ObservationNode) :
    List ObservationNode × List ObservationCallback :=
  (observationList.filter fun node => !isGone objects node.observation.uri,
    (observationList.filter fun node => isGone objects node.observation.uri).map fun node =>
      deletedCallback clientID node.observation)

theorem pruneObservations_eq (clientID : UInt16) (objects : List ClientObject)
    (rest : List ObservationNode) : ∀ before : List ObservationNode,
      pruneObservations clientID objects before rest =
        (observationMarks.sweep (fun node => isGone objects node.observation.uri) before rest).map
          fun kept => (kept, (pruned clientID objects rest).2) := by
  induction rest with
  | nil => exact fun _ => rfl
  | cons observationP nextP ih =>
    intro before
    have hfreed : observationMarks.freed observationP = observationP.freed := rfl
    rw [pruneObservations, NodeMarks.sweep, observeRemoveNode_eq, hfreed]
    by_cases hlive : observationP.freed = true
    · rw [if_pos hlive, if_pos hlive]
      rfl
    · rw [if_neg hlive, if_neg hlive]
      by_cases hgone : isGone objects observationP.observation.uri = true
      · have hpruned : (pruned clientID objects (observationP :: nextP)).2 =
            deletedCallback clientID observationP.observation ::
              (pruned clientID objects nextP).2 := by
          simp [pruned, hgone]
        rw [if_pos hgone, if_pos hgone, hpruned]
        cases observationMarks.remove before observationP with
        | error fault => rfl
        | ok kept =>
          dsimp only
          rw [ih kept]
          cases observationMarks.sweep (fun node => isGone objects node.observation.uri) kept nextP <;>
            rfl
      · have hpruned : (pruned clientID objects (observationP :: nextP)).2 =
            (pruned clientID objects nextP).2 := by
          simp [pruned, hgone]
        rw [if_neg hgone, if_neg hgone, hpruned]
        exact ih (before ++ [observationP])

theorem pruneObservations_iff (clientID : UInt16) (objects : List ClientObject)
    {observationList : List ObservationNode} (hlive : AllLive observationList)
    (hasc : NonDescending ObservationNode.id observationList) :
    pruneObservations clientID objects [] observationList =
        .ok (pruned clientID objects observationList) ↔
      DropsOwn objects observationList := by
  have hsweep := @NodeMarks.sweep_iff _ observationMarks
    (fun node => isGone objects node.observation.uri) observationList ⟨hlive, hasc⟩
  rw [pruneObservations_eq, DropsOwn]
  refine Iff.trans ?_ hsweep
  constructor
  · intro hrun
    cases hout : observationMarks.sweep (fun node => isGone objects node.observation.uri) []
        observationList with
    | error fault =>
      rw [hout] at hrun
      cases hrun
    | ok kept =>
      rw [hout] at hrun
      exact congrArg Except.ok (congrArg Prod.fst (Except.ok.inj hrun))
  · intro hrun
    rw [hrun]
    rfl

/-! ## The update -/

/-- The request passes the checks of an update of a client: what its query says, the objects of its
payload, and the client. -/
structure UpdatePasses (now : Int) (uri : Lwm2mUri) (message : RegistrationMessage)
    (clientList : ClientList Session) (parameters : RegisterParameters)
    (objects : List ClientObject) (clientP : RegisteredClient Session) : Prop where
  clock : 0 ≤ now
  query : prvGetParameters message.uriQuery = .ok (some parameters)
  unnamed : parameters.name = none
  contentType : message.contentType = lwm2mContentLink ∨ message.contentType = lwm2mContentText
  payload : ∃ decoded, prvDecodeRegisterPayload false message.payload message.payload.length =
    .ok decoded ∧ objects = (decoded.map DecodeState.objList).getD []
  location : uri.isSetInstance = false
  client : clientList uri.objectId = some clientP

/-- An update with an object list keeps the observations that are listed, in order and unchanged,
calls the callback of each of the others once with 2.02, takes the object list over, and is good for
the lifetime it brings, or the one there was. -/
def UpdatesExactly (now : Int) (uri : Lwm2mUri) (parameters : RegisterParameters)
    (objects : List ClientObject) (clientP : RegisteredClient Session)
    (answer : Except Fault (UpdateAnswer Session)) : Prop :=
  ∃ out after, answer = .ok out ∧ out.code = .changed204 ∧
    out.clientList uri.objectId = some after ∧
    after.observationList = clientP.observationList.filter
      (fun node => decide (Listed objects node.observation.uri)) ∧
    out.callbacks = (clientP.observationList.filter
      (fun node => !decide (Listed objects node.observation.uri))).map
        (fun node => deletedCallback clientP.internalID node.observation) ∧
    after.objectList = objects ∧
    after.endOfLife = now +
      (if parameters.lifetime ≠ 0 then parameters.lifetime else clientP.lifetime).toNat

/-- What is asked of an update: with an object list it is exact, and one that is answered with an
error leaves the clients as they are. -/
structure UpdateRight (now : Int) (uri : Lwm2mUri) (fromSessionH : Session)
    (message : RegistrationMessage) (clientList : ClientList Session) : Prop where
  exact : ∀ parameters objects clientP,
    UpdatePasses now uri message clientList parameters objects clientP → objects ≠ [] →
    UpdatesExactly now uri parameters objects clientP
      (registrationUpdate now uri fromSessionH message clientList)
  unchanged : ∀ out, registrationUpdate now uri fromSessionH message clientList = .ok out →
    out.code.isError = true → out.clientList = clientList ∧ out.callbacks = []

/-- The observations of a client: nodes that are not freed, in the order of their ids. -/
structure ObservationsLinked (observationList : List ObservationNode) : Prop where
  live : AllLive observationList
  ordered : NonDescending ObservationNode.id observationList

theorem UpdatePasses.sorted
    (h : UpdatePasses now uri message clientList parameters objects clientP) :
    ObjectsSorted objects := by
  obtain ⟨decoded, hdecode, rfl⟩ := h.payload
  cases decoded with
  | none => exact ⟨ascending_nil, fun _ hobject => nomatch hobject⟩
  | some state => exact prvDecodeRegisterPayload_sorted hdecode

theorem put_self (clientList : ClientList Session) (internalID : UInt16)
    (clientP : RegisteredClient Session) :
    clientList.put internalID clientP internalID = some clientP := if_pos rfl

theorem registrationUpdate_passes
    (h : UpdatePasses now uri message clientList parameters objects clientP)
    (fromSessionH : Session) :
    registrationUpdate now uri fromSessionH message clientList =
      acceptUpdate uri clientList (updateClient now fromSessionH parameters objects clientP) := by
  obtain ⟨decoded, hdecode, rfl⟩ := h.payload
  have hcontent : ¬ (message.contentType ≠ lwm2mContentLink ∧
      message.contentType ≠ lwm2mContentText) := by
    rcases h.contentType with heq | heq
    · exact fun hne => hne.1 heq
    · exact fun hne => hne.2 heq
  unfold registrationUpdate
  rw [if_neg (Int.not_lt.2 h.clock), h.query]
  dsimp only
  rw [if_neg hcontent, hdecode]
  dsimp only
  rw [h.location, if_neg nofun, h.client]
  dsimp only
  rw [if_neg (fun hne => hne h.unnamed)]

theorem registrationUpdate_unchanged {fromSessionH : Session} {out : UpdateAnswer Session}
    (h : registrationUpdate now uri fromSessionH message clientList = .ok out)
    (hcode : out.code ≠ .changed204) : out.clientList = clientList ∧ out.callbacks = [] := by
  unfold registrationUpdate at h
  dsimp only at h
  split at h
  · cases h
    exact ⟨rfl, rfl⟩
  · split at h
    · cases h
    · cases h
      exact ⟨rfl, rfl⟩
    · split at h
      · cases h
        exact ⟨rfl, rfl⟩
      · split at h
        · cases h
        · split at h
          · cases h
            exact ⟨rfl, rfl⟩
          · split at h
            · cases h
              exact ⟨rfl, rfl⟩
            · split at h
              · cases h
                exact ⟨rfl, rfl⟩
              · unfold acceptUpdate at h
                split at h
                · cases h
                · cases h
                  exact absurd rfl hcode

theorem updatesExactly_iff (h : UpdatePasses now uri message clientList parameters objects clientP)
    (hobjects : objects ≠ []) (hlinked : ObservationsLinked clientP.observationList)
    (fromSessionH : Session) :
    UpdatesExactly now uri parameters objects clientP
        (registrationUpdate now uri fromSessionH message clientList) ↔
      DropsOwn objects clientP.observationList := by
  have hloop := pruneObservations_iff clientP.internalID objects hlinked.live hlinked.ordered
  have hgone := isGone_eq h.sorted
  rw [← hloop, registrationUpdate_passes h, updateClient, if_neg hobjects]
  have hpruned : pruned clientP.internalID objects clientP.observationList =
      (clientP.observationList.filter (fun node => decide (Listed objects node.observation.uri)),
        (clientP.observationList.filter
          (fun node => !decide (Listed objects node.observation.uri))).map
            fun node => deletedCallback clientP.internalID node.observation) := by
    simp only [pruned, hgone, Bool.not_not]
  rw [hpruned]
  constructor
  · intro hexact
    obtain ⟨out, after, hanswer, -, hafter, hlist, hcallbacks, -⟩ := hexact
    cases hrun : pruneObservations clientP.internalID objects [] clientP.observationList with
    | error fault =>
      rw [hrun] at hanswer
      cases hanswer
    | ok kept =>
      rw [hrun] at hanswer
      cases hanswer
      obtain rfl := Option.some.inj ((put_self ..).symm.trans hafter)
      exact congrArg Except.ok (Prod.ext hlist hcallbacks)
  · intro hrun
    rw [hrun]
    exact ⟨_, _, rfl, rfl, put_self .., rfl, rfl, rfl, rfl⟩

/-- An update does what is asked of it exactly where no observation that is kept stands in front of a
dropped one with its id. -/
theorem registrationUpdate_right_iff {now : Int} {uri : Lwm2mUri} {fromSessionH : Session}
    {message : RegistrationMessage} {clientList : ClientList Session}
    (hlinked : ∀ internalID clientP, clientList internalID = some clientP →
      ObservationsLinked clientP.observationList) :
    UpdateRight now uri fromSessionH message clientList ↔
      ∀ parameters objects clientP,
        UpdatePasses now uri message clientList parameters objects clientP → objects ≠ [] →
        DropsOwn objects clientP.observationList := by
  constructor
  · intro h parameters objects clientP hpasses hobjects
    exact (updatesExactly_iff hpasses hobjects (hlinked _ _ hpasses.client) fromSessionH).1
      (h.exact parameters objects clientP hpasses hobjects)
  · intro h
    refine ⟨?_, ?_⟩
    · intro parameters objects clientP hpasses hobjects
      exact (updatesExactly_iff hpasses hobjects (hlinked _ _ hpasses.client) fromSessionH).2
        (h parameters objects clientP hpasses hobjects)
    · intro out hout herror
      refine registrationUpdate_unchanged hout ?_
      intro hcode
      rw [hcode] at herror
      cases herror

/-! ## Ids that repeat -/

/-- `</3/0>`. -/
def deviceLinkPayload : List UInt8 := [60, 47, 51, 47, 48, 62]

/-- An update that lists the Device object. -/
def deviceUpdate : RegistrationMessage :=
  { uriQuery := [], contentType := lwm2mContentLink, payload := deviceLinkPayload }

theorem deviceUpdate_decoded :
    prvDecodeRegisterPayload false deviceUpdate.payload deviceUpdate.payload.length = .ok (some
      { objList := [{ id := 3, versionMajor := 0, versionMinor := 0, instanceList := [0] }]
        format := .tlv
        altPath := none
        linkAttrFound := false }) := by decide +kernel

/-- A server with one client, which has these observations. -/
def observedClients (observationList : List ObservationNode) : ClientList Nat := fun internalID =>
  if internalID = 0 then
    some
      { internalID := 0, binding := 1, msisdn := none, lifetime := 86400, endOfLife := 86400,
        sessionH := 0, objectList := [], observationList }
  else none

/-- `/rd/0`. -/
def firstLocation : Lwm2mUri := ⟨0, lwm2mMaxId, lwm2mMaxId, lwm2mMaxId⟩

/-- An observation of `/3/0`, and one of `/4`. -/
def deviceObserved (id : UInt16) : Observation := ⟨id, ⟨3, 0, lwm2mMaxId, lwm2mMaxId⟩, .registered, 1⟩

def statisticsObserved (id : UInt16) : Observation :=
  ⟨id, ⟨4, lwm2mMaxId, lwm2mMaxId, lwm2mMaxId⟩, .registered, 2⟩

theorem observedClients_linked {observationList : List ObservationNode}
    (h : ObservationsLinked observationList) :
    ∀ internalID clientP, observedClients observationList internalID = some clientP →
      ObservationsLinked clientP.observationList := by
  intro internalID clientP hclient
  unfold observedClients at hclient
  split at hclient
  · cases hclient
    exact h
  · cases hclient

theorem deviceUpdate_right :
    UpdateRight 100 firstLocation 0 deviceUpdate
      (observedClients [⟨deviceObserved 1, false⟩, ⟨statisticsObserved 2, false⟩]) := by
  refine (registrationUpdate_right_iff (observedClients_linked ⟨?_, ?_⟩)).2 ?_
  · unfold AllLive
    decide
  · unfold NonDescending
    decide
  · intro parameters objects clientP hpasses _
    obtain ⟨decoded, hdecode, rfl⟩ := hpasses.payload
    rw [deviceUpdate_decoded] at hdecode
    cases hdecode
    cases hpasses.client
    unfold DropsOwn
    decide

theorem run_unsent {uri : Lwm2mUri} (huri : (!uri.isSetInstance && uri.isSetResource) = false)
    {userData : Nat} {rest : List ObservationCall} {final : ObservedClient}
    {effects : List ObservationEffect} (n : Nat) :
    ∀ client : ObservedClient, client.observationList = [] →
      run observationStep { client with observationId := client.observationId + UInt16.ofNat n } rest =
        .ok (final, effects) →
      ∃ effects', run observationStep client
        (List.replicate n (.observe uri userData false) ++ rest) = .ok (final, effects') := by
  induction n with
  | zero =>
    intro client _ h
    exact ⟨effects, by simpa using h⟩
  | succ n ih =>
    intro client hempty h
    have hstep : observationStep client (.observe uri userData false) =
        .ok ({ client with observationId := client.observationId + 1 },
          .only .internalServerError500) := by
      simp only [observationStep, prvLwm2mObserve, huri, hempty, lwm2mListFind, setStatus, sendRequest]
      rw [← hempty]
      rfl
    have hcount : client.observationId + UInt16.ofNat (n + 1) =
        client.observationId + 1 + UInt16.ofNat n := by
      rw [Nat.add_comm, UInt16.ofNat_add, UInt16.add_assoc]
      rfl
    rw [hcount] at h
    obtain ⟨effects', hrun⟩ := ih { client with observationId := client.observationId + 1 } hempty h
    refine ⟨.only .internalServerError500 :: effects', ?_⟩
    rw [List.replicate_succ, List.cons_append, run_cons_ok hstep, hrun]
    rfl

/-- The first observation is answered last: its id has been given to another one 65536 calls
later. -/
def repeatedId : List ObservationCall :=
  .observe (deviceObserved 1).uri 1 true ::
    (List.replicate 65535 (.observe (deviceObserved 1).uri 1 false) ++
      [.observe (statisticsObserved 1).uri 2 true, .reply 0 (some observeContent),
        .reply 1 (some observeContent)])

/-- Two observations get the same id. The update that drops the second one unlinks the first, and
frees the second while it is linked. -/
theorem repeatedId_unlinksOther :
    (∃ client effects, run observationStep justRegistered repeatedId = .ok (client, effects) ∧
      client.observationList = [deviceObserved 1, statisticsObserved 1]) ∧
    ¬ UpdateRight 100 firstLocation 0 deviceUpdate
      (observedClients [⟨deviceObserved 1, false⟩, ⟨statisticsObserved 1, false⟩]) := by
  constructor
  · have hend : run observationStep
        { observationId := 1 + UInt16.ofNat 65535
          observationList := []
          transactionList := [(0, .observe ⟨1, (deviceObserved 1).uri, 1⟩)]
          requests := 1 }
        [.observe (statisticsObserved 1).uri 2 true, .reply 0 (some observeContent),
          .reply 1 (some observeContent)] =
        .ok (⟨1, [deviceObserved 1, statisticsObserved 1], [], 2⟩,
          [⟨.noError, some 1, []⟩, ⟨.noError, some 0, [⟨0, 1⟩]⟩, ⟨.noError, some 1, [⟨0, 2⟩]⟩]) := by
      decide
    obtain ⟨effects, hrun⟩ := @run_unsent (deviceObserved 1).uri rfl 1 _ _ _ 65535
      ⟨1, [], [(0, .observe ⟨1, (deviceObserved 1).uri, 1⟩)], 1⟩ rfl hend
    have hfirst : observationStep justRegistered (.observe (deviceObserved 1).uri 1 true) =
        .ok (⟨1, [], [(0, .observe ⟨1, (deviceObserved 1).uri, 1⟩)], 1⟩,
          ⟨.noError, some 0, []⟩) := rfl
    refine ⟨⟨1, [deviceObserved 1, statisticsObserved 1], [], 2⟩,
      ⟨.noError, some 0, []⟩ :: effects, ?_, rfl⟩
    rw [repeatedId, run_cons_ok hfirst, hrun]
    rfl
  · intro h
    have hpasses : UpdatePasses 100 firstLocation deviceUpdate
        (observedClients [⟨deviceObserved 1, false⟩, ⟨statisticsObserved 1, false⟩])
        { noParameters with binding := bindingUnknown }
        [{ id := 3, versionMajor := 0, versionMinor := 0, instanceList := [0] }] _ :=
      { clock := by decide
        query := rfl
        unnamed := rfl
        contentType := .inl rfl
        payload := ⟨_, deviceUpdate_decoded, rfl⟩
        location := rfl
        client := rfl }
    have hdrops := (updatesExactly_iff hpasses nofun
      ⟨by unfold AllLive; decide, by unfold NonDescending; decide⟩ 0).1
        (h.exact _ _ _ hpasses nofun)
    exact absurd hdrops (by unfold DropsOwn; decide)

end Wakaama
