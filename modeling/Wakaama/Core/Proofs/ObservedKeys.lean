import Wakaama.Core.Observe
import Wakaama.Misc.Keyed
import Wakaama.Misc.Run

/-!
# Keying of the observed list

Driven by requests of any servers on any URIs, the observed list is a map from pairs of a URI
and a server to watchers, as long as every look-up that `prv_findObserved` makes on the
segments of the request hits the entry of exactly that URI, and every cancellation meets the
watcher it looked up. A look-up that hits a deeper URI makes two URIs share a watcher.
-/

namespace Wakaama

/-- A request as `dm_handleRequest` passes it on. -/
inductive ObserveRequest where
  | observe (message : ObserveMessage)
  | writeAttributes (readable : CoapCode) (attr : Lwm2mAttributes)

/-- A request of a server on a URI, with the time and what the allocator does. -/
structure ObserveCall where
  uri : Lwm2mUri
  server : UInt16
  now : Int
  alloc : ObserveAlloc
  request : ObserveRequest

/-- One request as a step of the observed list. -/
def observeStep (sessionIsEqual : UInt16 → UInt16 → Bool)
    (tooClose : UInt64 → UInt64 → UInt64 → Bool) (observedList : List Observed)
    (call : ObserveCall) : Except Fault (List Observed × ObserveReply) :=
  match call.request with
  | .observe message =>
    observeHandleRequest sessionIsEqual call.now call.alloc call.uri call.server message
      observedList
  | .writeAttributes readable attr =>
    observeSetParameters tooClose readable call.alloc call.uri call.server attr observedList

/-- The watcher of a server under exactly this URI. -/
def watcherAt (observedList : List Observed) (uri : Lwm2mUri) (server : UInt16) :
    Option Watcher :=
  (lookupKey Observed.uri uri observedList).bind fun observed =>
    lookupKey Watcher.server server observed.watcherList

/-- One entry for a URI, one watcher for a server in it, none freed or without watchers. -/
structure ObservedWf (observedList : List Observed) : Prop where
  uris : (observedList.map Observed.uri).Nodup
  live : ∀ observed ∈ observedList, observed.freed = false
  watched : ∀ observed ∈ observedList, observed.watcherList ≠ []
  servers : ∀ observed ∈ observedList, (observed.watcherList.map Watcher.server).Nodup

/-- The request gets as far as `prv_getWatcher`. -/
def ObserveCall.getsWatcher (call : ObserveCall) : Bool :=
  (call.uri.isSetInstance || !call.uri.isSetResource) &&
    match call.request with
    | .observe message => message.count == 0 && !message.token.isEmpty
    | .writeAttributes readable _ => readable == .content205

/-- The request is a cancellation. -/
def ObserveCall.cancels (call : ObserveCall) : Bool :=
  match call.request with
  | .observe message => message.count == 1
  | .writeAttributes _ _ => false

/-- Where the first watcher is that `observe_cancel` takes for the message id and session. -/
def firstWith (mid : UInt16) (fromSession : UInt16 → Bool) (observedList : List Observed) :
    Option (Lwm2mUri × UInt16) :=
  observedList.findSome? fun observed =>
    (observed.watcherList.find? fun watcher =>
      watcher.lastMid == mid && fromSession watcher.server).map fun watcher =>
        (observed.uri, watcher.server)

/-- The look-up of a request that wants a watcher hits the entry of exactly its URI, or there is
none and both the entry and its watcher can be allocated, or not even the entry. -/
def GetSafe (observedList : List Observed) (call : ObserveCall) : Prop :=
  match prvFindObserved call.uri observedList with
  | .error _ => True
  | .ok none => call.alloc.observed = true → call.alloc.watcher = true
  | .ok (some (_, observed, _)) => observed.uri = call.uri

/-- The look-up of a cancellation hits the entry of exactly its URI, and the first watcher with
the message id and session of the watcher there is that watcher. -/
def CancelSafe (sessionIsEqual : UInt16 → UInt16 → Bool) (observedList : List Observed)
    (call : ObserveCall) : Prop :=
  match prvFindObserved call.uri observedList with
  | .error _ | .ok none => True
  | .ok (some (_, observed, _)) =>
    observed.uri = call.uri ∧
      match prvFindWatcher call.server observed.watcherList with
      | none => True
      | some (_, watcher, _) =>
        ∀ hit ∈ firstWith watcher.lastMid (sessionIsEqual call.server) observedList,
          hit = (call.uri, call.server)

/-- Every look-up of the request is safe. -/
def ObserveSafe (sessionIsEqual : UInt16 → UInt16 → Bool) (observedList : List Observed)
    (call : ObserveCall) : Prop :=
  (call.getsWatcher = true → GetSafe observedList call) ∧
    (call.cancels = true → CancelSafe sessionIsEqual observedList call)

instance (observedList : List Observed) (call : ObserveCall) :
    Decidable (GetSafe observedList call) :=
  match h : prvFindObserved call.uri observedList with
  | .error _ => isTrue (by simp [GetSafe, h])
  | .ok none =>
    decidable_of_iff (call.alloc.observed = true → call.alloc.watcher = true)
      (by simp [GetSafe, h])
  | .ok (some (_, observed, _)) =>
    decidable_of_iff (observed.uri = call.uri) (by simp [GetSafe, h])

instance (sessionIsEqual : UInt16 → UInt16 → Bool) (observedList : List Observed)
    (call : ObserveCall) : Decidable (CancelSafe sessionIsEqual observedList call) :=
  match h : prvFindObserved call.uri observedList with
  | .error _ => isTrue (by simp [CancelSafe, h])
  | .ok none => isTrue (by simp [CancelSafe, h])
  | .ok (some (_, observed, _)) =>
    match h' : prvFindWatcher call.server observed.watcherList with
    | none => decidable_of_iff (observed.uri = call.uri) (by simp [CancelSafe, h, h'])
    | some (_, watcher, _) =>
      decidable_of_iff (observed.uri = call.uri ∧
        ∀ hit ∈ firstWith watcher.lastMid (sessionIsEqual call.server) observedList,
          hit = (call.uri, call.server)) (by simp [CancelSafe, h, h'])

instance (sessionIsEqual : UInt16 → UInt16 → Bool) (observedList : List Observed)
    (call : ObserveCall) : Decidable (ObserveSafe sessionIsEqual observedList call) :=
  inferInstanceAs (Decidable ((_ → _) ∧ (_ → _)))

/-! ### Look-ups -/

theorem matchesUri_self (uri : Lwm2mUri) : matchesUri uri uri = true := by
  simp [matchesUri]

variable {observedList before after : List Observed} {observed : Observed} {call : ObserveCall}

theorem prvFindObserved_live (hlive : ∀ observed ∈ observedList, observed.freed = false)
    (uri : Lwm2mUri) :
    prvFindObserved uri observedList =
      .ok (splitFirst (fun observed => matchesUri uri observed.uri) observedList) := by
  induction observedList with
  | nil => rfl
  | cons target next ih =>
    have hhead : target.freed = false := hlive target (by simp)
    have hnext := ih fun observed hmem => hlive observed (List.mem_cons_of_mem _ hmem)
    unfold prvFindObserved splitFirst
    rw [hhead, hnext]
    by_cases hmatch : matchesUri uri target.uri = true
    · simp [hmatch]
    · cases hsplit : splitFirst (fun observed => matchesUri uri observed.uri) next with
      | none => simp [hmatch]
      | some found => simp [hmatch]

theorem lookupKey_of_splitFirst_none {uri : Lwm2mUri}
    (h : splitFirst (fun observed => matchesUri uri observed.uri) observedList = none) :
    lookupKey Observed.uri uri observedList = none := by
  rw [lookupKey_eq_none_iff]
  intro hmem
  obtain ⟨observed, hobserved, huri⟩ := List.mem_map.mp hmem
  have hmatch := splitFirst_none h observed hobserved
  rw [huri, matchesUri_self] at hmatch
  contradiction

theorem watcherAt_replace {observed' : Observed}
    (h : ((before ++ observed :: after).map Observed.uri).Nodup)
    (huri : observed'.uri = observed.uri) (uri : Lwm2mUri) (server : UInt16) :
    watcherAt (before ++ observed' :: after) uri server =
      if uri = observed.uri then lookupKey Watcher.server server observed'.watcherList
      else watcherAt (before ++ observed :: after) uri server := by
  unfold watcherAt
  rw [lookupKey_replace h huri]
  split <;> rfl

theorem watcherAt_cons (observed : Observed) (next : List Observed) (uri : Lwm2mUri)
    (server : UInt16) :
    watcherAt (observed :: next) uri server =
      if observed.uri = uri then lookupKey Watcher.server server observed.watcherList
      else watcherAt next uri server := by
  unfold watcherAt
  rw [lookupKey_cons]
  split <;> rfl

theorem watcherAt_of_split (h : ((before ++ observed :: after).map Observed.uri).Nodup)
    (server : UInt16) :
    watcherAt (before ++ observed :: after) observed.uri server =
      lookupKey Watcher.server server observed.watcherList := by
  rw [watcherAt_replace h rfl, if_pos rfl]

theorem ObservedWf.replace {observed' : Observed} (h : ObservedWf (before ++ observed :: after))
    (huri : observed'.uri = observed.uri) (hlive : observed'.freed = false)
    (hwatched : observed'.watcherList ≠ [])
    (hservers : (observed'.watcherList.map Watcher.server).Nodup) :
    ObservedWf (before ++ observed' :: after) := by
  have hmem : ∀ o ∈ before ++ observed' :: after,
      o = observed' ∨ o ∈ before ++ observed :: after := by
    intro o ho
    rcases List.mem_append.mp ho with hb | hrest
    · exact Or.inr (List.mem_append_left _ hb)
    · rcases List.mem_cons.mp hrest with heq | ha
      · exact Or.inl heq
      · exact Or.inr (List.mem_append_right _ (List.mem_cons_of_mem _ ha))
  constructor
  · exact nodup_replace h.uris huri
  · intro o ho
    rcases hmem o ho with heq | hold
    · rw [heq, hlive]
    · exact h.live o hold
  · intro o ho
    rcases hmem o ho with heq | hold
    · rwa [heq]
    · exact h.watched o hold
  · intro o ho
    rcases hmem o ho with heq | hold
    · rwa [heq]
    · exact h.servers o hold

theorem ObservedWf.cons {observedList : List Observed} {observed : Observed}
    (h : ObservedWf observedList) (huri : observed.uri ∉ observedList.map Observed.uri)
    (hlive : observed.freed = false) (hwatched : observed.watcherList ≠ [])
    (hservers : (observed.watcherList.map Watcher.server).Nodup) :
    ObservedWf (observed :: observedList) := by
  constructor
  · rw [List.map_cons, List.nodup_cons]
    exact ⟨huri, h.uris⟩
  · exact List.forall_mem_cons.mpr ⟨hlive, h.live⟩
  · exact List.forall_mem_cons.mpr ⟨hwatched, h.watched⟩
  · exact List.forall_mem_cons.mpr ⟨hservers, h.servers⟩

/-! ### Getting a watcher -/

/-- A place for the watcher of a server under a URI: writing it there changes what is found
under this pair and nothing else. -/
structure PlaceOf (observedList : List Observed) (uri : Lwm2mUri) (server : UInt16)
    (place : WatcherAt) : Prop where
  current : place.watcher = (watcherAt observedList uri server).getD (newWatcher server)
  owner : place.watcher.server = server
  wf : ∀ watcher : Watcher, watcher.server = server → ObservedWf (place.put watcher)
  put : ∀ watcher : Watcher, watcher.server = server → ∀ uri' server',
    watcherAt (place.put watcher) uri' server' =
      if (uri', server') = (uri, server) then some watcher
      else watcherAt observedList uri' server'

/-- A safe `prv_getWatcher` returns the watcher of the pair, an existing or a new one, or the
list as it was. -/
theorem prvGetWatcher_spec (hwf : ObservedWf observedList) (hsafe : GetSafe observedList call) :
    prvGetWatcher call.alloc call.uri call.server observedList = .ok (.null observedList) ∨
      ∃ place, prvGetWatcher call.alloc call.uri call.server observedList =
          .ok (.found place) ∧
        PlaceOf observedList call.uri call.server place := by
  unfold GetSafe at hsafe
  unfold prvGetWatcher
  rw [prvFindObserved_live hwf.live] at hsafe ⊢
  cases hsplit : splitFirst (fun observed => matchesUri call.uri observed.uri) observedList with
  | none =>
    rw [hsplit] at hsafe
    dsimp only at hsafe ⊢
    have hnone := lookupKey_of_splitFirst_none hsplit
    have habsent := lookupKey_eq_none_iff.mp hnone
    cases hobserved : call.alloc.observed with
    | false => exact Or.inl rfl
    | true =>
      rw [hsafe hobserved]
      refine Or.inr ⟨_, rfl, ?_, rfl, ?_, ?_⟩
      · unfold watcherAt
        rw [hnone]
        rfl
      · intro watcher hserver
        refine hwf.cons habsent rfl (by simp) ?_
        simp
      · intro watcher hserver uri' server'
        unfold WatcherAt.put
        rw [List.nil_append, watcherAt_cons]
        by_cases huri : call.uri = uri'
        · subst huri
          rw [if_pos rfl, List.nil_append, lookupKey_cons, hserver]
          by_cases hs : call.server = server'
          · rw [if_pos hs, if_pos (by rw [hs])]
          · rw [if_neg hs, if_neg (by simpa using Ne.symm hs)]
            unfold watcherAt
            rw [hnone]
            rfl
        · rw [if_neg huri, if_neg (by simpa using fun h => absurd h.symm huri)]
  | some found =>
    obtain ⟨before, observed, after⟩ := found
    rw [hsplit] at hsafe
    dsimp only at hsafe ⊢
    obtain ⟨hlist, -, -⟩ := splitFirst_some hsplit
    subst hlist
    have hlive : observed.freed = false := hwf.live observed (by simp)
    have hservers := hwf.servers observed (by simp)
    have hcurrent := watcherAt_of_split hwf.uris call.server
    rw [hsafe] at hcurrent
    unfold prvFindWatcher
    cases hwatcher : splitFirst (fun watcher => watcher.server == call.server)
        observed.watcherList with
    | some split =>
      obtain ⟨watchersBefore, watcher, watchersAfter⟩ := split
      obtain ⟨hwatchers, howner, -⟩ := splitFirst_some hwatcher
      have howner : watcher.server = call.server := by simpa using howner
      rw [hwatchers] at hservers
      have hfound : lookupKey Watcher.server call.server observed.watcherList = some watcher := by
        rw [hwatchers, lookupKey_replace hservers rfl, howner, if_pos rfl]
      refine Or.inr ⟨_, rfl, ?_, howner, ?_, ?_⟩
      · rw [hcurrent, hfound]
        rfl
      · intro new hnew
        exact hwf.replace rfl rfl (by simp) (nodup_replace hservers (hnew.trans howner.symm))
      · intro new hnew uri' server'
        have hput := watcherAt_replace hwf.uris
          (show Observed.uri ⟨observed.uri, watchersBefore ++ new :: watchersAfter, false⟩ =
            observed.uri from rfl) uri' server'
        refine hput.trans ?_
        rw [hsafe]
        by_cases huri : uri' = call.uri
        · subst huri
          rw [if_pos rfl, lookupKey_replace hservers (hnew.trans howner.symm), howner]
          by_cases hs : server' = call.server
          · rw [if_pos hs, if_pos (by rw [hs])]
          · rw [if_neg hs, if_neg (by simpa using hs), ← hwatchers, ← hsafe,
              watcherAt_of_split hwf.uris]
        · rw [if_neg huri, if_neg (by simpa using fun h => absurd h huri)]
    | none =>
      dsimp only
      cases hallocWatcher : call.alloc.watcher with
      | false => exact Or.inl rfl
      | true =>
        have habsent : call.server ∉ observed.watcherList.map Watcher.server := by
          intro hmem
          obtain ⟨watcher, hmem, hserver⟩ := List.mem_map.mp hmem
          have := splitFirst_none hwatcher watcher hmem
          simp [hserver] at this
        refine Or.inr ⟨_, rfl, ?_, rfl, ?_, ?_⟩
        · rw [hcurrent, lookupKey_eq_none_iff.mpr habsent]
          rfl
        · intro new hnew
          refine hwf.replace rfl rfl (by simp) ?_
          rw [List.nil_append, List.map_cons, List.nodup_cons, hnew]
          exact ⟨habsent, hservers⟩
        · intro new hnew uri' server'
          have hput := watcherAt_replace hwf.uris
            (show Observed.uri ⟨observed.uri, new :: observed.watcherList, false⟩ =
              observed.uri from rfl) uri' server'
          refine hput.trans ?_
          rw [hsafe]
          by_cases huri : uri' = call.uri
          · subst huri
            rw [if_pos rfl, lookupKey_cons, hnew]
            by_cases hs : call.server = server'
            · rw [if_pos hs, if_pos (by rw [hs])]
            · rw [if_neg hs, if_neg (by simpa using Ne.symm hs), ← hsafe,
                watcherAt_of_split hwf.uris]
          · rw [if_neg huri, if_neg (by simpa using fun h => absurd h huri)]

/-! ### Cancelling -/

theorem splitFirst_find {α : Type} {p : α → Bool} {xs before after : List α} {x : α}
    (h : splitFirst p xs = some (before, x, after)) : xs.find? p = some x := by
  obtain ⟨hxs, hx, hbefore⟩ := splitFirst_some h
  rw [List.find?_eq_some_iff_append]
  exact ⟨hx, before, after, hxs, fun y hy => by simp [hbefore y hy]⟩

theorem firstWith_mem {mid : UInt16} {fromSession : UInt16 → Bool} {hit : Lwm2mUri × UInt16}
    (h : firstWith mid fromSession observedList = some hit) :
    hit.1 ∈ observedList.map Observed.uri := by
  unfold firstWith at h
  obtain ⟨observed, hmem, hhit⟩ := List.exists_of_findSome?_eq_some h
  obtain ⟨watcher, -, heq⟩ := Option.map_eq_some_iff.mp hhit
  rw [← heq]
  exact List.mem_map_of_mem hmem

/-- `observe_cancel` removes the first watcher with the message id and session and nothing
else. -/
theorem observeCancel_spec (mid : UInt16) (fromSession : UInt16 → Bool)
    (hwf : ObservedWf observedList) :
    ∃ observedList', observeCancel mid fromSession observedList = .ok observedList' ∧
      ObservedWf observedList' ∧
      (observedList'.map Observed.uri).Sublist (observedList.map Observed.uri) ∧
      ∀ uri server, watcherAt observedList' uri server =
        if firstWith mid fromSession observedList = some (uri, server) then none
        else watcherAt observedList uri server := by
  induction observedList with
  | nil => exact ⟨[], rfl, hwf, List.Sublist.refl _, fun uri server => by simp [firstWith]⟩
  | cons observed next ih =>
    have hnext : ObservedWf next :=
      { uris := (List.nodup_cons.mp hwf.uris).2
        live := fun o ho => hwf.live o (List.mem_cons_of_mem _ ho)
        watched := fun o ho => hwf.watched o (List.mem_cons_of_mem _ ho)
        servers := fun o ho => hwf.servers o (List.mem_cons_of_mem _ ho) }
    have hfresh : observed.uri ∉ next.map Observed.uri := (List.nodup_cons.mp hwf.uris).1
    have hlive : observed.freed = false := hwf.live observed (by simp)
    have hwatched : observed.watcherList ≠ [] := hwf.watched observed (by simp)
    have hservers := hwf.servers observed (by simp)
    have habsent : ∀ server, watcherAt next observed.uri server = none := by
      intro server
      unfold watcherAt
      rw [lookupKey_eq_none_iff.mpr hfresh]
      rfl
    cases hsplit : splitFirst (fun watcher => watcher.lastMid == mid && fromSession watcher.server)
        observed.watcherList with
    | some split =>
      obtain ⟨before, watcher, after⟩ := split
      obtain ⟨hwatchers, -, -⟩ := splitFirst_some hsplit
      have hfirst : firstWith mid fromSession (observed :: next) =
          some (observed.uri, watcher.server) := by
        simp [firstWith, splitFirst_find hsplit]
      rw [hwatchers] at hservers
      have hremove := lookupKey_remove hservers
      by_cases hempty : before ++ after = []
      · refine ⟨next, ?_, hnext, List.sublist_cons_self _ _, ?_⟩
        · unfold observeCancel
          simp [hlive, hwatched, hsplit, hempty]
        · intro uri server
          rw [hfirst, watcherAt_cons]
          by_cases huri : observed.uri = uri
          · subst huri
            rw [if_pos rfl, habsent, hwatchers]
            have hlast := hremove server
            rw [hempty] at hlast
            by_cases hs : server = watcher.server
            · rw [if_pos (by rw [hs])]
            · rw [if_neg hs] at hlast
              rw [if_neg (by simpa using Ne.symm hs), ← hlast]
              rfl
          · rw [if_neg huri, if_neg (by simpa using fun h => absurd h huri)]
      · refine ⟨{ observed with watcherList := before ++ after } :: next, ?_, ?_, ?_, ?_⟩
        · unfold observeCancel
          simp [hlive, hwatched, hsplit, hempty]
        · exact hnext.cons hfresh hlive hempty (nodup_remove hservers)
        · exact List.Sublist.refl _
        · intro uri server
          rw [hfirst, watcherAt_cons, watcherAt_cons]
          by_cases huri : observed.uri = uri
          · subst huri
            rw [if_pos rfl, if_pos rfl, hremove server, hwatchers]
            by_cases hs : server = watcher.server
            · rw [if_pos hs, if_pos (by rw [hs])]
            · rw [if_neg hs, if_neg (by simpa using Ne.symm hs)]
          · rw [if_neg huri, if_neg huri, if_neg (by simpa using fun h => absurd h huri)]
    | none =>
      obtain ⟨next', hcancel, hwf', hsub, hfound⟩ := ih hnext
      have hnone : observed.watcherList.find?
          (fun watcher => watcher.lastMid == mid && fromSession watcher.server) = none := by
        rw [List.find?_eq_none]
        intro watcher hmem
        simpa using splitFirst_none hsplit watcher hmem
      have hfirst : firstWith mid fromSession (observed :: next) =
          firstWith mid fromSession next := by
        simp [firstWith, hnone]
      refine ⟨observed :: next', ?_, ?_, ?_, ?_⟩
      · unfold observeCancel
        simp [hlive, hwatched, hsplit, hcancel]
      · exact hwf'.cons (fun hmem => hfresh (hsub.subset hmem)) hlive hwatched hservers
      · exact hsub.cons_cons observed.uri
      · intro uri server
        rw [hfirst, watcherAt_cons, watcherAt_cons, hfound uri server]
        by_cases huri : observed.uri = uri
        · subst huri
          have hne : firstWith mid fromSession next ≠ some (observed.uri, server) :=
            fun h => hfresh (firstWith_mem h)
          rw [if_pos rfl, if_pos rfl, if_neg hne]
        · rw [if_neg huri, if_neg huri]

/-! ### One request -/

/-- What the pair's registration is after a request: an accepted Observe = 0 registers, an
Observe = 1 cancels. -/
def registrationAfter (uri : Lwm2mUri) (server : UInt16) (registered : Option ObserveMessage)
    (event : ObserveCall × ObserveReply) : Option ObserveMessage :=
  if event.1.uri = uri ∧ event.1.server = server then
    match event.1.request with
    | .observe message =>
      if message.count = 0 ∧ event.2.code = .content205 then some message
      else if message.count = 1 then none
      else registered
    | .writeAttributes _ _ => registered
  else registered

/-- The pair's last registration that was not cancelled. -/
def lastRegistration (events : List (ObserveCall × ObserveReply)) (uri : Lwm2mUri)
    (server : UInt16) : Option ObserveMessage :=
  events.foldl (registrationAfter uri server) none

/-- The pair has an active watcher of its own with the token and format of the registration. -/
def HoldsRegistration (observedList : List Observed) (uri : Lwm2mUri) (server : UInt16)
    (message : ObserveMessage) : Prop :=
  ∃ watcher, watcherAt observedList uri server = some watcher ∧ watcher.active = true ∧
    watcher.token = message.token ∧ watcher.format = message.contentType

/-- What a request does: nothing to the watchers of other pairs, and its own pair's
registration stays in force. -/
structure RequestEffect (observedList : List Observed) (call : ObserveCall)
    (observedList' : List Observed) (reply : ObserveReply) : Prop where
  wf : ObservedWf observedList'
  others : ∀ uri server, (uri, server) ≠ (call.uri, call.server) →
    watcherAt observedList' uri server = watcherAt observedList uri server
  own : ∀ registered : Option ObserveMessage,
    (∀ message ∈ registered, HoldsRegistration observedList call.uri call.server message) →
    ∀ message ∈ registrationAfter call.uri call.server registered (call, reply),
      HoldsRegistration observedList' call.uri call.server message

theorem requestEffect_refused (hwf : ObservedWf observedList) {reply : ObserveReply}
    (hrefused : reply.code ≠ .content205 ∨ ∀ message, call.request = .observe message → message.count ≠ 0) :
    RequestEffect observedList call observedList reply where
  wf := hwf
  others _ _ _ := rfl
  own registered hregistered message hmessage := by
    unfold registrationAfter at hmessage
    rw [if_pos ⟨rfl, rfl⟩] at hmessage
    cases hrequest : call.request with
    | writeAttributes readable attr =>
      simp only [hrequest] at hmessage
      exact hregistered message hmessage
    | observe sent =>
      simp only [hrequest] at hmessage
      have hnot : ¬ (sent.count = 0 ∧ reply.code = .content205) := by
        rintro ⟨hcount, hcode⟩
        rcases hrefused with hrefused | hrefused
        · exact hrefused hcode
        · exact hrefused sent hrequest hcount
      rw [if_neg hnot] at hmessage
      split at hmessage
      · contradiction
      · exact hregistered message hmessage

theorem requestEffect_put {place : WatcherAt}
    (hplace : PlaceOf observedList call.uri call.server place) {watcher : Watcher}
    (howner : watcher.server = call.server) {reply : ObserveReply}
    (hown : ∀ registered : Option ObserveMessage, (∀ message ∈ registered, HoldsRegistration observedList call.uri call.server message) → ∀ message ∈ registrationAfter call.uri call.server registered (call, reply), watcher.active = true ∧ watcher.token = message.token ∧ watcher.format = message.contentType) :
    RequestEffect observedList call (place.put watcher) reply where
  wf := hplace.wf watcher howner
  others uri server hne := by rw [hplace.put watcher howner, if_neg hne]
  own registered hregistered message hmessage :=
    ⟨watcher, by rw [hplace.put watcher howner, if_pos rfl],
      hown registered hregistered message hmessage⟩

theorem observeHandleRequest_register (sessionIsEqual : UInt16 → UInt16 → Bool)
    (hwf : ObservedWf observedList) {message : ObserveMessage}
    (hrequest : call.request = .observe message) (hcount : message.count = 0)
    (hsafe : call.getsWatcher = true → GetSafe observedList call) :
    ∃ observedList' reply, observeHandleRequest sessionIsEqual call.now call.alloc call.uri
        call.server message observedList = .ok (observedList', reply) ∧
      RequestEffect observedList call observedList' reply := by
  unfold observeHandleRequest
  rw [if_pos hcount]
  split
  · exact ⟨_, _, rfl, requestEffect_refused hwf (Or.inl CoapCode.noConfusion)⟩
  rename_i huri
  split
  · exact ⟨_, _, rfl, requestEffect_refused hwf (Or.inl CoapCode.noConfusion)⟩
  rename_i htoken
  have hgets : call.getsWatcher = true := by
    unfold ObserveCall.getsWatcher
    rw [hrequest]
    simp only [Bool.and_eq_true, Bool.not_eq_true', not_and, Bool.not_eq_true] at huri
    cases hinst : call.uri.isSetInstance <;> simp_all
  rcases prvGetWatcher_spec hwf (hsafe hgets) with hnull | ⟨place, hfound, hplace⟩
  · rw [hnull]
    exact ⟨_, _, rfl, requestEffect_refused hwf (Or.inl CoapCode.noConfusion)⟩
  · rw [hfound]
    refine ⟨_, _, rfl, requestEffect_put hplace ?_ ?_⟩
    · exact hplace.owner
    · intro registered _ kept hkept
      unfold registrationAfter at hkept
      rw [if_pos ⟨rfl, rfl⟩] at hkept
      simp only [hrequest] at hkept
      rw [if_pos ⟨hcount, trivial⟩, Option.mem_some_iff] at hkept
      rw [hkept]
      exact ⟨rfl, rfl, rfl⟩

theorem observeHandleRequest_cancel (sessionIsEqual : UInt16 → UInt16 → Bool)
    (hwf : ObservedWf observedList) {message : ObserveMessage}
    (hrequest : call.request = .observe message) (hcount : message.count = 1)
    (hsafe : CancelSafe sessionIsEqual observedList call) :
    ∃ observedList' reply, observeHandleRequest sessionIsEqual call.now call.alloc call.uri
        call.server message observedList = .ok (observedList', reply) ∧
      RequestEffect observedList call observedList' reply := by
  have hzero : message.count ≠ 0 := by
    rw [hcount]
    decide
  have hnoOther : ∀ sent, call.request = .observe sent → sent.count ≠ 0 := by
    intro sent hsent
    rw [hrequest] at hsent
    rwa [← ObserveRequest.observe.inj hsent]
  unfold CancelSafe at hsafe
  unfold observeHandleRequest
  rw [prvFindObserved_live hwf.live] at hsafe ⊢
  rw [if_neg hzero, if_pos hcount]
  cases hsplit : splitFirst (fun observed => matchesUri call.uri observed.uri) observedList with
  | none => exact ⟨_, _, rfl, requestEffect_refused hwf (Or.inr hnoOther)⟩
  | some found =>
    obtain ⟨before, observed, after⟩ := found
    rw [hsplit] at hsafe
    dsimp only at hsafe ⊢
    cases hwatcher : prvFindWatcher call.server observed.watcherList with
    | none => exact ⟨_, _, rfl, requestEffect_refused hwf (Or.inr hnoOther)⟩
    | some split =>
      obtain ⟨watchersBefore, watcher, watchersAfter⟩ := split
      rw [hwatcher] at hsafe
      obtain ⟨-, hhit⟩ := hsafe
      obtain ⟨observedList', hcancel, hwf', -, hfound⟩ :=
        observeCancel_spec watcher.lastMid (sessionIsEqual call.server) hwf
      dsimp only
      rw [hcancel]
      refine ⟨_, _, rfl, hwf', fun uri server hne => ?_, fun registered _ kept hkept => ?_⟩
      · have hmiss : firstWith watcher.lastMid (sessionIsEqual call.server) observedList ≠
            some (uri, server) := fun h => hne (hhit _ h)
        rw [hfound, if_neg hmiss]
      · unfold registrationAfter at hkept
        rw [if_pos ⟨rfl, rfl⟩] at hkept
        simp only [hrequest] at hkept
        rw [if_neg fun h => hzero h.1, if_pos hcount] at hkept
        contradiction

theorem numericFlag_set {attr : Lwm2mAttributes}
    (hall : attr.toSet &&& ~~~attr.toClear &&& attrFlagNumeric = attrFlagNumeric) (flag : UInt8)
    (hflag : attrFlagNumeric &&& flag = flag) (hne : flag ≠ 0) : attr.toSet &&& flag ≠ 0 := by
  intro hzero
  have hand : (attr.toSet &&& ~~~attr.toClear &&& attrFlagNumeric) &&& flag = flag := by
    rw [hall, hflag]
  rw [UInt8.and_assoc, hflag, UInt8.and_assoc, UInt8.and_comm (~~~attr.toClear),
    ← UInt8.and_assoc, hzero, UInt8.zero_and] at hand
  exact hne hand.symm

theorem thresholdsClash_ok (tooClose : UInt64 → UInt64 → UInt64 → Bool) (attr : Lwm2mAttributes)
    (parameters : Option Lwm2mAttributes) :
    ∃ clash, thresholdsClash tooClose attr parameters = .ok clash := by
  unfold thresholdsClash
  cases parameters with
  | some parameters =>
    dsimp only
    split
    · have hpick : ∀ (c : Prop) [Decidable c] (a b : UInt64),
          (if c then .ok a else .ok b : Except Fault UInt64) = .ok (if c then a else b) := by
        intro c _ a b
        split <;> rfl
      rw [hpick, hpick, hpick]
      exact ⟨_, rfl⟩
    · exact ⟨_, rfl⟩
  | none =>
    dsimp only
    split
    · rename_i hall
      have hset := numericFlag_set (by simpa using hall)
      rw [if_pos (hset attrFlagGreaterThan (by decide) (by decide)),
        if_pos (hset attrFlagLessThan (by decide) (by decide)),
        if_pos (hset attrFlagStep (by decide) (by decide))]
      exact ⟨_, rfl⟩
    · exact ⟨_, rfl⟩

theorem observeSetParameters_effect (tooClose : UInt64 → UInt64 → UInt64 → Bool)
    (hwf : ObservedWf observedList) {readable : CoapCode} {attr : Lwm2mAttributes}
    (hrequest : call.request = .writeAttributes readable attr)
    (hsafe : call.getsWatcher = true → GetSafe observedList call) :
    ∃ observedList' reply, observeSetParameters tooClose readable call.alloc call.uri
        call.server attr observedList = .ok (observedList', reply) ∧
      RequestEffect observedList call observedList' reply := by
  have hnoObserve : ∀ message, call.request = .observe message → message.count ≠ 0 := by
    intro message hmessage
    rw [hrequest] at hmessage
    contradiction
  unfold observeSetParameters
  split
  · exact ⟨_, _, rfl, requestEffect_refused hwf (Or.inr hnoObserve)⟩
  rename_i huri
  split
  · exact ⟨_, _, rfl, requestEffect_refused hwf (Or.inr hnoObserve)⟩
  rename_i hreadable
  have hgets : call.getsWatcher = true := by
    unfold ObserveCall.getsWatcher
    rw [hrequest]
    simp only [Bool.and_eq_true, Bool.not_eq_true', not_and, Bool.not_eq_true] at huri
    cases hinst : call.uri.isSetInstance <;> simp_all
  rcases prvGetWatcher_spec hwf (hsafe hgets) with hnull | ⟨place, hfound, hplace⟩
  · rw [hnull]
    exact ⟨_, _, rfl, requestEffect_refused hwf (Or.inr hnoObserve)⟩
  · rw [hfound]
    dsimp only
    -- whatever happens to the parameters, the rest of the watcher is written back
    have hput : ∀ (parameters : Option Lwm2mAttributes) (reply : ObserveReply),
        RequestEffect observedList call (place.put { place.watcher with parameters }) reply := by
      intro parameters reply
      have howner : Watcher.server { place.watcher with parameters } = call.server := hplace.owner
      refine requestEffect_put hplace howner fun registered hregistered kept hkept => ?_
      unfold registrationAfter at hkept
      rw [if_pos ⟨rfl, rfl⟩] at hkept
      simp only [hrequest] at hkept
      obtain ⟨watcher, hwatcher, hheld⟩ := hregistered kept hkept
      have hcurrent := hplace.current
      rw [hwatcher] at hcurrent
      rw [show place.watcher = watcher from hcurrent]
      exact hheld
    obtain ⟨clash, hclash⟩ := thresholdsClash_ok tooClose attr place.watcher.parameters
    rw [hclash]
    cases clash with
    | true => exact ⟨_, _, rfl, hput place.watcher.parameters _⟩
    | false =>
      dsimp only
      split
      · split
        · split
          · exact ⟨_, _, rfl, hput (some attr) _⟩
          · exact ⟨_, _, rfl, hput place.watcher.parameters _⟩
        · exact ⟨_, _, rfl, hput place.watcher.parameters _⟩
      · exact ⟨_, _, rfl, hput (some (mergeParameters attr _)) _⟩

theorem observeStep_effect (sessionIsEqual : UInt16 → UInt16 → Bool)
    (tooClose : UInt64 → UInt64 → UInt64 → Bool) (hwf : ObservedWf observedList)
    (hsafe : ObserveSafe sessionIsEqual observedList call) :
    ∃ observedList' reply, observeStep sessionIsEqual tooClose observedList call =
        .ok (observedList', reply) ∧
      RequestEffect observedList call observedList' reply := by
  unfold observeStep
  cases hrequest : call.request with
  | writeAttributes readable attr =>
    exact observeSetParameters_effect tooClose hwf hrequest hsafe.1
  | observe message =>
    by_cases hzero : message.count = 0
    · exact observeHandleRequest_register sessionIsEqual hwf hrequest hzero hsafe.1
    · by_cases hone : message.count = 1
      · have hcancels : call.cancels = true := by
          unfold ObserveCall.cancels
          rw [hrequest]
          simpa using hone
        exact observeHandleRequest_cancel sessionIsEqual hwf hrequest hone (hsafe.2 hcancels)
      · unfold observeHandleRequest
        dsimp only
        rw [if_neg hzero, if_neg hone]
        exact ⟨_, _, rfl, requestEffect_refused hwf (Or.inl CoapCode.noConfusion)⟩

/-! ### Every run -/

/-- After the events so far the list is well-formed and every registration is in force. -/
structure RegistrationsHeld (past : List (ObserveCall × ObserveReply))
    (observedList : List Observed) : Prop where
  wf : ObservedWf observedList
  held : ∀ uri server, ∀ message ∈ lastRegistration past uri server,
    HoldsRegistration observedList uri server message

theorem registrationsHeld_step {sessionIsEqual : UInt16 → UInt16 → Bool}
    {tooClose : UInt64 → UInt64 → UInt64 → Bool} (past : List (ObserveCall × ObserveReply))
    (observedList : List Observed) (call : ObserveCall) (observedList' : List Observed)
    (reply : ObserveReply) (hinv : RegistrationsHeld past observedList)
    (hsafe : ObserveSafe sessionIsEqual observedList call)
    (hstep : observeStep sessionIsEqual tooClose observedList call =
      .ok (observedList', reply)) :
    RegistrationsHeld (past ++ [(call, reply)]) observedList' := by
  obtain ⟨after, answer, hstep', heffect⟩ :=
    observeStep_effect sessionIsEqual tooClose hinv.wf hsafe
  rw [hstep, Except.ok.injEq, Prod.mk.injEq] at hstep'
  obtain ⟨rfl, rfl⟩ := hstep'
  refine ⟨heffect.wf, fun uri server message hmessage => ?_⟩
  unfold lastRegistration at hmessage
  rw [List.foldl_append] at hmessage
  by_cases hown : (uri, server) = (call.uri, call.server)
  · obtain ⟨rfl, rfl⟩ := Prod.mk.inj hown
    exact heffect.own _ (hinv.held call.uri call.server) message hmessage
  · have hsame : registrationAfter uri server (lastRegistration past uri server)
        (call, reply) = lastRegistration past uri server := by
      unfold registrationAfter
      rw [if_neg]
      rintro ⟨huri, hserver⟩
      exact hown (by rw [← huri, ← hserver])
    have hheld := hinv.held uri server message (hsame ▸ hmessage)
    unfold HoldsRegistration at hheld ⊢
    rwa [heffect.others uri server hown]

/-- A request leaves the watchers of other pairs of URI and server alone. -/
def LeavesOthers (sessionIsEqual : UInt16 → UInt16 → Bool)
    (tooClose : UInt64 → UInt64 → UInt64 → Bool) (observedList : List Observed)
    (call : ObserveCall) : Prop :=
  ∀ observedList' reply,
    observeStep sessionIsEqual tooClose observedList call = .ok (observedList', reply) →
    ∀ uri server, (uri, server) ≠ (call.uri, call.server) →
      watcherAt observedList' uri server = watcherAt observedList uri server

/-- In a run whose look-ups are all safe no request faults, the list has one entry for a URI,
every registered pair has its own watcher under exactly its URI, and no request touches the
watcher of another pair. -/
theorem observedList_keyed (sessionIsEqual : UInt16 → UInt16 → Bool)
    (tooClose : UInt64 → UInt64 → UInt64 → Bool) (calls : List ObserveCall)
    (hsafe : StepsMeet (observeStep sessionIsEqual tooClose) (ObserveSafe sessionIsEqual) []
      calls) :
    ∃ final replies, run (observeStep sessionIsEqual tooClose) [] calls = .ok (final, replies) ∧
      (final.map Observed.uri).Nodup ∧
      (∀ uri server, ∀ message ∈ lastRegistration (calls.zip replies) uri server,
        HoldsRegistration final uri server message) ∧
      StepsMeet (observeStep sessionIsEqual tooClose) (LeavesOthers sessionIsEqual tooClose) []
        calls := by
  have hempty : RegistrationsHeld [] [] :=
    { wf := ⟨List.nodup_nil, by simp, by simp, by simp⟩
      held := by simp [lastRegistration] }
  have htotal : ∀ s call, ObservedWf s → ObserveSafe sessionIsEqual s call →
      ∃ s' reply, observeStep sessionIsEqual tooClose s call = .ok (s', reply) ∧
        ObservedWf s' := by
    intro s call hwf hcall
    obtain ⟨s', reply, hstep, heffect⟩ := observeStep_effect sessionIsEqual tooClose hwf hcall
    exact ⟨s', reply, hstep, heffect.wf⟩
  obtain ⟨final, replies, hrun⟩ := run_total htotal calls [] hempty.wf hsafe
  have hheld := run_history registrationsHeld_step calls [] [] final replies hempty hsafe hrun
  rw [List.nil_append] at hheld
  refine ⟨final, replies, hrun, hheld.wf.uris, hheld.held, ?_⟩
  refine StepsMeet.imp ?_ ?_ calls [] hempty.wf hsafe
  · intro s call s' reply hwf hcall hstep
    obtain ⟨after, answer, hstep', hwf'⟩ := htotal s call hwf hcall
    rw [hstep, Except.ok.injEq, Prod.mk.injEq] at hstep'
    rwa [hstep'.1]
  · intro s call hwf hcall s' reply hstep uri server hne
    obtain ⟨after, answer, hstep', heffect⟩ :=
      observeStep_effect sessionIsEqual tooClose hwf hcall
    rw [hstep, Except.ok.injEq, Prod.mk.injEq] at hstep'
    rw [hstep'.1]
    exact heffect.others uri server hne

/-- Every allocation succeeds. -/
def plentyOfMemory : ObserveAlloc := { observed := true, watcher := true, parameters := true }

/-- A server starts (0) or stops (1) observing a URI. -/
def observeCall (uri : Lwm2mUri) (server : UInt16) (count : UInt32) (token : List UInt8)
    (mid : UInt16) : ObserveCall where
  uri := uri
  server := server
  now := 0
  alloc := plentyOfMemory
  request := .observe
    { count, token, responseMid := mid, contentType := 112,
      data := .node .integer 0 (.asInteger 21) }

/-- A server sets the minimum period of a URI. -/
def minPeriodCall (uri : Lwm2mUri) (server : UInt16) : ObserveCall where
  uri := uri
  server := server
  now := 0
  alloc := plentyOfMemory
  request := .writeAttributes .content205
    { toSet := attrFlagMinPeriod, toClear := 0, minPeriod := 60, maxPeriod := 0,
      greaterThan := 0, lessThan := 0, step := 0 }

/-- `/3/0`. -/
def deviceInstance : Lwm2mUri :=
  { objectId := 3, instanceId := 0, resourceId := lwm2mMaxId, resourceInstanceId := lwm2mMaxId }

/-- `/3/0/9`. -/
def deviceBattery : Lwm2mUri :=
  { objectId := 3, instanceId := 0, resourceId := 9, resourceInstanceId := lwm2mMaxId }

/-- Two servers observe an instance, one of them sets an attribute and observes a resource of
it, the other cancels before that. -/
def overlappingCalls : List ObserveCall :=
  [observeCall deviceInstance 1 0 [1] 10, observeCall deviceInstance 2 0 [2] 11,
    minPeriodCall deviceInstance 2, observeCall deviceInstance 1 1 [] 12,
    observeCall deviceBattery 2 0 [3] 13]

/-- The overlapping calls are kept apart. -/
theorem overlappingCalls_keyed :
    ∃ final replies, run (observeStep (· == ·) fun _ _ _ => false) [] overlappingCalls =
        .ok (final, replies) ∧
      (final.map Observed.uri).Nodup ∧
      (∀ uri server, ∀ message ∈ lastRegistration (overlappingCalls.zip replies) uri server,
        HoldsRegistration final uri server message) ∧
      StepsMeet (observeStep (· == ·) fun _ _ _ => false)
        (LeavesOthers (· == ·) fun _ _ _ => false) [] overlappingCalls :=
  observedList_keyed (· == ·) (fun _ _ _ => false) overlappingCalls (by decide)

/-- A server observes a resource and then the instance above it: both are accepted, the
resource's watcher has the instance's token, and nothing is stored under the instance. -/
theorem observedList_shared :
    ∃ final replies, run (observeStep (· == ·) fun _ _ _ => false) []
        [observeCall deviceBattery 1 0 [1] 10, observeCall deviceInstance 1 0 [2] 11] =
          .ok (final, replies) ∧
      replies.map ObserveReply.code = [.content205, .content205] ∧
      (watcherAt final deviceBattery 1).map Watcher.token = some [2] ∧
      watcherAt final deviceInstance 1 = none :=
  ⟨_, _, rfl, rfl, rfl, rfl⟩

end Wakaama
