import Wakaama.Core.Proofs.BootstrapWrite
import Wakaama.Core.Proofs.ServerListRefresh

/-!
# Entries of the server lists that stay right

What the calls of a bootstrap do to the entries: a call of the application changes one
instance, tagging marks entries dirty, and the entries that are not marked stay right as long
as no call changes an instance that one of them refers to.
-/

namespace Wakaama

variable {Node : Type} {ident : Node → UInt16}

/-- An entry that is not marked dirty refers to the instance. -/
def Referred (context : ClientContext Node) (objectId id : UInt16) : Prop :=
  (objectId = lwm2mSecurityObjectId ∧
    ∃ server ∈ context.bootstrapServerList ++ context.serverList,
      server.dirty = false ∧ server.secObjInstID = id) ∨
  (objectId = lwm2mServerObjectId ∧
    ∃ server ∈ context.serverList, server.dirty = false ∧ server.servObjInstID = id)

/-- A callback leaves what an instance shows, whatever instances there are besides. -/
def KeepsShown (ident : Node → UInt16) (object : Lwm2mObject Node) (id : UInt16)
    (call : List Node → List Node × CoapCode) : Prop :=
  ∀ nodes, Ascending ident nodes → id ∈ nodes.map ident →
    shownAt ident (object.withInstances (call nodes).1) id =
      shownAt ident (object.withInstances nodes) id

/-- A callback about an instance that is present always gives this answer. -/
def AlwaysAnswers (ident : Node → UInt16) (id : UInt16)
    (call : List Node → List Node × CoapCode) (result : CoapCode) : Prop :=
  ∀ nodes, Ascending ident nodes → id ∈ nodes.map ident → (call nodes).2 = result

/-- What leads from one context of a bootstrap to the next: the entries are still tracked, the
application is the same, and no further instance is referred to. -/
structure Advances (ident : Node → UInt16) (context context' : ClientContext Node) : Prop where
  tracked : EntriesTracked ident context'
  callbacks : ∀ objectId, (context'.findObject objectId).map (·.withInstances []) =
    (context.findObject objectId).map (·.withInstances [])
  referred : ∀ objectId id, Referred context' objectId id → Referred context objectId id

variable {context context' : ClientContext Node} {object : Lwm2mObject Node} {objectId id : UInt16}
  {servers : List Lwm2mServer} {nodes : List Node}

theorem Advances.refl (h : EntriesTracked ident context) : Advances ident context context :=
  ⟨h, fun _ => rfl, fun _ _ hr => hr⟩

theorem Advances.trans {a b c : ClientContext Node} (h : Advances ident a b)
    (h' : Advances ident b c) : Advances ident a c :=
  ⟨h'.tracked, fun id => (h'.callbacks id).trans (h.callbacks id),
    fun o i hr => h.referred o i (h'.referred o i hr)⟩

theorem Advances.find (h : Advances ident context context')
    (hfind : context'.findObject objectId = some object) :
    ∃ before ∈ context.findObject objectId,
      object = before.withInstances object.instanceList := by
  have hcallbacks := h.callbacks objectId
  rw [hfind, Option.map_some] at hcallbacks
  obtain ⟨before, hbefore, heq⟩ := Option.map_eq_some_iff.mp hcallbacks.symm
  refine ⟨before, hbefore, ?_⟩
  have := congrArg (fun o : Lwm2mObject Node => o.withInstances object.instanceList) heq
  exact this.symm

/-- The same servers, some of them marked dirty or changed in what the objects do not show. -/
structure Retagged (servers servers' : List Lwm2mServer) : Prop where
  ids : servers'.map Lwm2mServer.secObjInstID = servers.map Lwm2mServer.secObjInstID
  mem : ∀ server' ∈ servers', ∃ server ∈ servers,
    server'.secObjInstID = server.secObjInstID ∧ server'.shortID = server.shortID ∧
      server'.servObjInstID = server.servObjInstID ∧
      (server'.dirty = false → server.dirty = false)

theorem Retagged.refl (servers : List Lwm2mServer) : Retagged servers servers :=
  ⟨rfl, fun server hmem => ⟨server, hmem, rfl, rfl, rfl, id⟩⟩

theorem Retagged.map {f : Lwm2mServer → Lwm2mServer}
    (hf : ∀ server ∈ servers, (f server).secObjInstID = server.secObjInstID ∧ (f server).shortID = server.shortID ∧ (f server).servObjInstID = server.servObjInstID ∧ ((f server).dirty = false → server.dirty = false)) :
    Retagged servers (servers.map f) := by
  constructor
  · rw [List.map_map]
    exact List.map_congr_left fun server hmem => (hf server hmem).1
  · intro server' hmem
    obtain ⟨server, hserver, rfl⟩ := List.mem_map.mp hmem
    exact ⟨server, hserver, hf server hserver⟩

theorem Retagged.ascending {servers' : List Lwm2mServer} (h : Retagged servers servers')
    (hasc : Ascending Lwm2mServer.secObjInstID servers) :
    Ascending Lwm2mServer.secObjInstID servers' := by
  rw [Ascending, ← List.pairwise_map] at hasc ⊢
  rwa [h.ids]

def ClientContext.withServers (context : ClientContext Node)
    (bootstrapServerList serverList : List Lwm2mServer) : ClientContext Node :=
  { context with bootstrapServerList, serverList }

theorem EntriesTracked.withServers (h : EntriesTracked ident context)
    {bootstrapServerList serverList : List Lwm2mServer}
    (hb : Retagged context.bootstrapServerList bootstrapServerList)
    (hs : Retagged context.serverList serverList) :
    Advances ident context (context.withServers bootstrapServerList serverList) := by
  have hinstances :
      instanceAt ident (context.withServers bootstrapServerList serverList) =
        instanceAt ident context := instanceAt_congr ident rfl
  refine ⟨⟨h.objects.congr rfl, hb.ascending h.bootstrapAscending,
    hs.ascending h.regularAscending, ?_, ?_, ?_⟩, fun _ => rfl, ?_⟩
  · intro a ha b hmem
    obtain ⟨a', ha', hida, -⟩ := hb.mem a ha
    obtain ⟨b', hb', hidb, -⟩ := hs.mem b hmem
    rw [hida, hidb]
    exact h.disjoint a' ha' b' hb'
  · intro server hmem hclean
    obtain ⟨before, hbefore, hid, hshort, -, hdirty⟩ := hb.mem server hmem
    obtain ⟨⟨shortId, hsecurity⟩, hzero⟩ := h.bootstrap before hbefore (hdirty hclean)
    exact ⟨⟨shortId, by rw [hinstances, hid]; exact hsecurity⟩, hshort.trans hzero⟩
  · intro server hmem hclean
    obtain ⟨before, hbefore, hid, hshort, hserv, hdirty⟩ := hs.mem server hmem
    obtain ⟨hsecurity, hserver⟩ := h.regular before hbefore (hdirty hclean)
    exact ⟨by rw [hinstances, hid, hshort]; exact hsecurity,
      by rw [hinstances, hserv, hshort]; exact hserver⟩
  · rintro objectId id (⟨rfl, server, hmem, hclean, rfl⟩ | ⟨rfl, server, hmem, hclean, rfl⟩)
    · refine Or.inl ⟨rfl, ?_⟩
      rcases List.mem_append.mp hmem with hmem | hmem
      · obtain ⟨before, hbefore, hid, -, -, hdirty⟩ := hb.mem server hmem
        exact ⟨before, List.mem_append_left _ hbefore, hdirty hclean, hid.symm⟩
      · obtain ⟨before, hbefore, hid, -, -, hdirty⟩ := hs.mem server hmem
        exact ⟨before, List.mem_append_right _ hbefore, hdirty hclean, hid.symm⟩
    · obtain ⟨before, hbefore, -, -, hserv, hdirty⟩ := hs.mem server hmem
      exact Or.inr ⟨rfl, before, hbefore, hdirty hclean, hserv.symm⟩

theorem Advances.withState (h : Advances ident context context') (state : ClientState) :
    Advances ident context { context' with state } := by
  have hinstances : instanceAt ident { context' with state } = instanceAt ident context' :=
    instanceAt_congr ident rfl
  refine ⟨⟨h.tracked.objects.congr rfl, h.tracked.bootstrapAscending, h.tracked.regularAscending,
    h.tracked.disjoint, fun server hmem hclean => ?_, fun server hmem hclean => ?_⟩, h.callbacks,
    h.referred⟩
  · exact (h.tracked.bootstrap server hmem hclean).congr hinstances
  · exact (h.tracked.regular server hmem hclean).congr hinstances

theorem retagged_replaceServer {server server' : Lwm2mServer}
    (hasc : Ascending Lwm2mServer.secObjInstID servers) (hmem : server ∈ servers)
    (hid : server'.secObjInstID = server.secObjInstID) (hshort : server'.shortID = server.shortID)
    (hserv : server'.servObjInstID = server.servObjInstID)
    (hdirty : server'.dirty = false → server.dirty = false) :
    Retagged servers (replaceServer server' servers) := by
  refine Retagged.map fun target htarget => ?_
  by_cases hsame : target.secObjInstID = server'.secObjInstID
  · have heq : target = server := by
      have hfind := (lwm2mListFind_eq_some_iff hasc).mpr ⟨htarget, hsame.trans hid⟩
      have hfind' := (lwm2mListFind_eq_some_iff hasc).mpr ⟨hmem, rfl⟩
      exact Option.some.inj (hfind.symm.trans hfind')
    subst heq
    simp only [hsame, if_true]
    exact ⟨trivial, hshort, hserv, hdirty⟩
  · simp [hsame]

theorem EntriesTracked.setBootstrapStatus (h : EntriesTracked ident context) (id : UInt16)
    (status : ServerStatus) : Advances ident context (setBootstrapStatus id status context) := by
  refine h.withServers (Retagged.map fun server _ => ?_) (Retagged.refl _)
  split <;> simp

theorem EntriesTracked.tagServer (h : EntriesTracked ident context) (id : UInt16) :
    Advances ident context (prvTagServer context id) ∧
      ¬ Referred (prvTagServer context id) lwm2mSecurityObjectId id := by
  have htag : ∀ {servers : List Lwm2mServer} {target : Lwm2mServer},
      Ascending Lwm2mServer.secObjInstID servers →
      lwm2mListFind Lwm2mServer.secObjInstID id servers = some target →
      Retagged servers (replaceServer { target with dirty := true } servers) ∧
        ∀ server ∈ replaceServer { target with dirty := true } servers,
          server.dirty = false → server.secObjInstID ≠ id := by
    intro servers target hasc hfind
    obtain ⟨hmem, hid⟩ := (lwm2mListFind_eq_some_iff hasc).mp hfind
    refine ⟨retagged_replaceServer hasc hmem rfl rfl rfl (by simp), ?_⟩
    intro server hserver hclean hsid
    obtain ⟨before, -, rfl⟩ := List.mem_map.mp hserver
    split at hclean
    · simp at hclean
    · rename_i hne
      rw [if_neg hne] at hsid
      exact hne (hsid.trans hid.symm)
  have hsecurity : ∀ {context : ClientContext Node},
      (∀ server ∈ context.bootstrapServerList ++ context.serverList, server.dirty = false →
        server.secObjInstID ≠ id) → ¬ Referred context lwm2mSecurityObjectId id := by
    rintro context hnone (⟨-, server, hmem, hclean, hid⟩ | ⟨habsurd, -⟩)
    · exact hnone server hmem hclean hid
    · exact absurd habsurd (by decide)
  simp only [prvTagServer]
  cases hboot : lwm2mListFind Lwm2mServer.secObjInstID id context.bootstrapServerList with
  | some target =>
    obtain ⟨hretag, hnone⟩ := htag h.bootstrapAscending hboot
    obtain ⟨hmem, hid⟩ := (lwm2mListFind_eq_some_iff h.bootstrapAscending).mp hboot
    refine ⟨h.withServers hretag (Retagged.refl _), hsecurity fun server hserver hclean => ?_⟩
    rcases List.mem_append.mp hserver with hserver | hserver
    · exact hnone server hserver hclean
    · exact fun hsid => h.disjoint target hmem server hserver (hid.trans hsid.symm)
  | none =>
    have hnotboot := (lwm2mListFind_eq_none_iff h.bootstrapAscending).mp hboot
    cases hreg : lwm2mListFind Lwm2mServer.secObjInstID id context.serverList with
    | some target =>
      obtain ⟨hretag, hnone⟩ := htag h.regularAscending hreg
      refine ⟨h.withServers (Retagged.refl _) hretag, hsecurity fun server hserver hclean => ?_⟩
      rcases List.mem_append.mp hserver with hserver | hserver
      · exact hnotboot server hserver
      · exact hnone server hserver hclean
    | none =>
      have hnotreg := (lwm2mListFind_eq_none_iff h.regularAscending).mp hreg
      refine ⟨Advances.refl h, hsecurity fun server hserver _ => ?_⟩
      rcases List.mem_append.mp hserver with hserver | hserver
      · exact hnotboot server hserver
      · exact hnotreg server hserver

theorem EntriesTracked.tagAllServer (h : EntriesTracked ident context) (own : UInt16) :
    Advances ident context (prvTagAllServer context (some own)) ∧
      ∀ objectId id, Referred (prvTagAllServer context (some own)) objectId id →
        objectId = lwm2mSecurityObjectId ∧ id = own := by
  refine ⟨h.withServers (Retagged.map fun server _ => ?_) (Retagged.map fun server _ => ?_), ?_⟩
  · split <;> simp
  · simp
  · have hregular : ∀ server ∈ (prvTagAllServer context (some own)).serverList,
        server.dirty = true := by
      intro server hmem
      obtain ⟨before, -, rfl⟩ := List.mem_map.mp hmem
      rfl
    rintro objectId id (⟨rfl, server, hmem, hclean, rfl⟩ | ⟨rfl, server, hmem, hclean, rfl⟩)
    · rcases List.mem_append.mp hmem with hmem | hmem
      · obtain ⟨before, -, rfl⟩ := List.mem_map.mp hmem
        split at hclean
        · rename_i hown
          rw [if_pos hown]
          exact ⟨rfl, Option.some.inj hown⟩
        · simp at hclean
      · exact absurd (hregular server hmem) (by simp [hclean])
    · exact absurd (hregular server hmem) (by simp [hclean])

theorem EntriesTracked.referred_present (h : EntriesTracked ident context)
    (href : Referred context objectId id) : instanceAt ident context objectId id ≠ none := by
  rcases href with ⟨rfl, server, hmem, hclean, rfl⟩ | ⟨rfl, server, hmem, hclean, rfl⟩
  · rcases List.mem_append.mp hmem with hmem | hmem
    · obtain ⟨shortId, hsecurity⟩ := (h.bootstrap server hmem hclean).security
      simp [hsecurity]
    · simp [(h.regular server hmem hclean).security]
  · simp [(h.regular server hmem hclean).server]

theorem mem_of_shownAt (h : shownAt ident object id ≠ none) :
    id ∈ object.instanceList.map ident := by
  by_contra habsent
  simp [shownAt, habsent] at h

theorem EntriesTracked.referred_mem (h : EntriesTracked ident context)
    (hfind : context.findObject objectId = some object) (href : Referred context objectId id) :
    id ∈ object.instanceList.map ident := by
  have hpresent := h.referred_present href
  rw [instanceAt, hfind] at hpresent
  exact mem_of_shownAt hpresent

theorem TouchesOne.refl (object : Lwm2mObject Node) (id : UInt16) (hasc : Ascending ident nodes) :
    TouchesOne ident object id nodes nodes :=
  ⟨hasc, fun _ _ => ⟨Iff.rfl, fun _ _ _ => rfl⟩⟩

/-- An instance list that differs in one instance, which shows the same if it is referred to. -/
theorem EntriesTracked.setInstances (h : EntriesTracked ident context)
    (hfind : context.findObject objectId = some object)
    (htouch : TouchesOne ident object id object.instanceList nodes)
    (hkept : Referred context objectId id → shownAt ident (object.withInstances nodes) id = shownAt ident object id) :
    Advances ident context (context.setInstances objectId nodes) := by
  have hsame : ∀ key j, Referred context key j →
      instanceAt ident (context.setInstances objectId nodes) key j =
        instanceAt ident context key j := by
    intro key j href
    rw [instanceAt_setInstances hfind]
    by_cases hkey : key = objectId
    · subst hkey
      have hold : instanceAt ident context key j = shownAt ident object j := by
        simp [instanceAt, hfind]
      rw [if_pos rfl, hold]
      by_cases hj : j = id
      · subst hj
        exact hkept href
      · exact shownAt_same (htouch.others j hj)
    · rw [if_neg hkey]
  refine ⟨⟨h.objects.setInstances objectId htouch.ascending, h.bootstrapAscending,
    h.regularAscending, h.disjoint, ?_, ?_⟩, ?_, fun _ _ hr => hr⟩
  · intro server hmem hclean
    obtain ⟨hsecurity, hshort⟩ := h.bootstrap server hmem hclean
    refine ⟨?_, hshort⟩
    rw [hsame _ _ (Or.inl ⟨rfl, server, List.mem_append_left _ hmem, hclean, rfl⟩)]
    exact hsecurity
  · intro server hmem hclean
    obtain ⟨hsecurity, hserver⟩ := h.regular server hmem hclean
    constructor
    · rw [hsame _ _ (Or.inl ⟨rfl, server, List.mem_append_right _ hmem, hclean, rfl⟩)]
      exact hsecurity
    · rw [hsame _ _ (Or.inr ⟨rfl, server, hmem, hclean, rfl⟩)]
      exact hserver
  · intro key
    rw [lwm2mListFind_setInstances, Option.map_map]
    refine congrArg (fun f => Option.map f (context.findObject key)) (funext fun o => ?_)
    simp only [Function.comp_apply]
    split <;> rfl

theorem prvTagServer_setInstances (context : ClientContext Node) (objectId id : UInt16)
    (nodes : List Node) :
    prvTagServer (context.setInstances objectId nodes) id =
      (prvTagServer context id).setInstances objectId nodes := by
  simp only [prvTagServer, ClientContext.setInstances]
  split
  · rfl
  · split <;> rfl

/-- A call about an instance that is referred to leaves what it shows, or it is about a Security
instance and always answers the success that has the entry tagged. -/
def CallTagsOrKeeps (ident : Node → UInt16) (context : ClientContext Node) (objectId id : UInt16)
    (object : Lwm2mObject Node) (call : List Node → List Node × CoapCode) (done : CoapCode) :
    Prop :=
  Referred context objectId id → KeepsShown ident object id call ∨
    objectId = lwm2mSecurityObjectId ∧ AlwaysAnswers ident id call done

theorem CallTagsOrKeeps.mono {call : List Node → List Node × CoapCode} {done : CoapCode}
    (h : CallTagsOrKeeps ident context objectId id object call done)
    (hadv : Advances ident context context') (nodes : List Node) :
    CallTagsOrKeeps ident context' objectId id (object.withInstances nodes) call done :=
  fun href => h (hadv.referred _ _ href)

theorem EntriesTracked.call (h : EntriesTracked ident context)
    (hfind : context.findObject objectId = some object) {call : List Node → List Node × CoapCode}
    {done : CoapCode}
    (htouch : TouchesOne ident object id object.instanceList (call object.instanceList).1)
    (hsafe : CallTagsOrKeeps ident context objectId id object call done) :
    Advances ident context
      (if objectId = lwm2mSecurityObjectId ∧ (call object.instanceList).2 = done then
        prvTagServer (context.setInstances objectId (call object.instanceList).1) id
      else context.setInstances objectId (call object.instanceList).1) := by
  split
  · rename_i htag
    obtain ⟨hadv, hnot⟩ := h.tagServer id
    have hfind' : (prvTagServer context id).findObject objectId = some object := by
      simpa only [ClientContext.findObject, prvTagServer_objectList] using hfind
    rw [prvTagServer_setInstances]
    refine hadv.trans (hadv.tracked.setInstances hfind' htouch fun href => ?_)
    exact absurd (htag.1 ▸ href) hnot
  · rename_i hno
    refine h.setInstances hfind htouch fun href => ?_
    have hasc := h.objects.instances object (h.objects.find hfind)
    have hmem := h.referred_mem hfind href
    rcases hsafe href with hkeeps | ⟨hsecurity, hanswers⟩
    · exact hkeeps _ hasc hmem
    · exact absurd ⟨hsecurity, hanswers _ hasc hmem⟩ hno

theorem EntriesTracked.create (h : EntriesTracked ident context)
    (hfind : context.findObject objectId = some object)
    (hfresh : id ∉ object.instanceList.map ident)
    {create : UInt16 → List Lwm2mData → List Node → List Node × CoapCode}
    (hcreate : create ∈ object.createFunc) (data : List Lwm2mData) :
    Advances ident context
      (context.setInstances objectId (create id data object.instanceList).1) := by
  have hobject := h.objects.find hfind
  refine h.setInstances hfind ((h.objects.callbacks object hobject).create create hcreate id data _
    (h.objects.instances object hobject) hfresh) fun href => ?_
  exact absurd (h.referred_mem hfind href) hfresh

theorem lwm2mListFind_notMem (hasc : Ascending ident nodes)
    (h : lwm2mListFind ident id nodes = none) : id ∉ nodes.map ident := by
  intro hmem
  obtain ⟨node, hnode, rfl⟩ := List.mem_map.mp hmem
  exact (lwm2mListFind_eq_none_iff hasc).mp h node hnode rfl

end Wakaama
