import Wakaama.Core.Proofs.Instances

/-!
# What a refresh of the server lists leaves

As long as every entry that is not marked dirty is right, a refresh that returns 0 leaves lists
that match the Security and Server objects: the dirty entries are read again, the others are
right already, and no Security instance is left out but for want of a Server instance.
-/

namespace Wakaama

variable {Node : Type} {ident : Node → UInt16}

/-- The entry of a bootstrap server agrees with its Security instance. Such a server has no
Short Server ID, for which its entry has 0. -/
structure BootstrapEntryRight (ident : Node → UInt16) (context : ClientContext Node)
    (server : Lwm2mServer) : Prop where
  security : ∃ shortId,
    instanceAt ident context lwm2mSecurityObjectId server.secObjInstID = some (some true, shortId)
  shortID : server.shortID = 0

/-- The entry of any other server agrees with its Security instance and with its Server
instance. -/
structure RegularEntryRight (ident : Node → UInt16) (context : ClientContext Node)
    (server : Lwm2mServer) : Prop where
  security : instanceAt ident context lwm2mSecurityObjectId server.secObjInstID =
    some (some false, some (server.shortID.toNat : Int))
  server : instanceAt ident context lwm2mServerObjectId server.servObjInstID =
    some (none, some (server.shortID.toNat : Int))

/-- A Security instance that is to have an entry: it is marked bootstrap, or a Server instance
has its Short Server ID. -/
def WantsEntry (ident : Node → UInt16) (context : ClientContext Node) (id : UInt16) : Prop :=
  ∃ flag shortId,
    instanceAt ident context lwm2mSecurityObjectId id = some (flag, shortId) ∧
      (flag = some true ∨ ∃ value serverId, shortId = some value ∧
        instanceAt ident context lwm2mServerObjectId serverId = some (none, some value))

/-- The entries of a Security instance in both lists. -/
def ClientContext.entriesOf (context : ClientContext Node) (id : UInt16) : List Lwm2mServer :=
  (context.bootstrapServerList ++ context.serverList).filter fun server =>
    server.secObjInstID == id

/-- The server lists match the objects: every entry is right, and every Security instance that
is to have one has exactly one. -/
structure ServerListMatches (ident : Node → UInt16) (context : ClientContext Node) : Prop where
  bootstrap : ∀ server ∈ context.bootstrapServerList, BootstrapEntryRight ident context server
  regular : ∀ server ∈ context.serverList, RegularEntryRight ident context server
  complete : ∀ id, WantsEntry ident context id → (context.entriesOf id).length = 1

/-- The lists are in order and have at most one entry of each Security instance, and what is not
marked dirty is right. -/
structure EntriesTracked (ident : Node → UInt16) (context : ClientContext Node) : Prop where
  objects : ObjectsReady ident context
  bootstrapAscending : Ascending Lwm2mServer.secObjInstID context.bootstrapServerList
  regularAscending : Ascending Lwm2mServer.secObjInstID context.serverList
  disjoint : ∀ a ∈ context.bootstrapServerList, ∀ b ∈ context.serverList,
    a.secObjInstID ≠ b.secObjInstID
  bootstrap : ∀ server ∈ context.bootstrapServerList, server.dirty = false →
    BootstrapEntryRight ident context server
  regular : ∀ server ∈ context.serverList, server.dirty = false →
    RegularEntryRight ident context server

/-! ## Lists of servers -/

variable {servers : List Lwm2mServer} {server : Lwm2mServer} {context context' : ClientContext Node}
  {id instanceId : UInt16} {object security : Lwm2mObject Node} {entry : SecurityEntry}

theorem keepServers_foldl :
    ∀ {head : List Lwm2mServer}, Ascending Lwm2mServer.secObjInstID head →
      Ascending Lwm2mServer.secObjInstID servers →
      (∀ a ∈ head, ∀ b ∈ servers, a.secObjInstID ≠ b.secObjInstID) →
      Ascending Lwm2mServer.secObjInstID (servers.foldl (fun head target =>
          if target.dirty then head else lwm2mListAdd Lwm2mServer.secObjInstID head target) head) ∧
        ∀ server, server ∈ servers.foldl (fun head target =>
            if target.dirty then head else lwm2mListAdd Lwm2mServer.secObjInstID head target) head ↔
          server ∈ head ∨ server ∈ servers ∧ server.dirty = false := by
  induction servers with
  | nil =>
    intro head hhead _ _
    simpa using hhead
  | cons target servers ih =>
    intro head hhead hservers hne
    obtain ⟨hlt, hrest⟩ := ascending_cons.mp hservers
    simp only [List.foldl_cons]
    cases hdirty : target.dirty with
    | true =>
      obtain ⟨hasc, hmem⟩ := ih hhead hrest fun a ha b hb => hne a ha b (List.mem_cons_of_mem _ hb)
      refine ⟨by simpa using hasc, fun server => ?_⟩
      simp only [if_true, hmem, List.mem_cons]
      constructor
      · rintro (h | h)
        · exact Or.inl h
        · exact Or.inr ⟨Or.inr h.1, h.2⟩
      · rintro (h | ⟨rfl | h, hclean⟩)
        · exact Or.inl h
        · exact absurd (hdirty.symm.trans hclean) (by simp)
        · exact Or.inr ⟨h, hclean⟩
    | false =>
      have hfresh : ∀ b ∈ head, b.secObjInstID ≠ target.secObjInstID :=
        fun b hb => hne b hb target (by simp)
      have hperm : (lwm2mListAdd Lwm2mServer.secObjInstID head target).Perm (target :: head) :=
        lwm2mListAdd_perm head target
      obtain ⟨hasc, hmem⟩ := ih (lwm2mListAdd_ascending hhead hfresh) hrest (by
        intro a ha b hb
        rcases List.mem_cons.mp (hperm.mem_iff.mp ha) with rfl | ha
        · exact fun h => uint16_lt_irrefl _ (h ▸ hlt b hb)
        · exact hne a ha b (List.mem_cons_of_mem _ hb))
      refine ⟨by simpa using hasc, fun server => ?_⟩
      simp only [Bool.false_eq_true, if_false, hmem, hperm.mem_iff, List.mem_cons]
      constructor
      · rintro ((rfl | h) | h)
        · exact Or.inr ⟨Or.inl rfl, hdirty⟩
        · exact Or.inl h
        · exact Or.inr ⟨Or.inr h.1, h.2⟩
      · rintro (h | ⟨rfl | h, hclean⟩)
        · exact Or.inl (Or.inr h)
        · exact Or.inl (Or.inl rfl)
        · exact Or.inr ⟨h, hclean⟩

theorem keepServers_ascending (h : Ascending Lwm2mServer.secObjInstID servers) :
    Ascending Lwm2mServer.secObjInstID (keepServers servers) :=
  (keepServers_foldl ascending_nil h (by simp)).1

theorem mem_keepServers (h : Ascending Lwm2mServer.secObjInstID servers) :
    server ∈ keepServers servers ↔ server ∈ servers ∧ server.dirty = false := by
  have hmem := (keepServers_foldl ascending_nil h (by simp)).2 server
  simpa [keepServers] using hmem

theorem ascending_map (h : Ascending Lwm2mServer.secObjInstID servers)
    {f : Lwm2mServer → Lwm2mServer} (hf : ∀ server, (f server).secObjInstID = server.secObjInstID) :
    Ascending Lwm2mServer.secObjInstID (servers.map f) := by
  simpa [Ascending, List.pairwise_map, hf] using h

theorem filter_id_length (h : Ascending Lwm2mServer.secObjInstID servers) (id : UInt16) :
    (servers.filter fun server => server.secObjInstID == id).length =
      if ∃ server ∈ servers, server.secObjInstID = id then 1 else 0 := by
  induction servers with
  | nil => simp
  | cons server servers ih =>
    obtain ⟨hlt, hrest⟩ := ascending_cons.mp h
    by_cases hid : server.secObjInstID = id
    · have hnone : ¬ ∃ other ∈ servers, other.secObjInstID = id := by
        rintro ⟨other, hmem, rfl⟩
        exact uint16_lt_irrefl _ (hid ▸ hlt other hmem)
      simp [hid, ih hrest, hnone]
    · simp [hid, ih hrest]

theorem EntriesTracked.hasEntry_iff (h : EntriesTracked ident context) :
    context.hasEntry id = true ↔
      ∃ server ∈ context.bootstrapServerList ++ context.serverList, server.secObjInstID = id := by
  simp only [ClientContext.hasEntry, Bool.or_eq_true, List.mem_append, Option.isSome_iff_exists]
  constructor
  · rintro (⟨server, hfind⟩ | ⟨server, hfind⟩)
    · obtain ⟨hmem, hid⟩ := (lwm2mListFind_eq_some_iff h.bootstrapAscending).mp hfind
      exact ⟨server, Or.inl hmem, hid⟩
    · obtain ⟨hmem, hid⟩ := (lwm2mListFind_eq_some_iff h.regularAscending).mp hfind
      exact ⟨server, Or.inr hmem, hid⟩
  · rintro ⟨server, hmem | hmem, hid⟩
    · exact Or.inl ⟨server, (lwm2mListFind_eq_some_iff h.bootstrapAscending).mpr ⟨hmem, hid⟩⟩
    · exact Or.inr ⟨server, (lwm2mListFind_eq_some_iff h.regularAscending).mpr ⟨hmem, hid⟩⟩

theorem EntriesTracked.entriesOf_length (h : EntriesTracked ident context)
    (hentry : context.hasEntry id = true) : (context.entriesOf id).length = 1 := by
  simp only [ClientContext.entriesOf, List.filter_append, List.length_append,
    filter_id_length h.bootstrapAscending, filter_id_length h.regularAscending]
  obtain ⟨server, hmem, rfl⟩ := h.hasEntry_iff.mp hentry
  rcases List.mem_append.mp hmem with hb | hr
  · have hnone : ¬ ∃ other ∈ context.serverList, other.secObjInstID = server.secObjInstID := by
      rintro ⟨other, hother, hid⟩
      exact h.disjoint server hb other hother hid.symm
    rw [if_pos ⟨server, hb, rfl⟩, if_neg hnone]
  · have hnone : ¬ ∃ other ∈ context.bootstrapServerList,
        other.secObjInstID = server.secObjInstID := by
      rintro ⟨other, hother, hid⟩
      exact h.disjoint other hother server hr hid
    rw [if_neg hnone, if_pos ⟨server, hr, rfl⟩]

/-! ## Reading one Security instance -/

theorem lastObject_eq (h : Ascending Lwm2mObject.objID context.objectList) (objectId : UInt16) :
    context.lastObject objectId = context.findObject objectId := by
  cases hlast : context.lastObject objectId with
  | none =>
    have hnone := List.find?_eq_none.mp hlast
    refine ((lwm2mListFind_eq_none_iff h).mpr fun object hmem hid => ?_).symm
    exact hnone object (List.mem_reverse.mpr hmem) (by simpa using hid)
  | some object =>
    have hmem := List.mem_reverse.mp (List.mem_of_find?_eq_some hlast)
    have hid : object.objID = objectId := by
      simpa using List.find?_some hlast
    exact ((lwm2mListFind_eq_some_iff h).mpr ⟨hmem, hid⟩).symm

theorem readDecoded_of_read {α : Type} {decode : Lwm2mData → Option α} {resourceId : UInt16}
    {data : Option Lwm2mData} (h : objectReadResource object instanceId resourceId = .ok data) :
    readDecoded decode object instanceId resourceId = data.bind decode := by
  simp [readDecoded, h]

theorem prvFindServerInstance_some {shortID : UInt16} :
    ∀ {nodes : List Node},
      prvFindServerInstance ident object shortID nodes = .ok (some instanceId) →
      instanceId ∈ nodes.map ident ∧
        readShortId object instanceId lwm2mServerShortIdId = some (shortID.toNat : Int) := by
  intro nodes
  induction nodes with
  | nil => simp [prvFindServerInstance]
  | cons node nodes ih =>
    intro hfound
    simp only [prvFindServerInstance] at hfound
    split at hfound
    · cases hfound
    · cases hfound
    · rename_i data hread
      split at hfound
      · rename_i hvalue
        cases hfound
        exact ⟨by simp, by rw [readShortId, readDecoded_of_read hread]; exact hvalue⟩
      · obtain ⟨hmem, hshort⟩ := ih hfound
        exact ⟨List.mem_cons_of_mem _ hmem, hshort⟩

/-- Every Server instance answers the read of its Short Server ID. -/
def ServerIdsReadable (ident : Node → UInt16) (context : ClientContext Node) : Prop :=
  ∀ object ∈ context.findObject lwm2mServerObjectId, ∀ node ∈ object.instanceList,
    ∃ data, objectReadResource object (ident node) lwm2mServerShortIdId = .ok (some data)

theorem prvFindServerInstance_none {shortID : UInt16} :
    ∀ {nodes : List Node},
      (∀ node ∈ nodes, ∃ data,
        objectReadResource object (ident node) lwm2mServerShortIdId = .ok (some data)) →
      prvFindServerInstance ident object shortID nodes = .ok none →
      ∀ id ∈ nodes.map ident,
        readShortId object id lwm2mServerShortIdId ≠ some (shortID.toNat : Int) := by
  intro nodes
  induction nodes with
  | nil => simp
  | cons node nodes ih =>
    intro hreads hfound
    obtain ⟨data, hread⟩ := hreads node (by simp)
    simp only [prvFindServerInstance, hread] at hfound
    split at hfound
    · cases hfound
    · rename_i hvalue
      intro id hid
      rcases List.mem_cons.mp hid with rfl | hid
      · rw [readShortId, readDecoded_of_read hread]
        exact hvalue
      · exact ih (fun n hn => hreads n (List.mem_cons_of_mem _ hn)) hfound id hid

theorem prvGetMandatoryInfo_keeps {target : Lwm2mServer} {found : Bool}
    (h : prvGetMandatoryInfo object instanceId target = .ok (server, found)) :
    server.secObjInstID = target.secObjInstID ∧ server.shortID = target.shortID ∧
      server.servObjInstID = target.servObjInstID ∧ server.dirty = target.dirty := by
  simp only [prvGetMandatoryInfo] at h
  split at h
  · cases h
  · split at h
    · cases h
      exact ⟨rfl, rfl, rfl, rfl⟩
    · split at h
      · cases h
        exact ⟨rfl, rfl, rfl, rfl⟩
      · split at h <;> cases h <;> exact ⟨rfl, rfl, rfl, rfl⟩

theorem securityObject_isSecurity (ident : Node → UInt16)
    (h : context.findObject lwm2mSecurityObjectId = some security) (id : UInt16) :
    instanceAt ident context lwm2mSecurityObjectId id =
      if id ∈ security.instanceList.map ident then
        some (readDecoded lwm2mDataDecodeBool security id lwm2mSecurityBootstrapId,
          readShortId security id lwm2mSecurityShortServerId)
      else none := by
  simp [instanceAt, h, shownAt, findObject_id h]

theorem serverObject_isServer (ident : Node → UInt16)
    (h : context.findObject lwm2mServerObjectId = some object) (id : UInt16) :
    instanceAt ident context lwm2mServerObjectId id =
      if id ∈ object.instanceList.map ident then
        some (none, readShortId object id lwm2mServerShortIdId)
      else none := by
  have hne : ¬ lwm2mServerObjectId = lwm2mSecurityObjectId := by decide
  simp [instanceAt, h, shownAt, findObject_id h, hne]

theorem shortId_toNat {value : Int64} (h : ¬ (value < 1 ∨ 0xFFFF < value)) :
    ((value.toUInt64.toUInt16.toNat : Nat) : Int) = value.toInt := by
  have hone : (1 : Int64).toInt = 1 := by decide
  have hmax : (0xFFFF : Int64).toInt = 65535 := by decide
  obtain ⟨hlow, hhigh⟩ := not_or.mp h
  rw [Int64.not_lt, Int64.le_iff_toInt_le, hone] at hlow
  rw [Int64.not_lt, Int64.le_iff_toInt_le, hmax] at hhigh
  have hnonneg : (0 : Int64) ≤ value := by
    rw [Int64.le_iff_toInt_le, Int64.toInt_zero]
    omega
  have hnat : value.toUInt64.toNat = value.toInt.toNat := by
    rw [Int64.toNat_toUInt64_of_le hnonneg, Int64.toNat_toInt]
  rw [UInt64.toNat_toUInt16, hnat]
  omega

/-- The entry that is made of a Security instance is right, and there is none only for want of
a Server instance. -/
def EntryFits (ident : Node → UInt16) (context : ClientContext Node) (id : UInt16) :
    SecurityEntry → Prop
  | .invalid => True
  | .unmatched => ¬ WantsEntry ident context id
  | .bootstrapServer server =>
    server.secObjInstID = id ∧ server.dirty = false ∧ BootstrapEntryRight ident context server
  | .regularServer server =>
    server.secObjInstID = id ∧ server.dirty = false ∧ RegularEntryRight ident context server

theorem bootstrapServerEntry_fits {shortId : Option Int}
    (hshown : instanceAt ident context lwm2mSecurityObjectId id = some (some true, shortId))
    (h : bootstrapServerEntry security id = .ok entry) : EntryFits ident context id entry := by
  simp only [bootstrapServerEntry] at h
  split at h
  · cases h
  · split at h
    · cases h
      trivial
    · split at h
      · cases h
        trivial
      · cases h
        exact ⟨rfl, rfl, ⟨shortId, hshown⟩, rfl⟩

theorem regularServerEntry_fits
    (hsecurity : context.findObject lwm2mSecurityObjectId = some security)
    (hid : id ∈ security.instanceList.map ident)
    (hflag : readDecoded lwm2mDataDecodeBool security id lwm2mSecurityBootstrapId = some false)
    (hreads : ServerIdsReadable ident context)
    (h : regularServerEntry ident security (context.findObject lwm2mServerObjectId) id = .ok entry) :
    EntryFits ident context id entry := by
  simp only [regularServerEntry] at h
  split at h
  · cases h
  · rename_i data hread
    split at h
    · cases h
      trivial
    · rename_i value hvalue
      split at h
      · cases h
        trivial
      · rename_i hrange
        have hshort : readShortId security id lwm2mSecurityShortServerId =
            some (value.toUInt64.toUInt16.toNat : Int) := by
          rw [readShortId, readDecoded_of_read hread, hvalue, shortId_toNat hrange]
          rfl
        have hshown := securityObject_isSecurity ident hsecurity id
        rw [if_pos hid, hflag, hshort] at hshown
        split at h
        · cases h
        · rename_i object hobject
          split at h
          · cases h
          · rename_i hnone
            cases h
            rintro ⟨flag, shortId, hshown', hwants⟩
            obtain ⟨rfl, rfl⟩ : some false = flag ∧
                some ((value.toUInt64.toUInt16.toNat : Nat) : Int) = shortId := by
              simpa [hshown] using hshown'
            rcases hwants with hbootstrap | ⟨wanted, serverId, hwanted, hserver⟩
            · cases hbootstrap
            · cases hwanted
              rw [serverObject_isServer ident hobject] at hserver
              split at hserver
              · rename_i hmem
                exact prvFindServerInstance_none (hreads object hobject) hnone serverId hmem
                  (by simpa using hserver)
              · cases hserver
          · rename_i instanceId hfound
            obtain ⟨hmem, hvalue'⟩ := prvFindServerInstance_some hfound
            split at h
            · cases h
            · rename_i server found hinfo
              obtain ⟨hsec, hsid, hserv, hdirty⟩ := prvGetMandatoryInfo_keeps hinfo
              cases h
              cases found with
              | false => trivial
              | true =>
                refine ⟨hsec, hdirty, ?_, ?_⟩
                · rw [hsec, hsid]
                  exact hshown
                · rw [hserv, hsid, serverObject_isServer ident hobject, if_pos hmem, hvalue']

theorem securityEntry_fits (hsecurity : context.findObject lwm2mSecurityObjectId = some security)
    (hid : id ∈ security.instanceList.map ident) (hreads : ServerIdsReadable ident context)
    (h : securityEntry ident security (context.findObject lwm2mServerObjectId) id = .ok entry) :
    EntryFits ident context id entry := by
  simp only [securityEntry] at h
  split at h
  · cases h
  · rename_i data hread
    split at h
    · cases h
      trivial
    · rename_i hflag
      have hshown := securityObject_isSecurity ident hsecurity id
      rw [if_pos hid, readDecoded_of_read hread, hflag] at hshown
      exact bootstrapServerEntry_fits hshown h
    · rename_i hflag
      exact regularServerEntry_fits hsecurity hid ((readDecoded_of_read hread).trans hflag)
        hreads h

/-! ## The loop over the Security instances -/

theorem instanceAt_congr (ident : Node → UInt16) (h : context'.objectList = context.objectList) :
    instanceAt ident context' = instanceAt ident context := by
  funext objectId id
  simp only [instanceAt, ClientContext.findObject, h]

theorem BootstrapEntryRight.congr (hright : BootstrapEntryRight ident context server)
    (h : instanceAt ident context' = instanceAt ident context) :
    BootstrapEntryRight ident context' server :=
  ⟨by rw [h]; exact hright.security, hright.shortID⟩

theorem RegularEntryRight.congr (hright : RegularEntryRight ident context server)
    (h : instanceAt ident context' = instanceAt ident context) :
    RegularEntryRight ident context' server :=
  ⟨by rw [h]; exact hright.security, by rw [h]; exact hright.server⟩

theorem WantsEntry.congr (h : instanceAt ident context' = instanceAt ident context) :
    WantsEntry ident context' id ↔ WantsEntry ident context id := by
  simp only [WantsEntry, h]

theorem ObjectsReady.congr (hready : ObjectsReady ident context)
    (h : context'.objectList = context.objectList) : ObjectsReady ident context' :=
  ⟨h ▸ hready.ascending, h ▸ hready.instances, h ▸ hready.callbacks⟩

theorem addEntry_objectList (context : ClientContext Node) (entry : SecurityEntry) :
    (context.addEntry entry).objectList = context.objectList := by
  cases entry <;> rfl

theorem mem_addEntry :
    (server ∈ (context.addEntry entry).bootstrapServerList ↔
      entry = .bootstrapServer server ∨ server ∈ context.bootstrapServerList) ∧
    (server ∈ (context.addEntry entry).serverList ↔
      entry = .regularServer server ∨ server ∈ context.serverList) := by
  cases entry <;>
    simp [ClientContext.addEntry, (lwm2mListAdd_perm _ _).mem_iff, eq_comm]

/-- An entry of an instance that has none is added to the entries that are tracked. -/
theorem EntriesTracked.addEntry (h : EntriesTracked ident context)
    (hnew : context.hasEntry id = false) (hfits : EntryFits ident context id entry) :
    EntriesTracked ident (context.addEntry entry) := by
  have hnone : ∀ server ∈ context.bootstrapServerList ++ context.serverList,
      server.secObjInstID ≠ id := by
    intro server hmem hid
    simpa [hnew] using h.hasEntry_iff.mpr ⟨server, hmem, hid⟩
  have hobjects := addEntry_objectList context entry
  have hinstances := instanceAt_congr ident hobjects
  cases entry with
  | invalid => exact h
  | unmatched => exact h
  | bootstrapServer server =>
    obtain ⟨hid, -, hright⟩ := hfits
    refine ⟨h.objects.congr hobjects, lwm2mListAdd_ascending h.bootstrapAscending ?_,
      h.regularAscending, ?_, ?_, fun other hmem hclean => (h.regular other hmem hclean).congr hinstances⟩
    · exact fun b hb hEq => hnone b (List.mem_append_left _ hb) (hEq.trans hid)
    · intro a ha b hb
      rcases (mem_addEntry.1.mp ha) with hEq | ha
      · cases hEq
        exact fun hEq => hnone b (List.mem_append_right _ hb) (hEq.symm.trans hid)
      · exact h.disjoint a ha b hb
    · intro other hmem hclean
      rcases (mem_addEntry.1.mp hmem) with hEq | hmem
      · cases hEq
        exact hright.congr hinstances
      · exact (h.bootstrap other hmem hclean).congr hinstances
  | regularServer server =>
    obtain ⟨hid, -, hright⟩ := hfits
    refine ⟨h.objects.congr hobjects, h.bootstrapAscending,
      lwm2mListAdd_ascending h.regularAscending ?_, ?_,
      fun other hmem hclean => (h.bootstrap other hmem hclean).congr hinstances, ?_⟩
    · exact fun b hb hEq => hnone b (List.mem_append_right _ hb) (hEq.trans hid)
    · intro a ha b hb
      rcases (mem_addEntry.2.mp hb) with hEq | hb
      · cases hEq
        exact fun hEq => hnone a (List.mem_append_left _ ha) (hEq.trans hid)
      · exact h.disjoint a ha b hb
    · intro other hmem hclean
      rcases (mem_addEntry.2.mp hmem) with hEq | hmem
      · cases hEq
        exact hright.congr hinstances
      · exact (h.regular other hmem hclean).congr hinstances

def AllClean (context : ClientContext Node) : Prop :=
  ∀ server ∈ context.bootstrapServerList ++ context.serverList, server.dirty = false

theorem AllClean.addEntry (h : AllClean context) (hfits : EntryFits ident context id entry) :
    AllClean (context.addEntry entry) := by
  intro server hmem
  rcases List.mem_append.mp hmem with hmem | hmem
  · rcases mem_addEntry.1.mp hmem with rfl | hmem
    · exact hfits.2.1
    · exact h server (List.mem_append_left _ hmem)
  · rcases mem_addEntry.2.mp hmem with rfl | hmem
    · exact hfits.2.1
    · exact h server (List.mem_append_right _ hmem)

/-- What the loop over some Security instances leads to: the entries are tracked and clean as
before, and every instance it came past has an entry or wants none. -/
structure LoopReached (ident : Node → UInt16) (nodes : List Node) (context context' : ClientContext Node)
    (finished : Bool) : Prop where
  tracked : EntriesTracked ident context'
  objects : context'.objectList = context.objectList
  clean : AllClean context → AllClean context'
  mono : ∀ id, context.hasEntry id = true → context'.hasEntry id = true
  served : finished = true → ∀ node ∈ nodes,
    context'.hasEntry (ident node) = true ∨ ¬ WantsEntry ident context (ident node)

theorem LoopReached.cons {node : Node} {nodes : List Node} {context context' : ClientContext Node}
    {entry : SecurityEntry} {finished : Bool} (h : EntriesTracked ident context)
    (hnew : context.hasEntry (ident node) = false)
    (hfits : EntryFits ident context (ident node) entry) (hentry : entry ≠ .invalid)
    (hrest : LoopReached ident nodes (context.addEntry entry) context' finished) :
    LoopReached ident (node :: nodes) context context' finished := by
  have hobjects := addEntry_objectList context entry
  have htracked := h.addEntry hnew hfits
  have hmono : ∀ id, context.hasEntry id = true → (context.addEntry entry).hasEntry id = true := by
    intro id hid
    obtain ⟨server, hmem, hid⟩ := h.hasEntry_iff.mp hid
    refine htracked.hasEntry_iff.mpr ⟨server, ?_, hid⟩
    rcases List.mem_append.mp hmem with hmem | hmem
    · exact List.mem_append_left _ (mem_addEntry.1.mpr (Or.inr hmem))
    · exact List.mem_append_right _ (mem_addEntry.2.mpr (Or.inr hmem))
  refine ⟨hrest.tracked, hrest.objects.trans hobjects, fun hc => hrest.clean (hc.addEntry hfits),
    fun id hid => hrest.mono id (hmono id hid), fun hfinished other hother => ?_⟩
  rcases List.mem_cons.mp hother with rfl | hother
  · cases entry with
    | invalid => exact absurd rfl hentry
    | unmatched => exact Or.inr hfits
    | bootstrapServer server =>
      refine Or.inl (hrest.mono _ (htracked.hasEntry_iff.mpr ⟨server, ?_, hfits.1⟩))
      exact List.mem_append_left _ (mem_addEntry.1.mpr (Or.inl rfl))
    | regularServer server =>
      refine Or.inl (hrest.mono _ (htracked.hasEntry_iff.mpr ⟨server, ?_, hfits.1⟩))
      exact List.mem_append_right _ (mem_addEntry.2.mpr (Or.inl rfl))
  · rw [← WantsEntry.congr (instanceAt_congr ident hobjects)]
    exact hrest.served hfinished other hother

theorem getServersLoop_reached :
    ∀ {nodes : List Node} {context context' : ClientContext Node} {finished : Bool},
      EntriesTracked ident context → ServerIdsReadable ident context →
      context.findObject lwm2mSecurityObjectId = some security →
      (∀ node ∈ nodes, node ∈ security.instanceList) →
      getServersLoop ident security (context.findObject lwm2mServerObjectId) false nodes context =
        .ok (context', finished) →
      LoopReached ident nodes context context' finished := by
  intro nodes
  induction nodes with
  | nil =>
    intro context context' finished h _ _ _ hloop
    cases hloop
    exact ⟨h, rfl, fun hc => hc, fun _ hid => hid, by simp⟩
  | cons node nodes ih =>
    intro context context' finished h hreads hsecurity hnodes hloop
    have hrest : ∀ n ∈ nodes, n ∈ security.instanceList :=
      fun n hn => hnodes n (List.mem_cons_of_mem _ hn)
    simp only [getServersLoop] at hloop
    by_cases hentry : context.hasEntry (ident node) = true
    · simp only [hentry, if_true] at hloop
      have hreached := ih h hreads hsecurity hrest hloop
      refine ⟨hreached.tracked, hreached.objects, hreached.clean, hreached.mono, ?_⟩
      intro hfinished other hother
      rcases List.mem_cons.mp hother with rfl | hother
      · exact Or.inl (hreached.mono _ hentry)
      · exact hreached.served hfinished other hother
    · have hnew : context.hasEntry (ident node) = false := by simpa using hentry
      simp only [hnew, Bool.false_eq_true, if_false] at hloop
      have hmem : ident node ∈ security.instanceList.map ident :=
        List.mem_map_of_mem (hnodes node (by simp))
      split at hloop
      · cases hloop
      · cases hloop
        exact ⟨h, rfl, fun hc => hc, fun _ hid => hid, by simp⟩
      · rename_i entry hvalid hread
        have hfits := securityEntry_fits hsecurity hmem hreads hread
        have hobjects := addEntry_objectList context entry
        have hfind : ∀ key, (context.addEntry entry).findObject key = context.findObject key :=
          fun key => by simp only [ClientContext.findObject, hobjects]
        refine LoopReached.cons h hnew hfits (fun hinvalid => hvalid hinvalid) ?_
        refine ih (h.addEntry hnew hfits) ?_ ((hfind _).trans hsecurity) hrest ?_
        · simpa only [ServerIdsReadable, hfind] using hreads
        · rw [hfind]
          simpa using hloop

theorem objectGetServers_checkOnly {out : ClientContext Node × Bool}
    (h : objectGetServers ident true context = .ok out) : out.1 = context := by
  simp only [objectGetServers] at h
  split at h
  · cases h
    rfl
  · rename_i security _
    revert h
    induction security.instanceList with
    | nil =>
      intro h
      cases h
      rfl
    | cons node nodes ih =>
      intro h
      simp only [getServersLoop] at h
      split at h
      · exact ih h
      · split at h
        · cases h
        · cases h
          rfl
        · exact ih h

/-! ## The refresh -/

def withoutDirty (context : ClientContext Node) : ClientContext Node :=
  { context with
    bootstrapServerList :=
      (keepServers context.bootstrapServerList).map fun target =>
        { target with status := .deregistered }
    serverList := keepServers context.serverList }

theorem EntriesTracked.withoutDirty (h : EntriesTracked ident context) :
    EntriesTracked ident (withoutDirty context) ∧ AllClean (withoutDirty context) := by
  have hinstances : instanceAt ident (Wakaama.withoutDirty context) = instanceAt ident context :=
    instanceAt_congr ident rfl
  have hbootstrap : ∀ server ∈ (Wakaama.withoutDirty context).bootstrapServerList,
      ∃ before ∈ context.bootstrapServerList, before.dirty = false ∧
        server = { before with status := .deregistered } := by
    intro server hmem
    obtain ⟨before, hkept, rfl⟩ := List.mem_map.mp hmem
    obtain ⟨hbefore, hclean⟩ := (mem_keepServers h.bootstrapAscending).mp hkept
    exact ⟨before, hbefore, hclean, rfl⟩
  have hregular : ∀ server ∈ (Wakaama.withoutDirty context).serverList,
      server ∈ context.serverList ∧ server.dirty = false :=
    fun server hmem => (mem_keepServers h.regularAscending).mp hmem
  refine ⟨⟨h.objects.congr rfl, ?_, keepServers_ascending h.regularAscending, ?_, ?_, ?_⟩, ?_⟩
  · exact ascending_map (keepServers_ascending h.bootstrapAscending) fun _ => rfl
  · intro a ha b hb
    obtain ⟨before, hbefore, -, rfl⟩ := hbootstrap a ha
    exact h.disjoint before hbefore b (hregular b hb).1
  · intro server hmem _
    obtain ⟨before, hbefore, hclean, rfl⟩ := hbootstrap server hmem
    obtain ⟨hflag, hshort⟩ := h.bootstrap before hbefore hclean
    exact BootstrapEntryRight.congr ⟨hflag, hshort⟩ hinstances
  · intro server hmem _
    exact (h.regular server (hregular server hmem).1 (hregular server hmem).2).congr hinstances
  · intro server hmem
    rcases List.mem_append.mp hmem with hmem | hmem
    · obtain ⟨before, -, hclean, rfl⟩ := hbootstrap server hmem
      exact hclean
    · exact (hregular server hmem).2

/-- A refresh keeps the entries tracked, and one that returns 0 leaves lists that match the
objects. -/
theorem prvRefreshServerList_matches {success : Bool} (h : EntriesTracked ident context)
    (hreads : ServerIdsReadable ident context)
    (hrefresh : prvRefreshServerList ident context = .ok (context', success)) :
    EntriesTracked ident context' ∧ (success = true → ServerListMatches ident context') := by
  obtain ⟨htracked, hclean⟩ := h.withoutDirty
  have hlast : ∀ key, (withoutDirty context).lastObject key = context.findObject key :=
    fun key => lastObject_eq h.objects.ascending key
  change objectGetServers ident false (withoutDirty context) = .ok (context', success) at hrefresh
  simp only [objectGetServers, hlast] at hrefresh
  cases hsecurity : context.findObject lwm2mSecurityObjectId with
  | none =>
    simp only [hsecurity] at hrefresh
    cases hrefresh
    exact ⟨htracked, by simp⟩
  | some security =>
    simp only [hsecurity] at hrefresh
    have hreached : LoopReached ident security.instanceList (withoutDirty context) context' success :=
      getServersLoop_reached htracked hreads hsecurity (fun node hnode => hnode) hrefresh
    refine ⟨hreached.tracked, fun hsuccess => ⟨?_, ?_, ?_⟩⟩
    · intro server hmem
      exact hreached.tracked.bootstrap server hmem
        (hreached.clean hclean server (List.mem_append_left _ hmem))
    · intro server hmem
      exact hreached.tracked.regular server hmem
        (hreached.clean hclean server (List.mem_append_right _ hmem))
    · intro id hwants
      have hinstances : instanceAt ident context' = instanceAt ident context :=
        instanceAt_congr ident hreached.objects
      have hpresent : id ∈ security.instanceList.map ident := by
        obtain ⟨flag, shortId, hshown, -⟩ := hwants
        rw [hinstances, securityObject_isSecurity ident hsecurity] at hshown
        by_contra habsent
        simp [habsent] at hshown
      obtain ⟨node, hnode, rfl⟩ := List.mem_map.mp hpresent
      have hserved := hreached.served hsuccess node hnode
      have hdropped : instanceAt ident (withoutDirty context) = instanceAt ident context :=
        instanceAt_congr ident rfl
      rw [WantsEntry.congr hdropped, ← WantsEntry.congr hinstances] at hserved
      exact hreached.tracked.entriesOf_length (hserved.resolve_right fun hno => hno hwants)

end Wakaama
