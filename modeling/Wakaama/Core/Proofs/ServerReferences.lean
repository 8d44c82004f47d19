import Wakaama.Core.Proofs.SortedList
import Wakaama.Core.ServerReferences
import Wakaama.Misc.Run

/-!
# Pointers to servers stay live

Every event adds pointers only to servers of the lists, and two of them free servers: the
refresh of the server lists and the end. Neither looks for the watchers and the transactions
that point to what it frees, so the pointers stay live exactly as far as there are none.
-/

namespace Wakaama

namespace ClientMemory

/-- A watcher or a transaction points to the address. -/
def Referenced (memory : ClientMemory) (address : Nat) : Prop :=
  (∃ observed ∈ memory.observedList, ∃ watcher ∈ observed.watcherList, watcher.server = address) ∨
    ∃ transaction ∈ memory.transactionList, transaction.server = address

/-- The address of a server of the lists. -/
def Live (memory : ClientMemory) (address : Nat) : Prop :=
  ∃ cell ∈ memory.servers, cell.address = address

/-- Every pointer points to a server of the lists. -/
def ReferencesLive (memory : ClientMemory) : Prop :=
  ∀ address, memory.Referenced address → memory.Live address

/-- No event of this kind frees a server that something points to: a refresh drops only servers
that no watcher and no transaction points to, and the end comes when no transaction is left
and none is added by the deregistration. -/
def FreesUnreferenced (memory : ClientMemory) : MemoryEvent → Prop
  | .refresh _ =>
    ∀ cell ∈ memory.servers, cell.server.dirty = true → ¬ memory.Referenced cell.address
  | .close sent _ =>
    memory.transactionList = [] ∧
      ∀ cell ∈ memory.serverList, deregistrationSends sent cell = false
  | _ => True

/-- No server is lost, and every new pointer points to a server. -/
structure Keeps (memory memory' : ClientMemory) : Prop where
  live : ∀ address, memory.Live address → memory'.Live address
  referenced : ∀ address, memory'.Referenced address →
    memory.Referenced address ∨ memory'.Live address

theorem Keeps.refl (memory : ClientMemory) : Keeps memory memory :=
  ⟨fun _ h => h, fun _ h => Or.inl h⟩

theorem Keeps.trans {a b c : ClientMemory} (h : Keeps a b) (h' : Keeps b c) : Keeps a c := by
  refine ⟨fun address hlive => h'.live _ (h.live _ hlive), fun address href => ?_⟩
  rcases h'.referenced address href with href | hlive
  · rcases h.referenced address href with href | hlive
    · exact Or.inl href
    · exact Or.inr (h'.live _ hlive)
  · exact Or.inr hlive

variable {memory : ClientMemory} {address : Nat}

theorem ReferencesLive.keeps {memory' : ClientMemory} (h : memory.ReferencesLive)
    (hkeeps : Keeps memory memory') : memory'.ReferencesLive := by
  intro address href
  rcases hkeeps.referenced address href with href | hlive
  · exact hkeeps.live _ (h address href)
  · exact hlive

theorem useServer_live (h : memory.Live address) :
    ∃ cell ∈ memory.servers, cell.address = address ∧ memory.useServer address = .ok cell := by
  obtain ⟨cell, hmem, haddress⟩ := h
  have hsome : (memory.servers.find? fun cell => cell.address == address).isSome := by
    rw [List.find?_isSome]
    exact ⟨cell, hmem, by simp [haddress]⟩
  obtain ⟨found, hfound⟩ := Option.isSome_iff_exists.mp hsome
  refine ⟨found, List.mem_of_find?_eq_some hfound, by simpa using List.find?_some hfound, ?_⟩
  simp [useServer, hfound]

/-! ## Servers -/

theorem keeps_mapServers (memory : ClientMemory) {f g : ServerCell → ServerCell}
    (hf : ∀ cell, (f cell).address = cell.address) (hg : ∀ cell, (g cell).address = cell.address) :
    Keeps memory { memory with
      bootstrapServerList := memory.bootstrapServerList.map f
      serverList := memory.serverList.map g } := by
  refine ⟨fun address => ?_, fun address href => Or.inl href⟩
  rintro ⟨cell, hmem, rfl⟩
  rcases List.mem_append.mp hmem with hmem | hmem
  · exact ⟨f cell, List.mem_append_left _ (List.mem_map_of_mem hmem), hf cell⟩
  · exact ⟨g cell, List.mem_append_right _ (List.mem_map_of_mem hmem), hg cell⟩

theorem keeps_writeServer (memory : ClientMemory) (cell : ServerCell) :
    Keeps memory (memory.writeServer cell) := by
  refine keeps_mapServers memory (fun target => ?_) fun target => ?_
  all_goals
    by_cases h : target.address = cell.address
    · simp [h]
    · simp [h]

theorem keeps_tagServers (memory : ClientMemory) (tagged : UInt16 → Bool) :
    Keeps memory (memory.tagServers tagged) := by
  refine keeps_mapServers memory (fun target => ?_) fun target => ?_
  all_goals split <;> rfl

theorem keeps_writeServers (memory : ClientMemory) (written : ServerCell → Lwm2mServer) :
    Keeps memory (memory.writeServers written) :=
  keeps_mapServers memory (fun _ => rfl) fun _ => rfl

theorem keeps_restartServers (memory : ClientMemory)
    (restarted : UInt16 → Option ServerStatus) :
    Keeps memory (restartServers restarted memory) := by
  have hmap := keeps_mapServers memory (f := id)
    (g := fun cell => if cell.server.status = .deregistered then
      { cell with server := { cell.server with status := (restarted cell.id).getD .deregistered } }
      else cell) (fun _ => rfl) (fun cell => by split <;> rfl)
  simpa [restartServers] using hmap

theorem keeps_addTransaction (callback : ServerCallback) (h : memory.Live address) :
    Keeps memory (memory.addTransaction callback address) := by
  refine ⟨fun _ hlive => hlive, fun other href => ?_⟩
  rcases href with href | ⟨transaction, hmem, rfl⟩
  · exact Or.inl (Or.inl href)
  · rcases List.mem_append.mp hmem with hmem | hmem
    · exact Or.inl (Or.inr ⟨transaction, hmem, rfl⟩)
    · obtain rfl := List.mem_singleton.mp hmem
      exact Or.inr h

theorem keeps_addServer (memory : ClientMemory) (isBootstrap : Bool) (server : Lwm2mServer) :
    Keeps memory (memory.addServer isBootstrap server) := by
  refine ⟨fun address => ?_, fun address href => Or.inl ?_⟩
  · rintro ⟨cell, hmem, rfl⟩
    refine ⟨cell, ?_, rfl⟩
    cases isBootstrap
    · rcases List.mem_append.mp hmem with hmem | hmem
      · exact List.mem_append_left _ hmem
      · exact List.mem_append_right _
          ((lwm2mListAdd_perm _ _).mem_iff.mpr (List.mem_cons_of_mem _ hmem))
    · rcases List.mem_append.mp hmem with hmem | hmem
      · exact List.mem_append_left _
          ((lwm2mListAdd_perm _ _).mem_iff.mpr (List.mem_cons_of_mem _ hmem))
      · exact List.mem_append_right _ hmem
  · cases isBootstrap <;> exact href

theorem keeps_objectGetServers (found : List (Bool × Lwm2mServer)) :
    ∀ memory : ClientMemory, Keeps memory (memory.objectGetServers found) := by
  induction found with
  | nil => exact Keeps.refl
  | cons entry found ih =>
    intro memory
    exact (keeps_addServer memory entry.1 entry.2).trans (ih _)

theorem keeps_foldl {round : ClientMemory → ServerCell → ClientMemory}
    (hround : ∀ memory cell, memory.Live cell.address → Keeps memory (round memory cell)) :
    ∀ (cells : List ServerCell) (memory : ClientMemory),
      (∀ cell ∈ cells, memory.Live cell.address) → Keeps memory (cells.foldl round memory) := by
  intro cells
  induction cells with
  | nil => exact fun memory _ => Keeps.refl memory
  | cons cell cells ih =>
    intro memory hlive
    have hfirst := hround memory cell (hlive cell (by simp))
    exact hfirst.trans (ih _ fun other hother =>
      hfirst.live _ (hlive other (List.mem_cons_of_mem _ hother)))

theorem keeps_registrationStep (memory : ClientMemory) (currentTime : Int)
    (env : UInt16 → ServerEnv) : Keeps memory (memory.registrationStep currentTime env) := by
  refine keeps_foldl (fun memory cell hlive => ?_) _ _ fun cell hmem =>
    ⟨cell, List.mem_append_right _ hmem, rfl⟩
  simp only [registrationStepCell]
  have hwrite := keeps_writeServer memory { cell with server :=
    (registrationStepServer ([] : List (Lwm2mObject Unit)) currentTime (env cell.id)
      cell.server).1 }
  split
  · exact hwrite.trans (keeps_addTransaction _ (hwrite.live _ hlive))
  · exact hwrite

theorem keeps_lwm2mDeregister (memory : ClientMemory) (sent : UInt16 → Bool) :
    Keeps memory (memory.lwm2mDeregister sent) := by
  refine keeps_foldl (fun memory cell hlive => ?_) _ _ fun cell hmem =>
    ⟨cell, List.mem_append_right _ hmem, rfl⟩
  simp only [registrationDeregister]
  split
  · have hwrite := keeps_writeServer memory
      { cell with server := { cell.server with status := .deregPending } }
    exact hwrite.trans (keeps_addTransaction _ (hwrite.live _ hlive))
  · exact Keeps.refl memory

theorem keeps_bootstrapStep (memory : ClientMemory) (currentTime : Int)
    (requested : UInt16 → RequestOutcome) :
    Keeps memory (memory.bootstrapStep currentTime requested) := by
  refine keeps_foldl (fun memory cell hlive => ?_) _ _ fun cell hmem =>
    ⟨cell, List.mem_append_left _ hmem, rfl⟩
  have hwrite : ∀ server, Keeps memory (memory.writeServer { cell with server }) :=
    fun server => keeps_writeServer memory _
  simp only [bootstrapStepCell]
  split
  · exact hwrite _
  · split
    · split
      · exact hwrite _
      · exact hwrite _
      · exact Keeps.refl memory
      · exact (hwrite _).trans (keeps_addTransaction _ ((hwrite _).live _ hlive))
    · exact Keeps.refl memory
  · split
    · exact hwrite _
    · exact Keeps.refl memory
  · exact hwrite _
  · exact hwrite _
  · exact Keeps.refl memory

theorem mem_keepClean {cells : List ServerCell} {cell : ServerCell} :
    cell ∈ keepClean cells ↔ cell ∈ cells ∧ cell.server.dirty = false := by
  have hfold : ∀ head : List ServerCell,
      cell ∈ cells.foldl (fun head cell =>
          if cell.server.dirty then head else lwm2mListAdd ServerCell.id head cell) head ↔
        cell ∈ head ∨ cell ∈ cells ∧ cell.server.dirty = false := by
    induction cells with
    | nil => simp
    | cons first next ih =>
      intro head
      rw [List.foldl_cons, ih]
      cases hdirty : first.server.dirty with
      | true =>
        simp only [if_true, List.mem_cons]
        constructor
        · rintro (h | ⟨h, hclean⟩)
          · exact Or.inl h
          · exact Or.inr ⟨Or.inr h, hclean⟩
        · rintro (h | ⟨rfl | h, hclean⟩)
          · exact Or.inl h
          · exact absurd (hdirty.symm.trans hclean) (by simp)
          · exact Or.inr ⟨h, hclean⟩
      | false =>
        simp only [Bool.false_eq_true, if_false, (lwm2mListAdd_perm _ _).mem_iff, List.mem_cons]
        constructor
        · rintro ((rfl | h) | ⟨h, hclean⟩)
          · exact Or.inr ⟨Or.inl rfl, hdirty⟩
          · exact Or.inl h
          · exact Or.inr ⟨Or.inr h, hclean⟩
        · rintro (h | ⟨rfl | h, hclean⟩)
          · exact Or.inl (Or.inr h)
          · exact Or.inl (Or.inl rfl)
          · exact Or.inr ⟨h, hclean⟩
  have h := hfold []
  simpa [keepClean] using h

theorem prvRefreshServerList_live (h : memory.ReferencesLive)
    (hunreferenced : ∀ cell ∈ memory.servers, cell.server.dirty = true → ¬ memory.Referenced cell.address)
    (found : List (Bool × Lwm2mServer)) : (memory.prvRefreshServerList found).ReferencesLive := by
  refine ReferencesLive.keeps ?_ (keeps_objectGetServers found _)
  intro address href
  obtain ⟨cell, hmem, rfl⟩ := h address href
  have hclean : cell.server.dirty = false := by
    cases hdirty : cell.server.dirty with
    | false => rfl
    | true => exact absurd href (hunreferenced cell hmem hdirty)
  rcases List.mem_append.mp hmem with hmem | hmem
  · exact ⟨_, List.mem_append_left _ (List.mem_map_of_mem (mem_keepClean.mpr ⟨hmem, hclean⟩)), rfl⟩
  · exact ⟨cell, List.mem_append_right _ (mem_keepClean.mpr ⟨hmem, hclean⟩), rfl⟩

/-! ## Callbacks -/

theorem runCallback_live (input : CallbackInput) {transaction : ServerTransaction}
    (h : memory.Live transaction.server) :
    ∃ memory', runCallback input memory transaction = .ok memory' ∧ Keeps memory memory' ∧
      memory'.transactionList = memory.transactionList := by
  obtain ⟨cell, -, -, huse⟩ := useServer_live h
  have hwrite := keeps_writeServer memory (callbackOn input cell transaction.callback)
  simp only [runCallback, huse]
  refine ⟨_, rfl, ?_, ?_⟩
  · split
    · exact hwrite.trans (keeps_restartServers _ _)
    · exact hwrite
  · split <;> rfl

theorem endTransaction_live (h : memory.ReferencesLive) (id : Nat) (input : CallbackInput) :
    ∃ memory', memory.endTransaction id input = .ok memory' ∧ memory'.ReferencesLive := by
  simp only [endTransaction]
  split
  · exact ⟨memory, rfl, h⟩
  · rename_i transaction hfind
    have hmem := List.mem_of_find?_eq_some hfind
    obtain ⟨memory', hrun, hkeeps, -⟩ :=
      runCallback_live input (h _ (Or.inr ⟨transaction, hmem, rfl⟩))
    refine ⟨_, by rw [hrun]; rfl, fun address href => ?_⟩
    refine h.keeps hkeeps address ?_
    rcases href with href | ⟨other, hother, rfl⟩
    · exact Or.inl href
    · exact Or.inr ⟨other, (List.mem_filter.mp hother).1, rfl⟩

theorem nextBlock_live (h : memory.ReferencesLive) (id : Nat) :
    (memory.nextBlock id).ReferencesLive := by
  simp only [nextBlock]
  split
  · exact h
  · rename_i transaction hfind
    have hmem := List.mem_of_find?_eq_some hfind
    exact h.keeps (keeps_addTransaction _ (h _ (Or.inr ⟨transaction, hmem, rfl⟩)))

/-! ## Observations -/

theorem keeps_observedList {observedList : List ServerObserved}
    (h : ∀ observed ∈ observedList, ∀ watcher ∈ observed.watcherList, memory.Referenced watcher.server ∨ memory.Live watcher.server) :
    Keeps memory { memory with observedList } := by
  refine ⟨fun _ hlive => hlive, fun address href => ?_⟩
  rcases href with ⟨observed, hobserved, watcher, hwatcher, rfl⟩ | ⟨transaction, hmem, rfl⟩
  · exact h observed hobserved watcher hwatcher
  · exact Or.inl (Or.inr ⟨transaction, hmem, rfl⟩)

theorem getWatcher_servers {uri : Lwm2mUri} {server : Nat} {write : ServerWatcher → ServerWatcher}
    (hwrite : ∀ watcher, (write watcher).server = watcher.server) :
    ∀ {observedList observedList' : List ServerObserved},
      getWatcher uri server write observedList = some observedList' →
      ∀ observed' ∈ observedList', ∀ watcher' ∈ observed'.watcherList,
        watcher'.server = server ∨
          ∃ observed ∈ observedList, ∃ watcher ∈ observed.watcherList,
            watcher.server = watcher'.server := by
  intro observedList
  induction observedList with
  | nil => intro observedList' h; cases h
  | cons observed next ih =>
    intro observedList' h
    simp only [getWatcher] at h
    split at h
    · split at h
      · rename_i before watcher after hsplit
        cases h
        obtain ⟨hlist, hserver, -⟩ := splitFirst_some hsplit
        intro observed' hobserved' watcher' hwatcher'
        rcases List.mem_cons.mp hobserved' with rfl | hnext
        · rcases List.mem_append.mp hwatcher' with hbefore | hrest
          · exact Or.inr ⟨observed, by simp, watcher', by simp [hlist, hbefore], rfl⟩
          · rcases List.mem_cons.mp hrest with rfl | hafter
            · exact Or.inl ((hwrite watcher).trans (by simpa using hserver))
            · exact Or.inr ⟨observed, by simp, watcher', by simp [hlist, hafter], rfl⟩
        · exact Or.inr ⟨observed', List.mem_cons_of_mem _ hnext, watcher', hwatcher', rfl⟩
      · cases h
        intro observed' hobserved' watcher' hwatcher'
        rcases List.mem_cons.mp hobserved' with rfl | hnext
        · rcases List.mem_cons.mp hwatcher' with rfl | hold
          · exact Or.inl (hwrite _)
          · exact Or.inr ⟨observed, by simp, watcher', hold, rfl⟩
        · exact Or.inr ⟨observed', List.mem_cons_of_mem _ hnext, watcher', hwatcher', rfl⟩
    · obtain ⟨rest, hrest, rfl⟩ := Option.map_eq_some_iff.mp h
      intro observed' hobserved' watcher' hwatcher'
      rcases List.mem_cons.mp hobserved' with rfl | hnext
      · exact Or.inr ⟨observed', by simp, watcher', hwatcher', rfl⟩
      · rcases ih hrest observed' hnext watcher' hwatcher' with heq | ⟨old, hold, watcher, hmem, heq⟩
        · exact Or.inl heq
        · exact Or.inr ⟨old, List.mem_cons_of_mem _ hold, watcher, hmem, heq⟩

theorem keeps_watch (uri : Lwm2mUri) {write : ServerWatcher → ServerWatcher}
    (h : memory.Live address) (hwrite : ∀ watcher, (write watcher).server = watcher.server) :
    Keeps memory (memory.watch uri address write) := by
  simp only [watch]
  split
  · rename_i observedList hfound
    refine keeps_observedList fun observed hobserved watcher hwatcher => ?_
    rcases getWatcher_servers hwrite hfound observed hobserved watcher hwatcher with
      heq | ⟨old, hold, watcher', hmem, heq⟩
    · exact Or.inr (heq ▸ h)
    · exact Or.inl (Or.inl ⟨old, hold, watcher', hmem, heq⟩)
  · refine keeps_observedList fun observed hobserved watcher hwatcher => ?_
    rcases List.mem_cons.mp hobserved with rfl | hold
    · obtain rfl := List.mem_singleton.mp hwatcher
      exact Or.inr (by rw [hwrite]; exact h)
    · exact Or.inl (Or.inl ⟨observed, hold, watcher, hwatcher, rfl⟩)

/-- The watchers of an entry point to live servers. -/
def WatchersLive (memory : ClientMemory) (watcherList : List ServerWatcher) : Prop :=
  ∀ watcher ∈ watcherList, memory.Live watcher.server

theorem cancelWatcher_live (mid : UInt16) (fromSessionH : Option Nat) :
    ∀ {watcherList : List ServerWatcher}, memory.WatchersLive watcherList →
      ∃ left, cancelWatcher memory mid fromSessionH watcherList = .ok left ∧
        ∀ rest ∈ left, memory.WatchersLive rest := by
  intro watcherList
  induction watcherList with
  | nil => exact fun _ => ⟨none, rfl, by simp⟩
  | cons watcher next ih =>
    intro h
    have hnext : memory.WatchersLive next := fun w hw => h w (List.mem_cons_of_mem _ hw)
    obtain ⟨left, hleft, hlive⟩ := ih hnext
    have hlater : ∀ rest ∈ left.map fun next => watcher :: next, memory.WatchersLive rest := by
      intro rest hrest
      obtain ⟨tail, htail, rfl⟩ := Option.map_eq_some_iff.mp hrest
      intro other hother
      rcases List.mem_cons.mp hother with rfl | hother
      · exact h _ (by simp)
      · exact hlive tail htail other hother
    obtain ⟨cell, -, -, huse⟩ := useServer_live (h watcher (by simp))
    simp only [cancelWatcher, huse, hleft]
    split
    · split
      · exact ⟨some next, rfl, by rintro rest ⟨⟩; exact hnext⟩
      · exact ⟨_, rfl, hlater⟩
    · exact ⟨_, rfl, hlater⟩

theorem cancelFrom_live (mid : UInt16) (fromSessionH : Option Nat) :
    ∀ {observedList : List ServerObserved},
      (∀ observed ∈ observedList, memory.WatchersLive observed.watcherList) →
      ∃ left, cancelFrom memory mid fromSessionH observedList = .ok left ∧
        ∀ observed ∈ left, memory.WatchersLive observed.watcherList := by
  intro observedList
  induction observedList with
  | nil => exact fun _ => ⟨[], rfl, by simp⟩
  | cons observed next ih =>
    intro h
    have hnext : ∀ other ∈ next, memory.WatchersLive other.watcherList :=
      fun other hother => h other (List.mem_cons_of_mem _ hother)
    obtain ⟨rest, hrest, hlive⟩ := ih hnext
    obtain ⟨left, hleft, hwatchers⟩ :=
      cancelWatcher_live mid fromSessionH (h observed (by simp))
    simp only [cancelFrom, hleft]
    split
    · rename_i heq
      cases heq
    · exact ⟨next, rfl, hnext⟩
    · rename_i watcherList heq
      cases heq
      refine ⟨_, rfl, fun other hother => ?_⟩
      rcases List.mem_cons.mp hother with rfl | hother
      · exact hwatchers _ rfl
      · exact hnext other hother
    · refine ⟨observed :: rest, by rw [hrest]; rfl, fun other hother => ?_⟩
      rcases List.mem_cons.mp hother with rfl | hother
      · exact h _ (by simp)
      · exact hlive other hother

theorem ReferencesLive.watchers (h : memory.ReferencesLive) :
    ∀ observed ∈ memory.observedList, memory.WatchersLive observed.watcherList :=
  fun observed hobserved watcher hwatcher =>
    h _ (Or.inl ⟨observed, hobserved, watcher, hwatcher, rfl⟩)

theorem observeCancel_live (h : memory.ReferencesLive) (mid : UInt16) (fromSessionH : Option Nat) :
    ∃ memory', memory.observeCancel mid fromSessionH = .ok memory' ∧ memory'.ReferencesLive := by
  obtain ⟨left, hleft, hlive⟩ := cancelFrom_live mid fromSessionH h.watchers
  refine ⟨{ memory with observedList := left }, by simp [observeCancel, hleft, Except.map], ?_⟩
  exact h.keeps (keeps_observedList fun observed hobserved watcher hwatcher =>
    Or.inr (hlive observed hobserved watcher hwatcher))

theorem cancelRequest_live (h : memory.ReferencesLive) (uri : Lwm2mUri) (cell : ServerCell) :
    ∃ memory', memory.cancelRequest uri cell = .ok memory' ∧ memory'.ReferencesLive := by
  simp only [cancelRequest]
  split
  · exact ⟨memory, rfl, h⟩
  · split
    · exact ⟨memory, rfl, h⟩
    · exact observeCancel_live h _ _

theorem observeClear_live (h : memory.ReferencesLive) (uri : Lwm2mUri) :
    (memory.observeClear uri).ReferencesLive :=
  h.keeps (keeps_observedList fun observed hobserved watcher hwatcher =>
    Or.inl (Or.inl ⟨observed, (List.mem_filter.mp hobserved).1, watcher, hwatcher, rfl⟩))

theorem notifyWatchers_live (notified : Nat → Option UInt16) :
    ∀ {watcherList : List ServerWatcher}, memory.WatchersLive watcherList →
      ∃ left, notifyWatchers memory notified watcherList = .ok left ∧
        memory.WatchersLive left := by
  intro watcherList
  induction watcherList with
  | nil => exact fun h => ⟨[], rfl, h⟩
  | cons watcher next ih =>
    intro h
    obtain ⟨left, hleft, hlive⟩ := ih fun w hw => h w (List.mem_cons_of_mem _ hw)
    have hcons : ∀ watcher' : ServerWatcher, watcher'.server = watcher.server →
        memory.WatchersLive (watcher' :: left) := by
      intro watcher' heq other hother
      rcases List.mem_cons.mp hother with rfl | hother
      · exact heq ▸ h watcher (by simp)
      · exact hlive other hother
    obtain ⟨cell, -, -, huse⟩ := useServer_live (h watcher (by simp))
    simp only [notifyWatchers, huse, hleft]
    split
    · exact ⟨_, rfl, hcons watcher rfl⟩
    · exact ⟨_, rfl, hcons _ rfl⟩

theorem notifyFrom_live (notified : Lwm2mUri → Nat → Option UInt16) :
    ∀ {observedList : List ServerObserved},
      (∀ observed ∈ observedList, memory.WatchersLive observed.watcherList) →
      ∃ left, notifyFrom memory notified observedList = .ok left ∧
        ∀ observed ∈ left, memory.WatchersLive observed.watcherList := by
  intro observedList
  induction observedList with
  | nil => exact fun h => ⟨[], rfl, h⟩
  | cons observed next ih =>
    intro h
    obtain ⟨left, hleft, hlive⟩ := ih fun other hother => h other (List.mem_cons_of_mem _ hother)
    obtain ⟨watcherList, hwatchers, hlive'⟩ :=
      notifyWatchers_live (notified observed.uri) (h observed (by simp))
    refine ⟨{ observed with watcherList } :: left, by
      simp [notifyFrom, hwatchers, hleft, Except.map], fun other hother => ?_⟩
    rcases List.mem_cons.mp hother with rfl | hother
    · exact hlive'
    · exact hlive other hother

theorem observeStep_live (h : memory.ReferencesLive) (notified : Lwm2mUri → Nat → Option UInt16) :
    ∃ memory', memory.observeStep notified = .ok memory' ∧ memory'.ReferencesLive := by
  obtain ⟨left, hleft, hlive⟩ := notifyFrom_live notified h.watchers
  refine ⟨{ memory with observedList := left }, by simp [observeStep, hleft, Except.map], ?_⟩
  exact h.keeps (keeps_observedList fun observed hobserved watcher hwatcher =>
    Or.inr (hlive observed hobserved watcher hwatcher))

/-! ## Runs -/

theorem lwm2mDeregister_eq {sent : UInt16 → Bool}
    (h : ∀ cell ∈ memory.serverList, deregistrationSends sent cell = false) :
    memory.lwm2mDeregister sent = memory := by
  have hfold : ∀ cells : List ServerCell,
      (∀ cell ∈ cells, deregistrationSends sent cell = false) →
        cells.foldl (registrationDeregister sent) memory = memory := by
    intro cells
    induction cells with
    | nil => exact fun _ => rfl
    | cons cell cells ih =>
      intro hcells
      rw [List.foldl_cons, registrationDeregister, hcells cell (by simp)]
      exact ih fun other hother => hcells other (List.mem_cons_of_mem _ hother)
  exact hfold _ h

theorem lwm2mClose_live {sent : UInt16 → Bool} (hnone : memory.transactionList = [])
    (h : ∀ cell ∈ memory.serverList, deregistrationSends sent cell = false)
    (input : CallbackInput) :
    ∃ memory', memory.lwm2mClose sent input = .ok memory' ∧ memory'.ReferencesLive := by
  simp only [lwm2mClose, lwm2mDeregister_eq h, hnone]
  refine ⟨_, rfl, fun address href => ?_⟩
  rcases href with ⟨observed, hobserved, -⟩ | ⟨transaction, htransaction, -⟩
  · cases hobserved
  · cases htransaction

theorem fromServer_live (h : memory.ReferencesLive) (fromSessionH : Nat)
    {handle : ServerCell → Except Fault ClientMemory}
    (hhandle : ∀ cell, memory.Live cell.address → ∃ memory', handle cell = .ok memory' ∧ memory'.ReferencesLive) :
    ∃ memory', memory.fromServer fromSessionH handle = .ok memory' ∧ memory'.ReferencesLive := by
  simp only [fromServer]
  split
  · exact ⟨memory, rfl, h⟩
  · rename_i cell hfind
    have hmem := List.mem_of_find?_eq_some hfind
    exact hhandle cell ⟨cell, List.mem_append_right _ hmem, rfl⟩

end ClientMemory

open ClientMemory

/-- The step lemma: an event that frees nothing something points to is carried out, and the
pointers stay live. -/
theorem memoryStep_live {memory : ClientMemory} {event : MemoryEvent}
    (h : memory.ReferencesLive) (hfrees : memory.FreesUnreferenced event) :
    ∃ memory' reply, memoryStep memory event = .ok (memory', reply) ∧
      memory'.ReferencesLive := by
  have hdone : ∀ {next : Except Fault ClientMemory},
      (∃ memory', next = .ok memory' ∧ memory'.ReferencesLive) →
        ∃ memory' reply, (next.map fun memory => (memory, ())) = .ok (memory', reply) ∧
          memory'.ReferencesLive := by
    rintro next ⟨memory', rfl, hlive⟩
    exact ⟨memory', (), rfl, hlive⟩
  have hkept : ∀ {memory'}, Keeps memory memory' →
      ∃ memory'', Except.ok (ε := Fault) memory' = .ok memory'' ∧ memory''.ReferencesLive :=
    fun hkeeps => ⟨_, rfl, h.keeps hkeeps⟩
  cases event with
  | getServers found => exact hdone (hkept (keeps_objectGetServers found memory))
  | tag tagged => exact hdone (hkept (keeps_tagServers memory tagged))
  | writeServers written => exact hdone (hkept (keeps_writeServers memory written))
  | refresh found => exact hdone ⟨_, rfl, prvRefreshServerList_live h hfrees found⟩
  | registrationStep currentTime env =>
    exact hdone (hkept (keeps_registrationStep memory currentTime env))
  | bootstrapStep currentTime requested =>
    exact hdone (hkept (keeps_bootstrapStep memory currentTime requested))
  | deregister sent => exact hdone (hkept (keeps_lwm2mDeregister memory sent))
  | transactionEnds id input => exact hdone (endTransaction_live h id input)
  | nextBlock id => exact hdone ⟨_, rfl, nextBlock_live h id⟩
  | observe fromSessionH uri mid =>
    exact hdone (fromServer_live h fromSessionH fun cell hlive =>
      hkept (keeps_watch uri hlive fun _ => rfl))
  | cancel fromSessionH uri =>
    exact hdone (fromServer_live h fromSessionH fun cell _ => cancelRequest_live h uri cell)
  | setParameters fromSessionH uri =>
    exact hdone (fromServer_live h fromSessionH fun cell hlive =>
      hkept (keeps_watch uri hlive fun _ => rfl))
  | reset fromSessionH mid => exact hdone (observeCancel_live h mid (some fromSessionH))
  | clear uri => exact hdone ⟨_, rfl, observeClear_live h uri⟩
  | observeStep notified => exact hdone (observeStep_live h notified)
  | close sent input => exact hdone (lwm2mClose_live hfrees.1 hfrees.2 input)

/-- From a state whose pointers are live, a run of events none of which frees a server that
something points to never follows a dangling pointer, and the pointers are live in every state
it reaches. -/
theorem memoryRun_referencesLive {memory : ClientMemory} (h : memory.ReferencesLive)
    {events : List MemoryEvent} (hmeet : StepsMeet memoryStep FreesUnreferenced memory events) :
    (∃ final replies, run memoryStep memory events = .ok (final, replies)) ∧
      EachReached memoryStep (fun _ memory => memory.ReferencesLive) [] memory events :=
  run_total_after (fun _ _ _ hinv hcond => memoryStep_live hinv hcond) events [] memory h
    (hmeet.after events [] memory)

/-- A server as `object_getServers` finds it. -/
def foundServer (secObjInstID : UInt16) : Lwm2mServer where
  secObjInstID
  shortID := 100 + secObjInstID
  lifetime := 300
  registration := 0
  sessionH := none
  status := .deregistered
  dirty := false

/-- The platform of the runs below: everything is sent. -/
def allSent : UInt16 → ServerEnv := fun _ =>
  { update := .sent, registerPayload := true, connect := some 7, registerSend := true }

/-- How the transactions of the runs below end. -/
def endsWith (code : Option CoapCode) : CallbackInput where
  now := 0
  packet := code.map fun code => { code, block1Num := none }
  locationPath := true
  attemptFailed := .regFailed
  restarted _ := none

/-- The server 1 is found and registers. -/
def registering : List MemoryEvent :=
  [.getServers [(false, foundServer 1)],
    .writeServers fun cell => { cell.server with status := .regHoldOff },
    .registrationStep 0 allSent,
    .transactionEnds 0 (endsWith (some .created201))]

/-- A client before its servers are looked up. -/
def withoutServers : ClientMemory where
  bootstrapServerList := []
  serverList := []
  observedList := []
  transactionList := []
  nextAddress := 0
  nextTransaction := 0

/-- The server observes `/3`. -/
def observing : MemoryEvent := .observe 7 ⟨3, lwm2mMaxId, lwm2mMaxId, lwm2mMaxId⟩ 5

/-- A server 2 is found, tagged and freed by a refresh, and server 1 is deregistered. -/
def deregistering : List MemoryEvent :=
  [.getServers [(false, foundServer 2)], .tag fun id => id == 2, .refresh [],
    .deregister fun _ => true, .transactionEnds 1 (endsWith (some .deleted202))]

/-- All of that, and the end. -/
def deregisteredBeforeClose : List MemoryEvent :=
  registering ++ observing :: deregistering ++ [.close (fun _ => true) (endsWith none)]

theorem withoutServers_live : withoutServers.ReferencesLive := by
  rintro address (⟨observed, hobserved, -⟩ | ⟨transaction, htransaction, -⟩)
  · cases hobserved
  · cases htransaction

theorem deregisteredBeforeClose_meets :
    StepsMeet memoryStep FreesUnreferenced withoutServers deregisteredBeforeClose := by
  refine .cons trivial rfl (.cons trivial rfl (.cons trivial rfl (.cons trivial rfl ?_)))
  refine .cons trivial rfl (.cons trivial rfl (.cons trivial rfl (.cons ?_ rfl ?_)))
  · intro cell hcell hdirty href
    rcases List.mem_cons.mp hcell with rfl | hcell
    · cases hdirty
    · obtain rfl := List.mem_singleton.mp hcell
      rcases href with ⟨observed, hobserved, watcher, hwatcher, heq⟩ | ⟨transaction, hmem, -⟩
      · obtain rfl := List.mem_singleton.mp hobserved
        obtain rfl := List.mem_singleton.mp hwatcher
        cases heq
      · cases hmem
  · refine .cons trivial rfl (.cons trivial rfl (.cons ⟨rfl, fun cell hcell => ?_⟩ rfl trivial))
    obtain rfl := List.mem_singleton.mp hcell
    rfl

/-- An observing server is deregistered before the end, and another one is freed. -/
theorem deregisteredBeforeClose_live :
    (∃ final replies,
        run memoryStep withoutServers deregisteredBeforeClose = .ok (final, replies)) ∧
      EachReached memoryStep (fun _ memory => memory.ReferencesLive) [] withoutServers
        deregisteredBeforeClose :=
  memoryRun_referencesLive withoutServers_live deregisteredBeforeClose_meets

/-- The end of a client that is registered: the callback of the deregistration follows the
pointer to the freed server. So does `observe_step` after a refresh has freed the observing
server, and the answer to a registration after a refresh has freed the registering one. -/
theorem freedServer_dereferenced :
    withoutServers.ReferencesLive ∧
    run memoryStep withoutServers (registering ++ [.close (fun _ => true) (endsWith none)]) =
      .error .useAfterFree ∧
    run memoryStep withoutServers (registering ++
        [observing, .tag fun _ => true, .refresh [], .observeStep fun _ _ => some 6]) =
      .error .useAfterFree ∧
    run memoryStep withoutServers (registering.take 3 ++
        [.tag fun _ => true, .refresh [], .transactionEnds 0 (endsWith (some .created201))]) =
      .error .useAfterFree :=
  ⟨withoutServers_live, rfl, rfl, rfl⟩

end Wakaama
