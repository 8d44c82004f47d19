import Wakaama.Core.ListRun
import Wakaama.Core.Proofs.SortedList
import Wakaama.Misc.Run

/-!
# Runs of list calls

Every call on a list that stands for a registry does to the list what it does to the registry, so
a run of calls does. The id that `lwm2m_list_newId` finds is the least one the registry leaves.
-/

namespace Wakaama

variable {α : Type} {id : α → UInt16} {head : List α} {held : UInt16 → Option α}

namespace ListHolds

theorem find (h : ListHolds id head held) (key : UInt16) :
    lwm2mListFind id key head = held key := by
  ext node
  rw [lwm2mListFind_eq_some_iff h.ascending, h.nodes]

theorem add (h : ListHolds id head held) {node : α} (hfresh : ∀ b ∈ head, id b ≠ id node) :
    ListHolds id (lwm2mListAdd id head node) (Function.update held (id node) (some node)) := by
  have hmem : ∀ b, b ∈ lwm2mListAdd id head node ↔ b = node ∨ b ∈ head := fun b => by
    rw [(lwm2mListAdd_perm head node).mem_iff, List.mem_cons]
  refine ⟨lwm2mListAdd_ascending h.ascending hfresh, fun key b => ?_⟩
  rw [hmem]
  by_cases hkey : key = id node
  · rw [hkey, Function.update_self, Option.some_inj]
    constructor
    · intro heq
      exact ⟨Or.inl heq.symm, congrArg id heq.symm⟩
    · rintro ⟨heq | hb, hid⟩
      · exact heq.symm
      · exact absurd hid (hfresh b hb)
  · rw [Function.update_of_ne hkey, h.nodes]
    constructor
    · intro ⟨hb, hid⟩
      exact ⟨Or.inr hb, hid⟩
    · rintro ⟨heq | hb, hid⟩
      · exact absurd (hid.symm.trans (congrArg id heq)) hkey
      · exact ⟨hb, hid⟩

theorem remove (h : ListHolds id head held) (key : UInt16) :
    ListHolds id (head.filter fun b => id b != key) (Function.update held key none) := by
  refine ⟨h.ascending.filter _, fun other b => ?_⟩
  rw [List.mem_filter, bne_iff_ne]
  by_cases hkey : other = key
  · rw [hkey, Function.update_self]
    constructor
    · nofun
    · intro ⟨⟨_, hne⟩, hid⟩
      exact absurd hid hne
  · rw [Function.update_of_ne hkey, h.nodes]
    constructor
    · intro ⟨hb, hid⟩
      exact ⟨⟨hb, fun heq => hkey (hid.symm.trans heq)⟩, hid⟩
    · intro ⟨⟨hb, _⟩, hid⟩
      exact ⟨hb, hid⟩

theorem step (h : ListHolds id head held) {call : ListCall α} (hfresh : call.Fresh id head) :
    ∃ head', listStep id head call = .ok (head', (registryStep id held call).2) ∧
      ListHolds id head' (registryStep id held call).1 := by
  cases call with
  | add node => exact ⟨_, rfl, h.add hfresh⟩
  | remove key =>
    have hremoved := lwm2mListRemove_eq h.ascending key
    rw [h.find] at hremoved
    exact ⟨_, congrArg Except.ok hremoved, h.remove key⟩
  | find key => exact ⟨head, by rw [listStep, h.find]; rfl, h⟩

theorem run (h : ListHolds id head held) {calls : List (ListCall α)}
    (hfresh : StepsMeet (listStep id) (ListCall.Fresh id) head calls) :
    ∃ final, run (listStep id) head calls = .ok (final, (registryRun id held calls).2) ∧
      ListHolds id final (registryRun id held calls).1 := by
  induction calls generalizing head held with
  | nil => exact ⟨head, rfl, h⟩
  | cons call calls ih =>
    obtain ⟨head', hstep, hholds⟩ := h.step hfresh.1
    obtain ⟨final, hrun, hfinal⟩ := ih hholds (hfresh.2 head' _ hstep)
    refine ⟨final, ?_, hfinal⟩
    rw [run_cons_ok hstep, hrun]
    rfl

end ListHolds

/-- Every id below the one that `lwm2m_list_newId` stops at is in use, whatever the order. -/
theorem newIdFrom_least {key : UInt16} (candidate : UInt16) (hlow : candidate ≤ key)
    (h : key < newIdFrom id candidate head) : ∃ b ∈ head, id b = key := by
  induction head generalizing candidate with
  | nil => exact absurd h (by simpa [newIdFrom] using hlow)
  | cons first next ih =>
    by_cases heq : candidate = id first
    · simp only [newIdFrom, if_pos heq] at h
      by_cases hkey : id first = key
      · exact ⟨first, List.mem_cons_self .., hkey⟩
      · have habove : id first < key := uint16_lt_of_le_of_ne (heq ▸ hlow) hkey
        have hnext : id first + 1 ≤ key := by
          have hbound := key.toNat_lt
          rw [UInt16.lt_iff_toNat_lt] at habove
          rw [UInt16.le_iff_toNat_le, UInt16.toNat_add, UInt16.toNat_one]
          omega
        obtain ⟨b, hb, hid⟩ := ih (id first + 1) hnext h
        exact ⟨b, List.mem_cons_of_mem _ hb, hid⟩
    · simp only [newIdFrom, if_neg heq] at h
      exact absurd h (by simpa using hlow)

theorem ListHolds.newId (h : ListHolds id head held) (hfree : ∃ key, held key = none) :
    held (lwm2mListNewId id head) = none ∧
      ∀ key, key < lwm2mListNewId id head → held key ≠ none := by
  have hunused : ∀ key, held key = none ↔ ∀ b ∈ head, id b ≠ key := fun key => by
    rw [← h.find, lwm2mListFind_eq_none_iff h.ascending]
  constructor
  · obtain ⟨key, hkey⟩ := hfree
    exact (hunused _).mpr (lwm2mListNewId_fresh h.ascending ⟨key, (hunused key).mp hkey⟩)
  · intro key hkey hnone
    obtain ⟨b, hb, hid⟩ := newIdFrom_least 0 UInt16.zero_le hkey
    exact (hunused key).mp hnone b hb hid

/-- After any calls on a list that is empty first, where the nodes that are added have unused ids:
the list is ascending and holds what was added and not removed, every call has reported the node
with its id, if there was one, and `lwm2m_list_newId` returns the least unused id. -/
theorem listRun_holds (id : α → UInt16) (calls : List (ListCall α))
    (hfresh : StepsMeet (listStep id) (ListCall.Fresh id) [] calls) :
    ∃ final, run (listStep id) [] calls = .ok (final, (registryRun id (fun _ => none) calls).2) ∧
      ListHolds id final (registryRun id (fun _ => none) calls).1 ∧
      ((∃ key, (registryRun id (fun _ => none) calls).1 key = none) →
        (registryRun id (fun _ => none) calls).1 (lwm2mListNewId id final) = none ∧
          ∀ key, key < lwm2mListNewId id final →
            (registryRun id (fun _ => none) calls).1 key ≠ none) := by
  have hempty : ListHolds id ([] : List α) fun _ => none :=
    ⟨List.Pairwise.nil, fun _ _ => ⟨nofun, fun h => absurd h.1 List.not_mem_nil⟩⟩
  obtain ⟨final, hrun, hholds⟩ := hempty.run hfresh
  exact ⟨final, hrun, hholds, hholds.newId⟩

/-- Two nodes are added, the one in front is found, and the other one is removed. -/
theorem listRun_threeCalls :
    ∃ final, run (listStep fun node : UInt16 => node) []
        [.add 5, .add 0, .find 0, .remove 5] = .ok (final, [none, none, some 0, some 5]) ∧
      lwm2mListNewId (fun node => node) final = 1 := by
  have hfresh : StepsMeet (listStep fun node : UInt16 => node)
      (ListCall.Fresh fun node => node) [] [.add 5, .add 0, .find 0, .remove 5] := by
    refine .cons nofun rfl (.cons ?_ rfl (.cons trivial rfl (.cons trivial rfl trivial)))
    intro b hb
    rw [List.mem_singleton.mp hb]
    decide
  obtain ⟨final, hrun, -, -⟩ := listRun_holds (fun node : UInt16 => node) _ hfresh
  refine ⟨final, hrun, ?_⟩
  obtain ⟨rfl, -⟩ := Prod.mk.inj (Except.ok.inj hrun)
  rfl

end Wakaama
