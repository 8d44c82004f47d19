import Wakaama.Core.List
import Mathlib.Data.List.Basic
import Mathlib.Data.List.Pairwise
import Mathlib.Data.List.Perm.Basic
import Mathlib.Data.Fintype.Card

/-!
# What the sorted-list operations do

On a strictly ascending list each operation of `core/list.c` is the corresponding operation
on the set of its nodes, and keeps the list strictly ascending.
-/

namespace Wakaama

variable {α : Type} {id : α → UInt16}

/-- The list is strictly ascending in the ids. -/
def Ascending (id : α → UInt16) (head : List α) : Prop :=
  head.Pairwise fun a b => id a < id b

theorem ascending_nil : Ascending id [] := List.Pairwise.nil

variable {node : α} {key : UInt16} {head : List α}

theorem ascending_cons {next : List α} :
    Ascending id (node :: next) ↔ (∀ b ∈ next, id node < id b) ∧ Ascending id next :=
  List.pairwise_cons

theorem uint16_le_of_not_lt {a b : UInt16} (h : ¬ a < b) : b ≤ a := by
  simpa [UInt16.not_lt] using h

theorem uint16_lt_of_le_of_ne {a b : UInt16} (h : a ≤ b) (hne : a ≠ b) : a < b := by
  rw [UInt16.le_iff_toNat_le] at h
  rw [UInt16.lt_iff_toNat_lt]
  rw [ne_eq, ← UInt16.toNat_inj] at hne
  omega

theorem uint16_lt_irrefl (a : UInt16) : ¬ a < a := by simp

theorem lwm2mListFind_id (h : lwm2mListFind id key head = some node) : id node = key := by
  induction head with
  | nil => simp [lwm2mListFind] at h
  | cons first next ih =>
    simp only [lwm2mListFind] at h
    split at h
    · exact ih h
    · split at h
      · rename_i heq
        exact Option.some.inj h ▸ heq
      · simp at h

theorem lwm2mListFind_mem (h : lwm2mListFind id key head = some node) : node ∈ head := by
  induction head with
  | nil => exact nomatch h
  | cons first next ih =>
    simp only [lwm2mListFind] at h
    split at h
    · exact List.mem_cons_of_mem _ (ih h)
    · split at h
      · cases h
        exact List.mem_cons_self
      · cases h

theorem lwm2mListFind_eq_some_iff (hasc : Ascending id head) :
    lwm2mListFind id key head = some node ↔ node ∈ head ∧ id node = key := by
  induction head with
  | nil => simp [lwm2mListFind]
  | cons first next ih =>
    obtain ⟨hlt, hnext⟩ := ascending_cons.mp hasc
    by_cases hless : id first < key
    · simp only [lwm2mListFind, if_pos hless, ih hnext, List.mem_cons]
      constructor
      · rintro ⟨hmem, hid⟩
        exact ⟨Or.inr hmem, hid⟩
      · rintro ⟨rfl | hmem, hid⟩
        · exact absurd (hid ▸ hless) (uint16_lt_irrefl _)
        · exact ⟨hmem, hid⟩
    · by_cases heq : id first = key
      · simp only [lwm2mListFind, if_neg hless, if_pos heq, Option.some.injEq, List.mem_cons]
        constructor
        · rintro rfl
          exact ⟨Or.inl rfl, heq⟩
        · rintro ⟨rfl | hmem, hid⟩
          · rfl
          · exact absurd (hid ▸ heq ▸ hlt node hmem) (uint16_lt_irrefl _)
      · simp only [lwm2mListFind, if_neg hless, if_neg heq, List.mem_cons, reduceCtorEq,
          false_iff, not_and]
        rintro (rfl | hmem) hid
        · exact heq hid
        · have hlow : key < id first :=
            uint16_lt_of_le_of_ne (uint16_le_of_not_lt hless) (Ne.symm heq)
          have := hlt node hmem
          rw [UInt16.lt_iff_toNat_lt] at this hlow
          rw [hid] at this
          omega

theorem lwm2mListFind_eq_none_iff (hasc : Ascending id head) :
    lwm2mListFind id key head = none ↔ ∀ node ∈ head, id node ≠ key := by
  constructor
  · intro hnone node hmem hid
    have := (lwm2mListFind_eq_some_iff hasc).mpr ⟨hmem, hid⟩
    simp [hnone] at this
  · intro hall
    cases hfind : lwm2mListFind id key head with
    | none => rfl
    | some node =>
      obtain ⟨hmem, hid⟩ := (lwm2mListFind_eq_some_iff hasc).mp hfind
      exact absurd hid (hall node hmem)

theorem listInsert_perm (node : α) (head : List α) :
    (listInsert id node head).Perm (node :: head) := by
  induction head with
  | nil => rfl
  | cons first next ih =>
    by_cases hless : id first < id node
    · simp only [listInsert, if_pos hless]
      exact (ih.cons first).trans (List.Perm.swap node first next)
    · simp only [listInsert, if_neg hless]
      rfl

theorem lwm2mListAdd_perm (head : List α) (node : α) :
    (lwm2mListAdd id head node).Perm (node :: head) := by
  cases head with
  | nil => rfl
  | cons first next =>
    by_cases hless : id node < id first
    · simp [lwm2mListAdd, hless]
    · simp only [lwm2mListAdd, if_neg hless]
      exact ((listInsert_perm node next).cons first).trans (List.Perm.swap node first next)

theorem listInsert_ascending (hasc : Ascending id head) (hfresh : ∀ b ∈ head, id b ≠ id node) :
    Ascending id (listInsert id node head) := by
  induction head with
  | nil => exact ascending_cons.mpr ⟨by simp, ascending_nil⟩
  | cons first next ih =>
    obtain ⟨hlt, hnext⟩ := ascending_cons.mp hasc
    by_cases hless : id first < id node
    · simp only [listInsert, if_pos hless]
      refine ascending_cons.mpr ⟨?_, ih hnext fun b hb => hfresh b (List.mem_cons_of_mem _ hb)⟩
      intro b hb
      rcases List.mem_cons.mp ((listInsert_perm node next).mem_iff.mp hb) with rfl | hb
      · exact hless
      · exact hlt b hb
    · have hfirst : id node < id first :=
        uint16_lt_of_le_of_ne (uint16_le_of_not_lt hless) (hfresh first (by simp)).symm
      simp only [listInsert, if_neg hless]
      refine ascending_cons.mpr ⟨?_, hasc⟩
      intro b hb
      rcases List.mem_cons.mp hb with rfl | hb
      · exact hfirst
      · have := hlt b hb
        rw [UInt16.lt_iff_toNat_lt] at *
        omega

theorem lwm2mListAdd_ascending (hasc : Ascending id head) (hfresh : ∀ b ∈ head, id b ≠ id node) :
    Ascending id (lwm2mListAdd id head node) := by
  cases head with
  | nil => exact ascending_cons.mpr ⟨by simp, ascending_nil⟩
  | cons first next =>
    obtain ⟨hlt, hnext⟩ := ascending_cons.mp hasc
    by_cases hless : id node < id first
    · simp only [lwm2mListAdd, if_pos hless]
      refine ascending_cons.mpr ⟨?_, hasc⟩
      intro b hb
      rcases List.mem_cons.mp hb with rfl | hb
      · exact hless
      · have := hlt b hb
        rw [UInt16.lt_iff_toNat_lt] at *
        omega
    · have hfirst : id first < id node :=
        uint16_lt_of_le_of_ne (uint16_le_of_not_lt hless) (hfresh first (by simp))
      simp only [lwm2mListAdd, if_neg hless]
      refine ascending_cons.mpr
        ⟨?_, listInsert_ascending hnext fun b hb => hfresh b (List.mem_cons_of_mem _ hb)⟩
      intro b hb
      rcases List.mem_cons.mp ((listInsert_perm node next).mem_iff.mp hb) with rfl | hb
      · exact hfirst
      · exact hlt b hb

/-- The loop of `lwm2m_list_newId` stops at an unused id, unless every id from the candidate
on is taken. -/
theorem newIdFrom_spec (hasc : Ascending id head) (candidate : UInt16)
    (hlow : ∀ b ∈ head, candidate ≤ id b) :
    (candidate ≤ newIdFrom id candidate head ∧ ∀ b ∈ head, id b ≠ newIdFrom id candidate head) ∨
      ∀ key, candidate ≤ key → ∃ b ∈ head, id b = key := by
  induction head generalizing candidate with
  | nil => exact Or.inl (by simp [newIdFrom])
  | cons first next ih =>
    obtain ⟨hlt, hnext⟩ := ascending_cons.mp hasc
    by_cases heq : candidate = id first
    · subst heq
      by_cases hmax : id first = 65535
      · -- the head has the largest id, so it is the last node and the increment wraps to 0
        right
        intro key hkey
        refine ⟨first, by simp, ?_⟩
        rw [UInt16.le_iff_toNat_le] at hkey
        rw [← UInt16.toNat_inj]
        have hbound := key.toNat_lt
        have hval : (id first).toNat = 65535 := by rw [hmax]; rfl
        omega
      · have hsucc : (id first + 1).toNat = (id first).toNat + 1 := by
          have hbound := (id first).toNat_lt
          have hne : (id first).toNat ≠ 65535 := fun h =>
            hmax (UInt16.toNat_inj.mp (h.trans (by rfl)))
          rw [UInt16.toNat_add, UInt16.toNat_one]
          omega
        have hup : ∀ b ∈ next, id first + 1 ≤ id b := by
          intro b hb
          have := hlt b hb
          rw [UInt16.lt_iff_toNat_lt] at this
          rw [UInt16.le_iff_toNat_le, hsucc]
          omega
        simp only [newIdFrom, if_true]
        rcases ih hnext (id first + 1) hup with ⟨hle, hfresh⟩ | hfull
        · rw [UInt16.le_iff_toNat_le, hsucc] at hle
          refine Or.inl ⟨by rw [UInt16.le_iff_toNat_le]; omega, fun b hb => ?_⟩
          rcases List.mem_cons.mp hb with rfl | hb
          · intro hid
            rw [← hid] at hle
            omega
          · exact hfresh b hb
        · refine Or.inr fun key hkey => ?_
          by_cases hkeyeq : id first = key
          · exact ⟨first, by simp, hkeyeq⟩
          · have hkey' := uint16_lt_of_le_of_ne hkey hkeyeq
            obtain ⟨b, hb, hid⟩ := hfull key (by
              rw [UInt16.lt_iff_toNat_lt] at hkey'
              rw [UInt16.le_iff_toNat_le, hsucc]
              omega)
            exact ⟨b, List.mem_cons_of_mem _ hb, hid⟩
    · left
      simp only [newIdFrom, if_neg heq]
      refine ⟨UInt16.le_refl _, fun b hb hid => ?_⟩
      rcases List.mem_cons.mp hb with rfl | hb'
      · exact heq hid.symm
      · have h1 := hlt b hb'
        have h2 := hlow first (by simp)
        rw [UInt16.lt_iff_toNat_lt] at h1
        rw [UInt16.le_iff_toNat_le] at h2
        rw [← UInt16.toNat_inj] at hid
        have : candidate.toNat ≠ (id first).toNat := fun h => heq (UInt16.toNat_inj.mp h)
        omega

theorem lwm2mListNewId_fresh (hasc : Ascending id head) (hfree : ∃ key, ∀ b ∈ head, id b ≠ key) :
    ∀ b ∈ head, id b ≠ lwm2mListNewId id head := by
  rcases newIdFrom_spec hasc 0 (fun b _ => UInt16.zero_le) with ⟨-, hfresh⟩ | hfull
  · exact hfresh
  · obtain ⟨key, hkey⟩ := hfree
    obtain ⟨b, hb, hid⟩ := hfull key UInt16.zero_le
    exact absurd hid (hkey b hb)

theorem listUnlink_subset (id : α → UInt16) (key : UInt16) (head : List α) :
    ∀ node ∈ (listUnlink id key head).1, node ∈ head := by
  induction head with
  | nil => exact fun _ hmem => hmem
  | cons target next ih =>
    intro node hmem
    unfold listUnlink at hmem
    split at hmem
    · rcases List.mem_cons.mp hmem with rfl | hmem
      · exact List.mem_cons_self
      · exact List.mem_cons_of_mem target (ih node hmem)
    · split at hmem
      · exact List.mem_cons_of_mem target hmem
      · exact hmem

theorem lwm2mListRemove_subset (id : α → UInt16) (key : UInt16) (head : List α) :
    ∀ node ∈ (lwm2mListRemove id key head).1, node ∈ head := by
  intro node hmem
  unfold lwm2mListRemove at hmem
  split at hmem
  · exact hmem
  · rename_i first next
    split at hmem
    · exact List.mem_cons_of_mem first hmem
    · rcases List.mem_cons.mp hmem with rfl | hmem
      · exact List.mem_cons_self
      · exact List.mem_cons_of_mem first (listUnlink_subset id key next node hmem)

theorem listUnlink_first (before after : List α) (hlow : ∀ b ∈ before, id b < id node) :
    listUnlink id (id node) (before ++ node :: after) = (before ++ after, some node) := by
  induction before with
  | nil => simp [listUnlink]
  | cons first before ih =>
    have hfirst := hlow first (by simp)
    have hrest := ih fun b hb => hlow b (List.mem_cons_of_mem _ hb)
    simp [listUnlink, hfirst, hrest]

theorem lwm2mListRemove_first {before after : List α} {node : α}
    (hlow : ∀ b ∈ before, id b < id node) :
    lwm2mListRemove id (id node) (before ++ node :: after) = (before ++ after, some node) := by
  cases before with
  | nil => simp [lwm2mListRemove]
  | cons first before =>
    have hfirst : id first ≠ id node := by
      intro heq
      have hlt := hlow first (by simp)
      rw [heq] at hlt
      exact uint16_lt_irrefl _ hlt
    have hrest := listUnlink_first before after fun b hb => hlow b (List.mem_cons_of_mem first hb)
    simp [lwm2mListRemove, hfirst, hrest]

theorem listUnlink_eq (hasc : Ascending id head) (key : UInt16) :
    listUnlink id key head =
      (head.filter fun b => id b != key, lwm2mListFind id key head) := by
  induction head with
  | nil => rfl
  | cons first next ih =>
    obtain ⟨hlt, hnext⟩ := ascending_cons.mp hasc
    have hkeep : ∀ bound : UInt16, key ≤ bound → (∀ b ∈ next, bound < id b) →
        (next.filter fun b => id b != key) = next := by
      intro bound hle hgt
      refine List.filter_eq_self.mpr fun b hb => ?_
      have := hgt b hb
      rw [UInt16.lt_iff_toNat_lt] at this
      rw [UInt16.le_iff_toNat_le] at hle
      simp only [bne_iff_ne, ne_eq, ← UInt16.toNat_inj]
      omega
    by_cases hless : id first < key
    · have hne : id first ≠ key := by
        rintro rfl
        exact uint16_lt_irrefl _ hless
      simp [listUnlink, lwm2mListFind, hless, hne, ih hnext]
    · by_cases heq : id first = key
      · subst heq
        simp [listUnlink, lwm2mListFind, hkeep (id first) (UInt16.le_refl _) hlt]
      · simp [listUnlink, lwm2mListFind, hless, heq,
          hkeep (id first) (uint16_le_of_not_lt hless) hlt]

theorem lwm2mListRemove_eq (hasc : Ascending id head) (key : UInt16) :
    lwm2mListRemove id key head =
      (head.filter fun b => id b != key, lwm2mListFind id key head) := by
  cases head with
  | nil => rfl
  | cons first next =>
    obtain ⟨hlt, hnext⟩ := ascending_cons.mp hasc
    have hunlink := listUnlink_eq hasc key
    by_cases heq : id first = key
    · simpa [lwm2mListRemove, heq, listUnlink] using hunlink
    · by_cases hless : id first < key
      · simpa [lwm2mListRemove, heq, listUnlink, hless] using hunlink
      · have hlow : key < id first :=
          uint16_lt_of_le_of_ne (uint16_le_of_not_lt hless) (Ne.symm heq)
        have habsent : ∀ b ∈ next, id b ≠ key := by
          intro b hb hid
          have hgt := hlt b hb
          rw [UInt16.lt_iff_toNat_lt] at hlow hgt
          rw [hid] at hgt
          omega
        have hnone : lwm2mListFind id key next = none :=
          (lwm2mListFind_eq_none_iff hnext).mpr habsent
        have hkeep : (next.filter fun b => id b != key) = next :=
          List.filter_eq_self.mpr fun b hb => by simpa using habsent b hb
        simp [lwm2mListRemove, lwm2mListFind, listUnlink_eq hnext key, heq, hless, hnone, hkeep]

theorem lwm2mListAdd_remove (hasc : Ascending id head) (node : α) :
    Ascending id (lwm2mListAdd id (lwm2mListRemove id (id node) head).1 node) ∧
      ∀ key, lwm2mListFind id key (lwm2mListAdd id (lwm2mListRemove id (id node) head).1 node) =
        if key = id node then some node else lwm2mListFind id key head := by
  rw [lwm2mListRemove_eq hasc]
  have hrest : Ascending id (head.filter fun b => id b != id node) := hasc.filter _
  have hfresh : ∀ b ∈ head.filter fun b => id b != id node, id b ≠ id node :=
    fun b hb => by simpa using (List.mem_filter.mp hb).2
  have hasc' := lwm2mListAdd_ascending hrest hfresh
  refine ⟨hasc', fun key => ?_⟩
  have hmem : ∀ b, b ∈ lwm2mListAdd id (head.filter fun b => id b != id node) node ↔
      b = node ∨ b ∈ head ∧ id b ≠ id node := by
    intro b
    rw [(lwm2mListAdd_perm _ node).mem_iff]
    simp
  ext found
  rw [lwm2mListFind_eq_some_iff hasc', hmem]
  by_cases hkey : key = id node
  · simp only [hkey, if_true, Option.some.injEq]
    constructor
    · rintro ⟨rfl | ⟨-, hne⟩, hid⟩
      · rfl
      · exact absurd hid hne
    · rintro rfl
      exact ⟨Or.inl rfl, rfl⟩
  · simp only [if_neg hkey, lwm2mListFind_eq_some_iff hasc]
    constructor
    · rintro ⟨rfl | ⟨hb, -⟩, hid⟩
      · exact absurd hid.symm hkey
      · exact ⟨hb, hid⟩
    · rintro ⟨hb, hid⟩
      exact ⟨Or.inr ⟨hb, fun heq => hkey (hid.symm.trans heq)⟩, hid⟩

end Wakaama
