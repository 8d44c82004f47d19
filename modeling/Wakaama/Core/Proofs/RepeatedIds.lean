import Wakaama.Core.Proofs.SortedList

/-!
# Sorted lists in which an id may repeat

What the operations of `core/list.c` do on a list that is ascending, but not strictly: a look-up
finds the ids, a node is added in order, and the node that is unlinked is the first one with the id.
-/

namespace Wakaama

variable {α : Type} {id : α → UInt16}

/-- The ids do not descend. -/
def NonDescending (id : α → UInt16) (head : List α) : Prop :=
  head.Pairwise fun a b => id a ≤ id b

theorem nonDescending_cons {node : α} {next : List α} :
    NonDescending id (node :: next) ↔ (∀ b ∈ next, id node ≤ id b) ∧ NonDescending id next :=
  List.pairwise_cons

theorem lwm2mListFind_none_iff {head : List α} (hasc : NonDescending id head) {key : UInt16} :
    lwm2mListFind id key head = none ↔ ∀ node ∈ head, id node ≠ key := by
  induction head with
  | nil => simp [lwm2mListFind]
  | cons first next ih =>
    obtain ⟨hle, hnext⟩ := nonDescending_cons.1 hasc
    rw [lwm2mListFind]
    by_cases hless : id first < key
    · have hne : id first ≠ key := by
        intro heq
        rw [heq] at hless
        exact uint16_lt_irrefl _ hless
      rw [if_pos hless, ih hnext, List.forall_mem_cons]
      exact (and_iff_right hne).symm
    · rw [if_neg hless]
      by_cases heq : id first = key
      · rw [if_pos heq]
        exact iff_of_false (Option.some_ne_none _) fun hall => hall first (List.mem_cons_self ..) heq
      · rw [if_neg heq]
        have hlow : key < id first :=
          uint16_lt_of_le_of_ne (uint16_le_of_not_lt hless) (Ne.symm heq)
        refine iff_of_true rfl ?_
        intro node hnode hid
        have hfirst : id first ≤ id node := by
          rcases List.mem_cons.1 hnode with rfl | hmem
          · exact UInt16.le_refl _
          · exact hle node hmem
        rw [hid] at hfirst
        rw [UInt16.lt_iff_toNat_lt] at hlow
        rw [UInt16.le_iff_toNat_le] at hfirst
        omega

theorem listInsert_nonDescending {node : α} {head : List α} (hasc : NonDescending id head) :
    NonDescending id (listInsert id node head) := by
  induction head with
  | nil => exact nonDescending_cons.2 ⟨nofun, .nil⟩
  | cons first next ih =>
    obtain ⟨hle, hnext⟩ := nonDescending_cons.1 hasc
    by_cases hless : id first < id node
    · rw [listInsert, if_pos hless]
      refine nonDescending_cons.2 ⟨?_, ih hnext⟩
      intro b hb
      rcases List.mem_cons.1 ((listInsert_perm node next).mem_iff.1 hb) with rfl | hb
      · exact UInt16.le_of_lt hless
      · exact hle b hb
    · have hfirst := uint16_le_of_not_lt hless
      rw [listInsert, if_neg hless]
      refine nonDescending_cons.2 ⟨?_, hasc⟩
      intro b hb
      rcases List.mem_cons.1 hb with rfl | hb
      · exact hfirst
      · exact UInt16.le_trans hfirst (hle b hb)

theorem lwm2mListAdd_nonDescending {node : α} {head : List α} (hasc : NonDescending id head) :
    NonDescending id (lwm2mListAdd id head node) := by
  cases head with
  | nil => exact nonDescending_cons.2 ⟨nofun, .nil⟩
  | cons first next =>
    obtain ⟨hle, hnext⟩ := nonDescending_cons.1 hasc
    by_cases hless : id node < id first
    · rw [lwm2mListAdd, if_pos hless]
      refine nonDescending_cons.2 ⟨?_, hasc⟩
      intro b hb
      rcases List.mem_cons.1 hb with rfl | hb
      · exact UInt16.le_of_lt hless
      · exact UInt16.le_trans (UInt16.le_of_lt hless) (hle b hb)
    · rw [lwm2mListAdd, if_neg hless]
      refine nonDescending_cons.2 ⟨?_, listInsert_nonDescending hnext⟩
      intro b hb
      rcases List.mem_cons.1 ((listInsert_perm node next).mem_iff.1 hb) with rfl | hb
      · exact uint16_le_of_not_lt hless
      · exact hle b hb

theorem split_first {head : List α} (hasc : NonDescending id head) {node : α}
    (hnode : node ∈ head) :
    ∃ before first after, head = before ++ first :: after ∧ id first = id node ∧
      ∀ b ∈ before, id b < id node := by
  induction head with
  | nil => exact nomatch hnode
  | cons top next ih =>
    obtain ⟨hle, hnext⟩ := nonDescending_cons.1 hasc
    by_cases heq : id top = id node
    · exact ⟨[], top, next, rfl, heq, nofun⟩
    · have hmem : node ∈ next := by
        rcases List.mem_cons.1 hnode with rfl | hmem
        · exact absurd rfl heq
        · exact hmem
      obtain ⟨before, first, after, rfl, hid, hlow⟩ := ih hnext hmem
      refine ⟨top :: before, first, after, rfl, hid, ?_⟩
      intro b hb
      rcases List.mem_cons.1 hb with rfl | hb
      · exact uint16_lt_of_le_of_ne (hle node hmem) heq
      · exact hlow b hb

end Wakaama
