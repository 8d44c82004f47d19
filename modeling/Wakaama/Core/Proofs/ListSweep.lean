import Wakaama.Core.ListSweep
import Wakaama.Core.Proofs.RepeatedIds

/-!
# What a loop that frees nodes leaves of a list

Each node is removed by its id: it is the right one exactly where no node that is kept stands in
front of it with the same id. Otherwise another node is unlinked, and the one that is freed stays
in the list.
-/

namespace Wakaama

variable {α : Type} {marks : NodeMarks α}

/-- No node of the list is freed, and the list is in the order of the ids. -/
structure NodeMarks.Linked (marks : NodeMarks α) (head : List α) : Prop where
  live : ∀ node ∈ head, marks.freed node = false
  ordered : NonDescending marks.id head

variable {head rest before : List α} {node : α}

theorem NodeMarks.Linked.sublist (h : marks.Linked head) (hsub : rest.Sublist head) :
    marks.Linked rest :=
  ⟨fun node hnode => h.live node (hsub.subset hnode), List.Pairwise.sublist hsub h.ordered⟩

def NodeMarks.HasFreed (marks : NodeMarks α) (head : List α) : Prop :=
  ∃ node ∈ head, marks.freed node = true

theorem NodeMarks.Linked.not_hasFreed (h : marks.Linked head) : ¬ marks.HasFreed head := by
  intro hfreed
  obtain ⟨node, hnode, hfree⟩ := hfreed
  rw [h.live node hnode] at hfree
  cases hfree

theorem NodeMarks.HasFreed.tail {next : List α} (h : marks.HasFreed (node :: next))
    (hlive : marks.freed node = false) : marks.HasFreed next := by
  obtain ⟨other, hother, hfree⟩ := h
  rcases List.mem_cons.1 hother with rfl | hmem
  · rw [hlive] at hfree
    cases hfree
  · exact ⟨other, hmem, hfree⟩

theorem NodeMarks.HasFreed.mono (h : marks.HasFreed head) (hsub : head ⊆ rest) :
    marks.HasFreed rest := by
  obtain ⟨node, hnode, hfree⟩ := h
  exact ⟨node, hsub hnode, hfree⟩

theorem NodeMarks.walkReadsFreed_live (key : UInt16) {nodes : List α}
    (hlive : ∀ node ∈ nodes, marks.freed node = false) :
    marks.walkReadsFreed key nodes = false := by
  induction nodes with
  | nil => rfl
  | cons target next ih =>
    have hnext := ih fun node hnode => hlive node (List.mem_cons_of_mem _ hnode)
    rw [walkReadsFreed, hlive target (List.mem_cons_self ..), hnext, Bool.and_false]
    rfl

theorem NodeMarks.removeReadsFreed_live (key : UInt16) {nodes : List α}
    (hlive : ∀ node ∈ nodes, marks.freed node = false) :
    marks.removeReadsFreed key nodes = false := by
  cases nodes with
  | nil => rfl
  | cons head next =>
    have hnext := walkReadsFreed_live key fun node hnode =>
      hlive node (List.mem_cons_of_mem _ hnode)
    rw [removeReadsFreed, hlive head (List.mem_cons_self ..), hnext, Bool.and_false]
    rfl

theorem NodeMarks.remove_own (h : marks.Linked before)
    (hlow : ∀ other ∈ before, marks.id other < marks.id node) :
    marks.remove before node = .ok before := by
  have hremoved := @lwm2mListRemove_first _ marks.id before [] (marks.free node)
    (by rw [marks.id_free]; exact hlow)
  rw [marks.id_free] at hremoved
  rw [remove, removeReadsFreed_live _ h.live, if_neg nofun]
  refine congrArg Except.ok ?_
  exact (congrArg Prod.fst hremoved).trans (List.append_nil _)

theorem NodeMarks.remove_other (h : marks.Linked before)
    (hsame : ∃ other ∈ before, marks.id other = marks.id node) :
    ∃ rest, marks.remove before node = .ok rest ∧ marks.HasFreed rest := by
  obtain ⟨other, hother, hid⟩ := hsame
  obtain ⟨front, first, after, rfl, hfirst, hlow⟩ := split_first h.ordered hother
  have hremoved := @lwm2mListRemove_first _ marks.id front (after ++ [marks.free node]) first
    (fun b hb => by rw [hfirst]; exact hlow b hb)
  refine ⟨front ++ (after ++ [marks.free node]), ?_, marks.free node, by simp,
    marks.freed_free node⟩
  rw [remove, removeReadsFreed_live _ h.live, if_neg nofun, ← hid, ← hfirst]
  refine congrArg Except.ok ?_
  rw [List.append_assoc, List.cons_append, hremoved]

theorem NodeMarks.listUnlink_freed {key : UInt16} (hread : marks.walkReadsFreed key before = false)
    (hfreed : marks.HasFreed before) (tail : List α) :
    marks.HasFreed (listUnlink marks.id key (before ++ tail)).1 := by
  induction before with
  | nil => exact absurd hfreed (by simp [HasFreed])
  | cons target next ih =>
    rw [walkReadsFreed, Bool.or_eq_false_iff] at hread
    obtain ⟨hlive, hwalk⟩ := hread
    have hnext := hfreed.tail hlive
    rw [List.cons_append, listUnlink]
    by_cases hless : marks.id target < key
    · rw [decide_eq_true hless, Bool.true_and] at hwalk
      rw [if_pos hless]
      exact (ih hwalk hnext).mono (List.subset_cons_self ..)
    · rw [if_neg hless]
      by_cases heq : marks.id target = key
      · rw [if_pos heq]
        exact hnext.mono (List.subset_append_left ..)
      · rw [if_neg heq]
        exact hnext.mono fun node hnode => List.mem_cons_of_mem _ (List.mem_append_left _ hnode)

theorem NodeMarks.remove_freed (hremove : marks.remove before node = .ok rest)
    (hfreed : marks.HasFreed before) : marks.HasFreed rest := by
  unfold remove at hremove
  split at hremove
  · cases hremove
  · rename_i hread
    rw [Bool.not_eq_true] at hread
    cases hremove
    cases before with
    | nil => exact absurd hfreed (by simp [HasFreed])
    | cons head next =>
      rw [removeReadsFreed, Bool.or_eq_false_iff] at hread
      obtain ⟨hlive, hwalk⟩ := hread
      have hnext := hfreed.tail hlive
      rw [List.cons_append, lwm2mListRemove]
      by_cases heq : marks.id head = marks.id node
      · rw [if_pos heq]
        exact hnext.mono (List.subset_append_left ..)
      · rw [if_neg heq]
        rw [bne_iff_ne.2 heq, Bool.true_and] at hwalk
        exact (listUnlink_freed hwalk hnext [marks.free node]).mono (List.subset_cons_self ..)

variable {selected : α → Bool}

theorem NodeMarks.sweep_freed : ∀ {before out : List α},
    marks.sweep selected before rest = .ok out → marks.HasFreed before → marks.HasFreed out := by
  induction rest with
  | nil =>
    intro before out h hfreed
    cases h
    exact hfreed
  | cons node next ih =>
    intro before out h hfreed
    rw [sweep] at h
    split at h
    · cases h
    · split at h
      · split at h
        · cases h
        · rename_i hremove
          exact ih h (remove_freed hremove hfreed)
      · exact ih h (hfreed.mono (List.subset_append_left ..))

theorem NodeMarks.sweep_reads (hfreed : marks.HasFreed rest) :
    ∀ {before out : List α}, marks.sweep selected before rest ≠ .ok out := by
  induction rest with
  | nil => exact absurd hfreed (by simp [HasFreed])
  | cons node next ih =>
    intro before out h
    rw [sweep] at h
    split at h
    · cases h
    · rename_i hlive
      rw [Bool.not_eq_true] at hlive
      have hnext := hfreed.tail hlive
      split at h
      · split at h
        · cases h
        · exact ih hnext h
      · exact ih hnext h

/-- No node that is kept stands in front of a selected one with its id. -/
def NodeMarks.SelectsOwn (marks : NodeMarks α) (selected : α → Bool) (head : List α) : Prop :=
  head.Pairwise fun a b => selected a = false → selected b = true → marks.id a ≠ marks.id b

/-- The loop behind the nodes `before`, which were kept, by induction on the nodes to come: it drops
the selected ones where each is the first one with its id, and leaves a freed node linked where one
is not. -/
theorem NodeMarks.sweep_cases (selected : α → Bool) (rest : List α) :
    ∀ before : List α, marks.Linked (before ++ rest) →
      ((∀ a ∈ before, ∀ b ∈ rest, selected b = true → marks.id a ≠ marks.id b) ∧
          marks.SelectsOwn selected rest ∧
          marks.sweep selected before rest =
            .ok (before ++ rest.filter fun node => !selected node)) ∨
        ((∃ a ∈ before, ∃ b ∈ rest, selected b = true ∧ marks.id a = marks.id b) ∨
            ¬ marks.SelectsOwn selected rest) ∧
          ∀ out, marks.sweep selected before rest = .ok out → marks.HasFreed out := by
  induction rest with
  | nil =>
    intro before _
    exact .inl ⟨fun _ _ _ hmem => (nomatch hmem), .nil, by simp [sweep]⟩
  | cons node next ih =>
    intro before hlinked
    have hown : marks.freed node = false := hlinked.live node (by simp)
    rw [sweep, hown, if_neg nofun]
    unfold SelectsOwn
    rw [List.pairwise_cons]
    by_cases hselected : selected node = true
    · rw [if_pos hselected]
      have hbefore : marks.Linked before := hlinked.sublist (List.sublist_append_left ..)
      by_cases hsame : ∃ other ∈ before, marks.id other = marks.id node
      · -- a node in front goes, and the selected one stays in the list
        obtain ⟨kept, hremove, hfreed⟩ := remove_other hbefore hsame
        obtain ⟨other, hother, hid⟩ := hsame
        refine .inr ⟨.inl ⟨other, hother, node, List.mem_cons_self .., hselected, hid⟩, ?_⟩
        intro out hout
        rw [hremove] at hout
        exact sweep_freed hout hfreed
      · have hlow : ∀ other ∈ before, marks.id other < marks.id node := by
          intro other hother
          have hle := (List.pairwise_append.1 hlinked.ordered).2.2 other hother node
            (List.mem_cons_self ..)
          exact uint16_lt_of_le_of_ne hle fun hid => hsame ⟨other, hother, hid⟩
        rw [remove_own hbefore hlow]
        have hkept : (node :: next).filter (fun node => !selected node) =
            next.filter fun node => !selected node := by
          simp [hselected]
        have hfirst : ∀ b ∈ next, selected node = false → selected b = true →
            marks.id node ≠ marks.id b := by
          intro b _ hnot
          rw [hselected] at hnot
          cases hnot
        rcases ih before
          (hlinked.sublist (List.Sublist.append_left (List.sublist_cons_self ..) _)) with
          ⟨hfront, hrest, hsweep⟩ | ⟨hwrong, hsweep⟩
        · refine .inl ⟨?_, ⟨hfirst, hrest⟩, by rw [hkept]; exact hsweep⟩
          intro a ha b hb
          rcases List.mem_cons.1 hb with rfl | hb
          · exact fun _ hid => hsame ⟨a, ha, hid⟩
          · exact hfront a ha b hb
        · refine .inr ⟨?_, hsweep⟩
          rcases hwrong with ⟨a, ha, b, hb, hclash⟩ | hwrong
          · exact .inl ⟨a, ha, b, List.mem_cons_of_mem _ hb, hclash⟩
          · exact .inr fun hright => hwrong hright.2
    · have hnot : selected node = false := Bool.eq_false_of_not_eq_true hselected
      have happend : before ++ node :: next = before ++ [node] ++ next := by simp
      have hkept : before ++ (node :: next).filter (fun node => !selected node) =
          before ++ [node] ++ next.filter fun node => !selected node := by
        simp [hnot]
      rw [if_neg hselected, hkept]
      rcases ih (before ++ [node]) (happend ▸ hlinked) with
        ⟨hfront, hrest, hsweep⟩ | ⟨hwrong, hsweep⟩
      · refine .inl ⟨?_, ⟨fun b hb _ => hfront node (by simp) b hb, hrest⟩, hsweep⟩
        intro a ha b hb hb'
        rcases List.mem_cons.1 hb with rfl | hb
        · exact absurd hb' hselected
        · exact hfront a (List.mem_append_left _ ha) b hb hb'
      · refine .inr ⟨?_, hsweep⟩
        rcases hwrong with ⟨a, ha, b, hb, hsel, hid⟩ | hwrong
        · rcases List.mem_append.1 ha with ha | ha
          · exact .inl ⟨a, ha, b, List.mem_cons_of_mem _ hb, hsel, hid⟩
          · cases List.mem_singleton.1 ha
            exact .inr fun hright => hright.1 b hb hnot hsel hid
        · exact .inr fun hright => hwrong hright.2

theorem NodeMarks.sweep_own (h : marks.Linked head) (hown : marks.SelectsOwn selected head) :
    marks.sweep selected [] head = .ok (head.filter fun node => !selected node) := by
  rcases sweep_cases selected head [] h with ⟨-, -, hsweep⟩ | ⟨⟨_, ha, -⟩ | hnot, -⟩
  · exact hsweep
  · exact nomatch ha
  · exact absurd hown hnot

theorem NodeMarks.sweep_other {out : List α} (h : marks.Linked head)
    (hother : ¬ marks.SelectsOwn selected head) (hout : marks.sweep selected [] head = .ok out) :
    marks.HasFreed out := by
  rcases sweep_cases selected head [] h with ⟨-, hown, -⟩ | ⟨-, hfreed⟩
  · exact absurd hown hother
  · exact hfreed out hout

theorem NodeMarks.sweep_iff {head : List α} (h : marks.Linked head) :
    marks.sweep selected [] head = .ok (head.filter fun node => !selected node) ↔
      marks.SelectsOwn selected head := by
  constructor
  · intro hout
    by_contra hother
    exact (h.sublist List.filter_sublist).not_hasFreed (sweep_other h hother hout)
  · exact sweep_own h

end Wakaama
