import Wakaama.Misc.UpdateAt
import Mathlib.Data.List.Nodup

/-!
# Lists with one element for a key

A linked list used as a finite map: its elements carry keys, no two the same. Looking up a key
after an element was replaced, removed or put in front is looking it up before, except at the
key of that element.
-/

namespace Wakaama

variable {α κ : Type}

variable {key : α → κ} {x : α} {before after xs : List α}

/-- The element in the middle is the one with its key. -/
theorem notMem_of_nodup (h : ((before ++ x :: after).map key).Nodup) :
    key x ∉ before.map key ∧ key x ∉ after.map key := by
  rw [List.map_append, List.map_cons, List.nodup_append] at h
  obtain ⟨-, htail, hdisjoint⟩ := h
  exact ⟨fun hmem => hdisjoint _ hmem _ (by simp) rfl, (List.nodup_cons.mp htail).1⟩

theorem nodup_replace {x' : α} (h : ((before ++ x :: after).map key).Nodup)
    (hkey : key x' = key x) :
    ((before ++ x' :: after).map key).Nodup := by
  rw [List.map_append, List.map_cons] at h ⊢
  rwa [hkey]

theorem nodup_remove (h : ((before ++ x :: after).map key).Nodup) :
    ((before ++ after).map key).Nodup := by
  refine h.sublist ?_
  exact ((List.sublist_cons_self x after).append_left before).map key

variable [DecidableEq κ]

/-- The element with the key. -/
def lookupKey (key : α → κ) (k : κ) (xs : List α) : Option α :=
  xs.find? fun x => key x == k

theorem lookupKey_cons (key : α → κ) (k : κ) (x : α) (xs : List α) :
    lookupKey key k (x :: xs) = if key x = k then some x else lookupKey key k xs := by
  unfold lookupKey
  by_cases hkey : key x = k
  · rw [if_pos hkey, List.find?_cons_of_pos (by simpa using hkey)]
  · rw [if_neg hkey, List.find?_cons_of_neg (by simpa using hkey)]

theorem lookupKey_append (key : α → κ) (k : κ) (xs ys : List α) :
    lookupKey key k (xs ++ ys) = (lookupKey key k xs).or (lookupKey key k ys) := by
  unfold lookupKey
  exact List.find?_append

theorem lookupKey_eq_none_iff {k : κ} : lookupKey key k xs = none ↔ k ∉ xs.map key := by
  unfold lookupKey
  rw [List.find?_eq_none]
  simp

theorem lookupKey_some {k : κ} (h : lookupKey key k xs = some x) : x ∈ xs ∧ key x = k := by
  unfold lookupKey at h
  exact ⟨List.mem_of_find?_eq_some h, by simpa using List.find?_some h⟩

/-- An element of the list is found by its key. -/
theorem lookupKey_of_mem (h : (xs.map key).Nodup) (hmem : x ∈ xs) :
    lookupKey key (key x) xs = some x := by
  induction xs with
  | nil => exact absurd hmem List.not_mem_nil
  | cons y xs ih =>
    rw [List.map_cons, List.nodup_cons] at h
    rw [lookupKey_cons]
    cases List.mem_cons.mp hmem with
    | inl heq => rw [heq, if_pos rfl]
    | inr hmem =>
      have hne : key y ≠ key x := fun heq => h.1 (heq ▸ List.mem_map_of_mem hmem)
      rw [if_neg hne, ih h.2 hmem]

/-- Replacing an element by one with the same key. -/
theorem lookupKey_replace {x' : α} (h : ((before ++ x :: after).map key).Nodup)
    (hkey : key x' = key x) (k : κ) :
    lookupKey key k (before ++ x' :: after) =
      if k = key x then some x' else lookupKey key k (before ++ x :: after) := by
  rw [lookupKey_append, lookupKey_append, lookupKey_cons, lookupKey_cons, hkey]
  by_cases hk : k = key x
  · subst hk
    rw [lookupKey_eq_none_iff.mpr (notMem_of_nodup h).1]
    simp
  · rw [if_neg hk, if_neg (Ne.symm hk), if_neg (Ne.symm hk)]

/-- Removing an element. -/
theorem lookupKey_remove (h : ((before ++ x :: after).map key).Nodup) (k : κ) :
    lookupKey key k (before ++ after) =
      if k = key x then none else lookupKey key k (before ++ x :: after) := by
  rw [lookupKey_append, lookupKey_append, lookupKey_cons]
  by_cases hk : k = key x
  · subst hk
    rw [lookupKey_eq_none_iff.mpr (notMem_of_nodup h).1,
      lookupKey_eq_none_iff.mpr (notMem_of_nodup h).2]
    simp
  · rw [if_neg hk, if_neg (Ne.symm hk)]

end Wakaama
