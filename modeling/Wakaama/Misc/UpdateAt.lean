import Mathlib.Data.List.Basic

/-!
# Lists updated at their first match

A linked list used as a map: an operation looks up the first element satisfying a predicate
and replaces it, or puts something in front when there is none. Two such operations whose
predicates exclude each other do not see one another; `updateAt_filter` and
`filter_updateAt_of_disjoint` say so for any side `q` of the list.
-/

namespace Wakaama

variable {α β ε : Type}

/-- The first element satisfying `p`, between the elements before and after it. -/
def splitFirst (p : α → Bool) : List α → Option (List α × α × List α)
  | [] => none
  | x :: xs =>
    if p x then some ([], x, xs)
    else (splitFirst p xs).map fun (before, found, after) => (x :: before, found, after)

/-- Replace the first element satisfying `p` by what `f` makes of it, or put what `f` makes of
nothing in front. -/
def updateAt (p : α → Bool) (f : Option α → Except ε (List α × β)) (xs : List α) :
    Except ε (List α × β) :=
  match splitFirst p xs with
  | none => (f none).map fun (new, out) => (new ++ xs, out)
  | some (before, found, after) =>
    (f (some found)).map fun (new, out) => (before ++ new ++ after, out)

variable {p q : α → Bool} {xs : List α} {f : Option α → Except ε (List α × β)}

theorem splitFirst_nil (p : α → Bool) : splitFirst p [] = none := rfl

theorem splitFirst_cons (p : α → Bool) (x : α) (xs : List α) :
    splitFirst p (x :: xs) =
      if p x then some ([], x, xs)
      else (splitFirst p xs).map fun (before, found, after) => (x :: before, found, after) := rfl

/-- Nothing is found only where nothing satisfies the predicate. -/
theorem splitFirst_none (h : splitFirst p xs = none) : ∀ x ∈ xs, p x = false := by
  induction xs with
  | nil => simp
  | cons x xs ih =>
    rw [splitFirst_cons] at h
    split at h
    · contradiction
    · rename_i hx
      intro y hy
      rcases List.mem_cons.mp hy with heq | hrest
      · rw [heq]
        simpa using hx
      · exact ih (by simpa using h) y hrest

theorem splitFirst_some {before after : List α} {found : α}
    (h : splitFirst p xs = some (before, found, after)) :
    xs = before ++ found :: after ∧ p found = true ∧ ∀ x ∈ before, p x = false := by
  induction xs generalizing before with
  | nil => simp [splitFirst_nil] at h
  | cons x xs ih =>
    by_cases hx : p x = true
    · simp only [splitFirst_cons, if_pos hx, Option.some.injEq, Prod.mk.injEq] at h
      obtain ⟨rfl, rfl, rfl⟩ := h
      exact ⟨rfl, hx, by simp⟩
    · simp only [splitFirst_cons, if_neg hx, Option.map_eq_some_iff, Prod.mk.injEq] at h
      obtain ⟨⟨before', found', after'⟩, hrest, rfl, rfl, rfl⟩ := h
      obtain ⟨rfl, hfound, hbefore⟩ := ih hrest
      refine ⟨rfl, hfound, ?_⟩
      intro y hy
      rcases List.mem_cons.mp hy with rfl | hy
      · simpa using hx
      · exact hbefore y hy

theorem splitFirst_append {before : List α} {x : α} (hx : p x = true)
    (hbefore : ∀ y ∈ before, p y = false) (after : List α) :
    splitFirst p (before ++ x :: after) = some (before, x, after) := by
  induction before with
  | nil => simp [splitFirst_cons, hx]
  | cons y before ih =>
    have hrest := ih fun z hz => hbefore z (List.mem_cons_of_mem _ hz)
    simp [splitFirst_cons, hbefore y (by simp), hrest]

/-- Nothing that `q` drops is looked for, so dropping it first does not change the find. -/
theorem splitFirst_filter (hpq : ∀ x, p x = true → q x = true) (xs : List α) :
    splitFirst p (xs.filter q) = (splitFirst p xs).map fun (before, found, after) =>
      (before.filter q, found, after.filter q) := by
  induction xs with
  | nil => rfl
  | cons x xs ih =>
    by_cases hp : p x = true
    · simp [splitFirst_cons, hp, hpq x hp]
    · by_cases hq : q x = true
      · simp only [List.filter_cons_of_pos hq, splitFirst_cons, if_neg hp, ih, Option.map_map]
        cases splitFirst p xs <;> simp [hq]
      · simp only [List.filter_cons_of_neg hq, splitFirst_cons, if_neg hp, ih, Option.map_map]
        cases splitFirst p xs <;> simp [hq]

/-- What one update does to its element it does on every side of the list that the element
and what replaces it are on. `P` is whatever is known of the elements of the list. -/
theorem updateAt_filter (P : α → Prop) (hpq : ∀ x, p x = true → q x = true)
    (hf : ∀ found new out, (∀ x ∈ found, P x ∧ p x = true) → f found = .ok (new, out) → ∀ x ∈ new, q x = true)
    (hxs : ∀ x ∈ xs, P x) :
    updateAt p f (xs.filter q) = (updateAt p f xs).map fun (ys, out) => (ys.filter q, out) := by
  have hnew : ∀ found new out, (∀ x ∈ found, P x ∧ p x = true) → f found = .ok (new, out) →
      new.filter q = new :=
    fun found new out hp h => List.filter_eq_self.mpr (hf found new out hp h)
  simp only [updateAt, splitFirst_filter hpq]
  cases hsplit : splitFirst p xs with
  | none =>
    cases hres : f none with
    | error e => rfl
    | ok res => simp [Except.map, hnew none res.1 res.2 (by simp) hres]
  | some found =>
    obtain ⟨before, x, after⟩ := found
    obtain ⟨rfl, hpx, -⟩ := splitFirst_some hsplit
    have hx : ∀ y ∈ some x, P y ∧ p y = true := by rintro _ ⟨⟩; exact ⟨hxs x (by simp), hpx⟩
    cases hres : f (some x) with
    | error e => simp [hres, Except.map]
    | ok res => simp [hres, Except.map, hnew (some x) res.1 res.2 hx hres]

/-- An update off the side `q` leaves that side alone. -/
theorem filter_updateAt_of_disjoint (P : α → Prop) (hpq : ∀ x, p x = true → q x = false)
    (hf : ∀ found new out, (∀ x ∈ found, P x ∧ p x = true) → f found = .ok (new, out) → ∀ x ∈ new, q x = false)
    {ys : List α} {out : β} (hxs : ∀ x ∈ xs, P x) (h : updateAt p f xs = .ok (ys, out)) :
    ys.filter q = xs.filter q := by
  have hnew : ∀ found new out, (∀ x ∈ found, P x ∧ p x = true) → f found = .ok (new, out) →
      new.filter q = [] := by
    intro found new out hp h
    exact List.filter_eq_nil_iff.mpr fun x hx => by simp [hf found new out hp h x hx]
  simp only [updateAt] at h
  cases hsplit : splitFirst p xs with
  | none =>
    cases hres : f none with
    | error e => simp [hsplit, hres, Except.map] at h
    | ok res =>
      simp only [hsplit, hres, Except.map, Except.ok.injEq, Prod.mk.injEq] at h
      rw [← h.1, List.filter_append, hnew none res.1 res.2 (by simp) hres, List.nil_append]
  | some found =>
    obtain ⟨before, x, after⟩ := found
    obtain ⟨rfl, hpx, -⟩ := splitFirst_some hsplit
    have hx : ∀ y ∈ some x, P y ∧ p y = true := by rintro _ ⟨⟩; exact ⟨hxs x (by simp), hpx⟩
    cases hres : f (some x) with
    | error e => simp [hsplit, hres, Except.map] at h
    | ok res =>
      simp only [hsplit, hres, Except.map, Except.ok.injEq, Prod.mk.injEq] at h
      rw [← h.1]
      simp [List.filter_append, hnew (some x) res.1 res.2 hx hres, hpq x hpx]

/-- An update whose `f` returns on what it can find returns. -/
theorem updateAt_total (P : α → Prop)
    (hf : ∀ found, (∀ x ∈ found, P x ∧ p x = true) → ∃ new out, f found = .ok (new, out))
    (hxs : ∀ x ∈ xs, P x) : ∃ ys out, updateAt p f xs = .ok (ys, out) := by
  simp only [updateAt]
  cases hsplit : splitFirst p xs with
  | none =>
    obtain ⟨new, out, hres⟩ := hf none (by simp)
    exact ⟨new ++ xs, out, by simp [hres, Except.map]⟩
  | some found =>
    obtain ⟨before, x, after⟩ := found
    obtain ⟨rfl, hpx, -⟩ := splitFirst_some hsplit
    obtain ⟨new, out, hres⟩ :=
      hf (some x) (by rintro _ ⟨⟩; exact ⟨hxs x (by simp), hpx⟩)
    exact ⟨before ++ new ++ after, out, by simp [hres, Except.map]⟩

/-- What holds of every element goes on to hold when `f` preserves it. -/
theorem forall_mem_updateAt (P : α → Prop)
    (hf : ∀ found new out, (∀ x ∈ found, P x ∧ p x = true) → f found = .ok (new, out) → ∀ x ∈ new, P x)
    {ys : List α} {out : β} (h : updateAt p f xs = .ok (ys, out)) (hxs : ∀ x ∈ xs, P x) :
    ∀ y ∈ ys, P y := by
  simp only [updateAt] at h
  cases hsplit : splitFirst p xs with
  | none =>
    cases hres : f none with
    | error e => simp [hsplit, hres, Except.map] at h
    | ok res =>
      simp only [hsplit, hres, Except.map, Except.ok.injEq, Prod.mk.injEq] at h
      intro y hy
      rw [← h.1, List.mem_append] at hy
      exact hy.elim (hf none res.1 res.2 (by simp) hres y) (hxs y)
  | some found =>
    obtain ⟨before, x, after⟩ := found
    obtain ⟨rfl, hx, -⟩ := splitFirst_some hsplit
    cases hres : f (some x) with
    | error e => simp [hsplit, hres, Except.map] at h
    | ok res =>
      simp only [hsplit, hres, Except.map, Except.ok.injEq, Prod.mk.injEq] at h
      intro y hy
      rw [← h.1, List.mem_append, List.mem_append] at hy
      rcases hy with (hy | hy) | hy
      · exact hxs y (by simp [hy])
      · exact hf (some x) res.1 res.2
          (by rintro _ ⟨⟩; exact ⟨hxs x (by simp), hx⟩) hres y hy
      · exact hxs y (by simp [hy])

end Wakaama
