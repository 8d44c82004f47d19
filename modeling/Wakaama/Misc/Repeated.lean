/-!
# Repetition in a grammar

Nothing here is about a particular format. A set of lists describes the items of a format;
`Repeated item n` describes `n` of them, one behind the other.
-/

namespace Wakaama

/-- `n` items, one behind the other. -/
inductive Repeated {α : Type} (item : List α → Prop) : Nat → List α → Prop where
  | nil : Repeated item 0 []
  | cons {n : Nat} {first rest : List α} (hfirst : item first) (hrest : Repeated item n rest) :
      Repeated item (n + 1) (first ++ rest)

/-- Items of at least `k` elements. -/
theorem Repeated.length_ge {α : Type} {item : List α → Prop} {k : Nat}
    (hitem : ∀ list, item list → k ≤ list.length) {n : Nat} {list : List α}
    (h : Repeated item n list) : n * k ≤ list.length := by
  induction h with
  | nil => simp
  | cons hfirst _ ih =>
    have := hitem _ hfirst
    rw [List.length_append, Nat.succ_mul]
    omega

end Wakaama
