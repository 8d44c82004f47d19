import Mathlib
import Wakaama.Misc.Fault

/-!
# Writing chunks into a buffer

A message is a list of chunks that are written one behind the other into a buffer. Only the sizes
matter for the question whether a write leaves the buffer.
-/

namespace Wakaama

/-- One step of a writer: `size` bytes behind a check; `size` bytes copied without a check behind
a checked head; a text of `size` bytes and a NUL, printed from the second byte on; giving up. -/
inductive Chunk where
  | checked (size : Nat)
  | copied (head size : Nat)
  | printed (size : Nat)
  | stop
  deriving DecidableEq, Repr

/-- A write that leaves the buffer. -/
def overrun {α : Type} : OptionT (Except Fault) α := OptionT.mk (.error .outOfBounds)

/-- What a writer does with a chunk when `room` bytes are left: the bytes that it takes, nothing
when the writer gives up, or a fault. -/
def Chunk.put (room : Nat) : Chunk → OptionT (Except Fault) Nat
  | checked size => if size ≤ room then pure size else failure
  | copied head size =>
    if room < head then failure
    else if head + size ≤ room then pure (head + size)
    else overrun
  | printed size =>
    if room = 0 then overrun
    else if size + 1 ≤ room then pure size
    else failure
  | stop => failure

/-- The chunks one behind the other. -/
def layout (room : Nat) : List Chunk → OptionT (Except Fault) Nat
  | [] => pure 0
  | chunk :: rest => do
    let n ← chunk.put room
    let m ← layout (room - n) rest
    return n + m

/-- No chunk that is reached leaves the buffer. -/
def Fits (room : Nat) : List Chunk → Prop
  | [] => True
  | .checked size :: rest => size ≤ room → Fits (room - size) rest
  | .copied head size :: rest =>
    head ≤ room → head + size ≤ room ∧ Fits (room - (head + size)) rest
  | .printed size :: rest => 0 < room ∧ (size + 1 ≤ room → Fits (room - size) rest)
  | .stop :: _ => True

instance decidableFits : (room : Nat) → (chunks : List Chunk) → Decidable (Fits room chunks)
  | _, [] => .isTrue trivial
  | room, .checked size :: rest =>
    have := decidableFits (room - size) rest
    inferInstanceAs (Decidable (size ≤ room → Fits (room - size) rest))
  | room, .copied head size :: rest =>
    have := decidableFits (room - (head + size)) rest
    inferInstanceAs
      (Decidable (head ≤ room → head + size ≤ room ∧ Fits (room - (head + size)) rest))
  | room, .printed size :: rest =>
    have := decidableFits (room - size) rest
    inferInstanceAs (Decidable (0 < room ∧ (size + 1 ≤ room → Fits (room - size) rest)))
  | _, .stop :: _ => .isTrue trivial

theorem layout_singleton (room : Nat) (chunk : Chunk) : layout room [chunk] = chunk.put room := by
  simp only [layout, pure_bind, Nat.add_zero, bind_pure]

theorem layout_checked (room size : Nat) :
    layout room [.checked size] = if size ≤ room then pure size else failure := layout_singleton ..

theorem layout_copied (room head size : Nat) :
    layout room [.copied head size] =
      if room < head then failure
      else if head + size ≤ room then pure (head + size)
      else overrun := layout_singleton ..

theorem layout_printed (room size : Nat) :
    layout room [.printed size] =
      if room = 0 then overrun
      else if size + 1 ≤ room then pure size
      else failure := layout_singleton ..

theorem layout_append (room : Nat) (xs ys : List Chunk) :
    layout room (xs ++ ys) = do
      let n ← layout room xs
      let m ← layout (room - n) ys
      return n + m := by
  induction xs generalizing room with
  | nil => simp only [List.nil_append, layout, pure_bind, Nat.sub_zero, Nat.zero_add, bind_pure]
  | cons chunk rest ih =>
    simp only [List.cons_append, layout, ih, bind_assoc, pure_bind, Nat.sub_sub, Nat.add_assoc]

/-- A writer that meets no fault. -/
def FaultFree {α : Type} (w : OptionT (Except Fault) α) : Prop := ∃ result, w.run = .ok result

section

variable {α β : Type}

@[simp] theorem faultFree_pure (a : α) : FaultFree (pure a) := ⟨some a, rfl⟩

@[simp] theorem faultFree_failure : FaultFree (failure : OptionT (Except Fault) α) :=
  ⟨none, rfl⟩

@[simp] theorem not_faultFree_overrun : ¬ FaultFree (overrun : OptionT (Except Fault) α) := by
  intro h
  rcases h with ⟨result, h⟩
  cases h

theorem faultFree_map (f : α → β) (w : OptionT (Except Fault) α) :
    FaultFree (f <$> w) ↔ FaultFree w := by
  unfold FaultFree
  rw [OptionT.run_map]
  cases w.run with
  | error fault => simp [Functor.map, Except.map]
  | ok result => simp [Functor.map, Except.map]

/-- What a bind does once the outcome of its first part is known. -/
theorem faultFree_bind (w : OptionT (Except Fault) α) (k : α → OptionT (Except Fault) β) :
    FaultFree (w >>= k) ↔ FaultFree w ∧ ∀ a, w.run = .ok (some a) → FaultFree (k a) := by
  unfold FaultFree
  rw [OptionT.run_bind]
  cases hw : w.run with
  | error fault => simp [Option.elimM, bind, Except.bind]
  | ok result =>
    cases result with
    | none => simp [Option.elimM, bind, Except.bind, pure, Except.pure]
    | some a => simp [Option.elimM, bind, Except.bind]

theorem run_map_eq_some (f : α → β) (w : OptionT (Except Fault) α) (b : β) :
    (f <$> w).run = .ok (some b) ↔ ∃ a, w.run = .ok (some a) ∧ f a = b := by
  rw [OptionT.run_map]
  cases w.run with
  | error fault => simp [Functor.map, Except.map]
  | ok result => simp [Functor.map, Except.map]

theorem run_bind_eq_some (w : OptionT (Except Fault) α) (k : α → OptionT (Except Fault) β) (b : β) :
    (w >>= k).run = .ok (some b) ↔ ∃ a, w.run = .ok (some a) ∧ (k a).run = .ok (some b) := by
  rw [OptionT.run_bind]
  cases w.run with
  | error fault => simp [Option.elimM, bind, Except.bind]
  | ok result =>
    cases result with
    | none => simp [Option.elimM, bind, Except.bind, pure, Except.pure]
    | some a => simp [Option.elimM, bind, Except.bind]

/-- A second part that meets no fault adds nothing to the question. -/
theorem faultFree_bind_of_forall {w : OptionT (Except Fault) α} {k : α → OptionT (Except Fault) β}
    (h : ∀ a, FaultFree (k a)) : FaultFree (w >>= k) ↔ FaultFree w := by
  rw [faultFree_bind]
  exact and_iff_left fun a _ => h a

end

/-- A message is written without a fault exactly where its chunks fit. -/
theorem layout_faultFree_iff (room : Nat) (chunks : List Chunk) :
    FaultFree (layout room chunks) ↔ Fits room chunks := by
  induction chunks generalizing room with
  | nil => simp [layout, Fits]
  | cons chunk rest ih =>
    have hrest : ∀ n, FaultFree (do let m ← layout (room - n) rest; return n + m) ↔
        Fits (room - n) rest := by
      intro n
      rw [← ih, ← faultFree_map (fun m => n + m) (layout (room - n) rest), map_eq_pure_bind]
    have hoverrun : ¬ FaultFree (do
        let n ← overrun
        let m ← layout (room - n) rest
        return n + m) := by
      rw [faultFree_bind]
      exact fun h => not_faultFree_overrun h.1
    have hfailure : FaultFree (do
        let n ← failure
        let m ← layout (room - n) rest
        return n + m) := ⟨none, rfl⟩
    rw [layout]
    cases chunk with
    | checked size =>
      simp only [Chunk.put, Fits]
      by_cases h : size ≤ room
      · rw [if_pos h, pure_bind, hrest]
        simp [h]
      · rw [if_neg h]
        exact iff_of_true hfailure fun hle => absurd hle h
    | copied head size =>
      simp only [Chunk.put, Fits]
      by_cases h : room < head
      · rw [if_pos h]
        exact iff_of_true hfailure fun hle => absurd hle (Nat.not_le.2 h)
      · have hhead : head ≤ room := Nat.not_lt.1 h
        rw [if_neg h]
        by_cases hsize : head + size ≤ room
        · rw [if_pos hsize, pure_bind, hrest]
          simp [hhead, hsize]
        · rw [if_neg hsize]
          exact iff_of_false hoverrun fun hfits => hsize (hfits hhead).1
    | printed size =>
      simp only [Chunk.put, Fits]
      by_cases h : room = 0
      · rw [if_pos h]
        exact iff_of_false hoverrun fun hfits => absurd hfits.1 (by omega)
      · have hroom : 0 < room := Nat.pos_of_ne_zero h
        rw [if_neg h]
        by_cases hsize : size + 1 ≤ room
        · rw [if_pos hsize, pure_bind, hrest]
          simp [hroom, hsize]
        · rw [if_neg hsize]
          exact iff_of_true hfailure ⟨hroom, fun hle => absurd hle hsize⟩
    | stop => exact iff_of_true hfailure trivial

theorem fits_append_iff (room : Nat) (xs ys : List Chunk) :
    Fits room (xs ++ ys) ↔
      Fits room xs ∧ ∀ n, (layout room xs).run = .ok (some n) → Fits (room - n) ys := by
  rw [← layout_faultFree_iff, layout_append, faultFree_bind, layout_faultFree_iff]
  refine and_congr_right fun _ => forall_congr' fun n => imp_congr_right fun _ => ?_
  rw [faultFree_bind_of_forall fun m => faultFree_pure _, layout_faultFree_iff]

end Wakaama
