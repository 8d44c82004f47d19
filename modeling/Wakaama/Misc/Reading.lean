import Wakaama.Misc.Memory

/-!
# Reading a buffer

A reader ends with a value, gives up, or goes wrong: it reads outside of the buffer, or counts over
the largest `int`.
-/

namespace Wakaama

/-- What ends a reader early. -/
inductive Stop where
  | failed
  | outside
  | overflow
  deriving DecidableEq, Repr

abbrev Reading (α : Type) : Type := Except Stop α

/-- `buffer[index]` -/
def peekAt (buffer : List UInt8) (index : Nat) : Reading UInt8 :=
  match buffer[index]? with
  | some byte => .ok byte
  | none => .error .outside

/-- The `len` bytes from `start` on. -/
def sliceAt (buffer : List UInt8) (start len : Nat) : Reading (List UInt8) :=
  if start + len ≤ buffer.length then .ok ((buffer.drop start).take len) else .error .outside

/-- `count++` of an `int`. -/
def countUp (count : Nat) : Reading Nat :=
  if count + 1 < 2 ^ 31 then .ok (count + 1) else .error .overflow

/-- `a - b` of the type `size_t`. -/
def sizeLess (a b : Nat) : Nat := if b ≤ a then a - b else 2 ^ 64 + a - b

/-- The reader does not go wrong, and its value is as stated. -/
def Inside {α : Type} (post : α → Prop) : Reading α → Prop
  | .ok a => post a
  | .error .failed => True
  | .error .outside => False
  | .error .overflow => False

/-- The reader does not go wrong. -/
def ReadsInside {α : Type} (x : Reading α) : Prop := Inside (fun _ => True) x

section rules

variable {α β : Type} {post : α → Prop} {post' : β → Prop} {x : Reading α} {f : α → Reading β}

@[simp] theorem inside_ok {a : α} : Inside post (.ok a) ↔ post a := Iff.rfl

@[simp] theorem inside_failed : Inside post (.error .failed) := trivial

theorem Inside.bind (h : Inside post x) (hf : ∀ a, post a → Inside post' (f a)) :
    Inside post' (x >>= f) := by
  match x, h with
  | .ok a, h => exact hf a h
  | .error .failed, _ => trivial

theorem Inside.mono {post'' : α → Prop} (h : Inside post x) (himp : ∀ a, post a → post'' a) :
    Inside post'' x := by
  match x, h with
  | .ok a, h => exact himp a h
  | .error .failed, _ => trivial

theorem Inside.ok (h : Inside post x) : Inside (fun a => post a ∧ x = .ok a) x := by
  match x, h with
  | .ok a, h => exact ⟨h, rfl⟩
  | .error .failed, _ => trivial

theorem Inside.reads (h : Inside post x) : ReadsInside x := h.mono fun _ _ => trivial

theorem Inside.ite {c : Prop} [Decidable c] {y : Reading α} (hpos : c → Inside post x)
    (hneg : ¬ c → Inside post y) : Inside post (if c then x else y) := by
  by_cases hc : c
  · rw [if_pos hc]
    exact hpos hc
  · rw [if_neg hc]
    exact hneg hc

end rules

theorem sizeLess_of_le {a b : Nat} (h : b ≤ a) : sizeLess a b = a - b := if_pos h

section front

variable {buffer rest : List UInt8} {bufferLen index : Nat} {byte : UInt8}

theorem peekAt_drop (h : buffer.drop index = byte :: rest) : peekAt buffer index = .ok byte := by
  have hbyte : buffer[index]? = some byte := by
    rw [← List.head?_drop, h]
    rfl
  rw [peekAt, hbyte]

theorem peekAt_end (h : buffer.length ≤ index) : peekAt buffer index = .error .outside := by
  rw [peekAt, List.getElem?_eq_none h]

theorem peekAt_front (h : (buffer.take bufferLen).drop index = byte :: rest) :
    peekAt buffer index = .ok byte := by
  rw [List.drop_take] at h
  have hdrop := List.take_append_drop (bufferLen - index) (buffer.drop index)
  rw [h] at hdrop
  exact peekAt_drop hdrop.symm

end front

end Wakaama
