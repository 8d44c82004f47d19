import Mathlib.Data.List.Basic

/-!
# Partial maps edited key by key

A configuration is a partial map from keys to values; an edit takes some keys out and then
gives some keys values.
-/

namespace Wakaama

variable {Key Value : Type}

/-- What an edit does at each key: the value it gives, and whether it takes the key out. -/
structure Edit (Key Value : Type) where
  set : Key → Option Value
  clear : Key → Bool

namespace Edit

/-- Take out the cleared keys, then set the others. -/
def apply (edit : Edit Key Value) (m : Key → Option Value) : Key → Option Value := fun key =>
  match edit.set key with
  | some value => some value
  | none => if edit.clear key then none else m key

/-- The edits in order. -/
def applyAll (m : Key → Option Value) (edits : List (Edit Key Value)) : Key → Option Value :=
  edits.foldl (fun m edit => edit.apply m) m

theorem applyAll_concat (m : Key → Option Value) (edits : List (Edit Key Value))
    (edit : Edit Key Value) : applyAll m (edits ++ [edit]) = edit.apply (applyAll m edits) := by
  unfold applyAll
  rw [List.foldl_append]
  rfl

/-- An edit of the empty map leaves what it sets. -/
theorem apply_empty (edit : Edit Key Value) : edit.apply (fun _ => none) = edit.set := by
  funext key
  unfold apply
  cases edit.set key with
  | some value => rfl
  | none => cases edit.clear key <;> rfl

end Edit

end Wakaama
