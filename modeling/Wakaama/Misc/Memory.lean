import Mathlib.Data.List.Basic
import Mathlib.Data.Nat.Notation
import Wakaama.Misc.Fault
import Wakaama.Misc.Outcome

/-!
# A block of memory

Bytes that are written at an address, and moved within the block. What leaves the block is a
fault. A block is told by its parts: what stands in front of the place, the place, and what stands
behind it.
-/

namespace Wakaama

/-- `*address = byte;` -/
def storeByte (memory : List UInt8) (address : Int) (byte : UInt8) : Except Fault (List UInt8) :=
  if 0 ≤ address ∧ address < memory.length then .ok (memory.set address.toNat byte)
  else .error .outOfBounds

/-- Bytes one behind the other. -/
def storeBytes (memory : List UInt8) (address : Nat) : List UInt8 → Except Fault (List UInt8)
  | [] => .ok memory
  | byte :: bytes => do
    let memory ← storeByte memory address byte
    storeBytes memory (address + 1) bytes

/-- `*address` -/
def loadByte (memory : List UInt8) (address : Nat) : Except Fault UInt8 :=
  match memory[address]? with
  | some byte => .ok byte
  | none => .error .outOfBounds

/-- `*address`, of an address that may lie in front of the block. -/
def loadAt (memory : List UInt8) (address : Int) : Except Fault UInt8 :=
  if 0 ≤ address then loadByte memory address.toNat else .error .outOfBounds

/-- The `count` bytes from an address on. -/
def loadBytes (memory : List UInt8) (address : Int) (count : Nat) : Except Fault (List UInt8) :=
  if 0 ≤ address ∧ address + count ≤ memory.length then
    .ok ((memory.drop address.toNat).take count)
  else .error .outOfBounds

/-- `memmove(target, source, count)` -/
def moveBytes (memory : List UInt8) (target source : Int) (count : Nat) :
    Except Fault (List UInt8) :=
  if 0 ≤ target ∧ target + count ≤ memory.length ∧ 0 ≤ source ∧ source + count ≤ memory.length then
    .ok (memory.take target.toNat ++ (memory.drop source.toNat).take count ++
      memory.drop (target.toNat + count))
  else .error .outOfBounds

variable {memory rest : List UInt8} {address : Nat} {byte : UInt8}

theorem loadByte_drop (h : memory.drop address = byte :: rest) :
    loadByte memory address = .ok byte := by
  have hbyte : memory[address]? = some byte := by
    rw [← List.head?_drop, h]
    rfl
  rw [loadByte, hbyte]

theorem loadByte_end (h : memory.length ≤ address) :
    loadByte memory address = .error .outOfBounds := by
  rw [loadByte, List.getElem?_eq_none h]

theorem drop_next (h : memory.drop address = byte :: rest) : memory.drop (address + 1) = rest := by
  rw [← List.drop_drop, h]
  rfl

theorem drop_inside (h : memory.drop address = byte :: rest) :
    memory.length = address + rest.length + 1 := by
  have hlength := congrArg List.length h
  rw [List.length_drop, List.length_cons] at hlength
  omega

theorem loadAt_outside {address : Int} (h : address < 0) :
    loadAt memory address = .error .outOfBounds := if_neg (Int.not_le.2 h)

theorem loadAt_drop (h : memory.drop address = byte :: rest) : loadAt memory address = .ok byte :=
  (if_pos (Int.natCast_nonneg address)).trans (loadByte_drop h)

theorem loadBytes_inside {count : Nat} (h : address + count ≤ memory.length) :
    loadBytes memory address count = .ok ((memory.drop address).take count) :=
  if_pos ⟨Int.natCast_nonneg address, by omega⟩

theorem storeByte_inside (h : address < memory.length) (byte : UInt8) :
    storeByte memory address byte = .ok (memory.set address byte) :=
  if_pos ⟨Int.natCast_nonneg address, Int.ofNat_lt.2 h⟩

theorem storeByte_outside {address : Int} (h : ¬ (0 ≤ address ∧ address < memory.length))
    (byte : UInt8) :
    storeByte memory address byte = .error .outOfBounds := if_neg h

theorem storeByte_ok {memory' : List UInt8} {address : Int}
    (h : storeByte memory address byte = .ok memory') :
    (0 ≤ address ∧ address < memory.length) ∧ memory' = memory.set address.toNat byte := by
  unfold storeByte at h
  split at h
  · rename_i hinside
    cases h
    exact ⟨hinside, rfl⟩
  · cases h

theorem storeByte_length {memory' : List UInt8} {address : Int}
    (h : storeByte memory address byte = .ok memory') : memory'.length = memory.length := by
  rw [(storeByte_ok h).2, List.length_set]

theorem split_at_address {memory : List UInt8} {address : Nat} (h : address < memory.length) :
    ∃ front old back, memory = front ++ old :: back ∧ front.length = address := by
  refine ⟨memory.take address, memory[address], memory.drop (address + 1), ?_,
    List.length_take_of_le (Nat.le_of_lt h)⟩
  rw [← List.drop_eq_getElem_cons h, List.take_append_drop]

theorem storeByte_place {front back : List UInt8} {address : Nat} (old byte : UInt8)
    (h : address = front.length) :
    storeByte (front ++ old :: back) address byte = .ok (front ++ byte :: back) := by
  rw [storeByte_inside (by rw [h, List.length_append, List.length_cons]; omega), h,
    List.set_append_right _ _ (Nat.le_refl _), Nat.sub_self, List.set_cons_zero]

theorem storeByte_head (old byte : UInt8) (back : List UInt8) :
    storeByte (old :: back) (0 : Nat) byte = .ok (byte :: back) :=
  storeByte_inside (Nat.succ_pos back.length) byte

/-- Bytes take the place of as many others. -/
theorem storeBytes_place {front place back : List UInt8} :
    ∀ {bytes : List UInt8} {address : Nat}, address = front.length → bytes.length = place.length →
      storeBytes (front ++ place ++ back) address bytes = .ok (front ++ bytes ++ back) := by
  induction place generalizing front with
  | nil =>
    intro bytes address _ hlength
    rw [List.length_nil, List.length_eq_zero_iff] at hlength
    rw [hlength]
    rfl
  | cons old place ih =>
    intro bytes address haddress hlength
    cases bytes with
    | nil => cases hlength
    | cons byte bytes =>
      have hstore := @storeByte_place front (place ++ back) address old byte haddress
      have hnext : address + 1 = (front ++ [byte]).length := by
        rw [List.length_append, haddress, List.length_singleton]
      have hrest := @ih (front ++ [byte]) bytes (address + 1) hnext (Nat.succ.inj hlength)
      simp only [List.append_assoc, List.cons_append, List.nil_append] at hstore hrest ⊢
      rw [storeBytes, hstore, ok_bind, hrest]

/-- The end of a place is moved to its start. -/
theorem moveBytes_place {front gap moved back : List UInt8} {target source : Int} {count : Nat}
    (htarget : target = front.length) (hsource : source = (front ++ gap).length)
    (hcount : count = moved.length) :
    moveBytes (front ++ (gap ++ moved) ++ back) target source count =
      .ok (front ++ (moved ++ (gap ++ moved).drop moved.length) ++ back) := by
  subst htarget hsource hcount
  have hfront : (front ++ (gap ++ moved) ++ back).take front.length = front := by
    rw [List.append_assoc, List.take_left' rfl]
  have hmoved : ((front ++ (gap ++ moved) ++ back).drop (front ++ gap).length).take moved.length =
      moved := by
    rw [show front ++ (gap ++ moved) ++ back = (front ++ gap) ++ (moved ++ back) by
      simp only [List.append_assoc], List.drop_left' rfl, List.take_left' rfl]
  have hback : (front ++ (gap ++ moved) ++ back).drop (front.length + moved.length) =
      (gap ++ moved).drop moved.length ++ back := by
    have hle : moved.length ≤ (gap ++ moved).length := by
      rw [List.length_append]
      omega
    rw [List.append_assoc, List.drop_append, List.drop_of_length_le (Nat.le_add_right _ _),
      List.nil_append, Nat.add_sub_cancel_left, List.drop_append_of_le_length hle]
  unfold moveBytes
  rw [if_pos, Int.toNat_natCast, Int.toNat_natCast, hfront, hmoved, hback]
  · simp only [List.append_assoc]
  · simp only [List.length_append]
    omega

theorem moved_length (gap moved : List UInt8) :
    ((gap ++ moved).drop moved.length).length = gap.length := by
  rw [List.length_drop, List.length_append]
  omega

end Wakaama
