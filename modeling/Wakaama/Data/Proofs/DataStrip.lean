import Wakaama.Data.DataStrip

/-!
# What `senml_dataStrip` leaves on both sides

Every buffer ends up on one side. When an array of a node is refused, nodes are lost: the copy has
fewer of them than the tree it was made from.
-/

namespace Wakaama

/-- A node whose union is written as its type says. -/
inductive Whole : MemoryData → Prop
  | fresh {type : DataType} {id : UInt16} : Whole (.node type id (.other ⟨.zero, rfl⟩))
  | buffer {type : DataType} {id : UInt16} {buffer : Option (Nat × List UInt8)}
      (htype : type.hasBuffer = true) : Whole (.node type id (.asBuffer buffer))
  | children {type : DataType} {id : UInt16} {array : List MemoryData}
      (htype : type.hasChildren = true) (harray : ∀ data ∈ array, Whole data) :
      Whole (.node type id (.asChildren array))
  | other {type : DataType} {id : UInt16}
      {value : { value : DataValue Lwm2mData // value.ownsNothing = true }}
      (hchildren : type.hasChildren = false) (hbuffer : type.hasBuffer = false) :
      Whole (.node type id (.other value))

mutual

/-- The arrays below a node. -/
def MemoryData.arrays : MemoryData → Nat
  | .node _ _ value => valueArrays value

def valueArrays : MemoryValue MemoryData → Nat
  | .asChildren array => if array.isEmpty then 0 else arrayArrays array + 1
  | _ => 0

def arrayArrays : List MemoryData → Nat
  | [] => 0
  | data :: rest => data.arrays + arrayArrays rest

end

mutual

def Lwm2mData.nodes : Lwm2mData → Nat
  | .node _ _ value => valueNodes value + 1

def valueNodes : DataValue Lwm2mData → Nat
  | .asChildren array => arrayNodes array
  | _ => 0

def arrayNodes : List Lwm2mData → Nat
  | [] => 0
  | data :: rest => data.nodes + arrayNodes rest

end

/-- The allocations from `next` on, as many as there are arrays, succeed. -/
def Allocates (allocates : Nat → Bool) (next arrays : Nat) : Prop :=
  ∀ k, next ≤ k → k < next + arrays → allocates k = true

theorem allocates_zero (allocates : Nat → Bool) (next : Nat) : Allocates allocates next 0 := by
  intro k hle hlt
  omega

theorem allocates_add_iff (allocates : Nat → Bool) (next m n : Nat) :
    Allocates allocates next (m + n) ↔
      Allocates allocates next m ∧ Allocates allocates (next + m) n := by
  constructor
  · intro h
    refine ⟨fun k hle hlt => h k hle (by omega), fun k hle hlt => h k (by omega) (by omega)⟩
  · intro h k hle hlt
    by_cases hk : k < next + m
    · exact h.1 k hle hk
    · exact h.2 k (by omega) (by omega)

theorem allocates_one_iff (allocates : Nat → Bool) (next : Nat) :
    Allocates allocates next 1 ↔ allocates next = true := by
  constructor
  · intro h
    exact h next (Nat.le_refl next) (Nat.lt_succ_self next)
  · intro h k hle hlt
    obtain rfl : k = next := by omega
    exact h

structure ItemStripped (allocates : Nat → Bool) (next : Nat) (data : MemoryData)
    (item : ItemStrip) : Prop where
  owned : (item.slot.ownedBuffers ++ item.source.ownedBuffers).Perm data.ownedBuffers
  served : Allocates allocates next data.arrays →
    item.copied = true ∧ item.slot.contents = data.contents ∧ item.next = next + data.arrays
  refused : ¬ Allocates allocates next data.arrays →
    item.slot.contents.nodes < data.contents.nodes
  skipped : item.copied = false → item.slot.ownedBuffers = [] ∧ 1 < data.contents.nodes

structure ItemsStripped (allocates : Nat → Bool) (next : Nat) (data : List MemoryData)
    (items : ItemsStrip) : Prop where
  owned : (arrayBuffers items.slots ++ arrayBuffers items.source).Perm (arrayBuffers data)
  served : Allocates allocates next (arrayArrays data) →
    items.filled = data.length ∧ arrayContents items.slots = arrayContents data ∧
      items.next = next + arrayArrays data
  refused : ¬ Allocates allocates next (arrayArrays data) →
    arrayNodes (arrayContents items.slots) < arrayNodes (arrayContents data)

theorem arrayContents_append (xs ys : List MemoryData) :
    arrayContents (xs ++ ys) = arrayContents xs ++ arrayContents ys := by
  induction xs with
  | nil => rfl
  | cons data xs ih => simp only [List.cons_append, arrayContents, ih]

theorem arrayNodes_append (xs ys : List Lwm2mData) :
    arrayNodes (xs ++ ys) = arrayNodes xs + arrayNodes ys := by
  induction xs with
  | nil => simp only [List.nil_append, arrayNodes, Nat.zero_add]
  | cons data xs ih => simp only [List.cons_append, arrayNodes, ih, Nat.add_assoc]

theorem arrayBuffers_append (xs ys : List MemoryData) :
    arrayBuffers (xs ++ ys) = arrayBuffers xs ++ arrayBuffers ys := by
  induction xs with
  | nil => rfl
  | cons data xs ih => simp only [List.cons_append, arrayBuffers, ih, List.append_assoc]

theorem nodes_pos (data : Lwm2mData) : 0 < data.nodes := by
  cases data
  exact Nat.succ_pos _

theorem arrayNodes_pos {array : List Lwm2mData} (h : array ≠ []) : 0 < arrayNodes array := by
  cases array with
  | nil => exact absurd rfl h
  | cons data rest => exact Nat.lt_of_lt_of_le (nodes_pos data) (Nat.le_add_right _ _)

variable {data : MemoryData} {allocates : Nat → Bool} {next : Nat} {id : UInt16} {type : DataType}

theorem itemStripped_same (howned : data.ownedBuffers = []) (harrays : data.arrays = 0) :
    ItemStripped allocates next data { copied := true, slot := data, source := data, next } where
  owned := by simp only [howned, List.append_nil, List.Perm.refl]
  served _ := ⟨rfl, rfl, by rw [harrays, Nat.add_zero]⟩
  refused h := absurd (harrays ▸ allocates_zero allocates next) h
  skipped h := by cases h

theorem itemStripped_buffer {value : MemoryValue MemoryData} (harrays : valueArrays value = 0) :
    ItemStripped allocates next (.node type id value)
      { copied := true, slot := .node type id value, source := .node type id (.asBuffer none)
        next } where
  owned := by simp only [MemoryData.ownedBuffers, valueBuffers, List.append_nil, List.Perm.refl]
  served _ := ⟨rfl, rfl, by simp only [MemoryData.arrays, harrays, Nat.add_zero]⟩
  refused h := absurd (show Allocates allocates next (valueArrays value) from
    harrays ▸ allocates_zero allocates next) h
  skipped h := by cases h

theorem itemsStripped_nil (allocates : Nat → Bool) (next : Nat) :
    ItemsStripped allocates next [] { filled := 0, slots := [], source := [], next } where
  owned := List.Perm.refl _
  served _ := ⟨rfl, rfl, rfl⟩
  refused h := absurd (allocates_zero allocates next) h

theorem after_buffers {item : ItemStrip} {rest : ItemsStrip}
    (hskipped : item.copied = false → item.slot.ownedBuffers = []) :
    arrayBuffers (ItemsStrip.after item rest).slots =
      item.slot.ownedBuffers ++ arrayBuffers rest.slots := by
  unfold ItemsStrip.after
  cases hcopied : item.copied with
  | true => rfl
  | false =>
    simp only [Bool.false_eq_true, if_false, hskipped hcopied, List.nil_append]
    split
    · next hempty =>
      rw [List.isEmpty_iff.mp hempty]
      simp only [arrayBuffers, hskipped hcopied, List.append_nil]
    · rw [arrayBuffers_append]
      exact List.append_nil _

theorem after_nodes_skipped {item : ItemStrip} {rest : ItemsStrip} (hcopied : item.copied = false)
    {bound : Nat} (hslot : item.slot.contents.nodes < bound) (hbound : 1 < bound) :
    arrayNodes (arrayContents (ItemsStrip.after item rest).slots) <
      bound + arrayNodes (arrayContents rest.slots) := by
  unfold ItemsStrip.after
  simp only [hcopied, Bool.false_eq_true, if_false]
  split
  · next hempty =>
    rw [List.isEmpty_iff.mp hempty]
    simpa only [arrayContents, arrayNodes, Nat.add_zero] using hslot
  · rw [arrayContents_append, arrayNodes_append]
    have hzero : arrayNodes (arrayContents [MemoryData.zero]) = 1 := rfl
    omega

theorem itemsStripped_after {rest : List MemoryData} {item : ItemStrip} {items : ItemsStrip}
    (hitem : ItemStripped allocates next data item)
    (hitems : ItemsStripped allocates item.next rest items) :
    ItemsStripped allocates next (data :: rest) (.after item items) where
  owned := by
    rw [after_buffers fun h => (hitem.skipped h).1]
    have hperm := hitem.owned.append hitems.owned
    refine List.Perm.trans ?_ hperm
    simp only [ItemsStrip.after, arrayBuffers, List.append_assoc]
    refine List.Perm.append_left _ ?_
    simp only [← List.append_assoc]
    exact List.Perm.append_right _ List.perm_append_comm
  served h := by
    obtain ⟨hfirst, hrest⟩ := (allocates_add_iff _ _ _ _).mp h
    obtain ⟨hcopied, hcontents, hnext⟩ := hitem.served hfirst
    obtain ⟨hfilled, hslots, hlast⟩ := hitems.served (hnext ▸ hrest)
    simp only [ItemsStrip.after, hcopied, if_true, hfilled, arrayContents, hcontents, hslots,
      hlast, hnext, List.length_cons, arrayArrays, Nat.add_assoc, and_self]
  refused h := by
    have hle : arrayNodes (arrayContents items.slots) ≤ arrayNodes (arrayContents rest) := by
      by_cases hrest : Allocates allocates item.next (arrayArrays rest)
      · exact Nat.le_of_eq (congrArg arrayNodes (hitems.served hrest).2.1)
      · exact Nat.le_of_lt (hitems.refused hrest)
    by_cases hfirst : Allocates allocates next data.arrays
    · obtain ⟨hcopied, hcontents, hnext⟩ := hitem.served hfirst
      have hrest : ¬ Allocates allocates item.next (arrayArrays rest) := by
        intro hrest
        exact h ((allocates_add_iff _ _ _ _).mpr ⟨hfirst, hnext ▸ hrest⟩)
      have hlt := hitems.refused hrest
      simp only [ItemsStrip.after, hcopied, if_true, arrayContents, arrayNodes, hcontents]
      omega
    · have hlt := hitem.refused hfirst
      simp only [arrayContents, arrayNodes]
      cases hcopied : item.copied with
      | true =>
        simp only [ItemsStrip.after, hcopied, if_true, arrayContents, arrayNodes]
        omega
      | false =>
        have hless :=
          @after_nodes_skipped item items hcopied _ hlt (hitem.skipped hcopied).2
        omega

theorem allocates_succ_iff {arrays : Nat} :
    Allocates allocates next (arrays + 1) ↔
      allocates next = true ∧ Allocates allocates (next + 1) arrays := by
  rw [Nat.add_comm, allocates_add_iff, allocates_one_iff]

theorem itemStripped_container {array : List MemoryData} {items : ItemsStrip}
    (hnext : allocates next = true) (htype : type.hasChildren = true) (harray : array ≠ [])
    (hitems : ItemsStripped allocates (next + 1) array items) :
    ItemStripped allocates next (.node type id (.asChildren array))
      (containerStrip type id
        { returned := array.length, result := some items.slots, filled := items.filled
          source := items.source, next := items.next }) := by
  have hlength : 0 < array.length := List.length_pos_of_ne_nil harray
  have hempty : array.isEmpty = false := List.isEmpty_eq_false_iff.mpr harray
  have hcopied : decide ((0 : Int) < (array.length : Int)) = true := by
    rw [decide_eq_true_eq]
    omega
  refine ⟨?_, fun h => ?_, fun h => ?_, fun h => ?_⟩
  · simpa only [containerStrip, MemoryData.ownedBuffers, valueBuffers, htype, if_true]
      using hitems.owned
  · simp only [MemoryData.arrays, valueArrays, hempty, Bool.false_eq_true, if_false,
      allocates_succ_iff] at h
    obtain ⟨-, hslots, hlast⟩ := hitems.served h.2
    refine ⟨hcopied, ?_, ?_⟩
    · simp only [containerStrip, MemoryData.contents, valueContents, hslots]
    · simp only [containerStrip, MemoryData.arrays, valueArrays, hempty, Bool.false_eq_true,
        if_false, hlast]
      omega
  · simp only [MemoryData.arrays, valueArrays, hempty, Bool.false_eq_true, if_false,
      allocates_succ_iff, hnext, true_and] at h
    have hlt := hitems.refused h
    simp only [containerStrip, MemoryData.contents, valueContents, Lwm2mData.nodes, valueNodes]
    omega
  · exact absurd (hcopied.symm.trans h) Bool.noConfusion

theorem itemStripped_refused {array : List MemoryData} (hnext : allocates next = false)
    (harray : array ≠ []) :
    ItemStripped allocates next (.node type id (.asChildren array))
      (containerStrip type id
        { returned := -1, result := none, filled := 0, source := array, next := next + 1 }) := by
  have hempty : array.isEmpty = false := List.isEmpty_eq_false_iff.mpr harray
  have hnodes : 0 < arrayNodes (arrayContents array) := by
    refine arrayNodes_pos ?_
    cases array with
    | nil => exact absurd rfl harray
    | cons data rest => exact List.cons_ne_nil _ _
  refine ⟨?_, fun h => ?_, fun _ => ?_, fun _ => ⟨?_, ?_⟩⟩
  · simp only [containerStrip, MemoryData.ownedBuffers, valueBuffers, List.nil_append,
      List.Perm.refl]
  · simp only [MemoryData.arrays, valueArrays, hempty, Bool.false_eq_true, if_false,
      allocates_succ_iff, hnext, false_and] at h
  · simp only [containerStrip, MemoryData.contents, valueContents, Lwm2mData.nodes, valueNodes,
      arrayNodes]
    omega
  · simp only [containerStrip, MemoryData.ownedBuffers, valueBuffers]
  · simp only [MemoryData.contents, valueContents, Lwm2mData.nodes, valueNodes]
    omega

theorem stripItems_stripped {allocates : Nat → Bool} {array : List MemoryData}
    (hitem : ∀ data ∈ array, ∀ next, ∃ item, stripItem allocates next data = .ok item ∧
      ItemStripped allocates next data item) :
    ∀ next, ∃ items, stripItems allocates next array = .ok items ∧
      ItemsStripped allocates next array items := by
  induction array with
  | nil =>
    intro next
    exact ⟨_, rfl, itemsStripped_nil allocates next⟩
  | cons data rest ih =>
    intro next
    obtain ⟨item, hrun, hspec⟩ := hitem data List.mem_cons_self next
    obtain ⟨items, hruns, hspecs⟩ :=
      ih (fun data hmem => hitem data (List.mem_cons_of_mem _ hmem)) item.next
    refine ⟨.after item items, ?_, itemsStripped_after hspec hspecs⟩
    simp only [stripItems, hrun, hruns, bind, Except.bind, pure, Except.pure]

theorem stripItem_stripped (hdata : Whole data) :
    ∀ next, ∃ item, stripItem allocates next data = .ok item ∧
      ItemStripped allocates next data item := by
  induction hdata with
  | @fresh type id =>
    intro next
    by_cases hchildren : type.hasChildren = true
    · refine ⟨_, ?_, itemStripped_same rfl rfl⟩
      simp only [stripItem, hchildren, if_true, stripChildren]
    · by_cases hbuffer : type.hasBuffer = true
      · refine ⟨_, ?_, itemStripped_buffer rfl⟩
        simp only [stripItem, hchildren, hbuffer, Bool.false_eq_true, if_false, if_true]
      · refine ⟨_, ?_, itemStripped_same rfl rfl⟩
        simp only [stripItem, hchildren, hbuffer, Bool.false_eq_true, if_false]
  | @buffer type id buffer htype =>
    intro next
    have hchildren : type.hasChildren = false := by
      cases type <;> first | rfl | exact absurd htype Bool.false_ne_true
    refine ⟨_, ?_, itemStripped_buffer rfl⟩
    simp only [stripItem, hchildren, htype, Bool.false_eq_true, if_false, if_true]
  | @children type id array htype _ ih =>
    intro next
    cases array with
    | nil =>
      refine ⟨_, ?_, itemStripped_same ?_ rfl⟩
      · simp only [stripItem, htype, if_true, stripChildren, List.isEmpty_nil]
      · simp only [MemoryData.ownedBuffers, valueBuffers, htype, if_true, arrayBuffers]
    | cons first rest =>
      obtain ⟨items, hrun, hspec⟩ := stripItems_stripped ih (next + 1)
      cases hnext : allocates next with
      | true =>
        refine ⟨_, ?_, itemStripped_container hnext htype (List.cons_ne_nil first rest) hspec⟩
        simp only [stripItem, htype, if_true, stripChildren, List.isEmpty_cons,
          Bool.false_eq_true, if_false, dataStripWith, hnext, hrun, Except.map]
      | false =>
        refine ⟨_, ?_, itemStripped_refused hnext (List.cons_ne_nil first rest)⟩
        simp only [stripItem, htype, if_true, stripChildren, List.isEmpty_cons,
          Bool.false_eq_true, if_false, dataStripWith, hnext, Except.map]
  | @other type id value hchildren hbuffer =>
    intro next
    refine ⟨_, ?_, itemStripped_same rfl rfl⟩
    simp only [stripItem, hchildren, hbuffer, Bool.false_eq_true, if_false]

/-- What a call of `senml_dataStrip` should leave: every buffer on one side, and a result that
says what the nodes said and is as long as it is filled; without a result nothing has changed. -/
structure StripRight (data : List MemoryData) (strip : DataStrip) : Prop where
  owned : (arrayBuffers (strip.result.getD []) ++ arrayBuffers strip.source).Perm
    (arrayBuffers data)
  kept : ∀ result, strip.result = some result →
    arrayContents result = arrayContents data ∧ strip.returned = strip.filled
  nothing : strip.result = none → strip.returned = -1 ∧ strip.source = data

/-- The array of the result is refused, or every array below the nodes is granted. -/
def StripServed (allocates : Nat → Bool) (next : Nat) (data : List MemoryData) : Prop :=
  allocates next = true → Allocates allocates (next + 1) (arrayArrays data)

/-- `senml_dataStrip` ends, moves each buffer or leaves it, and keeps the tree exactly if it is
not short of memory below the top. -/
theorem senmlDataStripAt_iff (allocates : Nat → Bool) (next : Nat) {data : List MemoryData}
    (hdata : ∀ node ∈ data, Whole node) :
    ∃ strip, senmlDataStripAt allocates next data = .ok strip ∧
      (arrayBuffers (strip.result.getD []) ++ arrayBuffers strip.source).Perm
        (arrayBuffers data) ∧
      (StripRight data strip ↔ StripServed allocates next data) := by
  obtain ⟨items, hrun, hspec⟩ :=
    @stripItems_stripped allocates data (fun node hmem => stripItem_stripped (hdata node hmem))
      (next + 1)
  cases data with
  | nil =>
    refine ⟨_, rfl, List.Perm.refl _, fun _ _ => allocates_zero allocates _, fun _ => ?_⟩
    exact ⟨List.Perm.refl _, fun result h => (nomatch h), fun _ => ⟨rfl, rfl⟩⟩
  | cons first rest =>
    cases hnext : allocates next with
    | false =>
      refine ⟨{ returned := -1, result := none, filled := 0, source := first :: rest
                next := next + 1 }, ?_, List.Perm.refl _, ?_, fun _ => ?_⟩
      · simp only [senmlDataStripAt, dataStripWith, List.isEmpty_cons, Bool.false_eq_true,
          if_false, hnext]
      · intro _ h
        exact absurd (hnext.symm.trans h) Bool.false_ne_true
      · exact ⟨List.Perm.refl _, fun result h => (nomatch h), fun _ => ⟨rfl, rfl⟩⟩
    | true =>
      refine ⟨{ returned := ((first :: rest).length : Int), result := some items.slots
                filled := items.filled, source := items.source, next := items.next },
        ?_, hspec.owned, ?_, ?_⟩
      · simp only [senmlDataStripAt, dataStripWith, List.isEmpty_cons, Bool.false_eq_true,
          if_false, hnext, if_true, hrun, Except.map]
      · intro h _
        by_contra hrefused
        have hlt := hspec.refused hrefused
        rw [(h.kept items.slots rfl).1] at hlt
        exact Nat.lt_irrefl _ hlt
      · intro h
        obtain ⟨hfilled, hslots, -⟩ := hspec.served (h hnext)
        refine ⟨hspec.owned, fun result hresult => ?_, fun h => (nomatch h)⟩
        obtain rfl : items.slots = result := Option.some.inj hresult
        exact ⟨hslots, by rw [hfilled]⟩

end Wakaama
