import NativeBridge.Proofs.Heap.Soundness

namespace NativeBridge

variable {σ : Type} [NativeState σ] {heap : Heap σ}

/-- The object that is stored for a state. -/
def Object.fresh (classId : Identity) (owning : Bool) (state : State σ) : Object σ :=
  ⟨state, classId, owning || state.isArray, 1⟩

namespace Heap

/-- There is a vacant slot or a number for another one. -/
def HasRoom (heap : Heap σ) : Prop :=
  heap.vacant = [] → heap.slots.size < UInt32.size

/-- A heap and the one after an object was put into an empty slot of it or into
a new slot. -/
structure Fills (heap : Heap σ) (handle : Handle) (object : Object σ) (after : Heap σ) : Prop where
  slots : ∀ i, after.slots[i]? =
    if handle.index.toNat = i then some ⟨handle.generation, some object⟩ else heap.slots[i]?
  /-- An empty slot keeps its generation, and a new one starts with the first. -/
  before : (∃ slot, heap.slots[handle.index.toNat]? = some slot ∧ slot.object = none ∧
      slot.generation = handle.generation) ∨
    (heap.slots.size = handle.index.toNat ∧ handle.generation = 0)
  held : after.held = heap.held + tally object.owned
  vacant_nodup : after.vacant.Nodup
  mem_vacant_iff : ∀ index, index ∈ after.vacant ↔ index ∈ heap.vacant ∧ index ≠ handle.index
  liveCount : after.liveCount = heap.liveCount + 1
  countP : (after.slots.countP fun slot => slot.object.isSome) =
    (heap.slots.countP fun slot => slot.object.isSome) + 1

private theorem fills_reused {index : UInt32} {vacant : List UInt32} {slot : Slot σ}
    (object : Object σ) (type : StateType) (htidy : heap.Tidy)
    (hvacant : heap.vacant = index :: vacant)
    (hslot : heap.slots[index.toNat]? = some slot) (hnone : slot.object = none) :
    heap.Fills ⟨index, slot.generation, type⟩ object
      { heap.putObject index object with vacant, liveCount := heap.liveCount + 1 } := by
  have hnodup := htidy.vacant_nodup
  rw [hvacant, List.nodup_cons] at hnodup
  obtain ⟨hlt, hget⟩ := Array.getElem?_eq_some_iff.1 hslot
  constructor
  · intro i
    simp only [getElem?_slots_putObject]
    split
    · rename_i hi
      rw [← hi, hslot]
      rfl
    · rfl
  · exact Or.inl ⟨slot, hslot, hnone, rfl⟩
  · have hheld := held_putObject hslot object
    have hnothing : slot.owned = [] := by simp [Slot.owned, hnone]
    rw [hnothing, tally_nil, add_zero] at hheld
    exact hheld
  · exact hnodup.2
  · intro other
    simp only [hvacant, List.mem_cons]
    constructor
    · intro hmem
      exact ⟨Or.inr hmem, fun heq => hnodup.1 (heq ▸ hmem)⟩
    · rintro ⟨heq | hmem, hne⟩
      · exact absurd heq hne
      · exact hmem
  · rfl
  · simp [putObject, Array.setIfInBounds, hlt, Array.countP_set, hget, hnone]

private theorem fills_added (object : Object σ) (type : StateType) (htidy : heap.Tidy)
    (hvacant : heap.vacant = []) (hroom : heap.slots.size < UInt32.size) :
    heap.Fills ⟨heap.slots.size.toUInt32, 0, type⟩ object
      { heap with slots := heap.slots.push ⟨0, some object⟩, liveCount := heap.liveCount + 1 } := by
  have hindex : heap.slots.size.toUInt32.toNat = heap.slots.size :=
    UInt32.toNat_ofNat_of_lt' hroom
  constructor
  · intro i
    simp only [Array.getElem?_push, hindex, eq_comm]
  · exact Or.inr ⟨hindex.symm, rfl⟩
  · funext tenancy
    simp [Heap.held, Slot.owned]
  · exact htidy.vacant_nodup
  · simp [hvacant]
  · rfl
  · simp

/-- What allocation does, whether or not a slot is used again. All that is known
of allocation goes through this. -/
theorem fills_place (htidy : heap.Tidy) (hroom : heap.HasRoom) (classId : Identity)
    (owning : Bool) (state : State σ) :
    heap.Fills (heap.place classId owning state).1 (Object.fresh classId owning state)
      (heap.place classId owning state).2 := by
  cases hvacant : heap.vacant with
  | nil =>
    have h := fills_added (Object.fresh classId owning state) state.type htidy hvacant
      (hroom hvacant)
    have hindex : heap.slots.size.toUInt32.toNat = heap.slots.size :=
      UInt32.toNat_ofNat_of_lt' (hroom hvacant)
    have hplace : heap.place classId owning state =
        (⟨heap.slots.size.toUInt32, 0, state.type⟩,
          { heap with
            slots := heap.slots.push ⟨0, some (Object.fresh classId owning state)⟩
            liveCount := heap.liveCount + 1 }) := by
      simp [place, hvacant, hindex, Object.fresh]
    rw [hplace]
    exact h
  | cons index vacant =>
    obtain ⟨slot, hslot, hnone⟩ := (htidy.mem_vacant_iff index).1 (by simp [hvacant])
    have h := fills_reused (Object.fresh classId owning state) state.type htidy hvacant hslot hnone
    have hplace : heap.place classId owning state =
        (⟨index, slot.generation, state.type⟩,
          { heap.putObject index (Object.fresh classId owning state) with
            vacant
            liveCount := heap.liveCount + 1 }) := by
      simp [place, hvacant, getElem?_slots_putObject, hslot, Object.fresh]
    rw [hplace]
    exact h

namespace Fills

variable {handle : Handle} {object : Object σ} {after : Heap σ}

/-- The new object is found by the handles of its tenancy, and every other
handle finds what it found before. -/
theorem object?_eq (h : heap.Fills handle object after) (other : Handle) :
    after.object? other =
      if other.tenancy = handle.tenancy then some object else heap.object? other := by
  by_cases hindex : other.index = handle.index
  · by_cases hgen : other.generation = handle.generation
    · simp [Heap.object?, h.slots, Handle.tenancy_eq_iff, hindex, hgen]
    · rw [if_neg (fun heq => hgen (Handle.tenancy_eq_iff.1 heq).2)]
      obtain ⟨slot, hslot, hnone, _⟩ | ⟨hsize, _⟩ := h.before
      · simp [Heap.object?, h.slots, hindex, Ne.symm hgen, hslot, hnone]
      · simp [Heap.object?, h.slots, hindex, Ne.symm hgen, ← hsize]
  · have hne : handle.index.toNat ≠ other.index.toNat :=
      fun heq => hindex (UInt32.toNat_inj.1 heq).symm
    rw [if_neg (fun heq => hindex (Handle.tenancy_eq_iff.1 heq).1)]
    apply object?_eq_of_slots_eq
    simp [h.slots, hne]

/-- No handle of the slot was live before, whatever its generation. -/
theorem object?_eq_none (h : heap.Fills handle object after) {other : Handle}
    (hindex : other.index = handle.index) : heap.object? other = none := by
  obtain ⟨slot, hslot, hnone, _⟩ | ⟨hsize, _⟩ := h.before
  · simp [Heap.object?, hindex, hslot, hnone]
  · simp [Heap.object?, hindex, ← hsize]

private theorem tidy (h : heap.Fills handle object after) (htidy : heap.Tidy)
    (hpos : 0 < object.refCount) : after.Tidy := by
  constructor
  · exact h.vacant_nodup
  · intro index
    rw [h.mem_vacant_iff, htidy.mem_vacant_iff]
    by_cases hindex : index = handle.index
    · simp [IsVacant, hindex, h.slots]
    · have hne : handle.index.toNat ≠ index.toNat :=
        fun heq => hindex (UInt32.toNat_inj.1 heq).symm
      simp [IsVacant, h.slots, hne, hindex]
  · rw [h.liveCount, h.countP, htidy.liveCount_eq]
  · exact List.nodup_nil
  · intro index hmem
    cases hmem
  · intro other found hfound
    rw [h.object?_eq] at hfound
    split at hfound
    · cases hfound
      simpa using Nat.ne_of_gt hpos
    · simpa using htidy.refCount_eq_zero_iff other found hfound

private theorem size_le (h : heap.Fills handle object after)
    (hsize : heap.slots.size ≤ UInt32.size) : after.slots.size ≤ UInt32.size := by
  rw [← Array.getElem?_eq_none_iff, h.slots, if_neg (Nat.ne_of_lt handle.index.toNat_lt_size)]
  exact Array.getElem?_eq_none hsize

/-- A sound heap is sound after an allocation, if the new object starts out with
a reference. -/
theorem sound (h : heap.Fills handle object after) (hsound : heap.Sound)
    (hpos : 0 < object.refCount) : after.Sound :=
  (h.tidy hsound.tidy hpos).sound (h.size_le hsound.size_le)

end Fills

omit [NativeState σ] in
/-- A slot beyond the last number can be added, but nothing refers to it. It
only counts among the live objects. -/
theorem tidy_push (htidy : heap.Tidy) (hsize : UInt32.size ≤ heap.slots.size) (slot : Slot σ)
    (hsome : slot.object.isSome = true) :
    Tidy { heap with slots := heap.slots.push slot, liveCount := heap.liveCount + 1 } := by
  have hslots : ∀ index : UInt32, (heap.slots.push slot)[index.toNat]? =
      heap.slots[index.toNat]? := by
    intro index
    have hlt := index.toNat_lt_size
    rw [Array.getElem?_push, if_neg (by omega)]
  have hobject : ∀ handle : Handle,
      Heap.object? { heap with
        slots := heap.slots.push slot, liveCount := heap.liveCount + 1 } handle =
          heap.object? handle :=
    fun handle => object?_eq_of_slots_eq (hslots handle.index)
  constructor
  · exact htidy.vacant_nodup
  · intro index
    simp only [htidy.mem_vacant_iff, IsVacant, hslots]
  · simp [htidy.liveCount_eq, hsome]
  · exact List.nodup_nil
  · intro index hmem
    cases hmem
  · intro handle object hfound
    rw [hobject] at hfound
    exact htidy.refCount_eq_zero_iff handle object hfound

/-- Allocation keeps a heap tidy, also where the numbers for slots have run
out. -/
theorem Tidy.place (htidy : heap.Tidy) (classId : Identity) (owning : Bool) (state : State σ) :
    (heap.place classId owning state).2.Tidy := by
  by_cases hroom : heap.HasRoom
  · exact (fills_place htidy hroom classId owning state).tidy htidy Nat.one_pos
  · obtain ⟨hvacant, hsize⟩ : heap.vacant = [] ∧ UInt32.size ≤ heap.slots.size := by
      simpa only [HasRoom, Classical.not_imp, Nat.not_lt] using hroom
    have hpush := tidy_push htidy hsize ⟨0, some (Object.fresh classId owning state)⟩ rfl
    simpa only [Heap.place, hvacant, Object.fresh] using hpush

end Heap

end NativeBridge
