import NativeBridge.Heap

namespace NativeBridge

/-- A slot under one of its generations. Handles with the same tenancy refer to
the same object, whatever their types. -/
structure Tenancy where
  index : UInt32
  generation : UInt32
deriving DecidableEq, Repr

def Handle.tenancy (handle : Handle) : Tenancy :=
  ⟨handle.index, handle.generation⟩

theorem Handle.tenancy_eq_iff {first second : Handle} :
    first.tenancy = second.tenancy ↔
      first.index = second.index ∧ first.generation = second.generation := by
  simp [Handle.tenancy]

namespace Heap

variable {σ : Type} {heap : Heap σ}

/-- A handle finds the object in its slot while the slot has its generation. The
type that the handle carries along plays no part. -/
theorem object?_eq_some_iff {handle : Handle} {object : Object σ} :
    heap.object? handle = some object ↔
      ∃ slot, heap.slots[handle.index.toNat]? = some slot ∧
        slot.generation = handle.generation ∧ slot.object = some object := by
  unfold object?
  constructor
  · intro h
    split at h
    · rename_i slot hslot
      split at h
      · rename_i hgen
        exact ⟨slot, hslot, hgen, h⟩
      · cases h
    · cases h
  · rintro ⟨slot, hslot, hgen, hobject⟩
    simp [hslot, hgen, hobject]

/-- Handles of one tenancy find the same. -/
theorem object?_congr {first second : Handle} (h : first.tenancy = second.tenancy) :
    heap.object? first = heap.object? second := by
  obtain ⟨hindex, hgen⟩ := Handle.tenancy_eq_iff.1 h
  simp [object?, hindex, hgen]

/-- A handle of a slot that looks the same in another heap finds the same
there. -/
theorem object?_eq_of_slots_eq {other : Heap σ} {handle : Handle}
    (h : other.slots[handle.index.toNat]? = heap.slots[handle.index.toNat]?) :
    other.object? handle = heap.object? handle := by
  simp [object?, h]

theorem contains_iff {handle : Handle} :
    heap.contains handle = true ↔ ∃ object, heap.object? handle = some object := by
  simp [contains, Option.isSome_iff_exists]

/-- A slot has one object at a time, so two live handles of one slot have the
same tenancy. -/
theorem tenancy_eq_of_object? {first second : Handle} {object other : Object σ}
    (hfirst : heap.object? first = some object) (hsecond : heap.object? second = some other)
    (hindex : first.index = second.index) : first.tenancy = second.tenancy := by
  obtain ⟨slot, hslot, hgen, _⟩ := object?_eq_some_iff.1 hfirst
  obtain ⟨slot', hslot', hgen', _⟩ := object?_eq_some_iff.1 hsecond
  rw [hindex, hslot'] at hslot
  cases hslot
  exact Handle.tenancy_eq_iff.2 ⟨hindex, hgen.symm.trans hgen'⟩

/-- What holds of the objects in all slots holds of the live ones. Facts about
every handle can be computed by it, as there are finitely many slots. -/
theorem forall_object?_of_slots {p : Object σ → Prop}
    (h : ∀ slot ∈ heap.slots.toList, ∀ object ∈ slot.object, p object) (handle : Handle)
    (object : Object σ) (hobject : heap.object? handle = some object) : p object := by
  obtain ⟨slot, hslot, _, hsome⟩ := object?_eq_some_iff.1 hobject
  exact h slot (Array.mem_toList_iff.2 (Array.mem_of_getElem? hslot)) object hsome

/-- Putting an object into a slot changes this slot alone, and not its
generation. An index without a slot changes nothing. -/
theorem getElem?_slots_putObject (heap : Heap σ) (index : UInt32) (object : Object σ) (i : Nat) :
    (heap.putObject index object).slots[i]? =
      if index.toNat = i then heap.slots[i]?.map fun slot => { slot with object := some object }
      else heap.slots[i]? := by
  unfold putObject
  split
  · rename_i slot hslot
    by_cases hi : index.toNat = i
    · subst hi
      obtain ⟨hlt, hget⟩ := Array.getElem?_eq_some_iff.1 hslot
      simp [hlt, hget]
    · simp [hi]
  · rename_i hnone
    by_cases hi : index.toNat = i
    · subst hi
      simp [hnone]
    · simp [hi]

theorem size_slots_putObject (heap : Heap σ) (index : UInt32) (object : Object σ) :
    (heap.putObject index object).slots.size = heap.slots.size := by
  unfold putObject
  split <;> simp

@[simp]
theorem vacant_putObject (heap : Heap σ) (index : UInt32) (object : Object σ) :
    (heap.putObject index object).vacant = heap.vacant := by
  unfold putObject
  split <;> rfl

@[simp]
theorem liveCount_putObject (heap : Heap σ) (index : UInt32) (object : Object σ) :
    (heap.putObject index object).liveCount = heap.liveCount := by
  unfold putObject
  split <;> rfl

/-- An object put in the place of a live one is found through the handles of the
old one; all other handles find what they found before. -/
theorem object?_putObject {handle : Handle} {old : Object σ}
    (h : heap.object? handle = some old) (object : Object σ) (other : Handle) :
    (heap.putObject handle.index object).object? other =
      if other.tenancy = handle.tenancy then some object else heap.object? other := by
  obtain ⟨slot, hslot, hgen, _⟩ := object?_eq_some_iff.1 h
  by_cases hindex : other.index = handle.index
  · by_cases hgen' : other.generation = handle.generation
    · simp [object?, getElem?_slots_putObject, Handle.tenancy_eq_iff, hindex, hgen', hslot, hgen]
    · simp [object?, getElem?_slots_putObject, Handle.tenancy_eq_iff, hindex, hgen', hslot, hgen,
        Ne.symm hgen']
  · have hne : handle.index.toNat ≠ other.index.toNat :=
      fun heq => hindex (UInt32.toNat_inj.1 heq).symm
    rw [if_neg (fun heq => hindex (Handle.tenancy_eq_iff.1 heq).1)]
    apply object?_eq_of_slots_eq
    simp [getElem?_slots_putObject, hne]

private theorem eq_of_getElem? {first second : Heap σ}
    (hslots : ∀ i : Nat, first.slots[i]? = second.slots[i]?)
    (hvacant : first.vacant = second.vacant) (hlive : first.liveCount = second.liveCount) :
    first = second := by
  obtain ⟨slots, vacant, liveCount⟩ := first
  obtain ⟨slots', vacant', liveCount'⟩ := second
  obtain rfl := Array.ext_getElem? hslots
  cases hvacant
  cases hlive
  rfl

/-- Of two objects put into one slot the second stays. -/
theorem putObject_putObject (heap : Heap σ) (index : UInt32) (first second : Object σ) :
    (heap.putObject index first).putObject index second = heap.putObject index second := by
  refine eq_of_getElem? (fun i => ?_) (by simp) (by simp)
  simp only [getElem?_slots_putObject]
  split <;> simp [Function.comp_def]

/-- Putting a live object into its own place changes nothing. -/
theorem putObject_self {handle : Handle} {object : Object σ}
    (hobject : heap.object? handle = some object) :
    heap.putObject handle.index object = heap := by
  obtain ⟨slot, hslot, _, hsome⟩ := object?_eq_some_iff.1 hobject
  refine eq_of_getElem? (fun i => ?_) (by simp) (by simp)
  rw [getElem?_slots_putObject]
  split
  · rename_i hi
    rw [← hi, hslot, ← hsome]
    rfl
  · rfl

variable [NativeState σ]

/-- Emptying a slot takes its object and moves it to the next generation, and
leaves every other slot alone. The generation may wrap around. -/
theorem getElem?_slots_evict (heap : Heap σ) (index : UInt32) (i : Nat) :
    (heap.evict index).2.slots[i]? =
      if index.toNat = i then heap.slots[i]?.map fun slot => ⟨slot.generation + 1, none⟩
      else heap.slots[i]? := by
  unfold evict
  split
  · rename_i slot hslot
    by_cases hi : index.toNat = i
    · subst hi
      obtain ⟨hlt, hget⟩ := Array.getElem?_eq_some_iff.1 hslot
      simp [hlt, hget]
    · simp [hi]
  · rename_i hnone
    by_cases hi : index.toNat = i
    · subst hi
      simp [hnone]
    · simp [hi]

/-- Emptying a slot makes its handles stale and leaves alone all others. Handles
of the next generation find nothing yet. -/
theorem object?_evict (heap : Heap σ) (index : UInt32) (other : Handle) :
    (heap.evict index).2.object? other =
      if other.index = index then none else heap.object? other := by
  by_cases hindex : other.index = index
  · subst hindex
    cases hslot : heap.slots[other.index.toNat]? <;>
      simp [object?, getElem?_slots_evict, hslot]
  · have hne : index.toNat ≠ other.index.toNat :=
      fun heq => hindex (UInt32.toNat_inj.1 heq).symm
    rw [if_neg hindex]
    apply object?_eq_of_slots_eq
    simp [getElem?_slots_evict, hne]

end Heap

end NativeBridge
