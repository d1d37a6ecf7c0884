import NativeBridge.Heap.State

/-!
# The heap

Arrays and objects live in slots and are counted. A slot whose object is gone is used again under
a new generation, so a handle that outlived its object finds nothing, never a later occupant.

An array holds one reference to every array or object in it, and so does an owning instance to the
handles its state holds. When such an object goes, its references are given up, which may free
further objects. `Heap.cascade` carries this out with a list of slots still to be emptied; it ends
because every slot it adds to the list has just lost its last reference (`weight_surrender`).
-/

namespace NativeBridge

structure Object (σ : Type) where
  state : State σ
  /-- The class it is an instance of, or the empty identity. -/
  classId : Identity
  /-- Whether it holds references to the handles in its state. -/
  owning : Bool
  refCount : Nat

/-- A place in the heap. Its generation changes whenever its object goes. -/
structure Slot (σ : Type) where
  generation : UInt32
  object : Option (Object σ)

/-- Slots, the vacant ones (the last one vacated first) and the number of
objects. -/
structure Heap (σ : Type) where
  slots : Array (Slot σ)
  vacant : List UInt32
  liveCount : Nat

variable {σ : Type}

/-- The handles an object holds references to. -/
def Object.owned [NativeState σ] (object : Object σ) : List Handle :=
  if object.owning then object.state.handles else []

/-- Whether a slot's object has a reference left. An object without one is about
to go. -/
def Slot.isCounted (slot : Slot σ) : Bool :=
  slot.object.any fun object => 0 < object.refCount

namespace Heap

def empty : Heap σ := ⟨#[], [], 0⟩

/-- Counts stop here; they do not wrap around. -/
def maxCount : Nat := UInt32.size - 1

/-- The object a handle refers to, if it is still there. -/
def object? (heap : Heap σ) (handle : Handle) : Option (Object σ) :=
  match heap.slots[handle.index.toNat]? with
  | some slot => if slot.generation = handle.generation then slot.object else none
  | none => none

def contains (heap : Heap σ) (handle : Handle) : Bool :=
  (heap.object? handle).isSome

def refCount? (heap : Heap σ) (handle : Handle) : Option Nat :=
  (heap.object? handle).map Object.refCount

def classOf? (heap : Heap σ) (handle : Handle) : Option Identity :=
  (heap.object? handle).map Object.classId

/-- The state a handle refers to, if it is of the given kind. -/
def get? {α : Type} (heap : Heap σ) (kind : StateKind σ α) (handle : Handle) : Option α :=
  (heap.object? handle).bind fun object => kind.read object.state

/-- Puts an object into a slot. The generation stays. -/
def putObject (heap : Heap σ) (index : UInt32) (object : Object σ) : Heap σ :=
  match heap.slots[index.toNat]? with
  | some slot =>
    { heap with slots := heap.slots.setIfInBounds index.toNat { slot with object := some object } }
  | none => heap

/-- Replaces the state a handle refers to by one of the same kind. No count
changes. -/
def set {α : Type} (heap : Heap σ) (kind : StateKind σ α) (handle : Handle) (a : α) : Heap σ :=
  match heap.object? handle with
  | some object =>
    match kind.read object.state with
    | some _ => heap.putObject handle.index { object with state := kind.write a }
    | none => heap
  | none => heap

/-- Stores a state under one reference, in the slot vacated last or in a new
one. -/
def place [NativeState σ] (heap : Heap σ) (classId : Identity) (owning : Bool) (state : State σ) :
    Handle × Heap σ :=
  let object : Object σ := ⟨state, classId, owning || state.isArray, 1⟩
  let (index, placed) : UInt32 × Heap σ :=
    match heap.vacant with
    | index :: vacant => (index, { heap.putObject index object with vacant })
    | [] => (heap.slots.size.toUInt32, { heap with slots := heap.slots.push ⟨0, some object⟩ })
  let generation := (placed.slots[index.toNat]?.map Slot.generation).getD 0
  (⟨index, generation, state.type⟩, { placed with liveCount := heap.liveCount + 1 })

/-- Stores a state that is no instance of a class. -/
def allocate [NativeState σ] (heap : Heap σ) (state : State σ) : Handle × Heap σ :=
  heap.place Identity.empty false state

def allocateInstance [NativeState σ] (heap : Heap σ) (classId : Identity) (state : State σ) :
    Handle × Heap σ :=
  heap.place classId false state

/-- Stores the state of an instance that holds a reference to each handle in its
state; they are given up when the instance goes. -/
def allocateOwning [NativeState σ] (heap : Heap σ) (classId : Identity) (state : State σ) :
    Handle × Heap σ :=
  heap.place classId true state

/-- Empties a slot and retires its generation; answers the handles its object
held. -/
def evict [NativeState σ] (heap : Heap σ) (index : UInt32) : List Handle × Heap σ :=
  match heap.slots[index.toNat]? with
  | some slot =>
    (slot.object.elim [] Object.owned,
      { slots := heap.slots.setIfInBounds index.toNat ⟨slot.generation + 1, none⟩
        vacant := index :: heap.vacant
        liveCount := heap.liveCount - 1 })
  | none => ([], heap)

/-- Gives up one reference to each of the handles, in order. Slots whose object
lost its last reference are put on the list of those to be emptied; objects
already on it are passed over. -/
def surrender : List Handle → List UInt32 → Heap σ → List UInt32 × Heap σ
  | [], pending, heap => (pending, heap)
  | handle :: rest, pending, heap =>
    match heap.object? handle with
    | some object =>
      if 0 < object.refCount then
        surrender rest (if object.refCount = 1 then handle.index :: pending else pending)
          (heap.putObject handle.index { object with refCount := object.refCount - 1 })
      else surrender rest pending heap
    | none => surrender rest pending heap

/-- The number of objects with a reference left. -/
def weight (heap : Heap σ) : Nat :=
  heap.slots.countP Slot.isCounted

/-- An object with a reference that gets another count goes on being counted,
unless the new count is zero. -/
theorem weight_putObject {heap : Heap σ} {handle : Handle} {object : Object σ} (count : Nat)
    (h : heap.object? handle = some object) (hpos : 0 < object.refCount) :
    (heap.putObject handle.index { object with refCount := count }).weight +
      (if count = 0 then 1 else 0) = heap.weight := by
  unfold object? at h
  split at h
  · rename_i slot hslot
    split at h
    · obtain ⟨hlt, hget⟩ := Array.getElem?_eq_some_iff.1 hslot
      have hcounted : slot.isCounted = true := by simp [Slot.isCounted, h, hpos]
      have hmem : slot ∈ heap.slots := hget ▸ Array.getElem_mem hlt
      have hone : 0 < heap.slots.countP Slot.isCounted :=
        Array.countP_pos_iff.2 ⟨slot, hmem, hcounted⟩
      have hput : Slot.isCounted ⟨slot.generation, some { object with refCount := count }⟩ =
          decide (0 < count) := rfl
      simp only [putObject, hslot, weight, Array.setIfInBounds, hlt, ↓reduceDIte,
        Array.countP_set, hget, hcounted, hput, ↓reduceIte, decide_eq_true_eq]
      split <;> split <;> omega
    · cases h
  · cases h

/-- Giving up references never makes more work than it takes away: an object put
on the list has just stopped being counted. -/
theorem weight_surrender (handles : List Handle) (pending : List UInt32) (heap : Heap σ) :
    (surrender handles pending heap).2.weight + (surrender handles pending heap).1.length =
      heap.weight + pending.length := by
  induction handles generalizing pending heap with
  | nil => rfl
  | cons handle rest ih =>
    unfold surrender
    split
    · rename_i object hobject
      split
      · rename_i hpos
        have hweight := weight_putObject (object.refCount - 1) hobject hpos
        rw [ih]
        by_cases hone : object.refCount = 1
        · simp [hone] at hweight ⊢
          omega
        · have : object.refCount - 1 ≠ 0 := by omega
          simp [hone, this] at hweight ⊢
          omega
      · exact ih pending heap
    · exact ih pending heap

/-- Emptying a slot counts at most one object less and none more, which is what
lets a cascade come to an end. -/
theorem weight_evict_le [NativeState σ] (heap : Heap σ) (index : UInt32) :
    (heap.evict index).2.weight ≤ heap.weight := by
  unfold evict
  split
  · rename_i slot hslot
    obtain ⟨hlt, _⟩ := Array.getElem?_eq_some_iff.1 hslot
    simp only [weight, Array.setIfInBounds, hlt, ↓reduceDIte, Array.countP_set]
    simp [Slot.isCounted]
  · exact Nat.le_refl _

/-- Empties the listed slots, and every slot whose object loses its last
reference by that. -/
def cascade [NativeState σ] (pending : List UInt32) (heap : Heap σ) : Heap σ :=
  match pending with
  | [] => heap
  | index :: rest =>
    let evicted := heap.evict index
    let next := surrender evicted.1 rest evicted.2
    cascade next.1 next.2
termination_by heap.weight + pending.length
decreasing_by
  have hle := weight_evict_le heap index
  have heq := weight_surrender (heap.evict index).1 rest (heap.evict index).2
  simp only [List.length_cons]
  omega

/-- Takes another reference. Answers whether the handle refers to a live
object. -/
def addRef (heap : Heap σ) (handle : Handle) : Bool × Heap σ :=
  match heap.object? handle with
  | some object =>
    (true, heap.putObject handle.index { object with refCount := min (object.refCount + 1) maxCount })
  | none => (false, heap)

/-- Gives up a reference; the object goes with its last one. Answers whether it
went. -/
def release [NativeState σ] (heap : Heap σ) (handle : Handle) : Bool × Heap σ :=
  match heap.object? handle with
  | some object =>
    let remaining := object.refCount - 1
    let heap := heap.putObject handle.index { object with refCount := remaining }
    if 0 < remaining then (false, heap) else (true, cascade [handle.index] heap)
  | none => (false, heap)

/-- Frees an object whatever its count. -/
def free [NativeState σ] (heap : Heap σ) (handle : Handle) : Heap σ :=
  if heap.contains handle then cascade [handle.index] heap else heap

/-- Gives up a reference to each of the handles, in order. -/
def releaseAll [NativeState σ] (heap : Heap σ) (handles : List Handle) : Heap σ :=
  handles.foldl (fun heap handle => (heap.release handle).2) heap

/-- Gives up the reference of a boxed array or object; other values have
none. -/
def releaseValue [NativeState σ] (heap : Heap σ) (value : Value) : Heap σ :=
  heap.releaseAll value.handle?.toList

def retainValue (heap : Heap σ) (value : Value) : Heap σ :=
  match value.handle? with
  | some handle => (heap.addRef handle).2
  | none => heap

def inspect (heap : Heap σ) : String :=
  "ObjectHeap \x7b slots: " ++ toString heap.slots.size ++ ", vacant: " ++
    toString heap.vacant.length ++ ", live: " ++ toString heap.liveCount ++ " \x7d"

end Heap

end NativeBridge
