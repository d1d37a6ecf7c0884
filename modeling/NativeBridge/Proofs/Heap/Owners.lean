import Mathlib.Algebra.GroupWithZero.Nat
import Mathlib.Algebra.Group.Pi.Basic
import NativeBridge.Proofs.Heap.Slots

namespace NativeBridge

/-- How often each object is among the handles. -/
def tally (handles : List Handle) (tenancy : Tenancy) : Nat :=
  handles.countP fun handle => handle.tenancy = tenancy

@[simp]
theorem tally_nil : tally [] = 0 := rfl

theorem tally_cons (handle : Handle) (rest : List Handle) :
    tally (handle :: rest) = tally rest + tally [handle] := by
  funext tenancy
  simp [tally, List.countP_cons]

theorem tally_append (first second : List Handle) :
    tally (first ++ second) = tally first + tally second := by
  funext tenancy
  simp [tally]

/-- The order in which references are held does not matter, so balance is told
by how often each object is held. -/
theorem tally_perm {first second : List Handle} (h : first.Perm second) :
    tally first = tally second :=
  funext fun _ => h.countP_eq _

/-- One handle is one reference to the object of its tenancy. -/
theorem tally_singleton (handle : Handle) (tenancy : Tenancy) :
    tally [handle] tenancy = if tenancy = handle.tenancy then 1 else 0 := by
  simp [tally, List.countP_cons, eq_comm]

theorem tally_cons_self (handle : Handle) (rest : List Handle) :
    tally (handle :: rest) handle.tenancy = tally rest handle.tenancy + 1 := by
  simp [tally_cons handle rest, tally_singleton]

theorem tally_cons_of_ne {handle other : Handle} (hne : other.tenancy ≠ handle.tenancy)
    (rest : List Handle) :
    tally (handle :: rest) other.tenancy = tally rest other.tenancy := by
  simp [tally_cons handle rest, tally_singleton, hne]

/-- An object is held nowhere among handles when none of them has its
tenancy. -/
theorem tally_eq_zero_iff {handles : List Handle} {tenancy : Tenancy} :
    tally handles tenancy = 0 ↔ ∀ handle ∈ handles, handle.tenancy ≠ tenancy := by
  simp [tally]

/-- The handles that the object in a slot holds references to. -/
def Slot.owned {σ : Type} [NativeState σ] (slot : Slot σ) : List Handle :=
  slot.object.elim [] Object.owned

namespace Heap

variable {σ : Type} [NativeState σ] {heap : Heap σ} {owners : Tenancy → Nat}

/-- How many references to an object are held in the heap. -/
def held (heap : Heap σ) (tenancy : Tenancy) : Nat :=
  (heap.slots.toList.map fun slot => tally slot.owned tenancy).sum

/-- Each count says how many owners the object has, outside of the heap and in
it. -/
def BalancedFor (heap : Heap σ) (owners : Tenancy → Nat) : Prop :=
  ∀ handle object, heap.object? handle = some object →
    object.refCount = owners handle.tenancy + heap.held handle.tenancy

/-- All objects save those of one slot have as many owners as their counts
say. -/
def BalancedOff (index : UInt32) (heap : Heap σ) (owners : Tenancy → Nat) : Prop :=
  ∀ handle object, heap.object? handle = some object → handle.index ≠ index →
    object.refCount = owners handle.tenancy + heap.held handle.tenancy

/-- A balanced heap is balanced save for any one slot. Emptying a slot gives up
the balance of its object alone. -/
theorem BalancedFor.off (h : heap.BalancedFor owners) (index : UInt32) :
    BalancedOff index heap owners :=
  fun handle object hobject _ => h handle object hobject

/-- Only the owners of live objects matter. What is said of tenancies that are
over may be anything. -/
theorem BalancedFor.congr {others : Tenancy → Nat} (h : heap.BalancedFor owners)
    (heq : ∀ handle, heap.contains handle = true →
      owners handle.tenancy = others handle.tenancy) : heap.BalancedFor others := by
  intro handle object hobject
  rw [← heq handle (contains_iff.2 ⟨object, hobject⟩)]
  exact h handle object hobject

/-- Balance can be told slot by slot, so it can be computed. Slots without a
number are left out on both sides, since no handle refers to them. -/
theorem balancedFor_iff_slots : heap.BalancedFor owners ↔
    ∀ i : Fin heap.slots.size, i.val < UInt32.size → ∀ object ∈ heap.slots[i].object,
      object.refCount = owners ⟨i.val.toUInt32, heap.slots[i].generation⟩ +
        heap.held ⟨i.val.toUInt32, heap.slots[i].generation⟩ := by
  constructor
  · intro h i hlt object hobject
    have hi : i.val.toUInt32.toNat = i.val := UInt32.toNat_ofNat_of_lt' hlt
    refine h ⟨i.val.toUInt32, heap.slots[i].generation, NativeState.arrayType σ⟩ object ?_
    exact object?_eq_some_iff.2 ⟨heap.slots[i], by simp [hi], rfl, hobject⟩
  · intro h handle object hobject
    obtain ⟨slot, hslot, hgen, hsome⟩ := object?_eq_some_iff.1 hobject
    obtain ⟨hlt, hget⟩ := Array.getElem?_eq_some_iff.1 hslot
    have hcount := h ⟨handle.index.toNat, hlt⟩ handle.index.toNat_lt_size object
      (by simp [hget, hsome])
    simp only [Fin.getElem_fin, hget, hgen, Nat.toUInt32_eq, UInt32.ofNat_toNat] at hcount
    exact hcount

instance : Decidable (heap.BalancedFor owners) :=
  decidable_of_iff _ balancedFor_iff_slots.symm

private theorem sum_map_set {α : Type} (f : α → Nat) {l : List α} {i : Nat} {a : α} (b : α)
    (h : l[i]? = some a) : ((l.set i b).map f).sum + f a = (l.map f).sum + f b := by
  induction l generalizing i with
  | nil => cases h
  | cons first rest ih =>
    cases i with
    | zero =>
      cases h
      simp only [List.set_cons_zero, List.map_cons, List.sum_cons]
      omega
    | succ i =>
      have := ih (i := i) (by simpa using h)
      simp only [List.set_cons_succ, List.map_cons, List.sum_cons]
      omega

private theorem held_set {heap after : Heap σ} {i : Nat} {slot : Slot σ} (new : Slot σ)
    (hslot : heap.slots[i]? = some slot) (hset : after.slots = heap.slots.setIfInBounds i new)
    (tenancy : Tenancy) :
    after.held tenancy + tally slot.owned tenancy =
      heap.held tenancy + tally new.owned tenancy := by
  have hget : heap.slots.toList[i]? = some slot := by
    rw [Array.getElem?_toList]
    exact hslot
  unfold held
  rw [hset, Array.toList_setIfInBounds]
  exact sum_map_set (fun slot => tally slot.owned tenancy) new hget

/-- References move into the heap with the object that holds them, and out of it
with the one that it takes the place of. -/
theorem held_putObject {index : UInt32} {slot : Slot σ}
    (hslot : heap.slots[index.toNat]? = some slot) (object : Object σ) :
    (heap.putObject index object).held + tally slot.owned = heap.held + tally object.owned := by
  funext tenancy
  exact held_set { slot with object := some object } hslot (by simp [putObject, hslot]) tenancy

/-- An object that gets another count holds what it held before. -/
theorem held_putObject_refCount {handle : Handle} {object : Object σ}
    (h : heap.object? handle = some object) (count : Nat) :
    (heap.putObject handle.index { object with refCount := count }).held = heap.held := by
  obtain ⟨slot, hslot, _, hobject⟩ := object?_eq_some_iff.1 h
  have hheld := held_putObject hslot { object with refCount := count }
  have howned : tally slot.owned = tally ({ object with refCount := count } : Object σ).owned := by
    simp [Slot.owned, hobject, Object.owned]
  rw [howned] at hheld
  exact add_right_cancel hheld

/-- The object of an emptied slot gives up what it held. Nobody answers for
these references until they are given up in turn. -/
theorem held_evict (heap : Heap σ) (index : UInt32) :
    (heap.evict index).2.held + tally (heap.evict index).1 = heap.held := by
  unfold evict
  split
  · rename_i slot hslot
    funext tenancy
    have hslots : (heap.evict index).2.slots =
        heap.slots.setIfInBounds index.toNat ⟨slot.generation + 1, none⟩ := by
      simp [evict, hslot]
    simpa [evict, hslot, Slot.owned] using held_set _ hslot hslots tenancy
  · simp

/-- A reference taken by somebody outside of the heap is one owner and one count
more for its object. -/
theorem BalancedFor.raise {handle : Handle} {object : Object σ} (h : heap.BalancedFor owners)
    (hobject : heap.object? handle = some object) :
    (heap.putObject handle.index { object with refCount := object.refCount + 1 }).BalancedFor
      (owners + tally [handle]) := by
  intro other found hfound
  rw [object?_putObject hobject] at hfound
  rw [held_putObject_refCount hobject, Pi.add_apply, tally_singleton]
  split at hfound
  · rename_i heq
    cases hfound
    simp only [heq, ↓reduceIte, h handle object hobject]
    omega
  · rename_i hne
    simpa [hne] using h other found hfound

/-- A reference given up by somebody outside of the heap is one owner and one
count less. The object may be left with none. -/
theorem BalancedFor.lower {handle : Handle} {object : Object σ}
    (h : heap.BalancedFor (owners + tally [handle])) (hobject : heap.object? handle = some object) :
    (heap.putObject handle.index { object with refCount := object.refCount - 1 }).BalancedFor
      owners := by
  intro other found hfound
  rw [object?_putObject hobject] at hfound
  rw [held_putObject_refCount hobject]
  split at hfound
  · rename_i heq
    cases hfound
    have := h handle object hobject
    simp only [Pi.add_apply, tally_singleton, ↓reduceIte] at this
    simp only [heq, this]
    omega
  · rename_i hne
    simpa [tally_singleton, hne] using h other found hfound

/-- A stale handle makes no difference. Whoever holds one owns nothing by it. -/
theorem BalancedFor.drop_stale {handle : Handle} (h : heap.BalancedFor (owners + tally [handle]))
    (hstale : heap.object? handle = none) : heap.BalancedFor owners := by
  refine h.congr fun other hlive => ?_
  obtain ⟨object, hobject⟩ := contains_iff.1 hlive
  have hne : other.tenancy ≠ handle.tenancy := by
    intro heq
    rw [object?_congr heq, hstale] at hobject
    cases hobject
  simp [tally_singleton, hne]

/-- Once a slot is emptied, somebody outside of the heap has to answer for what
its object held. The count of that object need not have been right. -/
theorem BalancedOff.evict {index : UInt32} (h : BalancedOff index heap owners) :
    (heap.evict index).2.BalancedFor (owners + tally (heap.evict index).1) := by
  intro handle object hobject
  rw [object?_evict] at hobject
  split at hobject
  · cases hobject
  · rename_i hne
    have hheld := congrFun (held_evict heap index) handle.tenancy
    have hcount := h handle object hobject hne
    simp only [Pi.add_apply] at hheld ⊢
    omega

end Heap

end NativeBridge
