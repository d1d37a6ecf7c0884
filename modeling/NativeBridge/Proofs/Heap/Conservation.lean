import Mathlib.Logic.Function.Basic
import NativeBridge.Proofs.Heap.Reached
import NativeBridge.Sample.State

namespace NativeBridge.Heap

variable {σ : Type} [NativeState σ] {heap after : Heap σ} {owners : Tenancy → Nat}

/-- Owning states hold only handles that were handed out. -/
def HoldsOnly (heap : Heap σ) (issued : List Tenancy) : Prop :=
  ∀ slot ∈ heap.slots, ∀ handle ∈ slot.owned, handle.tenancy ∈ issued

instance (issued : List Tenancy) : Decidable (heap.HoldsOnly issued) :=
  inferInstanceAs (Decidable (∀ slot ∈ heap.slots, ∀ handle ∈ slot.owned, handle.tenancy ∈ issued))

private theorem HoldsOnly.held_eq_zero {issued : List Tenancy} (h : heap.HoldsOnly issued)
    {tenancy : Tenancy} (hnew : tenancy ∉ issued) : heap.held tenancy = 0 := by
  unfold held
  rw [List.sum_eq_zero_iff_forall_eq_nat]
  intro count hcount
  obtain ⟨slot, hslot, rfl⟩ := List.mem_map.1 hcount
  rw [tally_eq_zero_iff]
  intro handle hmem heq
  exact hnew (heq ▸ h slot (Array.mem_def.2 hslot) handle hmem)

/-- The references of a new object come from owners outside of the heap, and it
starts out with one owner. That nothing refers to it yet is what the last two
premises say. -/
theorem Fills.balanced {handle : Handle} {object : Object σ} (h : heap.Fills handle object after)
    (hbalanced : heap.BalancedFor (owners + tally object.owned)) (hone : object.refCount = 1)
    (hunheld : heap.held handle.tenancy = 0) (hnew : tally object.owned handle.tenancy = 0) :
    after.BalancedFor (Function.update owners handle.tenancy 1) := by
  intro other found hfound
  rw [h.object?_eq] at hfound
  rw [h.held, Pi.add_apply]
  split at hfound
  · rename_i heq
    cases hfound
    rw [heq, Function.update_self, hone, hunheld, hnew]
  · rename_i hne
    rw [Function.update_of_ne hne]
    have hcount := hbalanced other found hfound
    rw [Pi.add_apply] at hcount
    omega

/-- In a balanced heap somebody owns each object, since its count is not zero
between operations. -/
theorem BalancedFor.owned (h : heap.BalancedFor owners) (hsound : heap.Sound) {handle : Handle}
    (hlive : heap.contains handle = true) :
    0 < owners handle.tenancy ∨ 0 < heap.held handle.tenancy := by
  obtain ⟨object, hobject⟩ := contains_iff.1 hlive
  have hcount := h handle object hobject
  have hpos := hsound.refCount_pos hobject
  omega

/-- What was live outlives a release exactly when somebody still owns it. The
owners in the heap are those that are left in it. -/
theorem BalancedFor.contains_release_iff {handle other : Handle} (hsound : heap.Sound)
    (h : heap.BalancedFor (owners + tally [handle])) (hlive : heap.contains other = true) :
    (heap.release handle).2.contains other = true ↔
      0 < owners other.tenancy ∨ 0 < (heap.release handle).2.held other.tenancy := by
  constructor
  · exact h.release.owned (hsound.release handle)
  · intro howned
    by_contra hgone
    have hunowned := h.unowned_of_release hlive (by simpa using hgone)
    omega

/-- What was live outlives freeing another object exactly when somebody still
owns it. -/
theorem BalancedFor.contains_free_iff {handle other : Handle} (hsound : heap.Sound)
    (h : heap.BalancedFor owners) (hlive : heap.contains other = true)
    (hne : other.tenancy ≠ handle.tenancy) :
    (heap.free handle).contains other = true ↔
      0 < owners other.tenancy ∨ 0 < (heap.free handle).held other.tenancy := by
  constructor
  · exact (h.free handle).owned (hsound.free handle)
  · intro howned
    by_contra hgone
    have hunowned := h.unowned_of_free hlive hne (by simpa using hgone)
    omega

/-- An allocation takes over what its state owns from those who owned it, and
its caller becomes the owner of the new object. Its tenancy is new, so nobody
has a reference to it before. -/
theorem BalancedFor.place {issued : List Tenancy} (hreached : heap.Reached issued)
    (hbalanced : heap.BalancedFor owners) (hknown : heap.HoldsOnly issued) (hroom : heap.HasRoom)
    (classId : Identity) (owning : Bool) (state : State σ)
    (howned : ∀ handle ∈ (Object.fresh classId owning state).owned, handle.tenancy ∈ issued ∧
      (heap.contains handle = true →
        tally (Object.fresh classId owning state).owned handle.tenancy ≤ owners handle.tenancy)) :
    (heap.place classId owning state).2.BalancedFor
      (Function.update (owners - tally (Object.fresh classId owning state).owned)
        (heap.place classId owning state).1.tenancy 1) := by
  have hfills := fills_place hreached.sound.tidy hroom classId owning state
  have hnew : (heap.place classId owning state).1.tenancy ∉ issued :=
    fun hmem => hfills.not_hasBegun (hreached.hasBegun _ hmem)
  refine hfills.balanced ?_ rfl (hknown.held_eq_zero hnew) ?_
  · -- what is moved out of the owners' share is there for every live object
    refine hbalanced.congr fun handle hlive => ?_
    simp only [Pi.add_apply, Pi.sub_apply]
    by_cases hnone : tally (Object.fresh classId owning state).owned handle.tenancy = 0
    · omega
    · obtain ⟨found, hmem, heq⟩ : ∃ found ∈ (Object.fresh classId owning state).owned,
          found.tenancy = handle.tenancy := by
        simpa only [tally_eq_zero_iff, not_forall, not_not, exists_prop] using hnone
      have hle := (howned found hmem).2 (by rw [contains, object?_congr heq]; exact hlive)
      rw [heq] at hle
      omega
  · rw [tally_eq_zero_iff]
    intro handle hmem heq
    exact hnew (heq ▸ (howned handle hmem).1)

private theorem BalancedFor.split (h : heap.BalancedFor owners) {handle : Handle}
    (howner : 1 ≤ owners handle.tenancy) :
    heap.BalancedFor (owners - tally [handle] + tally [handle]) := by
  refine h.congr fun other _ => ?_
  simp only [Pi.add_apply, Pi.sub_apply, tally_singleton]
  split
  · rename_i heq
    rw [heq]
    omega
  · omega

/-- Operations on a reached heap conserve references. An allocation moves those
its state owns out of the owners' share and hands out one to the new object.
Releasing frees exactly when the last owner lets go, and what a release or a
free takes along had no owner left. -/
theorem references_conserved {issued : List Tenancy} (hreached : heap.Reached issued)
    (hbalanced : heap.BalancedFor owners) (hknown : heap.HoldsOnly issued) :
    (∀ (classId : Identity) (owning : Bool) (state : State σ), heap.HasRoom →
      (∀ handle ∈ (Object.fresh classId owning state).owned, handle.tenancy ∈ issued ∧
        (heap.contains handle = true →
          tally (Object.fresh classId owning state).owned handle.tenancy ≤
            owners handle.tenancy)) →
      (heap.place classId owning state).2.contains (heap.place classId owning state).1 = true ∧
      (heap.place classId owning state).2.BalancedFor
        (Function.update (owners - tally (Object.fresh classId owning state).owned)
          (heap.place classId owning state).1.tenancy 1)) ∧
    (∀ handle object, heap.object? handle = some object → object.refCount < maxCount →
      (heap.addRef handle).2.BalancedFor (owners + tally [handle])) ∧
    (∀ handle, heap.contains handle = true → 1 ≤ owners handle.tenancy →
      (heap.release handle).2.BalancedFor (owners - tally [handle]) ∧
      ((heap.release handle).1 = true ↔
        owners handle.tenancy = 1 ∧ heap.held handle.tenancy = 0) ∧
      (heap.release handle).2.contains handle = !(heap.release handle).1 ∧
      ∀ other, heap.contains other = true →
        ((heap.release handle).2.contains other = true ↔
          0 < (owners - tally [handle]) other.tenancy ∨
            0 < (heap.release handle).2.held other.tenancy)) ∧
    (∀ handle,
      (heap.free handle).BalancedFor (Function.update owners handle.tenancy 0) ∧
      (heap.free handle).contains handle = false ∧
      ∀ other, heap.contains other = true → other.tenancy ≠ handle.tenancy →
        ((heap.free handle).contains other = true ↔
          0 < owners other.tenancy ∨ 0 < (heap.free handle).held other.tenancy)) := by
  refine ⟨?_, ?_, ?_, ?_⟩
  · intro classId owning state hroom howned
    have hfills := fills_place hreached.sound.tidy hroom classId owning state
    refine ⟨?_, hbalanced.place hreached hknown hroom classId owning state howned⟩
    simp [contains, hfills.object?_eq]
  · intro handle object hobject hbelow
    refine hbalanced.addRef fun found hfound => ?_
    rw [hobject] at hfound
    cases hfound
    exact hbelow
  · intro handle hlive howner
    have hsplit := hbalanced.split howner
    refine ⟨hsplit.release, ?_, contains_release_self hlive, ?_⟩
    · rw [hsplit.release_iff hlive]
      simp only [Pi.sub_apply, tally_singleton, ↓reduceIte]
      omega
    · exact fun other hother => hsplit.contains_release_iff hreached.sound hother
  · intro handle
    have hgone := contains_free_self heap handle
    refine ⟨?_, hgone, ?_⟩
    · refine (hbalanced.free handle).congr fun other hlive => ?_
      rw [Function.update_of_ne]
      intro heq
      rw [contains, object?_congr heq, ← contains, hgone] at hlive
      cases hlive
    · exact fun other hother hne => hbalanced.contains_free_iff hreached.sound hother hne

/-- Two arrays that hold each other. The second one has an owner outside of the
heap as well. -/
def mutualHeap : Heap Sample :=
  let first := Heap.empty.allocate (.array .empty)
  let second := first.2.allocate (.array (OrderedArray.empty.push (.array first.1)))
  (second.2.addRef second.1).2.set (StateKind.array Sample) first.1
    (OrderedArray.empty.push (.array second.1))

def mutualFirst : Handle := ⟨0, 0, NativeState.arrayType Sample⟩

def mutualSecond : Handle := ⟨1, 0, NativeState.arrayType Sample⟩

private theorem reached_mutualHeap : mutualHeap.Reached [⟨1, 0⟩, ⟨0, 0⟩] := by
  have hfirst : (Heap.empty.allocate (.array .empty) : Handle × Heap Sample).2.Reached [⟨0, 0⟩] :=
    Reached.empty.place Identity.empty false (.array .empty) (fun _ => by decide)
  have hsecond := hfirst.place Identity.empty false
    (.array (OrderedArray.empty.push (.array mutualFirst))) (fun _ => by decide)
  exact (hsecond.addRef mutualSecond).set (StateKind.array Sample) mutualFirst
    (OrderedArray.empty.push (.array mutualSecond))

/-- The owner of the second array moves its reference into a new array, takes
one of the first, gives its reference up, or has the first array freed. -/
theorem references_conserved_mutualHeap :
    mutualHeap.Reached [⟨1, 0⟩, ⟨0, 0⟩] ∧ mutualHeap.BalancedFor (tally [mutualSecond]) ∧
    mutualHeap.HoldsOnly [⟨1, 0⟩, ⟨0, 0⟩] ∧
    (mutualHeap.place Identity.empty false
      (.array (OrderedArray.empty.push (.array mutualSecond)))).2.BalancedFor
        (Function.update (tally [mutualSecond] - tally [mutualSecond]) ⟨2, 0⟩ 1) ∧
    (mutualHeap.addRef mutualFirst).2.BalancedFor (tally [mutualSecond] + tally [mutualFirst]) ∧
    (mutualHeap.release mutualSecond).2.BalancedFor (tally [mutualSecond] - tally [mutualSecond]) ∧
    (mutualHeap.free mutualFirst).BalancedFor
      (Function.update (tally [mutualSecond]) mutualFirst.tenancy 0) := by
  have hbalanced : mutualHeap.BalancedFor (tally [mutualSecond]) := by decide
  have hknown : mutualHeap.HoldsOnly [⟨1, 0⟩, ⟨0, 0⟩] := by decide
  obtain ⟨hplace, hadd, hrelease, hfree⟩ :=
    references_conserved reached_mutualHeap hbalanced hknown
  refine ⟨reached_mutualHeap, hbalanced, hknown, ?_, ?_, ?_, (hfree mutualFirst).1⟩
  · exact (hplace Identity.empty false _ (fun _ => by decide) (by decide)).2
  · exact hadd mutualFirst _ rfl (by decide)
  · exact (hrelease mutualSecond (by decide) (by decide)).1

end NativeBridge.Heap
