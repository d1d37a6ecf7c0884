import Mathlib.Algebra.BigOperators.Group.Finset.Basic
import Mathlib.Algebra.BigOperators.Pi
import NativeBridge.Proofs.Heap.Reached

namespace NativeBridge

variable {σ : Type}

private theorem Handle.tenancy_of_generation {handle : Handle} {generation : UInt32}
    (h : generation = handle.generation) : ⟨handle.index, generation⟩ = handle.tenancy := by
  rw [h]
  rfl

private theorem Handle.tenancy_ne_of_index {handle : Handle} {index : UInt32}
    (h : handle.index ≠ index) (generation : UInt32) : ⟨index, generation⟩ ≠ handle.tenancy :=
  fun heq => h (congrArg Tenancy.index heq).symm

/-- The slot of a number once some tenancies are over and objects have lost
references. A count stays where it is once it has come to zero. -/
def Slot.shed (gone : Finset Tenancy) (given : Tenancy → Nat) (index : UInt32) (slot : Slot σ) :
    Slot σ :=
  if ⟨index, slot.generation⟩ ∈ gone then ⟨slot.generation + 1, none⟩
  else
    { slot with
      object := slot.object.map fun object =>
        { object with refCount := object.refCount - given ⟨index, slot.generation⟩ } }

private theorem Slot.shed_of_mem {gone : Finset Tenancy} {index : UInt32} {slot : Slot σ}
    (h : ⟨index, slot.generation⟩ ∈ gone) (given : Tenancy → Nat) :
    slot.shed gone given index = ⟨slot.generation + 1, none⟩ :=
  if_pos h

private theorem Slot.shed_of_notMem {gone : Finset Tenancy} {index : UInt32} {slot : Slot σ}
    (h : ⟨index, slot.generation⟩ ∉ gone) (given : Tenancy → Nat) :
    slot.shed gone given index = { slot with
      object := slot.object.map fun object =>
        { object with refCount := object.refCount - given ⟨index, slot.generation⟩ } } :=
  if_neg h

/-- What becomes of a slot is a matter of its own tenancies. What is said of
those of other slots may be anything. -/
theorem Slot.shed_congr {gone gone' : Finset Tenancy} {given given' : Tenancy → Nat}
    {index : UInt32}
    (hgone : ∀ generation, (⟨index, generation⟩ : Tenancy) ∈ gone ↔ ⟨index, generation⟩ ∈ gone')
    (hgiven : ∀ generation, given ⟨index, generation⟩ = given' ⟨index, generation⟩) :
    (Slot.shed gone given index : Slot σ → Slot σ) = Slot.shed gone' given' index := by
  funext slot
  simp only [Slot.shed, hgone, hgiven]

namespace Heap

/-- The object of a tenancy, if it is still there. -/
def occupant? (heap : Heap σ) (tenancy : Tenancy) : Option (Object σ) :=
  match heap.slots[tenancy.index.toNat]? with
  | some slot => if slot.generation = tenancy.generation then slot.object else none
  | none => none

@[simp]
theorem occupant?_tenancy (heap : Heap σ) (handle : Handle) :
    heap.occupant? handle.tenancy = heap.object? handle := rfl

/-- The heap after some of its objects have gone and others have lost
references. Which references were given up is told by how many of them each
object lost, so neither their order nor that of the vacated slots is in it. -/
structure Sheds (heap : Heap σ) (gone : Finset Tenancy) (given : Tenancy → Nat)
    (after : Heap σ) : Prop where
  live : ∀ tenancy ∈ gone, (heap.occupant? tenancy).isSome = true
  slots : ∀ index : UInt32,
    after.slots[index.toNat]? = heap.slots[index.toNat]?.map (Slot.shed gone given index)
  /-- Slots without a number keep their objects. -/
  beyond : ∀ i, UInt32.size ≤ i → after.slots[i]? = heap.slots[i]?
  /-- Each slot that was vacated is listed once, before those that were vacant already. -/
  vacant : ∃ order : List Tenancy, order.Nodup ∧ order.toFinset = gone ∧
    after.vacant = order.map Tenancy.index ++ heap.vacant
  liveCount : after.liveCount + gone.card = heap.liveCount

variable {heap start : Heap σ} {gone : Finset Tenancy} {given : Tenancy → Nat}

theorem Sheds.refl (heap : Heap σ) : heap.Sheds ∅ 0 heap where
  live := by simp
  slots := fun index => by
    cases hslot : heap.slots[index.toNat]? with
    | none => rfl
    | some slot => simp [Slot.shed]
  beyond := fun _ _ => rfl
  vacant := ⟨[], by simp⟩
  liveCount := by simp

private theorem Sheds.object?_eq (h : start.Sheds gone given heap) (handle : Handle) :
    heap.object? handle =
      if handle.tenancy ∈ gone then none
      else (start.object? handle).map fun object =>
        { object with refCount := object.refCount - given handle.tenancy } := by
  simp only [object?, h.slots]
  cases hslot : start.slots[handle.index.toNat]? with
  | none => simp
  | some slot =>
    by_cases hgen : slot.generation = handle.generation
    · have htenancy := Handle.tenancy_of_generation hgen
      simp only [Option.map_some, hgen, ↓reduceIte]
      by_cases hmem : handle.tenancy ∈ gone
      · rw [Slot.shed_of_mem (htenancy ▸ hmem), if_pos hmem]
        simp
      · rw [Slot.shed_of_notMem (htenancy ▸ hmem), if_neg hmem, htenancy]
        simp [hgen]
    · have hstale : handle.tenancy ∉ gone := by
        intro hmem
        have hlive := h.live handle.tenancy hmem
        simp [object?, hslot, hgen] at hlive
      simp only [Option.map_some, hgen, hstale, ↓reduceIte, Option.map_none]
      by_cases hmem : (⟨handle.index, slot.generation⟩ : Tenancy) ∈ gone
      · rw [Slot.shed_of_mem hmem]
        simp
      · rw [Slot.shed_of_notMem hmem]
        simp [hgen]

/-- An object that is left was there before, with the references it has lost.
Its state, its class and its ownership are the same. -/
theorem Sheds.object?_eq_some_iff (h : start.Sheds gone given heap) {handle : Handle}
    {object : Object σ} :
    heap.object? handle = some object ↔ handle.tenancy ∉ gone ∧
      ∃ before, start.object? handle = some before ∧
        object = { before with refCount := before.refCount - given handle.tenancy } := by
  rw [h.object?_eq]
  split
  · rename_i hmem
    simp [hmem]
  · rename_i hmem
    simp [hmem, eq_comm]

/-- Only the references that live objects lose make a difference, and only as
many as they have. -/
theorem Sheds.congr (h : start.Sheds gone given heap) {given' : Tenancy → Nat}
    (heq : ∀ handle object, start.object? handle = some object → handle.tenancy ∉ gone →
      object.refCount - given handle.tenancy = object.refCount - given' handle.tenancy) :
    start.Sheds gone given' heap := by
  refine ⟨h.live, fun index => ?_, h.beyond, h.vacant, h.liveCount⟩
  rw [h.slots]
  cases hslot : start.slots[index.toNat]? with
  | none => rfl
  | some slot =>
    simp only [Option.map_some, Option.some.injEq]
    by_cases hmem : (⟨index, slot.generation⟩ : Tenancy) ∈ gone
    · rw [Slot.shed_of_mem hmem, Slot.shed_of_mem hmem]
    · rw [Slot.shed_of_notMem hmem, Slot.shed_of_notMem hmem]
      cases hobject : slot.object with
      | none => rfl
      | some object =>
        have hcount := heq ⟨index, slot.generation, ⟨""⟩⟩ object
          (Heap.object?_eq_some_iff.2 ⟨slot, hslot, rfl, hobject⟩) hmem
        simp only [Handle.tenancy] at hcount
        simp only [Option.map_some, hcount]

/-- Heaps that shed the same objects and references have the same slots and as
many objects, and list the same vacant slots. -/
structure Alike (first second : Heap σ) : Prop where
  slots : first.slots = second.slots
  vacant : first.vacant.Perm second.vacant
  liveCount : first.liveCount = second.liveCount

theorem Alike.refl (heap : Heap σ) : heap.Alike heap :=
  ⟨rfl, .refl _, rfl⟩

/-- What is left of a heap is settled by what it has shed. The list of vacant
slots alone may come in another order. -/
theorem Sheds.alike {first second : Heap σ} (hfirst : start.Sheds gone given first)
    (hsecond : start.Sheds gone given second) : first.Alike second := by
  refine ⟨?_, ?_, ?_⟩
  · apply Array.ext_getElem?
    intro i
    by_cases hi : i < UInt32.size
    · have hindex : i.toUInt32.toNat = i := UInt32.toNat_ofNat_of_lt' hi
      rw [← hindex, hfirst.slots, hsecond.slots]
    · rw [hfirst.beyond i (by omega), hsecond.beyond i (by omega)]
  · obtain ⟨order, hnodup, hgone, hvacant⟩ := hfirst.vacant
    obtain ⟨order', hnodup', hgone', hvacant'⟩ := hsecond.vacant
    have hperm : order.Perm order' := by
      refine (List.perm_ext_iff_of_nodup hnodup hnodup').2 fun tenancy => ?_
      rw [← List.mem_toFinset, ← List.mem_toFinset, hgone, hgone']
    rw [hvacant, hvacant']
    exact (hperm.map Tenancy.index).append_right _
  · have hcount := hfirst.liveCount
    have hcount' := hsecond.liveCount
    omega

/-- A live object loses some references more. If it has fewer than that, its
count comes to zero. -/
theorem Sheds.lower (h : start.Sheds gone given heap) {handle : Handle} {object : Object σ}
    (hobject : heap.object? handle = some object) (lost : Nat) :
    start.Sheds gone (given + lost • tally [handle])
      (heap.putObject handle.index { object with refCount := object.refCount - lost }) := by
  obtain ⟨hleft, before, hbefore, rfl⟩ := h.object?_eq_some_iff.1 hobject
  obtain ⟨slot, hslot, hgen, hsome⟩ := Heap.object?_eq_some_iff.1 hbefore
  refine ⟨h.live, fun index => ?_, fun i hi => ?_, ?_, ?_⟩
  · rw [getElem?_slots_putObject, h.slots]
    by_cases hindex : handle.index = index
    · subst hindex
      have htenancy := Handle.tenancy_of_generation hgen
      simp only [hslot, Option.map_some, ↓reduceIte, Option.some.injEq]
      rw [Slot.shed_of_notMem (htenancy ▸ hleft), Slot.shed_of_notMem (htenancy ▸ hleft), htenancy]
      simp [hsome, tally_singleton, Nat.sub_sub]
    · have hne : handle.index.toNat ≠ index.toNat := fun heq => hindex (UInt32.toNat_inj.1 heq)
      have hshed : (Slot.shed gone (given + lost • tally [handle]) index : Slot σ → Slot σ) =
          Slot.shed gone given index :=
        Slot.shed_congr (fun _ => Iff.rfl) fun generation => by
          simp [tally_singleton, Handle.tenancy_ne_of_index hindex]
      rw [if_neg hne, hshed]
  · have hlt := handle.index.toNat_lt_size
    rw [getElem?_slots_putObject, if_neg (by omega), h.beyond i hi]
  · rw [vacant_putObject]
    exact h.vacant
  · rw [liveCount_putObject]
    exact h.liveCount

/-- A handle loses nothing if there is no object, or one without a reference
left. -/
theorem Sheds.skip (h : start.Sheds gone given heap) {handle : Handle}
    (hnothing : ∀ object, heap.object? handle = some object → object.refCount = 0) :
    start.Sheds gone (given + tally [handle]) heap := by
  refine h.congr fun other object hobject hmem => ?_
  rw [Pi.add_apply, tally_singleton]
  split
  · rename_i heq
    have hleft := h.object?_eq_some_iff.2 ⟨hmem, object, hobject, rfl⟩
    have hzero := hnothing _ ((object?_congr heq).symm.trans hleft)
    simp only at hzero
    omega
  · rw [add_zero]

/-- References given up in turn are lost by those live objects that still have
one. Handles to nothing lose nothing. -/
theorem Sheds.surrender {handles : List Handle} (h : start.Sheds gone given heap)
    (pending : List UInt32) :
    start.Sheds gone (given + tally handles) (surrender handles pending heap).2 := by
  induction handles, pending, heap using surrender.induct generalizing given with
  | case1 pending heap => simpa only [Heap.surrender, tally_nil, add_zero] using h
  | case2 handle rest pending heap object hobject hpos ih =>
    simp only [Heap.surrender, hobject, hpos, ↓reduceIte]
    rw [tally_cons, add_comm (tally rest), ← add_assoc]
    have hlower := h.lower hobject 1
    rw [one_smul] at hlower
    exact ih hlower
  | case3 handle rest pending heap object hobject hzero ih =>
    simp only [Heap.surrender, hobject, hzero, ↓reduceIte]
    rw [tally_cons, add_comm (tally rest), ← add_assoc]
    refine ih (h.skip fun found hfound => ?_)
    rw [hobject] at hfound
    cases hfound
    omega
  | case4 handle rest pending heap hstale ih =>
    simp only [Heap.surrender, hstale]
    rw [tally_cons, add_comm (tally rest), ← add_assoc]
    refine ih (h.skip fun found hfound => ?_)
    rw [hstale] at hfound
    cases hfound

variable [NativeState σ]

/-- The slot of a live object is vacated. The count of live objects has to be at
least one, as it is in a tidy heap. -/
theorem Sheds.evict (h : start.Sheds gone given heap) {handle : Handle} {object : Object σ}
    (hobject : heap.object? handle = some object) (hcount : 0 < heap.liveCount) :
    start.Sheds (insert handle.tenancy gone) given (heap.evict handle.index).2 := by
  obtain ⟨hleft, before, hbefore, -⟩ := h.object?_eq_some_iff.1 hobject
  obtain ⟨slot, hslot, hgen, hsome⟩ := Heap.object?_eq_some_iff.1 hbefore
  have htenancy := Handle.tenancy_of_generation hgen
  have hevicted : ∃ evicted, heap.slots[handle.index.toNat]? = some evicted :=
    ⟨_, by rw [h.slots, hslot]; rfl⟩
  obtain ⟨evicted, hevicted⟩ := hevicted
  refine ⟨fun tenancy hmem => ?_, fun index => ?_, fun i hi => ?_, ?_, ?_⟩
  · rcases Finset.mem_insert.1 hmem with rfl | hmem
    · simp [hbefore]
    · exact h.live tenancy hmem
  · rw [getElem?_slots_evict, h.slots]
    by_cases hindex : handle.index = index
    · subst hindex
      have hmem : (⟨handle.index, slot.generation⟩ : Tenancy) ∈ insert handle.tenancy gone :=
        htenancy ▸ Finset.mem_insert_self _ _
      simp only [hslot, Option.map_some, ↓reduceIte]
      rw [Slot.shed_of_mem hmem, Slot.shed_of_notMem (htenancy ▸ hleft)]
    · have hne : handle.index.toNat ≠ index.toNat := fun heq => hindex (UInt32.toNat_inj.1 heq)
      have hshed : (Slot.shed (insert handle.tenancy gone) given index : Slot σ → Slot σ) =
          Slot.shed gone given index :=
        Slot.shed_congr
          (fun generation => by simp [Handle.tenancy_ne_of_index hindex generation]) fun _ => rfl
      rw [if_neg hne, hshed]
  · have hlt := handle.index.toNat_lt_size
    rw [getElem?_slots_evict, if_neg (by omega), h.beyond i hi]
  · obtain ⟨order, hnodup, hgone, hvacant⟩ := h.vacant
    have hnew : handle.tenancy ∉ order := by
      rw [← List.mem_toFinset, hgone]
      exact hleft
    refine ⟨handle.tenancy :: order, List.nodup_cons.2 ⟨hnew, hnodup⟩, ?_, ?_⟩
    · rw [List.toFinset_cons, hgone]
    · simp only [Heap.evict, hevicted, hvacant, List.map_cons, List.cons_append]
      rfl
  · have hbalance := h.liveCount
    rw [Finset.card_insert_of_notMem hleft]
    simp only [Heap.evict, hevicted]
    omega

end Heap

end NativeBridge
