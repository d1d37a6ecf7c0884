import NativeBridge.Proofs.Heap.Allocation

namespace NativeBridge.Heap

variable {σ : Type} {heap : Heap σ} {handle : Handle} {object : Object σ}

/-- Taking a reference to a live object raises its count by one, below the limit
of counts. At the limit the count stays where it is. -/
theorem addRef_live (h : heap.object? handle = some object) (hbelow : object.refCount < maxCount) :
    heap.addRef handle =
      (true, heap.putObject handle.index { object with refCount := object.refCount + 1 }) := by
  have hmin : min (object.refCount + 1) maxCount = object.refCount + 1 := by omega
  simp only [addRef, h, hmin]

/-- Taking a reference through a stale handle is refused and changes nothing. -/
theorem addRef_stale (h : heap.object? handle = none) : heap.addRef handle = (false, heap) := by
  simp only [addRef, h]

/-- Taking a reference brings nothing back and makes nothing go. -/
theorem contains_addRef (heap : Heap σ) (handle other : Handle) :
    (heap.addRef handle).2.contains other = heap.contains other := by
  cases hobject : heap.object? handle with
  | none => rw [addRef_stale hobject]
  | some object =>
    simp only [addRef, hobject, contains, object?_putObject hobject]
    split
    · rename_i heq
      simp [object?_congr heq, hobject]
    · rfl

theorem size_slots_addRef (heap : Heap σ) (handle : Handle) :
    (heap.addRef handle).2.slots.size = heap.slots.size := by
  unfold addRef
  split
  · exact size_slots_putObject _ _ _
  · rfl

private theorem size_slots_set {α : Type} (heap : Heap σ) (kind : StateKind σ α) (handle : Handle)
    (a : α) : (heap.set kind handle a).slots.size = heap.slots.size := by
  unfold set
  split
  · split
    · exact size_slots_putObject _ _ _
    · rfl
  · rfl

/-- Taking a reference keeps a heap tidy. A count at its limit stays there, and
it is not zero either way. -/
theorem Tidy.addRef (htidy : heap.Tidy) (handle : Handle) : (heap.addRef handle).2.Tidy := by
  cases hobject : heap.object? handle with
  | none => simpa only [addRef_stale hobject] using htidy
  | some object =>
    have hpos : 0 < min (object.refCount + 1) maxCount :=
      Nat.lt_min.2 ⟨Nat.succ_pos _, by decide⟩
    simp only [Heap.addRef, hobject]
    exact htidy.putObject hobject hpos

theorem Sound.addRef (hsound : heap.Sound) (handle : Handle) : (heap.addRef handle).2.Sound := by
  refine (hsound.tidy.addRef handle).sound ?_
  rw [size_slots_addRef]
  exact hsound.size_le

/-- Changing a state in place keeps a heap tidy. The handle may be stale or of
another type. -/
theorem Tidy.set {α : Type} (htidy : heap.Tidy) (kind : StateKind σ α) (handle : Handle)
    (a : α) : (heap.set kind handle a).Tidy := by
  unfold Heap.set
  split
  · rename_i object hobject
    have hpos := htidy.refCount_pos hobject
    split
    · exact htidy.putObject hobject hpos
    · exact htidy
  · exact htidy

theorem Sound.set {α : Type} (hsound : heap.Sound) (kind : StateKind σ α) (handle : Handle)
    (a : α) : (heap.set kind handle a).Sound := by
  refine (hsound.tidy.set kind handle a).sound ?_
  rw [size_slots_set]
  exact hsound.size_le

private theorem doomed_of_last (hobject : heap.object? handle = some object)
    (hlast : object.refCount ≤ 1) :
    Doomed [handle.index]
      (heap.putObject handle.index { object with refCount := object.refCount - 1 }) := by
  have hself : (heap.putObject handle.index
      { object with refCount := object.refCount - 1 }).object? handle =
        some { object with refCount := object.refCount - 1 } := by
    rw [object?_putObject hobject]
    simp
  intro other found hfound hmem
  have hindex := List.mem_singleton.1 hmem
  rw [object?_congr (tenancy_eq_of_object? hfound hself hindex), hself] at hfound
  cases hfound
  simp only
  omega

variable [NativeState σ] {owners : Tenancy → Nat}

/-- Giving up a reference through a stale handle is refused and changes
nothing. -/
theorem release_stale (h : heap.object? handle = none) : heap.release handle = (false, heap) := by
  simp only [release, h]

/-- A reference that is not the last one is given up by taking the count
down. -/
theorem release_shared (h : heap.object? handle = some object) (hshared : 1 < object.refCount) :
    heap.release handle =
      (false, heap.putObject handle.index { object with refCount := object.refCount - 1 }) := by
  have hpos : 0 < object.refCount - 1 := by omega
  simp only [release, h, hpos, ↓reduceIte]

/-- With its last reference an object goes, and with it whatever only it
owned. -/
theorem release_last (h : heap.object? handle = some object) (hlast : object.refCount ≤ 1) :
    heap.release handle =
      (true, cascade [handle.index]
        (heap.putObject handle.index { object with refCount := object.refCount - 1 })) := by
  have hzero : ¬ 0 < object.refCount - 1 := by omega
  simp only [release, h, hzero, ↓reduceIte]

/-- Freeing an object takes it away whatever its count says, and whatever only
it owned along with it. -/
theorem free_live (h : heap.object? handle = some object) :
    heap.free handle = cascade [handle.index] heap := by
  simp [free, contains, h]

/-- Freeing through a stale handle changes nothing. -/
theorem free_stale (h : heap.object? handle = none) : heap.free handle = heap := by
  simp [free, contains, h]

/-- Taking a reference makes the one who took it an owner. The premise keeps the
count off its limit, where it would no longer say how many owners there are. -/
theorem BalancedFor.addRef (h : heap.BalancedFor owners)
    (hbelow : ∀ object, heap.object? handle = some object → object.refCount < maxCount) :
    (heap.addRef handle).2.BalancedFor (owners + tally [handle]) := by
  cases hobject : heap.object? handle with
  | none =>
    rw [addRef_stale hobject]
    refine h.congr fun other hlive => ?_
    have hne : other.tenancy ≠ handle.tenancy := by
      intro heq
      simp [contains, object?_congr heq, hobject] at hlive
    simp [tally_singleton, hne]
  | some object =>
    rw [addRef_live hobject (hbelow object hobject)]
    exact h.raise hobject

/-- Giving up a reference balances the heap for the owners without it, also
where objects go by it. -/
theorem BalancedFor.release (h : heap.BalancedFor (owners + tally [handle])) :
    (heap.release handle).2.BalancedFor owners := by
  cases hobject : heap.object? handle with
  | none =>
    rw [release_stale hobject]
    exact h.drop_stale hobject
  | some object =>
    have hlower := h.lower hobject
    by_cases hlast : object.refCount ≤ 1
    · rw [release_last hobject hlast]
      exact (hlower.off handle.index).cascade []
    · rw [release_shared hobject (by omega)]
      exact hlower

/-- Freeing an object keeps the heap balanced for the same owners. Those who
owned the object own nothing by it any more. -/
theorem BalancedFor.free (h : heap.BalancedFor owners) (handle : Handle) :
    (heap.free handle).BalancedFor owners := by
  cases hobject : heap.object? handle with
  | none => simpa only [free_stale hobject] using h
  | some object =>
    rw [free_live hobject]
    exact (h.off handle.index).cascade []

/-- What goes when a reference is given up is left without an owner, neither
outside of the heap nor in it. -/
theorem BalancedFor.unowned_of_release (h : heap.BalancedFor (owners + tally [handle]))
    {other : Handle} (hlive : heap.contains other = true)
    (hgone : (heap.release handle).2.contains other = false) :
    owners other.tenancy = 0 ∧ (heap.release handle).2.held other.tenancy = 0 := by
  cases hobject : heap.object? handle with
  | none =>
    rw [release_stale hobject, hlive] at hgone
    cases hgone
  | some object =>
    have hput : (heap.putObject handle.index
        { object with refCount := object.refCount - 1 }).contains other = true := by
      rw [contains, object?_putObject hobject]
      split
      · rfl
      · exact hlive
    by_cases hlast : object.refCount ≤ 1
    · rw [release_last hobject hlast] at hgone ⊢
      exact unowned_of_cascade (h.lower hobject) (doomed_of_last hobject hlast) hput hgone
    · rw [release_shared hobject (by omega), hput] at hgone
      cases hgone

/-- Giving up a reference frees the object exactly when nobody else owns it,
neither outside of the heap nor in it. -/
theorem BalancedFor.release_iff (h : heap.BalancedFor (owners + tally [handle]))
    (hlive : heap.contains handle = true) :
    (heap.release handle).1 = true ↔
      owners handle.tenancy = 0 ∧ heap.held handle.tenancy = 0 := by
  obtain ⟨object, hobject⟩ := contains_iff.1 hlive
  have hcount := h handle object hobject
  simp only [Pi.add_apply, tally_singleton, ↓reduceIte] at hcount
  by_cases hlast : object.refCount ≤ 1
  · simp only [release_last hobject hlast, true_iff]
    omega
  · rw [release_shared hobject (by omega)]
    simp only [Bool.false_eq_true, false_iff]
    omega

/-- The answer to giving up a reference says whether the object went. -/
theorem contains_release_self (hlive : heap.contains handle = true) :
    (heap.release handle).2.contains handle = !(heap.release handle).1 := by
  obtain ⟨object, hobject⟩ := contains_iff.1 hlive
  by_cases hlast : object.refCount ≤ 1
  · rw [release_last hobject hlast]
    exact contains_cascade_self _ _ _ rfl
  · rw [release_shared hobject (by omega), contains, object?_putObject hobject]
    simp

/-- After it was freed an object is found through none of its handles. -/
theorem contains_free_self (heap : Heap σ) (handle : Handle) :
    (heap.free handle).contains handle = false := by
  cases hobject : heap.object? handle with
  | none => simp [free_stale hobject, contains, hobject]
  | some object =>
    rw [free_live hobject]
    exact contains_cascade_self _ _ _ rfl

/-- What else goes when an object is freed is left without an owner. The object
itself may have had some. -/
theorem BalancedFor.unowned_of_free (h : heap.BalancedFor owners) {other : Handle}
    (hlive : heap.contains other = true) (hne : other.tenancy ≠ handle.tenancy)
    (hgone : (heap.free handle).contains other = false) :
    owners other.tenancy = 0 ∧ (heap.free handle).held other.tenancy = 0 := by
  cases hobject : heap.object? handle with
  | none =>
    rw [free_stale hobject, hlive] at hgone
    cases hgone
  | some object =>
    obtain ⟨found, hfound⟩ := contains_iff.1 hlive
    have hindex : other.index ≠ handle.index := fun hindex =>
      hne (tenancy_eq_of_object? hfound hobject hindex)
    rw [free_live hobject] at hgone ⊢
    exact unowned_of_cascade_from (h.off handle.index) hlive hindex hgone

theorem releaseAll_cons (heap : Heap σ) (handle : Handle) (rest : List Handle) :
    heap.releaseAll (handle :: rest) = (heap.release handle).2.releaseAll rest := rfl

/-- Giving up references in turn balances the heap for the owners without them.
Some may go stale on the way. -/
theorem BalancedFor.releaseAll {handles : List Handle}
    (h : heap.BalancedFor (owners + tally handles)) :
    (heap.releaseAll handles).BalancedFor owners := by
  induction handles generalizing heap with
  | nil =>
    rw [tally_nil, add_zero] at h
    exact h
  | cons handle rest ih =>
    rw [tally_cons, ← add_assoc] at h
    exact ih h.release

/-- An object that keeps an owner outside of the heap survives whatever else is
given up. -/
theorem BalancedFor.contains_releaseAll {handles : List Handle} {other : Handle}
    (h : heap.BalancedFor (owners + tally handles)) (hlive : heap.contains other = true)
    (howned : 0 < owners other.tenancy) : (heap.releaseAll handles).contains other = true := by
  induction handles generalizing heap with
  | nil => exact hlive
  | cons handle rest ih =>
    rw [tally_cons, ← add_assoc] at h
    refine ih h.release ?_
    by_contra hgone
    have hunowned := h.unowned_of_release hlive (by simpa using hgone)
    simp only [Pi.add_apply] at hunowned
    omega

/-- Emptying a slot does not look at the count of its object. -/
theorem evict_putObject_refCount (hobject : heap.object? handle = some object) (count : Nat) :
    (heap.putObject handle.index { object with refCount := count }).evict handle.index =
      heap.evict handle.index := by
  obtain ⟨slot, hslot, _, hsome⟩ := object?_eq_some_iff.1 hobject
  obtain ⟨hlt, hget⟩ := Array.getElem?_eq_some_iff.1 hslot
  have hlookup : (heap.putObject handle.index
      { object with refCount := count }).slots[handle.index.toNat]? =
        some { slot with object := some { object with refCount := count } } := by
    simp [getElem?_slots_putObject, hslot]
  unfold evict
  simp only [hlookup, hslot, hsome, vacant_putObject, liveCount_putObject]
  simp [putObject, hslot, Object.owned]

/-- The count of the object that a cascade starts from plays no part, so freeing
and giving up the last reference come to the same. -/
theorem cascade_putObject_refCount (hobject : heap.object? handle = some object) (count : Nat) :
    Heap.cascade [handle.index]
        (heap.putObject handle.index { object with refCount := count }) =
      Heap.cascade [handle.index] heap := by
  simp only [cascade_cons, Heap.emptySlot, evict_putObject_refCount hobject]

private theorem Tidy.cascade_live (htidy : heap.Tidy)
    (hobject : heap.object? handle = some object) : (Heap.cascade [handle.index] heap).Tidy := by
  have hput := TidyUpTo.putObject htidy hobject (htidy.refCount_pos hobject)
    { object with refCount := 0 }
  rw [← cascade_putObject_refCount hobject 0]
  exact hput.cascade

/-- Giving up a reference keeps a heap tidy. With the last one the slot of the
object becomes vacant, and so do those of all that go by it. -/
theorem Tidy.release (htidy : heap.Tidy) (handle : Handle) : (heap.release handle).2.Tidy := by
  cases hobject : heap.object? handle with
  | none => simpa only [release_stale hobject] using htidy
  | some object =>
    by_cases hlast : object.refCount ≤ 1
    · rw [release_last hobject hlast, cascade_putObject_refCount hobject]
      exact htidy.cascade_live hobject
    · rw [release_shared hobject (by omega)]
      exact htidy.putObject hobject (Nat.sub_pos_of_lt (by omega))

/-- Freeing an object keeps a heap tidy, though the object may have references
left when its slot is emptied. -/
theorem Tidy.free (htidy : heap.Tidy) (handle : Handle) : (heap.free handle).Tidy := by
  cases hobject : heap.object? handle with
  | none => simpa only [free_stale hobject] using htidy
  | some object =>
    rw [free_live hobject]
    exact htidy.cascade_live hobject

private theorem size_slots_evict (heap : Heap σ) (index : UInt32) :
    (heap.evict index).2.slots.size = heap.slots.size := by
  unfold evict
  split
  · exact Array.size_setIfInBounds
  · rfl

omit [NativeState σ] in
private theorem size_slots_surrender (handles : List Handle) (pending : List UInt32)
    (heap : Heap σ) : (surrender handles pending heap).2.slots.size = heap.slots.size := by
  induction handles, pending, heap using surrender.induct with
  | case1 pending heap => rfl
  | case2 handle rest pending heap object hobject hpos ih =>
    simp only [surrender, hobject, hpos, ↓reduceIte]
    rw [ih, size_slots_putObject]
  | case3 handle rest pending heap object hobject hzero ih =>
    simpa only [surrender, hobject, hzero, ↓reduceIte] using ih
  | case4 handle rest pending heap hstale ih =>
    simpa only [surrender, hstale] using ih

private theorem size_slots_cascade (pending : List UInt32) (heap : Heap σ) :
    (Heap.cascade pending heap).slots.size = heap.slots.size := by
  refine cascade_induction (motive := fun _ middle => middle.slots.size = heap.slots.size)
    ?_ (fun _ h => h) pending heap rfl
  intro index rest middle h
  rw [emptySlot, size_slots_surrender, size_slots_evict, h]

theorem size_slots_release (heap : Heap σ) (handle : Handle) :
    (heap.release handle).2.slots.size = heap.slots.size := by
  cases hobject : heap.object? handle with
  | none => rw [release_stale hobject]
  | some object =>
    by_cases hlast : object.refCount ≤ 1
    · rw [release_last hobject hlast, size_slots_cascade, size_slots_putObject]
    · rw [release_shared hobject (by omega), size_slots_putObject]

theorem size_slots_free (heap : Heap σ) (handle : Handle) :
    (heap.free handle).slots.size = heap.slots.size := by
  unfold free
  split
  · exact size_slots_cascade _ _
  · rfl

theorem Sound.release (hsound : heap.Sound) (handle : Handle) :
    (heap.release handle).2.Sound := by
  refine (hsound.tidy.release handle).sound ?_
  rw [size_slots_release]
  exact hsound.size_le

theorem Sound.free (hsound : heap.Sound) (handle : Handle) : (heap.free handle).Sound := by
  refine (hsound.tidy.free handle).sound ?_
  rw [size_slots_free]
  exact hsound.size_le

end NativeBridge.Heap
