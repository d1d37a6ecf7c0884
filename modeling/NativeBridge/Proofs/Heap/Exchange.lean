import NativeBridge.Proofs.Heap.Release

namespace NativeBridge.Heap

variable {σ : Type} {heap : Heap σ} {handle : Handle} {object : Object σ}

private theorem refCount?_eq_some_iff {count : Nat} :
    heap.refCount? handle = some count ↔
      ∃ object, heap.object? handle = some object ∧ object.refCount = count := by
  simp [refCount?]

private theorem refCount?_congr {other : Handle} (h : other.tenancy = handle.tenancy) :
    heap.refCount? other = heap.refCount? handle := by
  simp only [refCount?, object?_congr h]

private theorem refCount?_putObject (hobject : heap.object? handle = some object) (new : Object σ)
    (other : Handle) :
    (heap.putObject handle.index new).refCount? other =
      if other.tenancy = handle.tenancy then some new.refCount else heap.refCount? other := by
  simp only [refCount?, object?_putObject hobject]
  split <;> rfl

/-- An object with the same count in its place changes no count. -/
theorem refCount?_putObject_of_eq (hobject : heap.object? handle = some object) {new : Object σ}
    (hcount : new.refCount = object.refCount) (other : Handle) :
    (heap.putObject handle.index new).refCount? other = heap.refCount? other := by
  rw [refCount?_putObject hobject]
  split
  · rename_i heq
    rw [refCount?_congr heq, hcount]
    exact (refCount?_eq_some_iff.2 ⟨object, hobject, rfl⟩).symm
  · rfl

private theorem tally_stale {other : Handle} {count : Nat} (hstale : heap.object? handle = none)
    (hlive : heap.refCount? other = some count) : tally [handle] other.tenancy = 0 := by
  obtain ⟨found, hfound, _⟩ := refCount?_eq_some_iff.1 hlive
  rw [tally_singleton, if_neg]
  intro heq
  rw [object?_congr heq, hstale] at hfound
  cases hfound

private theorem refCount?_addRef
    (hbelow : ∀ object, heap.object? handle = some object → object.refCount < maxCount)
    (other : Handle) :
    (heap.addRef handle).2.refCount? other =
      (heap.refCount? other).map fun count => count + tally [handle] other.tenancy := by
  cases hobject : heap.object? handle with
  | none =>
    rw [addRef_stale hobject]
    cases hother : heap.refCount? other with
    | none => rfl
    | some count => simp [tally_stale hobject hother]
  | some object =>
    rw [addRef_live hobject (hbelow object hobject), refCount?_putObject hobject, tally_singleton]
    split
    · rename_i heq
      simp [refCount?, object?_congr heq, hobject]
    · simp

/-- Retaining a value takes one reference if it is a handle. Every other count
stays, below the limit of counts. -/
theorem refCount?_retainValue
    (hbelow : ∀ handle object, heap.object? handle = some object → object.refCount < maxCount)
    (value : Value) (other : Handle) :
    (heap.retainValue value).refCount? other =
      (heap.refCount? other).map fun count =>
        count + tally value.handle?.toList other.tenancy := by
  unfold retainValue
  cases value.handle? with
  | none => simp
  | some handle => exact refCount?_addRef (hbelow handle) other

/-- A reference that is taken changes nothing but a count, so what is found
afterwards was found before. -/
theorem object?_retainValue {value : Value}
    (hobject : (heap.retainValue value).object? handle = some object) :
    ∃ count, heap.object? handle = some { object with refCount := count } := by
  unfold retainValue at hobject
  cases hvalue : value.handle? with
  | none => exact ⟨object.refCount, by simpa [hvalue] using hobject⟩
  | some taken =>
    simp only [hvalue, addRef] at hobject
    cases htaken : heap.object? taken with
    | none => exact ⟨object.refCount, by simpa [htaken] using hobject⟩
    | some before =>
      simp only [htaken, object?_putObject htaken] at hobject
      split at hobject
      · rename_i heq
        cases hobject
        exact ⟨before.refCount, (object?_congr heq).trans htaken⟩
      · exact ⟨object.refCount, hobject⟩

/-- The counts after references were passed in and others given up. An object
that keeps none goes; if there is no such object, nothing else has changed. -/
structure Exchanges (heap : Heap σ) (passed owed : List Handle) (after : Heap σ) : Prop where
  gone : ∀ displaced ∈ owed, ∀ count, heap.refCount? displaced = some count →
    count + tally passed displaced.tenancy ≤ tally owed displaced.tenancy →
      after.contains displaced = false
  kept : (∀ displaced ∈ owed, ∀ count, heap.refCount? displaced = some count →
      tally owed displaced.tenancy < count + tally passed displaced.tenancy) →
    ∀ other, after.refCount? other = (heap.refCount? other).map fun count =>
      count + tally passed other.tenancy - tally owed other.tenancy

variable [NativeState σ] {owners others : Tenancy → Nat}

private theorem refCount?_release
    (hkept : ∀ count, heap.refCount? handle = some count → 1 < count) (other : Handle) :
    (heap.release handle).2.refCount? other =
      (heap.refCount? other).map fun count => count - tally [handle] other.tenancy := by
  cases hobject : heap.object? handle with
  | none =>
    rw [release_stale hobject]
    cases hother : heap.refCount? other with
    | none => rfl
    | some count => simp [tally_stale hobject hother]
  | some object =>
    have hshared := hkept object.refCount (refCount?_eq_some_iff.2 ⟨object, hobject, rfl⟩)
    rw [release_shared hobject hshared, refCount?_putObject hobject, tally_singleton]
    split
    · rename_i heq
      simp [refCount?, object?_congr heq, hobject]
    · simp

/-- While each object keeps a reference, giving some up only lowers the
counts. -/
theorem refCount?_releaseAll {handles : List Handle}
    (hkept : ∀ handle ∈ handles, ∀ count, heap.refCount? handle = some count →
      tally handles handle.tenancy < count) (other : Handle) :
    (heap.releaseAll handles).refCount? other =
      (heap.refCount? other).map fun count => count - tally handles other.tenancy := by
  induction handles generalizing heap with
  | nil => simp [releaseAll]
  | cons handle rest ih =>
    have hlower : ∀ other, (heap.release handle).2.refCount? other =
        (heap.refCount? other).map fun count => count - tally [handle] other.tenancy := by
      refine refCount?_release fun count hcount => ?_
      have hall := hkept handle List.mem_cons_self count hcount
      rw [tally_cons_self] at hall
      omega
    rw [releaseAll_cons, ih]
    · simp only [hlower, Option.map_map, Function.comp_def, tally_cons handle rest, Pi.add_apply,
        Nat.sub_sub, Nat.add_comm]
    · intro other hmem count hcount
      rw [hlower] at hcount
      obtain ⟨before, hbefore, rfl⟩ := Option.map_eq_some_iff.1 hcount
      have hall := hkept other (List.mem_cons_of_mem _ hmem) before hbefore
      rw [tally_cons, Pi.add_apply] at hall
      omega

private theorem contains_release_last {count : Nat} (hcount : heap.refCount? handle = some count)
    (hlast : count ≤ 1) : (heap.release handle).2.contains handle = false := by
  obtain ⟨object, hobject, rfl⟩ := refCount?_eq_some_iff.1 hcount
  rw [contains_release_self (contains_iff.2 ⟨object, hobject⟩), release_last hobject hlast]
  rfl

/-- Passing references in and giving one up afterwards exchanges them. The one
that is given up may be to an object that was passed in. -/
theorem exchanges_releaseAll {middle : Heap σ} {passed : List Handle}
    (hpassed : ∀ other, middle.refCount? other =
      (heap.refCount? other).map fun count => count + tally passed other.tenancy)
    (owed : Option Handle) :
    heap.Exchanges passed owed.toList (middle.releaseAll owed.toList) := by
  constructor
  · intro displaced hmem count hcount hlast
    obtain rfl := Option.mem_toList.1 hmem
    rw [Option.toList_some, tally_singleton, if_pos rfl] at hlast
    refine contains_release_last ?_ hlast
    rw [hpassed, hcount]
    rfl
  · intro hkept other
    rw [refCount?_releaseAll, hpassed, Option.map_map]
    · rfl
    · intro displaced hmem count hcount
      rw [hpassed] at hcount
      obtain ⟨before, hbefore, rfl⟩ := Option.map_eq_some_iff.1 hcount
      exact hkept displaced hmem before hbefore

/-- Retaining a value makes its owner one of those outside of the heap. The
bound keeps every count off its limit. -/
theorem BalancedFor.retainValue (h : heap.BalancedFor owners)
    (hbelow : ∀ handle object, heap.object? handle = some object → object.refCount < maxCount)
    (value : Value) :
    (heap.retainValue value).BalancedFor (owners + tally value.handle?.toList) := by
  unfold Heap.retainValue
  cases value.handle? with
  | none => simpa using h
  | some handle => exact h.addRef (hbelow handle)

/-- What an object takes in and gives back moves between the owners outside of
the heap and the object. Its own count has to stay. -/
theorem BalancedFor.replace (h : heap.BalancedFor owners)
    (hobject : heap.object? handle = some object) {new : Object σ}
    (hcount : new.refCount = object.refCount)
    (hmoved : others + tally new.owned = owners + tally object.owned) :
    (heap.putObject handle.index new).BalancedFor others := by
  intro other found hfound
  obtain ⟨slot, hslot, _, hsome⟩ := object?_eq_some_iff.1 hobject
  have hheld := congrFun (held_putObject hslot new) other.tenancy
  have howned := congrFun hmoved other.tenancy
  have hbefore : ∃ before, heap.object? other = some before ∧
      found.refCount = before.refCount := by
    have hsame := refCount?_putObject_of_eq hobject hcount other
    rw [refCount?, hfound] at hsame
    obtain ⟨before, hbefore, heq⟩ := refCount?_eq_some_iff.1 hsame.symm
    exact ⟨before, hbefore, heq.symm⟩
  obtain ⟨before, hbefore, heq⟩ := hbefore
  have hold := h other before hbefore
  simp only [Pi.add_apply, Slot.owned, hsome, Option.elim_some] at hheld howned
  omega

end NativeBridge.Heap
