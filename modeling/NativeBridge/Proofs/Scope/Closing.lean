import NativeBridge.Dispatch
import NativeBridge.Proofs.Heap.Departures
import NativeBridge.Proofs.Scope.Tracked

namespace NativeBridge

namespace Heap

variable {σ : Type} [NativeState σ] {heap : Heap σ} {handle : Handle}

/-- Giving up a reference just taken leaves the heap as it was. The bound is
needed: a count at its limit does not go up, but it would come down. -/
theorem Tidy.release_addRef (htidy : heap.Tidy)
    (hbelow : ∀ object, heap.object? handle = some object → object.refCount < maxCount) :
    ((heap.addRef handle).2.release handle).2 = heap := by
  cases hobject : heap.object? handle with
  | none => rw [addRef_stale hobject, release_stale hobject]
  | some object =>
    have hpos := htidy.refCount_pos hobject
    have hraised : (heap.putObject handle.index
        { object with refCount := object.refCount + 1 }).object? handle =
          some { object with refCount := object.refCount + 1 } := by
      simp [object?_putObject hobject]
    rw [addRef_live hobject (hbelow object hobject),
      release_shared hraised (by simp only; omega), putObject_putObject]
    exact putObject_self hobject

/-- A reference that is given up leads to a cascade if it was the last one. This
puts both cases in the form that progress is stated in. -/
theorem Tidy.release_eq (htidy : heap.Tidy) (handle : Handle) :
    (heap.release handle).2 =
      cascade (surrender [handle] [] heap).1 (surrender [handle] [] heap).2 := by
  cases hobject : heap.object? handle with
  | none => simp only [release_stale hobject, surrender, hobject, cascade_nil]
  | some object =>
    have hpos := htidy.refCount_pos hobject
    by_cases hlast : object.refCount ≤ 1
    · have hone : object.refCount = 1 := by omega
      rw [release_last hobject hlast]
      simp [surrender, hobject, hone]
    · have hmore : object.refCount ≠ 1 := by omega
      simp only [release_shared hobject (by omega), surrender, hobject, hpos, hmore, ↓reduceIte,
        cascade_nil]

variable {start : Heap σ} {spent : Tenancy → Nat} {gone : Finset Tenancy}

private theorem Progress.releaseAll (h : start.Progress spent gone [] heap)
    (handles : List Handle) :
    ∃ gone', start.Progress (spent + tally handles) gone' [] (heap.releaseAll handles) := by
  induction handles generalizing heap spent gone with
  | nil => exact ⟨gone, by rwa [tally_nil, add_zero]⟩
  | cons handle rest ih =>
    obtain ⟨middle, hmiddle⟩ := (h.surrender [handle]).cascade
    rw [← Tidy.release_eq h.tidy] at hmiddle
    rw [tally_cons, add_comm (tally rest), ← add_assoc]
    exact ih hmiddle

/-- What is left once references are given up hangs on how many each object
lost, and not on the order in which they were given up. -/
theorem Tidy.releaseAll_alike (htidy : heap.Tidy) {first second : List Handle}
    (hperm : first.Perm second) : (heap.releaseAll first).Alike (heap.releaseAll second) := by
  obtain ⟨gone, hfirst⟩ := htidy.progress.releaseAll first
  obtain ⟨gone', hsecond⟩ := htidy.progress.releaseAll second
  rw [tally_perm hperm] at hfirst
  obtain rfl := hfirst.isLeast.unique hsecond.isLeast
  exact hfirst.sheds.alike hsecond.sheds

/-- A reference that stays with somebody else need not be taken first and given
up with the others. -/
theorem Tidy.releaseAll_addRef_alike (htidy : heap.Tidy)
    (hbelow : ∀ object, heap.object? handle = some object → object.refCount < maxCount)
    {handles rest : List Handle} (hperm : handles.Perm (handle :: rest)) :
    (heap.releaseAll rest).Alike ((heap.addRef handle).2.releaseAll handles) := by
  have hsame : (heap.addRef handle).2.releaseAll (handle :: rest) = heap.releaseAll rest := by
    rw [releaseAll_cons, htidy.release_addRef hbelow]
  rw [← hsame]
  exact (htidy.addRef handle).releaseAll_alike hperm.symm

end Heap

namespace Scope

variable {σ : Type} [NativeState σ] {heap : Heap σ}

private theorem close_alike_of_perm (htidy : heap.Tidy) {first second : Scope}
    (hperm : first.tracked.Perm second.tracked) (ledger : Ledger) :
    (first.close ledger heap).2.2.Alike (second.close ledger heap).2.2 := by
  have hreverse : first.tracked.reverse.Perm second.tracked.reverse :=
    (first.tracked.reverse_perm.trans hperm).trans second.tracked.reverse_perm.symm
  exact htidy.releaseAll_alike hreverse

private theorem close_alike_of_handOff (htidy : heap.Tidy) {scope after : Scope} {value : Value}
    {handle : Handle} (hvalue : value.handle? = some handle)
    (hbelow : ∀ object, heap.object? handle = some object → object.refCount < Heap.maxCount)
    (hhanded : scope.handOff value = (true, after)) (ledger : Ledger) :
    (after.close ledger heap).2.2.Alike (scope.close ledger (heap.addRef handle).2).2.2 := by
  obtain ⟨found, rest, hfound, hperm, htrue⟩ | ⟨_, hfalse⟩ := scope.handOff_cases value
  · rw [hvalue] at hfound
    cases hfound
    rw [hhanded] at htrue
    cases htrue
    refine htidy.releaseAll_addRef_alike hbelow ?_
    exact (scope.tracked.reverse_perm.trans hperm).trans (rest.reverse_perm.symm.cons handle)
  · rw [hhanded] at hfalse
    cases hfalse

/-- The order in which handles were tracked does not show once the scope is
closed. A reference that was handed on before might as well have been taken
besides those tracked. -/
theorem close_alike (hmade : heap.Made) (ledger : Ledger) :
    (∀ first second : Scope, first.tracked.Perm second.tracked →
      (first.close ledger heap).1 = (second.close ledger heap).1 ∧
      (first.close ledger heap).2.1 = (second.close ledger heap).2.1 ∧
      (first.close ledger heap).2.2.Alike (second.close ledger heap).2.2) ∧
    ∀ (scope after : Scope) (value : Value) (handle : Handle), value.handle? = some handle →
      (∀ object, heap.object? handle = some object → object.refCount < Heap.maxCount) →
      scope.handOff value = (true, after) →
      (after.close ledger heap).2.2.Alike (scope.close ledger (heap.addRef handle).2).2.2 := by
  refine ⟨fun first second hperm => ⟨hperm.length_eq, rfl, ?_⟩, ?_⟩
  · exact close_alike_of_perm hmade.tidy hperm ledger
  · intro scope after value handle hvalue hbelow hhanded
    exact close_alike_of_handOff hmade.tidy hvalue hbelow hhanded ledger

/-- A scope that tracks the array which holds another one twice, and that other
one twice as well. -/
theorem close_alike_ringHeap :
    Heap.ringHeap.Made ∧
    (⟨1, false, [Heap.ringLeaf, Heap.ringFirst, Heap.ringLeaf]⟩ : Scope).handOff
      (.array Heap.ringFirst) = (true, ⟨1, false, [Heap.ringLeaf, Heap.ringLeaf]⟩) ∧
    ((⟨1, false, [Heap.ringLeaf, Heap.ringFirst, Heap.ringLeaf]⟩ : Scope).close Ledger.empty
      Heap.ringHeap).2.2.Alike
        ((⟨2, false, [Heap.ringFirst, Heap.ringLeaf, Heap.ringLeaf]⟩ : Scope).close Ledger.empty
          Heap.ringHeap).2.2 ∧
    ((⟨1, false, [Heap.ringLeaf, Heap.ringLeaf]⟩ : Scope).close Ledger.empty
      Heap.ringHeap).2.2.Alike
        ((⟨1, false, [Heap.ringLeaf, Heap.ringFirst, Heap.ringLeaf]⟩ : Scope).close Ledger.empty
          (Heap.ringHeap.addRef Heap.ringFirst).2).2.2 := by
  have hhanded : (⟨1, false, [Heap.ringLeaf, Heap.ringFirst, Heap.ringLeaf]⟩ : Scope).handOff
      (.array Heap.ringFirst) = (true, ⟨1, false, [Heap.ringLeaf, Heap.ringLeaf]⟩) := by decide
  obtain ⟨horder, hhandOff⟩ := close_alike Heap.made_ringHeap Ledger.empty
  refine ⟨Heap.made_ringHeap, hhanded, (horder _ _ (by decide)).2.2, ?_⟩
  refine hhandOff _ _ (.array Heap.ringFirst) Heap.ringFirst rfl (fun object hobject => ?_) hhanded
  obtain rfl : (⟨.array Heap.ringItems, Identity.empty, true, 1⟩ : Object Sample) = object :=
    Option.some.inj hobject
  decide

end Scope

namespace Host

variable {σ ω : Type} [NativeState σ]

/-- Whether a scope answered for the value of a call or not, what is left after
it is what there would be if a reference had been taken for the caller. -/
theorem leave_passOn_alike (host : Host σ ω) {state : CallState σ ω} (hmade : state.heap.Made)
    (value : Value) (hbelow : ∀ handle object, value.handle? = some handle →
      state.heap.object? handle = some object → object.refCount < Heap.maxCount) :
    (host.leave (passOn value state)).heap.Alike
      (host.leave { state with heap := state.heap.retainValue value }).heap := by
  obtain ⟨handle, rest, hvalue, -, hhanded⟩ | ⟨-, hkept⟩ := state.scope.handOff_cases value
  · simp only [passOn, hhanded, Heap.retainValue, hvalue]
    exact Scope.close_alike_of_handOff hmade.tidy hvalue
      (fun object => hbelow handle object hvalue) hhanded state.ledger
  · simp only [passOn, hkept]
    exact .refl _

end Host

end NativeBridge
