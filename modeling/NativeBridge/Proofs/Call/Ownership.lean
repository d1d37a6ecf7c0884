import Mathlib.Algebra.Group.Basic
import NativeBridge.Proofs.Call.Exits
import NativeBridge.Proofs.Scope.Tracked
import NativeBridge.Sample.State

namespace NativeBridge.Host

variable {σ ω : Type}

private theorem contains_passOn (value : Value) (state : CallState σ ω) (handle : Handle) :
    (passOn value state).heap.contains handle = state.heap.contains handle := by
  unfold passOn
  split
  · rfl
  · unfold Heap.retainValue
    split
    · exact Heap.contains_addRef state.heap _ handle
    · rfl

variable [NativeState σ] {owners : Tenancy → Nat} {state : CallState σ ω} {start : Heap σ}

/-- The value that is passed on gets an owner besides those it had, and the
scope answers for one entry less or for the same ones. The bound leaves room for
one reference more. -/
theorem balanced_passOn (value : Value)
    (h : state.heap.BalancedFor (owners + tally state.scope.tracked))
    (hbelow : ∀ handle object, state.heap.object? handle = some object →
      object.refCount < Heap.maxCount) :
    (passOn value state).heap.BalancedFor
      (owners + tally value.handle?.toList + tally (passOn value state).scope.tracked) := by
  unfold passOn
  obtain ⟨handle, rest, hvalue, hperm, hhanded⟩ | ⟨_, hkept⟩ := state.scope.handOff_cases value
  · rw [hhanded]
    rw [tally_perm hperm, tally_cons, ← add_assoc, add_right_comm] at h
    simpa only [hvalue, Option.toList_some] using h
  · rw [hkept]
    unfold Heap.retainValue
    cases hvalue : value.handle? with
    | none => simpa only [Option.toList_none, tally_nil, add_zero] using h
    | some handle =>
      have hraise := h.addRef (hbelow handle)
      rw [add_right_comm] at hraise
      simpa only [Option.toList_some] using hraise

/-- Leaving a scope gives up the references it answers for and no others, also
where it tracks one handle twice. -/
theorem balanced_leave (host : Host σ ω)
    (h : state.heap.BalancedFor (owners + tally state.scope.tracked)) :
    (host.leave state).heap.BalancedFor owners :=
  h.close state.ledger

/-- What has an owner beside the scope outlives it. The owner may be an outside
one or another object of the heap. -/
theorem contains_leave (host : Host σ ω) {handle : Handle}
    (h : state.heap.BalancedFor (owners + tally state.scope.tracked))
    (hlive : state.heap.contains handle = true) (howned : 0 < owners handle.tenancy) :
    (host.leave state).heap.contains handle = true := by
  rw [← tally_perm state.scope.tracked.reverse_perm] at h
  exact h.contains_releaseAll hlive howned

/-- The reference of a value that is not handed out after all is given up again.
A value that is no handle has none. -/
theorem balanced_takeBack (value : Value) {heap : Heap σ}
    (h : heap.BalancedFor (owners + tally value.handle?.toList)) :
    (heap.releaseValue value).BalancedFor owners :=
  h.releaseAll

/-- Leaving a scope that answers for new objects without content takes back
these objects and leaves everything older alone. -/
theorem adds_leave (host : Host σ ω) {extra : List Handle} (hstart : start.Sound)
    (h : start.Adds (state.scope.tracked ++ extra) state.heap) :
    start.Adds extra (host.leave state).heap :=
  h.close hstart state.ledger

/-- Passing a value on, closing the scope and taking the value back comes to
closing the scope. The value may be one of the new objects or an older one. -/
theorem adds_takeBack (host : Host σ ω) (value : Value) (hstart : start.Sound)
    (h : start.Adds state.scope.tracked state.heap)
    (hbelow : ∀ handle object, state.heap.object? handle = some object →
      object.refCount < Heap.maxCount) :
    start.Adds [] ((host.leave (passOn value state)).heap.releaseValue value) := by
  unfold Heap.releaseValue
  obtain ⟨handle, rest, hvalue, hperm, hhanded⟩ | ⟨_, hkept⟩ := state.scope.handOff_cases value
  · have hpassed : passOn value state =
        { state with scope := { state.scope with tracked := rest } } := by
      simp only [passOn, hhanded]
    have hrest : start.Adds (rest ++ [handle]) state.heap :=
      h.perm (hperm.trans (List.perm_append_singleton handle rest).symm)
    rw [hpassed, hvalue]
    exact (adds_leave host hstart hrest).release hstart
  · have hpassed : passOn value state = { state with heap := state.heap.retainValue value } := by
      simp only [passOn, hkept]
    rw [hpassed]
    unfold Heap.retainValue
    cases hvalue : value.handle? with
    | none =>
      have hall : start.Adds (state.scope.tracked ++ []) state.heap := by simpa using h
      exact adds_leave host hstart hall
    | some handle =>
      cases hobject : state.heap.object? handle with
      | some object =>
        have hraise : start.Adds (handle :: state.scope.tracked) (state.heap.addRef handle).2 := by
          rw [Heap.addRef_live hobject (hbelow handle object hobject)]
          exact h.raise hobject
        exact (adds_leave host hstart
          (hraise.perm (List.perm_append_singleton handle _).symm)).release hstart
      | none =>
        -- a stale value gets no reference, and it is still stale when the scope is closed
        have hall : start.Adds (state.scope.tracked ++ []) state.heap := by simpa using h
        have hleft := adds_leave host hstart hall
        have hstale : start.object? handle = none := by
          cases hfound : start.object? handle with
          | none => rfl
          | some object =>
            rw [h.kept handle object hfound] at hobject
            cases hobject
        have hgone := (hleft.object?_eq handle).trans hstale
        simp only [Heap.addRef_stale hobject]
        simp only [Option.toList_some, Heap.releaseAll_cons]
        rw [Heap.release_stale hgone]
        exact hleft

/-- A call that answers with a value leaves one owner more than there were
beside its scope, the caller; a call that fails, for whatever reason, leaves
none. When all that its scope answers for are new objects that hold nothing, a
failed call leaves the objects and their counts alone. -/
theorem invokeMethod_settles {host : Host σ ω} {className : String} {method : Method σ ω}
    {frame : Frame} {outcome : Except CallError Value}
    (hrun : host.runCall className method frame = (outcome, state))
    (hbalanced : state.heap.BalancedFor (owners + tally state.scope.tracked))
    (hbelow : ∀ handle object, state.heap.object? handle = some object →
      object.refCount < Heap.maxCount) :
    (∀ value after, host.invokeMethod className method frame = (.ok value, after) →
      after.heap.BalancedFor (owners + tally value.handle?.toList) ∧
      ∀ handle, value.handle? = some handle → state.heap.contains handle = true →
        after.heap.contains handle = true) ∧
    (∀ error after, host.invokeMethod className method frame = (.error error, after) →
      after.heap.BalancedFor owners ∧
      (host.heap.Sound → host.heap.StoresFree state.scope.tracked state.heap →
        (∀ handle, after.heap.object? handle = host.heap.object? handle) ∧
        after.heap.liveCount = host.heap.liveCount)) := by
  obtain ⟨value, -, -, heq⟩ | ⟨value, imbalance, -, -, heq⟩ | ⟨error, -, -, heq⟩ |
    ⟨error, imbalance, -, -, heq⟩ := invokeMethod_cases hrun <;> rw [heq]
  · have hpassed := balanced_passOn value hbalanced hbelow
    refine ⟨?_, by simp⟩
    rintro _ _ ⟨⟩
    refine ⟨balanced_leave host hpassed, ?_⟩
    intro handle hvalue hlive
    refine contains_leave host hpassed ((contains_passOn value state handle).trans hlive) ?_
    simp [hvalue, tally_singleton]
  · have hpassed := balanced_passOn value hbalanced hbelow
    refine ⟨by simp, ?_⟩
    rintro _ _ ⟨⟩
    refine ⟨balanced_takeBack value (balanced_leave host hpassed), fun hsound hstores => ?_⟩
    have hnothing := adds_takeBack host value hsound (hstores.adds hsound) hbelow
    exact ⟨hnothing.object?_eq, hnothing.liveCount_eq hsound⟩
  all_goals
    refine ⟨by simp, ?_⟩
    rintro _ _ ⟨⟩
    refine ⟨balanced_leave host hbalanced, fun hsound hstores => ?_⟩
    have hnothing : host.heap.Adds [] (host.leave state).heap :=
      adds_leave host hsound (by simpa using hstores.adds hsound)
    exact ⟨hnothing.object?_eq, hnothing.liveCount_eq hsound⟩

/-- Stores two arrays and answers with the first. It may leave a scope open. -/
def storeTwo (leavesOpen : Bool) : Method Sample Unit :=
  .declare "storeTwo" [] .none do
    let first ← CallM.allocateArray .empty
    let _ ← CallM.allocateArray .empty
    CallM.setResult first
    if leavesOpen then
      let _ ← CallM.openNested false

/-- A host with one array, which somebody outside of the heap owns. -/
def oneArray : Host Sample Unit :=
  ⟨(Heap.empty.allocate (.array .empty)).2, .empty, .standard, [], [], ()⟩

/-- How the run phase of such a call ends. -/
def storedTwo (leavesOpen : Bool) : CallState Sample Unit :=
  (oneArray.runCall "Store" (storeTwo leavesOpen) ⟨none, []⟩).2

/-- The handle of an array that was the first object in its slot. -/
def arrayAt (index : UInt32) : Handle := ⟨index, 0, NativeState.arrayType Sample⟩

/-- The caller owns the first of the two arrays, or nothing when a scope was
left open. -/
theorem invokeMethod_settles_storeTwo :
    (oneArray.invokeMethod "Store" (storeTwo false) ⟨none, []⟩).2.heap.BalancedFor
      (tally [arrayAt 0] + tally [arrayAt 1]) ∧
    (oneArray.invokeMethod "Store" (storeTwo false) ⟨none, []⟩).2.heap.contains (arrayAt 1) = true ∧
    (oneArray.invokeMethod "Store" (storeTwo true) ⟨none, []⟩).1 =
      .error (.scopeImbalance ⟨1, 2, 1⟩) ∧
    (oneArray.invokeMethod "Store" (storeTwo true) ⟨none, []⟩).2.heap.BalancedFor
      (tally [arrayAt 0]) ∧
    (oneArray.invokeMethod "Store" (storeTwo true) ⟨none, []⟩).2.heap.liveCount = 1 := by
  have hrun : oneArray.runCall "Store" (storeTwo false) ⟨none, []⟩ =
      (.ok (.array (arrayAt 1)), storedTwo false) := rfl
  have hbalanced : (storedTwo false).heap.BalancedFor
      (tally [arrayAt 0] + tally (storedTwo false).scope.tracked) := by decide
  have hkept := (invokeMethod_settles hrun hbalanced
    (Heap.forall_object?_of_slots (by decide))).1 (.array (arrayAt 1)) _ rfl
  have hrun' : oneArray.runCall "Store" (storeTwo true) ⟨none, []⟩ =
      (.ok (.array (arrayAt 1)), storedTwo true) := rfl
  have hbalanced' : (storedTwo true).heap.BalancedFor
      (tally [arrayAt 0] + tally (storedTwo true).scope.tracked) := by decide
  obtain ⟨hleft, hundone⟩ := (invokeMethod_settles hrun' hbalanced'
    (Heap.forall_object?_of_slots (by decide))).2 (.scopeImbalance ⟨1, 2, 1⟩) _ rfl
  have hsound : oneArray.heap.Sound :=
    (Heap.Reached.empty.place Identity.empty false (.array .empty) fun _ => by decide).sound
  have hstores : oneArray.heap.StoresFree (storedTwo true).scope.tracked (storedTwo true).heap := by
    refine .store Identity.empty false _ (.store Identity.empty false (.array .empty) .nil ?_ rfl)
      ?_ rfl
    · exact fun _ => by decide
    · exact fun _ => by decide
  exact ⟨hkept.1, hkept.2 (arrayAt 1) rfl (by decide), rfl, hleft, (hundone hsound hstores).2⟩

end NativeBridge.Host
