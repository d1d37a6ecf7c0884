import Mathlib.Algebra.Group.Basic
import NativeBridge.Proofs.Heap.Release
import NativeBridge.Sample.State
import NativeBridge.StaticProperty

namespace NativeBridge

/-- The references that come with a value: one to a boxed array or object, none
with anything else. -/
def Value.share (value : Value) : Tenancy → Nat :=
  tally value.handle?.toList

/-- The arrays and objects among stored values, each as often as it is stored. A
slot owns one reference to what it holds. -/
def storedIn (statics : List (Identity × Value)) : List Handle :=
  statics.filterMap fun entry => entry.2.handle?

private theorem tally_storedIn_cons (slot : Identity) (value : Value)
    (rest : List (Identity × Value)) :
    tally (storedIn ((slot, value) :: rest)) = value.share + tally (storedIn rest) := by
  rw [storedIn, List.filterMap_cons, Value.share]
  cases value.handle? with
  | none => simp [storedIn]
  | some handle => rw [tally_cons, add_comm, Option.toList_some, storedIn]

/-- Writing a slot exchanges the value stored before for the new one. Nothing is
assumed of the two: they may be the same object. -/
theorem tally_storedIn_put (slot : Identity) (value : Value) (statics : List (Identity × Value)) :
    tally (storedIn (Assoc.put slot value statics)) +
        tally ((Assoc.find? slot statics).bind Value.handle?).toList =
      tally (storedIn statics) + value.share := by
  induction statics with
  | nil => rw [Assoc.put, tally_storedIn_cons, add_comm value.share]; rfl
  | cons entry rest ih =>
    obtain ⟨key, old⟩ := entry
    rw [Assoc.put, Assoc.find?]
    split
    · rw [tally_storedIn_cons, tally_storedIn_cons, Option.bind_some, ← Value.share,
        add_right_comm, add_comm value.share, add_right_comm]
    · rw [tally_storedIn_cons, tally_storedIn_cons, add_assoc, ih, add_assoc]

/-- The arrays and objects in the slots of static properties. -/
def Host.stored {σ ω : Type} (host : Host σ ω) : List Handle :=
  storedIn host.statics

namespace Heap

variable {σ : Type} [NativeState σ] {heap : Heap σ} {owners : Tenancy → Nat}

/-- What the caller owns is what it keeps and the reference that it passes on. A
stale value comes with no reference, so none has to be owned. -/
theorem BalancedFor.keep {others : Tenancy → Nat} {value : Value}
    (h : heap.BalancedFor (owners + others))
    (howned : ∀ handle, value.handle? = some handle → heap.contains handle = true →
      1 ≤ owners handle.tenancy) :
    heap.BalancedFor (owners - value.share + value.share + others) := by
  refine h.congr fun other hlive => ?_
  simp only [Pi.add_apply, Pi.sub_apply]
  rw [Nat.sub_add_cancel]
  cases hvalue : value.handle? with
  | none => simp [Value.share, hvalue]
  | some handle =>
    rw [Value.share, hvalue, Option.toList_some, tally_singleton]
    split
    · rename_i heq
      rw [heq]
      exact howned handle hvalue (by rwa [contains, object?_congr heq.symm])
    · exact Nat.zero_le _

private theorem releaseAll_nil (heap : Heap σ) : heap.releaseAll [] = heap := rfl

/-- What still has an owner, outside of the heap or in it, outlives the
reference given up. The object given up may be this one or lead to it. -/
theorem BalancedFor.contains_of_owned {given : Option Handle} {other : Handle}
    (h : heap.BalancedFor (owners + tally given.toList)) (hlive : heap.contains other = true)
    (howned : 0 < owners other.tenancy + (heap.releaseAll given.toList).held other.tenancy) :
    (heap.releaseAll given.toList).contains other = true := by
  cases given with
  | none => exact hlive
  | some handle =>
    rw [Option.toList_some, releaseAll_cons, releaseAll_nil] at howned ⊢
    by_contra hgone
    have hunowned := h.unowned_of_release hlive (by simpa using hgone)
    omega

end Heap

namespace Host

variable {σ ω : Type} [NativeState σ] {host : Host σ ω} {owners : Tenancy → Nat}

/-- The value stored before, if it is an array or an object. Its reference is
given up when the slot is written. -/
def displaced? (host : Host σ ω) (slot : Identity) : Option Handle :=
  (host.static? slot).bind Value.handle?

/-- The owners when a value is stored: the slot owns it, and what it displaces
is owned by nobody any more. The heap has not been touched yet. -/
theorem balanced_displaced {slot : Identity} {value : Value}
    (h : host.heap.BalancedFor (owners + value.share + tally host.stored)) :
    host.heap.BalancedFor (owners + tally (host.storeStatic slot value).stored +
      tally (host.displaced? slot).toList) := by
  rw [add_assoc, add_comm value.share] at h
  rw [add_assoc]
  exact tally_storedIn_put slot value host.statics ▸ h

/-- An assignment gives up one reference, that of the value displaced or that of
the value refused. Success and failure are alike in this. -/
theorem updateStatic_gives (registry : Registry σ ω) (target property : String) (value : Value)
    (scope : Option String)
    (h : host.heap.BalancedFor (owners + value.share + tally host.stored)) :
    ∃ given : Option Handle,
      (host.updateStatic registry target property value scope).2.heap =
        host.heap.releaseAll given.toList ∧
      host.heap.BalancedFor (owners +
        tally (host.updateStatic registry target property value scope).2.stored +
          tally given.toList) := by
  unfold updateStatic
  split
  · rename_i found _
    exact ⟨host.displaced? found.slot, rfl, balanced_displaced h⟩
  · rw [add_right_comm] at h
    exact ⟨value.handle?, rfl, h⟩

/-- An assignment consumes one of the caller's references, whether it succeeds
or fails. What has an owner afterwards, the caller, a slot or an object that is
still there, has not gone. The value may be the one stored before, refer to it,
or be referred to by it. -/
theorem updateStatic_consumes (registry : Registry σ ω) (target property : String) (value : Value)
    (scope : Option String) (hbalanced : host.heap.BalancedFor (owners + tally host.stored))
    (howned : ∀ handle, value.handle? = some handle → host.heap.contains handle = true →
      1 ≤ owners handle.tenancy) :
    let after := (host.updateStatic registry target property value scope).2
    after.heap.BalancedFor (owners - value.share + tally after.stored) ∧
    (∀ handle, host.heap.contains handle = true →
      0 < (owners - value.share + tally after.stored + after.heap.held) handle.tenancy →
      after.heap.contains handle = true) ∧
    match registry.resolve target property scope with
    | .ok found => ∀ slot, after.static? slot =
        if found.slot = slot then some value else host.static? slot
    | .error _ => after.statics = host.statics := by
  intro after
  have hkept := hbalanced.keep howned
  obtain ⟨given, hheap, hgiven⟩ := updateStatic_gives registry target property value scope hkept
  refine ⟨?_, fun handle hlive hpos => ?_, ?_⟩
  · rw [show after.heap = _ from hheap]
    exact hgiven.releaseAll
  · rw [Pi.add_apply, show after.heap = _ from hheap] at hpos
    rw [show after.heap = _ from hheap]
    exact hgiven.contains_of_owned hlive hpos
  · cases hresolve : registry.resolve target property scope with
    | ok found =>
      intro slot
      simp only [after, updateStatic, hresolve]
      exact Assoc.find?_put found.slot slot value host.statics
    | error error => simp only [after, updateStatic, hresolve]

/-- A class with a static property. -/
def shelf : NativeClass Sample Unit where
  name := .global "Shelf"
  parent := none
  capabilities := .empty
  methods := []
  properties := [⟨"item", .everywhere, true, .null⟩]
  distinct := List.nodup_nil

/-- An array that is inside of the stored one, and is owned by somebody else as
well. -/
def inner : Handle := ⟨0, 0, NativeState.arrayType Sample⟩

/-- The array that the slot holds. -/
def outer : Handle := ⟨1, 0, NativeState.arrayType Sample⟩

/-- The property holds an array that holds another one, which somebody else owns
as well. -/
def shelved : Host Sample Unit where
  heap :=
    let placed := (Heap.empty.allocate (.array .empty)).2
    ((placed.addRef inner).2.allocate (.array (OrderedArray.empty.push (.array inner)))).2
  ledger := .empty
  options := .standard
  failures := []
  statics := [(Identity.ofProperty shelf.identity "item", .array outer)]
  shared := ()

/-- What the old value owns takes its place, and is not freed with it. A refused
value is given up, and the slot keeps what it has. -/
theorem updateStatic_consumes_shelved :
    let shelves : Registry Sample Unit := ⟨[shelf], false⟩
    let taken := (shelved.updateStatic shelves "Shelf" "item" (.array inner) none).2
    let refused := (shelved.updateStatic shelves "Shelf" "lid" (.array inner) none).2
    shelved.heap.BalancedFor (tally [inner] + tally shelved.stored) ∧
    taken.stored = [inner] ∧
    taken.heap.BalancedFor (tally [inner] - tally [inner] + tally [inner]) ∧
    taken.heap.contains inner = true ∧ taken.heap.contains outer = false ∧
    refused.heap.BalancedFor (tally [inner] - tally [inner] + tally refused.stored) ∧
    refused.heap.contains outer = true := by
  intro shelves taken refused
  have hbalanced : shelved.heap.BalancedFor (tally [inner] + tally shelved.stored) := by decide
  have howned : ∀ handle, (Value.array inner).handle? = some handle →
      shelved.heap.contains handle = true → 1 ≤ tally [inner] handle.tenancy := by
    rintro _ ⟨⟩ -
    decide
  have hstored : taken.stored = [inner] := by decide +kernel
  obtain ⟨htaken, hkept, -⟩ :=
    updateStatic_consumes shelves "Shelf" "item" (.array inner) none hbalanced howned
  obtain ⟨hrefused, hstays, -⟩ :=
    updateStatic_consumes shelves "Shelf" "lid" (.array inner) none hbalanced howned
  rw [show (shelved.updateStatic shelves "Shelf" "item" (.array inner) none).2.stored = [inner]
    from hstored] at htaken
  exact ⟨hbalanced, hstored, htaken, hkept inner (by decide) (by decide +kernel),
    by decide +kernel, hrefused, hstays outer (by decide) (by decide +kernel)⟩

end Host

end NativeBridge
