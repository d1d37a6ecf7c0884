import NativeBridge.Bridge
import NativeBridge.Method.Contract

/-!
# The class with every capability

A class that declares all capabilities and does nothing: its instances keep no state, its iterators
are empty, and a value stored in it is handed straight back. It takes the method set, arities and
flags of each capability through installation and dispatch.
-/

namespace NativeBridge

structure Placeholder where
deriving DecidableEq, Repr

namespace Placeholder

instance : Counts Placeholder where
  count := fun _ => 0

instance : Iterates Placeholder where
  current := fun _ => .null
  key := fun _ => .null
  next := id
  rewind := id
  valid := fun _ => false

instance : WrapsIterator Placeholder where
  innerIterator := fun _ => .null

instance : IteratesChildren Placeholder where
  children := fun _ => .null
  hasChildren := fun _ => false

instance : Seeks Placeholder where
  seek := fun _ state => (.ok (), state)

instance : ProvidesIterator Placeholder where
  iterator := fun _ => .null

instance : HasOffsets Placeholder where
  offsetExists := fun _ _ => .ok false
  offsetGet := fun _ _ => .ok .null
  offsetSet := fun _ value state => (.ok (some value), state)
  offsetUnset := fun _ state => (.ok none, state)

instance : Serializes Placeholder where
  serialize := fun _ => none
  unserialize := fun _ state => (.ok (), state)

instance : FullyCapable Placeholder where

def path : String := "Test\\Oo"

def simpleName : String := "OoNativeImplements"

variable {σ ω : Type} [NativeState σ]

/-- The methods of all capabilities, in the canonical order. -/
def methods (kind : StateKind σ Placeholder) : MethodTable σ ω :=
  MethodTable.empty
    |>.withCountable kind
    |>.withIterator kind
    |>.withOuterIterator kind
    |>.withRecursiveIterator kind
    |>.withSeekableIterator kind
    |>.withAggregate kind
    |>.withArrayAccess kind
    |>.withSerializable kind

/-- The class, with all capabilities declared. -/
def nativeClass (kind : StateKind σ Placeholder) :
    Except RegistrationError (NativeClass σ ω) := do
  let cls ← NativeClass.register simpleName path (methods kind)
  return Capability.all.foldl NativeClass.withCapability cls

def install (kind : StateKind σ Placeholder) (registry : Registry σ ω) :
    Except RegistrationError (Registry σ ω) := do
  registry.install (← nativeClass kind)

/-- Makes an instance of a class; answers its handle. -/
def instantiate (kind : StateKind σ Placeholder) (cls : NativeClass σ ω) (heap : Heap σ) :
    Handle × Heap σ :=
  heap.allocateInstance cls.identity (kind.write ⟨⟩)

end Placeholder

end NativeBridge
