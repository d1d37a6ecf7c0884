import NativeBridge.Assoc
import NativeBridge.Call.Error
import NativeBridge.Identity

/-!
# The host's runtime

What the host keeps between calls: the heap, the ledger of scopes, options, the failures reported
so far, and the values of static properties. `shared` is whatever else the bodies of an embedding
have in common.
-/

namespace NativeBridge

structure Options where
  /-- How the arguments of calls become numbers. -/
  strictness : Strictness
  /-- The size in bytes that a growing scope starts with. -/
  arenaCapacity : Nat
deriving DecidableEq, Repr

def Options.standard : Options := ⟨.strict, 256⟩

/-- The state of the host. Failures are listed in the order in which they were reported. -/
structure Host (σ ω : Type) where
  heap : Heap σ
  ledger : Ledger
  options : Options
  failures : List Failure
  statics : List (Identity × Value)
  shared : ω

namespace Host

variable {σ ω : Type}

def new (options : Options) (shared : ω) : Host σ ω :=
  ⟨Heap.empty, Ledger.empty, options, [], [], shared⟩

def report (host : Host σ ω) (failure : Failure) : Host σ ω :=
  { host with failures := host.failures ++ [failure] }

def takeFailures (host : Host σ ω) : List Failure × Host σ ω :=
  (host.failures, { host with failures := [] })

def static? (host : Host σ ω) (slot : Identity) : Option Value :=
  Assoc.find? slot host.statics

/-- Stores the value of a static property, which takes over one reference. The reference of the
value stored before is given up. -/
def storeStatic [NativeState σ] (host : Host σ ω) (slot : Identity) (value : Value) : Host σ ω :=
  { host with
    statics := Assoc.put slot value host.statics
    heap := host.heap.releaseAll ((host.static? slot).bind Value.handle?).toList }

end Host

end NativeBridge
