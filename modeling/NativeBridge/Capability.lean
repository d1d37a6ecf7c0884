import NativeBridge.Text.Case

/-!
# Capabilities

A capability is an interface that the host dispatches on. A class that declares one has to provide
a fixed list of methods, each with a fixed number of parameters. Some capabilities extend the
iterator and take its methods as well.
-/

namespace NativeBridge

inductive Capability where
  | countable
  | iterator
  | outerIterator
  | recursiveIterator
  | seekableIterator
  | aggregate
  | arrayAccess
  | serializable
deriving DecidableEq, Repr

/-- A method that a capability takes. The receiver is no parameter. -/
structure RequiredMethod where
  name : String
  arity : Nat
deriving DecidableEq, Repr

namespace Capability

/-- All capabilities in their canonical order. -/
def all : List Capability :=
  [countable, iterator, outerIterator, recursiveIterator, seekableIterator, aggregate, arrayAccess,
    serializable]

/-- The place in the canonical order. -/
def id : Capability → UInt8
  | countable => 0
  | iterator => 1
  | outerIterator => 2
  | recursiveIterator => 3
  | seekableIterator => 4
  | aggregate => 5
  | arrayAccess => 6
  | serializable => 7

/-- The capability at a place in the canonical order. -/
def ofId? (id : UInt8) : Option Capability := all[id.toNat]?

def hostName : Capability → String
  | countable => "Countable"
  | iterator => "Iterator"
  | outerIterator => "OuterIterator"
  | recursiveIterator => "RecursiveIterator"
  | seekableIterator => "SeekableIterator"
  | aggregate => "IteratorAggregate"
  | arrayAccess => "ArrayAccess"
  | serializable => "Serializable"

/-- The methods a capability takes itself, without those of the capability it extends. -/
def requiredMethods : Capability → List RequiredMethod
  | countable => [⟨"count", 0⟩]
  | iterator => [⟨"current", 0⟩, ⟨"key", 0⟩, ⟨"next", 0⟩, ⟨"rewind", 0⟩, ⟨"valid", 0⟩]
  | outerIterator => [⟨"getInnerIterator", 0⟩]
  | recursiveIterator => [⟨"getChildren", 0⟩, ⟨"hasChildren", 0⟩]
  | seekableIterator => [⟨"seek", 1⟩]
  | aggregate => [⟨"getIterator", 0⟩]
  | arrayAccess => [⟨"offsetExists", 1⟩, ⟨"offsetGet", 1⟩, ⟨"offsetSet", 2⟩, ⟨"offsetUnset", 1⟩]
  | serializable => [⟨"serialize", 0⟩, ⟨"unserialize", 1⟩]

/-- Whether a method is one of those that the capability takes itself. -/
def requires (c : Capability) (method : String) : Bool :=
  c.requiredMethods.any fun required => decide (Text.SameName required.name method)

end Capability

/-- A set of capabilities: the bit at each capability's place tells whether it is in. -/
structure CapabilitySet where
  bits : UInt8
deriving DecidableEq, Repr

namespace CapabilitySet

def empty : CapabilitySet := ⟨0⟩

def singleton (c : Capability) : CapabilitySet := ⟨1 <<< c.id⟩

def union (a b : CapabilitySet) : CapabilitySet := ⟨a.bits ||| b.bits⟩

def has (set : CapabilitySet) (c : Capability) : Bool :=
  set.bits &&& (singleton c).bits == (singleton c).bits

/-- The capabilities in the set, in their canonical order. -/
def toList (set : CapabilitySet) : List Capability :=
  Capability.all.filter set.has

/-- The union of the sets that a function gives for each of the capabilities. -/
def unionOf (capabilities : List Capability) (f : Capability → CapabilitySet) : CapabilitySet :=
  capabilities.foldl (fun set c => set.union (f c)) empty

end CapabilitySet

/-- A capability and the one it extends. -/
def Capability.implied : Capability → CapabilitySet
  | c@outerIterator | c@recursiveIterator | c@seekableIterator =>
    (CapabilitySet.singleton c).union (CapabilitySet.singleton iterator)
  | c => CapabilitySet.singleton c

/-- The set with the capabilities that its members extend. -/
def CapabilitySet.closure (set : CapabilitySet) : CapabilitySet :=
  unionOf set.toList Capability.implied

end NativeBridge
