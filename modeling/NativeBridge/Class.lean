import NativeBridge.Capability
import NativeBridge.ClassName
import NativeBridge.Method

/-!
# Native classes

A class has a name, perhaps a parent, declared capabilities, methods and properties. It is put
together step by step and does not change once it is installed. No two of its methods share a name,
so a name finds at most one method.

A capability that is declared, or extended by a declared one, asks for methods with fixed numbers
of parameters. What is missing of them are the gaps of the class. They are worked out when they are
first asked for and kept until another capability is declared.
-/

namespace NativeBridge

/-- Why a class was not put together or not installed. -/
inductive RegistrationError where
  | duplicateClass (className : String)
  | unknownClass (className : String)
  | unknownParent (className parent : String)
  | duplicateMethod (className method : String)
  | duplicateProperty (className property : String)
  | unknownCapability (id : UInt8)
  | contractViolation (className capability : String) (missing : List String)

def RegistrationError.message : RegistrationError → String
  | duplicateClass className => "duplicate class: " ++ className
  | unknownClass className => "class not found: " ++ className
  | unknownParent className parent =>
    "class '" ++ className ++ "' extends unknown class '" ++ parent ++ "'"
  | duplicateMethod className method => "duplicate method: " ++ className ++ "::" ++ method
  | duplicateProperty className property =>
    "duplicate static property: " ++ className ++ "::$" ++ property
  | unknownCapability id => "unknown capability id: " ++ toString id.toNat
  | contractViolation className capability missing => contractText className capability missing

/-- From where a property may be accessed. -/
inductive Visibility where
  | everywhere
  /-- From the class that declares it, its ancestors and its descendants. -/
  | hierarchy
  /-- From the class that declares it. -/
  | ownClass
deriving DecidableEq, Repr

/-- A declared property. Its initial value is a scalar. -/
structure Property where
  name : String
  visibility : Visibility
  isStatic : Bool
  initial : Value

/-- A capability with those of its methods that a class lacks. -/
structure ContractGap where
  capability : Capability
  missing : List String
deriving DecidableEq, Repr

structure NativeClass (σ ω : Type) where
  name : ClassName
  parent : Option ClassName
  capabilities : CapabilitySet
  methods : MethodTable σ ω
  properties : List Property
  distinct : methods.Distinct
  /-- The gaps, once they have been asked for. -/
  knownGaps : Option (List ContractGap) := none

namespace NativeClass

variable {σ ω : Type}

def identity (cls : NativeClass σ ω) : Identity := cls.name.identity

/-- The methods with the identities they have in a class. -/
def ownMethods (owner : Identity) (table : MethodTable σ ω) : MethodTable σ ω :=
  table.map fun method => { method with id := Identity.ofMethod owner method.name }

/-- Giving methods identities of their owner leaves their names alone, so a
table of distinct names stays one. -/
theorem distinct_ownMethods {owner : Identity} {table : MethodTable σ ω} (h : table.Distinct) :
    (ownMethods owner table).Distinct := by
  simpa [MethodTable.Distinct, ownMethods, Function.comp_def] using h

/-- A class with a name, a written path of namespaces and methods. It is refused
when two methods share a name. -/
def register (simple path : String) (table : MethodTable σ ω) :
    Except RegistrationError (NativeClass σ ω) :=
  let name := ClassName.inside path simple
  match h : MethodTable.firstRepeat? [] table with
  | some method => .error (.duplicateMethod name.text method.name)
  | none =>
    .ok {
      name
      parent := none
      capabilities := CapabilitySet.empty
      methods := ownMethods name.identity table
      properties := []
      distinct := distinct_ownMethods (MethodTable.firstRepeat?_nil_eq_none_iff.1 h) }

/-- The class with a capability declared. Declaring it again changes nothing. -/
def withCapability (cls : NativeClass σ ω) (c : Capability) : NativeClass σ ω :=
  if cls.capabilities.has c then cls
  else
    { cls with
      capabilities := cls.capabilities.union (CapabilitySet.singleton c)
      knownGaps := none }

def declareCapability (cls : NativeClass σ ω) (id : UInt8) :
    Except RegistrationError (NativeClass σ ω) :=
  match Capability.ofId? id with
  | some c => .ok (cls.withCapability c)
  | none => .error (.unknownCapability id)

/-- The class with a parent, given by its written name. -/
def withParent (cls : NativeClass σ ω) (parent : String) : NativeClass σ ω :=
  { cls with parent := some (ClassName.ofText parent) }

def declareProperty (cls : NativeClass σ ω) (property : Property) :
    Except RegistrationError (NativeClass σ ω) :=
  if cls.properties.any fun p => p.name == property.name then
    .error (.duplicateProperty cls.name.text property.name)
  else .ok { cls with properties := cls.properties ++ [property] }

/-- Whether a capability is declared or extended by a declared one. -/
def implements (cls : NativeClass σ ω) (c : Capability) : Bool :=
  cls.capabilities.closure.has c

/-- The method of a name. The case of ASCII letters does not matter. -/
def method? (cls : NativeClass σ ω) (name : String) : Option (Method σ ω) :=
  cls.methods.find? name

def property? (cls : NativeClass σ ω) (name : String) : Option Property :=
  cls.properties.find? fun property => property.name == name

/-- Whether the class has a method of this name that takes exactly this number
of arguments. -/
def provides (cls : NativeClass σ ω) (required : RequiredMethod) : Bool :=
  (cls.method? required.name).any fun method =>
    method.requiredCount == required.arity && method.maxCount == required.arity

/-- What the class lacks of a capability's own methods, in the order of the
contract. -/
def missing (cls : NativeClass σ ω) (c : Capability) : List String :=
  (c.requiredMethods.filter fun required => !cls.provides required).map RequiredMethod.name

/-- The gap at a capability, if the class lacks anything of it. -/
def gapAt? (cls : NativeClass σ ω) (c : Capability) : Option ContractGap :=
  if cls.missing c = [] then none else some ⟨c, cls.missing c⟩

/-- The gaps worked out anew, in the canonical order of capabilities. -/
def findGaps (cls : NativeClass σ ω) : List ContractGap :=
  cls.capabilities.closure.toList.filterMap cls.gapAt?

/-- The gaps of the class: those that are known already, or else worked out. -/
def gaps (cls : NativeClass σ ω) : List ContractGap :=
  cls.knownGaps.getD cls.findGaps

/-- Asks for the gaps. The class knows them from then on. -/
def askGaps (cls : NativeClass σ ω) : List ContractGap × NativeClass σ ω :=
  (cls.gaps, { cls with knownGaps := some cls.gaps })

/-- The capabilities that a call of a method depends on: those that take it,
with what they extend. -/
def dependencies (cls : NativeClass σ ω) (method : String) : CapabilitySet :=
  CapabilitySet.unionOf
    (cls.capabilities.closure.toList.filter fun c => c.requires method) Capability.implied

/-- The first gap that a call of a method runs into. -/
def gapFor? (cls : NativeClass σ ω) (method : String) : Option ContractGap :=
  cls.gaps.find? fun gap => (cls.dependencies method).has gap.capability

end NativeClass

end NativeBridge
