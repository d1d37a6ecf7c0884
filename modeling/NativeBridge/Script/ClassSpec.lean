import NativeBridge.Fixture.Literals
import NativeBridge.Script.Body

/-!
# Class descriptions

A class given as data: a method table in steps, a parent, capabilities and properties. Building it
stops at the first thing that is refused.
-/

namespace NativeBridge.Script

abbrev SampleClass := NativeClass Sample Workspace

abbrev SampleTable := MethodTable Sample Workspace

inductive Fixture where
  | placeholder
  | literals
deriving DecidableEq, Repr

def Fixture.nativeClass : Fixture → Except RegistrationError SampleClass
  | placeholder => Placeholder.nativeClass SampleType.placeholderKind
  | literals => Literals.nativeClass

def Fixture.methods : Fixture → SampleTable
  | placeholder => Placeholder.methods SampleType.placeholderKind
  | literals => Literals.methods

/-- The methods of a capability, for bags or for placeholders. -/
def generate {α : Type} [FullyCapable α] (c : Capability) (kind : StateKind Sample α)
    (table : SampleTable) : SampleTable :=
  match c with
  | .countable => table.withCountable kind
  | .iterator => table.withIterator kind
  | .outerIterator => table.withOuterIterator kind
  | .recursiveIterator => table.withRecursiveIterator kind
  | .seekableIterator => table.withSeekableIterator kind
  | .aggregate => table.withAggregate kind
  | .arrayAccess => table.withArrayAccess kind
  | .serializable => table.withSerializable kind

/-- A step in putting a method table together. -/
inductive TableStep where
  | bag (c : Capability)
  | placeholder (c : Capability)
  | without (name : String)
  | method (name : String) (params : List ParamDecl) (flags : MethodFlags) (body : List Action)

def TableStep.apply (table : SampleTable) : TableStep → SampleTable
  | bag c => generate c SampleType.bagKind table
  | placeholder c => generate c SampleType.placeholderKind table
  | without name => table.without name
  | method name params flags body => table.add (.declare name params flags (bodyOf body))

/-- A declared capability, by number or by name. -/
inductive CapabilitySpec where
  | number (id : UInt8)
  | named (c : Capability)

structure PropertySpec where
  name : String
  isStatic : Bool
  visibility : Visibility
  initial : ValueExpr

structure ClassSpec where
  name : String
  path : String
  base : Option Fixture
  methods : List TableStep
  parent : Option String
  capabilities : List CapabilitySpec
  properties : List PropertySpec

namespace ClassSpec

def table (spec : ClassSpec) : SampleTable :=
  spec.methods.foldl TableStep.apply ((spec.base.map Fixture.methods).getD MethodTable.empty)

def declareCapability (cls : SampleClass) :
    CapabilitySpec → Except RegistrationError SampleClass
  | .number id => cls.declareCapability id
  | .named c => .ok (cls.withCapability c)

def declareProperty (bindings : Bindings) (cls : SampleClass) (property : PropertySpec) :
    Except RegistrationError SampleClass :=
  cls.declareProperty
    ⟨property.name, property.visibility, property.isStatic, property.initial.eval bindings⟩

/-- The class of a description: methods, parent, capabilities, properties, in this order. -/
def build (bindings : Bindings) (spec : ClassSpec) : Except RegistrationError SampleClass := do
  let cls ← NativeClass.register spec.name spec.path spec.table
  let cls := (spec.parent.map cls.withParent).getD cls
  let cls ← spec.capabilities.foldlM declareCapability cls
  spec.properties.foldlM (declareProperty bindings) cls

end ClassSpec

end NativeBridge.Script
