import NativeBridge.Fixture.Placeholder

/-!
# The class of literals

A class with one static method for each native type that a method may be declared to answer with.
Each answers with a literal of its type, and boxing widens it.
-/

namespace NativeBridge.Literals

variable {σ ω : Type}

def path : String := "Test"

def simpleName : String := "Declare"

/-- A static method that answers with a native. -/
def literal (name : String) (native : Native) : Method σ ω :=
  .declare name [] .none (CallM.setResult native.toValue)

/-- The code of the letter that the byte methods answer with. -/
def letterA : Nat := 'A'.toNat

def methods : MethodTable σ ω :=
  [literal "testDeclare1" ⟨.int32, (1 : Int32)⟩,
    literal "testDeclare2" ⟨.uint32, (1 : UInt32)⟩,
    literal "testDeclare3" ⟨.float64, (1 : Float)⟩,
    literal "testDeclare4" ⟨.float64, (1 : Float)⟩,
    literal "testDeclare5" ⟨.int8, Int8.ofNat letterA⟩,
    literal "testDeclare6" ⟨.uint8, UInt8.ofNat letterA⟩]

def nativeClass : Except RegistrationError (NativeClass σ ω) :=
  NativeClass.register simpleName path methods

def install (registry : Registry σ ω) : Except RegistrationError (Registry σ ω) := do
  registry.install (← nativeClass)

end NativeBridge.Literals

namespace NativeBridge

variable {σ ω : Type} [NativeState σ]

/-- Installs both fixture classes, one after the other. When the second is refused the first stays
installed. -/
def Registry.installFixtures (kind : StateKind σ Placeholder) (registry : Registry σ ω) :
    Except RegistrationError Unit × Registry σ ω :=
  match Placeholder.install kind registry with
  | .error error => (.error error, registry)
  | .ok registry =>
    match Literals.install registry with
    | .error error => (.error error, registry)
    | .ok registry => (.ok (), registry)

/-- A bridge with standard options and the fixture classes installed. -/
def Bridge.withFixtures (kind : StateKind σ Placeholder) (shared : ω) :
    Except BridgeError (Bridge σ ω) :=
  let bridge : Bridge σ ω := Bridge.new Options.standard false shared
  match bridge.registry.installFixtures kind with
  | (.ok (), registry) => .ok { bridge with registry }
  | (.error error, _) => .error (.registration error)

end NativeBridge
