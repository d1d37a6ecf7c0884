import NativeBridge.Dispatch
import NativeBridge.StaticProperty

/-!
# The bridge

The registry of classes together with the host they are called in: the entry point for installing
native classes, making instances, calling methods and accessing static properties.
-/

namespace NativeBridge

/-- Every way in which an operation of the bridge fails. -/
inductive BridgeError where
  | registration (error : RegistrationError)
  | call (error : CallError)
  | property (error : PropertyError)

def BridgeError.message : BridgeError → String
  | registration error => error.message
  | call error => error.message
  | property error => error.message

structure Bridge (σ ω : Type) where
  registry : Registry σ ω
  host : Host σ ω

namespace Bridge

variable {σ ω : Type}

def new (options : Options) (eager : Bool) (shared : ω) : Bridge σ ω :=
  ⟨Registry.empty eager, Host.new options shared⟩

def install (bridge : Bridge σ ω) (cls : NativeClass σ ω) :
    Except RegistrationError (Bridge σ ω) :=
  (bridge.registry.install cls).map fun registry => { bridge with registry }

/-- Makes an instance of a class; answers its receiver. -/
def instantiate [NativeState σ] (bridge : Bridge σ ω) (className : String) (owning : Bool)
    (state : State σ) : Except RegistrationError (Handle × Bridge σ ω) := do
  let cls ← bridge.registry.get className
  let (handle, heap) := bridge.host.heap.place cls.identity owning state
  return (handle, { bridge with host := { bridge.host with heap } })

/-- Calls a method. The value answered carries one reference for the caller. -/
def call [NativeState σ] (bridge : Bridge σ ω) (className method : String)
    (receiver : Option RawReceiver) (arguments : List Value) :
    Except BridgeError Value × Bridge σ ω :=
  match bridge.registry.get className with
  | .error error => (.error (.registration error), bridge)
  | .ok cls =>
    let (outcome, host) := bridge.host.invoke cls method ⟨receiver, arguments⟩
    (outcome.mapError .call, { bridge with host })

def updateStatic [NativeState σ] (bridge : Bridge σ ω) (target property : String) (value : Value)
    (scope : Option String) : Except BridgeError Unit × Bridge σ ω :=
  let (outcome, host) := bridge.host.updateStatic bridge.registry target property value scope
  (outcome.mapError .property, { bridge with host })

def readStatic (bridge : Bridge σ ω) (target property : String) (scope : Option String) :
    Except BridgeError Value :=
  (bridge.host.readStatic bridge.registry target property scope).mapError .property

end Bridge

end NativeBridge
