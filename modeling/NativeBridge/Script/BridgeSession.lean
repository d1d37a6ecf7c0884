import NativeBridge.Script.ClassSpec

/-!
# Sessions on a bridge

A session works step by step on one bridge: it installs classes, makes instances, calls methods,
accesses static properties, and looks at all of it.
-/

namespace NativeBridge.Script

abbrev SampleBridge := Bridge Sample Workspace

inductive BridgeStep where
  | heap (step : HeapStep)
  | install (spec : ClassSpec)
  | installFixture (fixture : Fixture)
  | describe (className : String)
  /-- Builds a class without installing it and looks up names in it. -/
  | inspectClass (spec : ClassSpec) (names : List String) (thenDeclare : Option Capability)
  | table (spec : ClassSpec)
  | registry
  | lookup (className : String)
  | parentOf (className : String)
  | isSubclass (className ancestor : String)
  | instantiate (className : String) (state : StateExpr) (owning : Bool) (name : Option String)
  | instantiateFixture (className : String) (name : Option String)
  | call (className method : String) (arguments : List ValueExpr) (receiver : ReceiverExpr)
      (name : Option String)
  | updateStatic (target property : String) (value : NativeExpr) (scope : Option String)
  | readStatic (target property : String) (scope : Option String)
  | storeStatic (className property : String) (value : ValueExpr)
  | staticValue (className property : String)
  | report (exceptionCapable : Bool) (className method : String) (position : Option Nat)
      (message : String)
  | failures
  | takeFailures
  | options
  | setStrictness (rule : Strictness)

/-- What a name finds in a class. -/
structure NameLookup where
  method : Option (Method Sample Workspace)
  property : Option Property
  gap : Option ContractGap
  bound : Except CallError (Method Sample Workspace)

inductive BridgeReply where
  | done
  | heap (reply : HeapReply)
  | installed (result : Except RegistrationError String)
  | described (result : Except RegistrationError SampleClass)
  | inspected
      (result : Except RegistrationError
        (SampleClass × List NameLookup × Option (List ContractGap)))
  | table (methods : SampleTable)
  | registry (eager : Bool) (classes : List String)
  | name (result : Except RegistrationError (Option String))
  | flag (result : Except RegistrationError Bool)
  | instance (result : Except RegistrationError Handle)
  /-- The value of a call, and the references to its object if it is one. -/
  | called (result : Except BridgeError (Value × Option (Option Nat)))
  | updated (result : Except BridgeError Unit)
  | value (result : Except BridgeError Value)
  | static (value : Option Value)
  | failures (failures : List Failure)
  | options (options : Options)

namespace BridgeSession

/-- What a name finds in a class. -/
def lookUp (cls : SampleClass) (name : String) : NameLookup :=
  ⟨cls.method? name, cls.property? name, cls.gapFor? name, cls.bind name⟩

def bindings (bridge : SampleBridge) : Bindings := bridge.host.shared.bindings

def bindName (bridge : SampleBridge) (name : Option String) (handle : Handle) : SampleBridge :=
  { bridge with
    host.shared.bindings := bridge.host.shared.bindings.bind name handle }

/-- The slot of a static property, given by the names of its class and itself. -/
def staticSlot (className property : String) : Identity :=
  Identity.ofProperty (Identity.ofClass className) property

def install (bridge : SampleBridge) (cls : Except RegistrationError SampleClass) :
    BridgeReply × SampleBridge :=
  match cls with
  | .error error => (.installed (.error error), bridge)
  | .ok cls =>
    match bridge.install cls with
    | .error error => (.installed (.error error), bridge)
    | .ok after => (.installed (.ok cls.name.text), after)

def made (bridge : SampleBridge) (name : Option String)
    (result : Except RegistrationError (Handle × SampleBridge)) : BridgeReply × SampleBridge :=
  match result with
  | .error error => (.instance (.error error), bridge)
  | .ok (handle, after) => (.instance (.ok handle), bindName after name handle)

def run (bridge : SampleBridge) : BridgeStep → BridgeReply × SampleBridge
  | .heap step =>
    let (reply, names, heap) := step.run (bindings bridge) bridge.host.heap
    (.heap reply, { bridge with host.heap := heap, host.shared.bindings := names })
  | .install spec => install bridge (spec.build (bindings bridge))
  | .installFixture fixture => install bridge fixture.nativeClass
  | .describe className => (.described (bridge.registry.get className), bridge)
  | .inspectClass spec names thenDeclare =>
    (.inspected ((spec.build (bindings bridge)).map fun cls =>
      let (_, asked) := cls.askGaps
      (asked, names.map (lookUp asked), thenDeclare.map fun c => (asked.withCapability c).gaps)),
      bridge)
  | .table spec => (.table spec.table, bridge)
  | .registry =>
    (.registry bridge.registry.eager (bridge.registry.toList.map fun cls => cls.name.text), bridge)
  | .lookup className =>
    (.name (.ok ((bridge.registry.get? className).map fun cls => cls.name.text)), bridge)
  | .parentOf className =>
    (.name ((bridge.registry.get className).map fun cls =>
      (bridge.registry.parentOf? cls).map fun parent => parent.name.text), bridge)
  | .isSubclass className ancestor =>
    (.flag ((bridge.registry.get className).map fun cls =>
      decide (bridge.registry.IsSubclass cls (ClassName.ofText ancestor).identity)), bridge)
  | .instantiate className state owning name =>
    made bridge name (bridge.instantiate className owning (state.eval (bindings bridge)))
  | .instantiateFixture className name =>
    made bridge name ((bridge.registry.get className).map fun cls =>
      let (handle, heap) :=
        Placeholder.instantiate SampleType.placeholderKind cls bridge.host.heap
      (handle, { bridge with host.heap := heap }))
  | .call className method arguments receiver name =>
    let names := bindings bridge
    let (outcome, after) := bridge.call className method (receiver.eval names)
      (arguments.map (ValueExpr.eval names))
    match outcome with
    | .error error => (.called (.error error), after)
    | .ok value =>
      match value.handle? with
      | some handle =>
        (.called (.ok (value, some (after.host.heap.refCount? handle))),
          bindName after name handle)
      | none => (.called (.ok (value, none)), after)
  | .updateStatic target property value scope =>
    let (outcome, after) := bridge.updateStatic target property (value.eval (bindings bridge)) scope
    (.updated outcome, after)
  | .readStatic target property scope => (.value (bridge.readStatic target property scope), bridge)
  | .storeStatic className property value =>
    (.done, { bridge with
      host := bridge.host.storeStatic (staticSlot className property)
        (value.eval (bindings bridge)) })
  | .staticValue className property =>
    (.static (bridge.host.static? (staticSlot className property)), bridge)
  | .report exceptionCapable className method position message =>
    (.done, { bridge with
      host := bridge.host.report
        ⟨FailureKind.ofFetch exceptionCapable, className, method, position, message⟩ })
  | .failures => (.failures bridge.host.failures, bridge)
  | .takeFailures =>
    let (failures, host) := bridge.host.takeFailures
    (.failures failures, { bridge with host })
  | .options => (.options bridge.host.options, bridge)
  | .setStrictness rule => (.done, { bridge with host.options.strictness := rule })

/-- Carries out a step with an empty log; answers its reply, what the bodies logged, and the bridge
after it. -/
def runLogged (bridge : SampleBridge) (step : BridgeStep) :
    BridgeReply × List LogEntry × SampleBridge :=
  let (reply, after) := run { bridge with host.shared.log := [] } step
  (reply, after.host.shared.log, after)

end BridgeSession

end NativeBridge.Script
