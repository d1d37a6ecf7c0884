import NativeBridge.Host
import NativeBridge.Registry

/-!
# Static properties

An access names a class, or `self` or `parent`, which stand for the class that the access is made
from and for its parent. The property is looked for in that class and then in its ancestors; the
nearest class that declares the name decides, whether or not the access is allowed there. The
value belongs to the declaring class, so all its descendants share it.
-/

namespace NativeBridge

/-- Why a static property was not accessed. -/
inductive PropertyError where
  | unknownClass (className : String)
  | noParentClass (className property : String)
  | noClassScope (keyword : String)
  | unknownProperty (className property : String)
  | notStatic (className property : String)
  | privateAccess (className property : String)
  | protectedAccess (className property : String)

def PropertyError.message : PropertyError → String
  | unknownClass className => "cannot locate class '" ++ className ++ "'"
  | noParentClass className property =>
    "cannot assign static property \"" ++ property ++ "\" on parent because class " ++ className ++
      " does not extend any class"
  | noClassScope keyword => "cannot use '" ++ keyword ++ "' outside of a class scope"
  | unknownProperty className property =>
    "class '" ++ className ++ "' does not have a property called: '" ++ property ++ "'"
  | notStatic className property =>
    "cannot access non-static property '" ++ className ++ "::" ++ property ++ "'"
  | privateAccess className property =>
    "cannot access private static property '" ++ className ++ "::" ++ property ++
      "' out of its declaring context"
  | protectedAccess className property =>
    "cannot access protected static property '" ++ className ++ "::" ++ property ++
      "' out of its class hierarchy"

/-- The class part of an access. -/
inductive StaticTarget where
  | self
  | parent
  | named (className : String)
deriving DecidableEq, Repr

/-- Reads the class part of an access. The case of ASCII letters in a keyword does not matter. -/
def StaticTarget.ofText (text : String) : StaticTarget :=
  if Text.SameName text "self" then self
  else if Text.SameName text "parent" then parent
  else named text

/-- A property together with the class that declares it. -/
structure StaticProperty (σ ω : Type) where
  declaring : NativeClass σ ω
  property : Property

def StaticProperty.slot {σ ω : Type} (found : StaticProperty σ ω) : Identity :=
  Identity.ofProperty found.declaring.identity found.property.name

namespace Registry

variable {σ ω : Type}

/-- The class that an access by keyword is made from. -/
def scopeClass (registry : Registry σ ω) (scope : Option String) (keyword : String) :
    Except PropertyError (NativeClass σ ω) :=
  match scope with
  | none => .error (.noClassScope keyword)
  | some scope =>
    match registry.get? scope with
    | some cls => .ok cls
    | none => .error (.unknownClass scope)

/-- The class in which the search for a property starts. -/
def targetClass (registry : Registry σ ω) (target : StaticTarget) (property : String)
    (scope : Option String) : Except PropertyError (NativeClass σ ω) :=
  match target with
  | .self => registry.scopeClass scope "self"
  | .parent => do
    let cls ← registry.scopeClass scope "parent"
    match registry.parentOf? cls with
    | some parent => .ok parent
    | none => .error (.noParentClass cls.name.text property)
  | .named name =>
    match registry.get? name with
    | some cls => .ok cls
    | none => .error (.unknownClass name)

/-- The nearest class in a line of ancestors that declares a property. -/
def declaredIn? (property : String) : List (NativeClass σ ω) → Option (StaticProperty σ ω)
  | [] => none
  | cls :: ancestors =>
    match cls.property? property with
    | some found => some ⟨cls, found⟩
    | none => declaredIn? property ancestors

/-- Whether a property may be accessed from a class, or from nowhere. -/
def checkAccess (registry : Registry σ ω) (found : StaticProperty σ ω)
    (scope : Option (NativeClass σ ω)) : Except PropertyError Unit :=
  let declaring := found.declaring
  if !found.property.isStatic then
    .error (.notStatic declaring.name.text found.property.name)
  else
    match found.property.visibility with
    | .everywhere => .ok ()
    | .ownClass =>
      if scope.any fun scope => scope.identity == declaring.identity then .ok ()
      else .error (.privateAccess declaring.name.text found.property.name)
    | .hierarchy =>
      if scope.any fun scope =>
          decide (registry.IsSubclass scope declaring.identity) ||
            decide (registry.IsSubclass declaring scope.identity) then .ok ()
      else .error (.protectedAccess declaring.name.text found.property.name)

/-- Finds the property that an access reaches. -/
def resolve (registry : Registry σ ω) (target property : String) (scope : Option String) :
    Except PropertyError (StaticProperty σ ω) := do
  let cls ← registry.targetClass (StaticTarget.ofText target) property scope
  match declaredIn? property (registry.lineage cls.identity) with
  | some found =>
    registry.checkAccess found (scope.bind registry.get?)
    return found
  | none => throw (.unknownProperty cls.name.text property)

end Registry

namespace Host

variable {σ ω : Type}

/-- Assigns a static property. The value's reference passes to the property, or is given up when
the access fails. -/
def updateStatic [NativeState σ] (host : Host σ ω) (registry : Registry σ ω)
    (target property : String) (value : Value) (scope : Option String) :
    Except PropertyError Unit × Host σ ω :=
  match registry.resolve target property scope with
  | .ok found => (.ok (), host.storeStatic found.slot value)
  | .error error => (.error error, { host with heap := host.heap.releaseValue value })

/-- Reads a static property. One that was never assigned has its initial value. -/
def readStatic (host : Host σ ω) (registry : Registry σ ω) (target property : String)
    (scope : Option String) : Except PropertyError Value :=
  (registry.resolve target property scope).map fun found =>
    (host.static? found.slot).getD found.property.initial

end Host

end NativeBridge
