import NativeBridge.Class

/-!
# The registry of classes

Classes are installed one after another and are never replaced. A parent has to be installed
before its children, so following parents leads from newer classes to older ones and comes to
an end: the ancestors of a class are found by one walk through the list, from the newest class to
the oldest.
-/

namespace NativeBridge

/-- The installed classes, the newest first. An eager registry refuses classes with gaps. -/
structure Registry (σ ω : Type) where
  classes : List (NativeClass σ ω)
  eager : Bool

namespace Registry

variable {σ ω : Type}

def empty (eager : Bool) : Registry σ ω := ⟨[], eager⟩

def size (registry : Registry σ ω) : Nat := registry.classes.length

/-- The installed classes in the order of their installation. -/
def toList (registry : Registry σ ω) : List (NativeClass σ ω) := registry.classes.reverse

def ofIdentity? (registry : Registry σ ω) (id : Identity) : Option (NativeClass σ ω) :=
  registry.classes.find? fun cls => cls.identity == id

/-- The text without the backslash in front, if it has one. -/
def dropLeadingSeparator (name : String) : String :=
  match name.toList with
  | [] => name
  | c :: rest => if c = ClassName.separator then String.ofList rest else name

/-- The class of a written name. The case of ASCII letters and one backslash in front do not
matter. -/
def get? (registry : Registry σ ω) (name : String) : Option (NativeClass σ ω) :=
  registry.ofIdentity? (Identity.ofClass (dropLeadingSeparator name))

/-- The class of a written name that has to be installed. -/
def get (registry : Registry σ ω) (name : String) :
    Except RegistrationError (NativeClass σ ω) :=
  match registry.get? name with
  | some cls => .ok cls
  | none => .error (.unknownClass name)

def parentOf? (registry : Registry σ ω) (cls : NativeClass σ ω) : Option (NativeClass σ ω) :=
  cls.parent.bind fun parent => registry.ofIdentity? parent.identity

/-- Installs a class. A name in use is refused first, then a parent that is not installed, then in
an eager registry the first gap. -/
def install (registry : Registry σ ω) (cls : NativeClass σ ω) :
    Except RegistrationError (Registry σ ω) := do
  if (registry.ofIdentity? cls.identity).isSome then
    throw (.duplicateClass cls.name.text)
  if let some parent := cls.parent then
    if (registry.ofIdentity? parent.identity).isNone then
      throw (.unknownParent cls.name.text parent.text)
  if registry.eager then
    if let some gap := cls.gaps.head? then
      throw (.contractViolation cls.name.text gap.capability.hostName gap.missing)
  return { registry with classes := cls :: registry.classes }

/-- The class of an identity and its ancestors, nearest first, found in a list where each class
stands before its parent. -/
def lineageIn (id : Identity) : List (NativeClass σ ω) → List (NativeClass σ ω)
  | [] => []
  | cls :: older =>
    if cls.identity = id then
      cls :: (match cls.parent with
        | some parent => lineageIn parent.identity older
        | none => [])
    else lineageIn id older

/-- The installed class of an identity, its parent, its parent's parent, and so on. -/
def lineage (registry : Registry σ ω) (id : Identity) : List (NativeClass σ ω) :=
  lineageIn id registry.classes

/-- Whether a class is the one of an identity or inherits from it. -/
def IsSubclass (registry : Registry σ ω) (cls : NativeClass σ ω) (ancestor : Identity) : Prop :=
  cls.identity = ancestor ∨ ∃ c ∈ registry.lineage cls.identity, c.identity = ancestor

instance (registry : Registry σ ω) (cls : NativeClass σ ω) (ancestor : Identity) :
    Decidable (registry.IsSubclass cls ancestor) :=
  inferInstanceAs (Decidable (_ ∨ _))

end Registry

end NativeBridge
