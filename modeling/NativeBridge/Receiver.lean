import NativeBridge.Heap

/-!
# Receivers

The host delivers the receiver of a call boxed or as a bare handle. Binding brings both into one
form, once, before anything else looks at it.
-/

namespace NativeBridge

/-- Failures of a method body, or of the receiver it needs. -/
inductive BodyError where
  | conversion (cause : ConversionError)
  /-- The receiver cannot be used as the body wants to use it. -/
  | invalidThis (reason : String)
  /-- An instance method was called without a receiver. -/
  | missingReceiver
  /-- A parameter was read past the end of the parameter list. -/
  | parameterOutOfBounds (index count : Nat)
  /-- The object is no longer in the heap. -/
  | staleHandle (index : UInt32)
  | other (reason : String)

def BodyError.message : BodyError → String
  | conversion cause => "conversion error: " ++ cause.message
  | invalidThis reason => "invalid 'this' reference: " ++ reason
  | missingReceiver => "method requires a receiver but was called statically"
  | parameterOutOfBounds index count =>
    "parameter index " ++ toString index ++ " out of bounds (method declares " ++ toString count ++
      " parameters)"
  | staleHandle index =>
    "stale object handle: object at index " ++ toString index.toNat ++ " has been freed"
  | other reason => "native error: " ++ reason

/-- A receiver as the host delivers it. -/
inductive RawReceiver where
  | managed (value : Value)
  | bare (handle : Handle)

/-- A receiver as a method body sees it: a handle, or none in a static call. -/
inductive Receiver where
  | bound (handle : Handle)
  | absent
deriving DecidableEq

namespace Receiver

/-- Brings a delivered receiver into one form. A boxed receiver has to be an object; whether the
object is live is not looked at. -/
def bind : Option RawReceiver → Except BodyError Receiver
  | none => .ok absent
  | some (.bare handle) => .ok (bound handle)
  | some (.managed (.object handle)) => .ok (bound handle)
  | some (.managed value) => .error (.invalidThis ("expected object, got " ++ value.typeName))

def isBound : Receiver → Bool
  | bound _ => true
  | absent => false

/-- The handle of a receiver that has to be there. -/
def handle : Receiver → Except BodyError Handle
  | bound handle => .ok handle
  | absent => .error .missingReceiver

/-- The receiver's state, which has to be of the given kind. -/
def state {σ α : Type} (receiver : Receiver) (kind : StateKind σ α) (heap : Heap σ) :
    Except BodyError α := do
  let handle ← receiver.handle
  if heap.contains handle then
    match heap.get? kind handle with
    | some a => .ok a
    | none => .error (.invalidThis ("receiver is not a " ++ kind.type.name))
  else .error (.staleHandle handle.index)

end Receiver

end NativeBridge
