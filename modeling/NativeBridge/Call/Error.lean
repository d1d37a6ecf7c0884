import NativeBridge.Params
import NativeBridge.Scope

/-!
# Failures of calls

A call fails at its arguments, in its body, at its method's name, or because the class breaks a
contract or the call forgets a scope. The first three are reported on the failure channel and the
host goes on; the last two are defects of the native code and only end the call.
-/

namespace NativeBridge

inductive CallError where
  | arity (className method : String) (required max supplied : Nat)
  | coercion (className method : String) (position : Nat) (cause : ConversionError)
  /-- The class declares a capability without providing the methods it takes. -/
  | contractViolation (className capability : String) (missing : List String)
  /-- A scope was opened during the call and not closed. -/
  | scopeImbalance (imbalance : ScopeImbalance)
  | unknownMethod (className method : String)
  /-- The body failed, or the receiver it needs. -/
  | body (className method : String) (cause : BodyError)

/-- A method with its class, as messages name it. -/
def methodText (className method : String) : String :=
  className ++ "::" ++ method ++ "()"

def contractText (className capability : String) (missing : List String) : String :=
  className ++ " declares " ++ capability ++ " but does not provide: " ++ ", ".intercalate missing

namespace CallError

def message : CallError → String
  | arity className method required max supplied =>
    methodText className method ++ " expects " ++ arityText required max ++ " argument(s), " ++
      toString supplied ++ " given"
  | coercion className method position cause =>
    methodText className method ++ " argument #" ++ toString (position + 1) ++
      " could not be coerced: " ++ cause.message
  | contractViolation className capability missing => contractText className capability missing
  | scopeImbalance imbalance => imbalance.message
  | unknownMethod className method =>
    "call to undefined method " ++ methodText className method
  | body className method cause => methodText className method ++ ": " ++ cause.message

/-- A failed fetch, with the method that was called. -/
def ofFetch (className method : String) : FetchError → CallError
  | .arity required max supplied => arity className method required max supplied
  | .coercion position cause => coercion className method position cause

/-- Whether the host reports the failure and goes on. -/
def isRecoverable : CallError → Bool
  | contractViolation .. | scopeImbalance _ => false
  | _ => true

/-- The argument a failure is put down to, counted from zero. A short call is put down to the first
missing argument, a long one to the first that is too many. -/
def position? : CallError → Option Nat
  | coercion _ _ position _ => some position
  | arity _ _ _ max supplied => some (min supplied max)
  | _ => none

/-- Whether the failure is one of the arguments. -/
def isOfArguments : CallError → Bool
  | arity .. | coercion .. => true
  | _ => false

end CallError

/-- How a reported failure shows in the host. -/
inductive FailureKind where
  | warning
  | exception
deriving DecidableEq, Repr

/-- Failures of a fetch are raised when the method can raise them, and warnings otherwise. -/
def FailureKind.ofFetch (exceptionCapable : Bool) : FailureKind :=
  if exceptionCapable then exception else warning

structure Failure where
  kind : FailureKind
  className : String
  method : String
  position : Option Nat
  message : String
deriving DecidableEq, Repr

def Failure.text (failure : Failure) : String :=
  (match failure.kind with
    | .warning => "warning: "
    | .exception => "exception: ") ++ failure.message

end NativeBridge
