import NativeBridge.Class
import NativeBridge.Host

/-!
# Dispatch

A call goes through the same phases whichever way it ends. A scope is opened for it. The receiver
is bound, the arguments are fetched, and only then the body runs. If there is a value to answer
with, its reference passes to the caller. The scope is closed, and the ledger is checked against
what it was before the call. A failure that the host can live with is reported.
-/

namespace NativeBridge

/-- What the host hands over for a call. -/
structure Frame where
  receiver : Option RawReceiver
  arguments : List Value

namespace NativeClass

variable {σ ω : Type}

/-- Finds the method of a name. A gap that the call would run into comes first, whether or not
there is a method of this name. -/
def bind (cls : NativeClass σ ω) (method : String) : Except CallError (Method σ ω) :=
  match cls.gapFor? method with
  | some gap => .error (.contractViolation cls.name.text gap.capability.hostName gap.missing)
  | none =>
    match cls.method? method with
    | some found => .ok found
    | none => .error (.unknownMethod cls.name.text method)

end NativeClass

namespace Host

variable {σ ω : Type}

def enter (host : Host σ ω) (method : Method σ ω) : CallState σ ω :=
  let (scope, ledger) := host.ledger.openScope method.flags.growsMemory
  ⟨host.heap, ledger, scope, [], .null, host.shared⟩

def prepare (rule : Strictness) (className : String) (method : Method σ ω) (frame : Frame) :
    Except CallError CallInput := do
  let receiver ← (Receiver.bind frame.receiver).mapError (CallError.body className method.name)
  if method.flags.isInstance && !receiver.isBound then
    throw (.body className method.name .missingReceiver)
  let params ← (Params.fetchTyped rule method.flags.exceptionCapable method.params
    frame.arguments).mapError (CallError.ofFetch className method.name)
  return ⟨receiver, params⟩

/-- Drops the nested scopes that a body left open. -/
def dropLeftOpen (state : CallState σ ω) : CallState σ ω :=
  { state with
    ledger := { state.ledger with leaked := state.ledger.leaked + state.nested.length }
    nested := [] }

/-- Opens the scope, prepares the call and runs the body if nothing speaks against it. Answers how
that ended and the state of the call at that moment. -/
def runCall (host : Host σ ω) (className : String) (method : Method σ ω) (frame : Frame) :
    Except CallError Value × CallState σ ω :=
  let entered := host.enter method
  match prepare host.options.strictness className method frame with
  | .error error => (.error error, entered)
  | .ok input =>
    match method.body.run input entered with
    | (.ok (), state) => (.ok state.result, dropLeftOpen state)
    | (.error error, state) => (.error (.body className method.name error), dropLeftOpen state)

/-- Sees to it that the caller owns one reference to the value of a call: the one that the call's
scope answered for, or else a new one. -/
def passOn (value : Value) (state : CallState σ ω) : CallState σ ω :=
  match state.scope.handOff value with
  | (true, scope) => { state with scope }
  | (false, _) => { state with heap := state.heap.retainValue value }

def leave [NativeState σ] (host : Host σ ω) (state : CallState σ ω) : Host σ ω :=
  let (_, ledger, heap) := state.scope.close state.ledger state.heap
  { host with heap, ledger, shared := state.shared }

def failureOf (className : String) (method : Method σ ω) (error : CallError) : Failure where
  kind :=
    if error.isOfArguments then FailureKind.ofFetch method.flags.exceptionCapable else .exception
  className := className
  method := method.name
  position := error.position?
  message := error.message

/-- Calls a method of a class. The value answered carries one reference for the caller. -/
def invokeMethod [NativeState σ] (host : Host σ ω) (className : String) (method : Method σ ω)
    (frame : Frame) : Except CallError Value × Host σ ω :=
  let (outcome, state) := host.runCall className method frame
  match outcome with
  | .ok value =>
    let after := host.leave (passOn value state)
    match after.ledger.checkSince state.scope.id host.ledger with
    | .ok () => (.ok value, after)
    | .error imbalance =>
      (.error (.scopeImbalance imbalance), { after with heap := after.heap.releaseValue value })
  | .error error =>
    let after := host.leave state
    match after.ledger.checkSince state.scope.id host.ledger with
    | .ok () => (.error error, after.report (failureOf className method error))
    | .error imbalance => (.error (.scopeImbalance imbalance), after)

/-- Finds a method and calls it. A name that finds nothing is reported like any other failure; a
broken contract is not. -/
def invoke [NativeState σ] (host : Host σ ω) (cls : NativeClass σ ω) (method : String)
    (frame : Frame) : Except CallError Value × Host σ ω :=
  match cls.bind method with
  | .ok found => host.invokeMethod cls.name.text found frame
  | .error error =>
    (.error error,
      if error.isRecoverable then
        host.report ⟨.exception, cls.name.text, method, none, error.message⟩
      else host)

end Host

end NativeBridge
