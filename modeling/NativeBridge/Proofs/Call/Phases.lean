import NativeBridge.Proofs.Call.Exits
import NativeBridge.Proofs.Params.Fetching
import NativeBridge.Sample.State

namespace NativeBridge

/-- The receiver was left out, is a bare handle, or is a boxed object. -/
def Frame.HasUsableReceiver (frame : Frame) : Prop :=
  ∀ value, frame.receiver = some (.managed value) → ∃ handle, value = .object handle

/-- The method with another body. -/
def Method.withBody {σ ω : Type} (method : Method σ ω) (body : CallM σ ω Unit) : Method σ ω :=
  { method with body }

namespace Host

variable {σ ω : Type} {rule : Strictness} {className : String} {method : Method σ ω}
  {frame : Frame}

/-- The receiver is there if the method needs one. A method that does not may be
called with one. -/
def HasReceiver (method : Method σ ω) (frame : Frame) : Prop :=
  method.flags.isInstance = true → frame.receiver.isSome = true

/-- Nothing speaks against running the body. -/
structure Accepts (rule : Strictness) (method : Method σ ω) (frame : Frame) : Prop where
  usable : frame.HasUsableReceiver
  receiver : HasReceiver method frame
  arity : Params.FitsArity method.params frame.arguments.length
  types : ∀ position cause, ¬ Params.Refuses rule method.params frame.arguments position cause

/-- What the first check to fail makes of the call. Each check presupposes those
before it: the receiver is looked at before the arguments, and their number
before their types. -/
inductive FirstObstacle (rule : Strictness) (className : String) (method : Method σ ω)
    (frame : Frame) : CallError → Prop
  | unusable {value : Value} : frame.receiver = some (.managed value) →
    (∀ handle, value ≠ .object handle) →
    FirstObstacle rule className method frame
      (.body className method.name (.invalidThis ("expected object, got " ++ value.typeName)))
  | missing : frame.receiver = none → method.flags.isInstance = true →
    FirstObstacle rule className method frame (.body className method.name .missingReceiver)
  | arity : frame.HasUsableReceiver → HasReceiver method frame →
    ¬ Params.FitsArity method.params frame.arguments.length →
    FirstObstacle rule className method frame
      (.arity className method.name (Params.leadingRequired method.params) method.params.length
        frame.arguments.length)
  | coercion {position : Nat} {cause : ConversionError} : frame.HasUsableReceiver →
    HasReceiver method frame → Params.FitsArity method.params frame.arguments.length →
    Params.RefusesFirst rule method.params frame.arguments position cause →
    FirstObstacle rule className method frame (.coercion className method.name position cause)

/-- A usable receiver is taken over boxed or bare. Whether there is one is all
that the later checks ask. -/
theorem bind_of_usable (husable : frame.HasUsableReceiver) :
    ∃ bound, Receiver.bind frame.receiver = .ok bound ∧
      bound.isBound = frame.receiver.isSome := by
  cases hreceiver : frame.receiver with
  | none => exact ⟨.absent, rfl, rfl⟩
  | some raw =>
    cases raw with
    | bare handle => exact ⟨.bound handle, rfl, rfl⟩
    | managed value =>
      obtain ⟨handle, rfl⟩ := husable value hreceiver
      exact ⟨.bound handle, rfl, rfl⟩

private theorem prepare_eq (rule : Strictness) (className : String)
    (husable : frame.HasUsableReceiver) (hreceiver : HasReceiver method frame) :
    ∃ bound, Receiver.bind frame.receiver = .ok bound ∧
      prepare rule className method frame =
        ((Params.fetchTyped rule method.flags.exceptionCapable method.params
          frame.arguments).mapError (CallError.ofFetch className method.name)).map
            (CallInput.mk bound) := by
  obtain ⟨bound, hbind, hbound⟩ := bind_of_usable husable
  have hcheck : (method.flags.isInstance && !bound.isBound) = false := by
    rw [hbound]
    cases hinstance : method.flags.isInstance with
    | false => rfl
    | true => simp [hreceiver hinstance]
  have hok : (Except.ok bound).mapError (CallError.body className method.name) = .ok bound := rfl
  refine ⟨bound, hbind, ?_⟩
  simp only [prepare, hbind, hok, bind, Except.bind, hcheck]
  cases Params.fetchTyped rule method.flags.exceptionCapable method.params frame.arguments <;> rfl

/-- A call that nothing speaks against is prepared: its receiver and all its
parameters are there for the body. -/
theorem Accepts.prepare_eq (h : Accepts rule method frame) (className : String) :
    ∃ input, prepare rule className method frame = .ok input ∧
      Receiver.bind frame.receiver = .ok input.receiver ∧
      Params.fetchTyped rule method.flags.exceptionCapable method.params frame.arguments =
        .ok input.params := by
  obtain ⟨bound, hbind, hprepare⟩ := Host.prepare_eq rule className h.usable h.receiver
  obtain ⟨hnot, _⟩ | ⟨_, position, cause, hfirst, _⟩ | ⟨_, _, params, hfetch⟩ :=
    Params.fetchTyped_cases rule method.flags.exceptionCapable method.params frame.arguments
  · exact absurd h.arity hnot
  · exact absurd hfirst.refuses (h.types position cause)
  · refine ⟨⟨bound, params⟩, ?_, hbind, hfetch⟩
    rw [hprepare, hfetch]
    rfl

/-- The first check to fail decides how the call ends, so no two checks can be
the first. -/
theorem FirstObstacle.prepare_eq {error : CallError}
    (h : FirstObstacle rule className method frame error) :
    prepare rule className method frame = .error error := by
  cases h with
  | @unusable value hvalue hnone =>
    have hbind : Receiver.bind (some (.managed value)) =
        .error (.invalidThis ("expected object, got " ++ value.typeName)) := by
      cases value with
      | object handle => exact absurd rfl (hnone handle)
      | _ => rfl
    rw [prepare, hvalue, hbind]
    rfl
  | missing hnone hinstance =>
    rw [prepare, hnone, hinstance]
    rfl
  | arity husable hreceiver hfits =>
    obtain ⟨bound, _, hprepare⟩ := Host.prepare_eq rule className husable hreceiver
    rw [hprepare, Params.fetchTyped_of_not_fits rule _ hfits]
    rfl
  | coercion husable hreceiver hfits hfirst =>
    obtain ⟨bound, _, hprepare⟩ := Host.prepare_eq rule className husable hreceiver
    rw [hprepare, Params.fetchTyped_of_refusesFirst _ hfits hfirst]
    rfl

/-- Either nothing speaks against running the body or some check is the first to
fail. The rules leave no call out. -/
theorem accepts_or_firstObstacle (rule : Strictness) (className : String) (method : Method σ ω)
    (frame : Frame) :
    Accepts rule method frame ∨ ∃ error, FirstObstacle rule className method frame error := by
  by_cases husable : frame.HasUsableReceiver
  · by_cases hreceiver : HasReceiver method frame
    · obtain ⟨hfits, _⟩ | ⟨hfits, position, cause, hfirst, _⟩ | ⟨hfits, hnone, _⟩ :=
        Params.fetchTyped_cases rule method.flags.exceptionCapable method.params frame.arguments
      · exact Or.inr ⟨_, .arity husable hreceiver hfits⟩
      · exact Or.inr ⟨_, .coercion husable hreceiver hfits hfirst⟩
      · exact Or.inl ⟨husable, hreceiver, hfits, hnone⟩
    · obtain ⟨hinstance, hnone⟩ :
          method.flags.isInstance = true ∧ frame.receiver.isSome = false := by
        simpa [HasReceiver] using hreceiver
      exact Or.inr ⟨_, .missing (by simpa using hnone) hinstance⟩
  · obtain ⟨value, husable⟩ := Classical.not_forall.1 husable
    obtain ⟨hvalue, hnone⟩ := Classical.not_imp.1 husable
    exact Or.inr ⟨_, .unusable hvalue (not_exists.1 hnone)⟩

private theorem FirstObstacle.not_accepts {error : CallError}
    (h : FirstObstacle rule className method frame error) : ¬ Accepts rule method frame := by
  intro haccepts
  obtain ⟨input, hprepare, _⟩ := haccepts.prepare_eq className
  rw [h.prepare_eq] at hprepare
  cases hprepare

/-- What the run phase of a call comes to once its body has ended. -/
def bodyOutcome (className : String) (method : Method σ ω)
    (ended : Except BodyError Unit × CallState σ ω) : Except CallError Value :=
  (ended.1.mapError (CallError.body className method.name)).map fun _ => ended.2.result

/-- A prepared call runs its body once, on the state it was entered with, and
drops the scopes that the body left open. -/
theorem runCall_of_prepare_ok {host : Host σ ω} {input : CallInput}
    (h : prepare host.options.strictness className method frame = .ok input) :
    host.runCall className method frame =
      (bodyOutcome className method (method.body.run input (host.enter method)),
        dropLeftOpen (method.body.run input (host.enter method)).2) := by
  simp only [runCall, h, bodyOutcome]
  split <;> rename_i heq <;> rw [heq] <;> rfl

/-- A call that could not be prepared has entered its scope and done nothing
else. -/
theorem runCall_of_prepare_error {host : Host σ ω} {error : CallError}
    (h : prepare host.options.strictness className method frame = .error error) :
    host.runCall className method frame = (.error error, host.enter method) := by
  simp only [runCall, h]

/-- Entering a scope and leaving it again is in order, so a call that does not
get to its body never complains about scopes. -/
theorem exitCheck_enter (host : Host σ ω) (method : Method σ ω) :
    host.exitCheck (host.enter method) = .ok () := by
  simp [exitCheck, enter, Ledger.openScope, Ledger.closeScope, Ledger.checkSince]

private theorem Accepts.withBody (h : Accepts rule method frame) (body : CallM σ ω Unit) :
    Accepts rule (method.withBody body) frame :=
  ⟨h.usable, h.receiver, h.arity, h.types⟩

private theorem FirstObstacle.withBody {error : CallError}
    (h : FirstObstacle rule className method frame error) (body : CallM σ ω Unit) :
    FirstObstacle rule className (method.withBody body) frame error := by
  cases h with
  | unusable hvalue hnone => exact .unusable hvalue hnone
  | missing hnone hinstance => exact .missing hnone hinstance
  | arity husable hreceiver hfits => exact .arity husable hreceiver hfits
  | coercion husable hreceiver hfits hfirst => exact .coercion husable hreceiver hfits hfirst

variable [NativeState σ]

/-- A call gets to its body if it would end differently with some other body. -/
def ReachesBody (host : Host σ ω) (className : String) (method : Method σ ω) (frame : Frame) :
    Prop :=
  ∃ body, host.invokeMethod className (method.withBody body) frame ≠
    host.invokeMethod className method frame

/-- A call that nothing speaks against gets to its body: of a body that succeeds
and one that fails, at least one would make it end differently. -/
theorem Accepts.reachesBody {host : Host σ ω}
    (h : Accepts host.options.strictness method frame) :
    host.ReachesBody className method frame := by
  have hends : ∀ result : Except BodyError Unit,
      (host.invokeMethod className (method.withBody (.ofExcept result)) frame).1 =
        bodyOutcome className method (result, host.enter method) := by
    intro result
    obtain ⟨input, hprepare, _⟩ := (h.withBody (.ofExcept result)).prepare_eq className
    exact fst_invokeMethod (runCall_of_prepare_ok hprepare) (exitCheck_enter host method)
  -- of a body that succeeds and one that fails, the method's own differs from at least one
  by_cases hsame : host.invokeMethod className (method.withBody (.ofExcept (.ok ()))) frame =
      host.invokeMethod className method frame
  · refine ⟨.ofExcept (.error .missingReceiver), fun heq => ?_⟩
    have herror := hends (.error .missingReceiver)
    rw [heq, ← hsame, hends] at herror
    cases herror
  · exact ⟨_, hsame⟩

/-- A call that is not accepted is counted and reported, whatever its body, and
leaves the rest of the host as it was. -/
theorem FirstObstacle.invokeMethod_eq {host : Host σ ω} {error : CallError}
    (h : FirstObstacle host.options.strictness className method frame error) :
    host.invokeMethod className method frame = (.error error, { host with
      ledger := { host.ledger with
        opened := host.ledger.opened + 1
        closed := host.ledger.closed + 1
        lastId := host.ledger.lastId + 1 }
      failures := host.failures ++ [failureOf className method error] }) := by
  rw [invokeMethod_of_error (runCall_of_prepare_error h.prepare_eq) (exitCheck_enter host method)]
  rfl

/-- A call gets to its body exactly when nothing speaks against it, and the body
is then run once. Otherwise the first check to fail decides how the call ends,
and the host is left as it was, save that the call is counted and reported. A
boxed receiver is as good as a bare one. -/
theorem invokeMethod_phases (host : Host σ ω) (className : String) (method : Method σ ω)
    (frame : Frame) :
    (host.ReachesBody className method frame ↔ Accepts host.options.strictness method frame) ∧
    (Accepts host.options.strictness method frame →
      ∃ input, Receiver.bind frame.receiver = .ok input.receiver ∧
        Params.fetchTyped host.options.strictness method.flags.exceptionCapable method.params
          frame.arguments = .ok input.params ∧
        host.runCall className method frame =
          (bodyOutcome className method (method.body.run input (host.enter method)),
            dropLeftOpen (method.body.run input (host.enter method)).2)) ∧
    (¬ Accepts host.options.strictness method frame ↔
      ∃ error, FirstObstacle host.options.strictness className method frame error) ∧
    (∀ error, FirstObstacle host.options.strictness className method frame error →
      host.invokeMethod className method frame = (.error error, { host with
        ledger := { host.ledger with
          opened := host.ledger.opened + 1
          closed := host.ledger.closed + 1
          lastId := host.ledger.lastId + 1 }
        failures := host.failures ++ [failureOf className method error] })) ∧
    ∀ handle arguments,
      host.invokeMethod className method ⟨some (.managed (.object handle)), arguments⟩ =
        host.invokeMethod className method ⟨some (.bare handle), arguments⟩ := by
  have hcases := accepts_or_firstObstacle host.options.strictness className method frame
  refine ⟨⟨?_, Accepts.reachesBody⟩, ?_, ⟨?_, ?_⟩, ?_, ?_⟩
  · rintro ⟨body, hne⟩
    obtain haccepts | ⟨error, hfirst⟩ := hcases
    · exact haccepts
    · rw [(hfirst.withBody body).invokeMethod_eq, hfirst.invokeMethod_eq] at hne
      exact absurd rfl hne
  · intro haccepts
    obtain ⟨input, hprepare, hreceiver, hparams⟩ := haccepts.prepare_eq className
    exact ⟨input, hreceiver, hparams, runCall_of_prepare_ok hprepare⟩
  · exact hcases.resolve_left
  · rintro ⟨error, hfirst⟩
    exact hfirst.not_accepts
  · exact fun error hfirst => hfirst.invokeMethod_eq
  · exact fun handle arguments => rfl

/-- An instance method with one integer parameter. -/
def keepInt : Method Sample Unit :=
  .declare "keep" [.required "n" .long] .instanceOnly (CallM.setResult .null)

/-- A call with a receiver. -/
def boundCall (arguments : List Value) : Frame := ⟨some (.bare ⟨0, 0, ⟨""⟩⟩), arguments⟩

/-- An integer gets to the body. An array is refused, and without a receiver it
is not looked at. -/
theorem invokeMethod_phases_keepInt :
    (Host.new .standard ()).ReachesBody "Keeper" keepInt (boundCall [.int 1]) ∧
    ((Host.new .standard ()).invokeMethod "Keeper" keepInt
      (boundCall [.array ⟨0, 0, ⟨""⟩⟩])).1 =
        .error (.coercion "Keeper" "keep" 0 (.typeMismatch "int" "array")) ∧
    ((Host.new .standard ()).invokeMethod "Keeper" keepInt ⟨none, [.array ⟨0, 0, ⟨""⟩⟩]⟩).1 =
      .error (.body "Keeper" "keep" .missingReceiver) := by
  have husable : ∀ arguments, (boundCall arguments).HasUsableReceiver := by
    simp [boundCall, Frame.HasUsableReceiver]
  have hinteger : ∀ position cause,
      ¬ Params.Refuses .strict keepInt.params [.int 1] position cause := by
    rintro (_ | position) cause ⟨decl, native, argument, hdecl, hnative, hargument, hcause⟩
    · cases hdecl
      cases hnative
      cases hargument
      cases hcause
    · cases hdecl
  have harray : Params.RefusesFirst .strict keepInt.params [.array ⟨0, 0, ⟨""⟩⟩] 0
      (.typeMismatch "int" "array") :=
    ⟨⟨_, _, _, rfl, rfl, rfl, rfl⟩, fun _ hlt => absurd hlt (Nat.not_lt_zero _)⟩
  obtain ⟨hreaches, _⟩ := invokeMethod_phases (Host.new .standard ()) "Keeper" keepInt
    (boundCall [.int 1])
  obtain ⟨_, _, _, hrefused, _⟩ := invokeMethod_phases (Host.new .standard ()) "Keeper" keepInt
    (boundCall [.array ⟨0, 0, ⟨""⟩⟩])
  obtain ⟨_, _, _, hmissing, _⟩ := invokeMethod_phases (Host.new .standard ()) "Keeper" keepInt
    ⟨none, [.array ⟨0, 0, ⟨""⟩⟩]⟩
  refine ⟨hreaches.2 ⟨husable _, fun _ => rfl, by decide, hinteger⟩, ?_, ?_⟩
  · exact congrArg Prod.fst (hrefused _ (.coercion (husable _) (fun _ => rfl) (by decide) harray))
  · exact congrArg Prod.fst (hmissing _ (.missing rfl rfl))

end Host

end NativeBridge
