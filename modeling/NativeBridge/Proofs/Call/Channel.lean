import Mathlib.Data.List.Forall2
import NativeBridge.Bridge
import NativeBridge.Proofs.Call.Runs
import NativeBridge.Proofs.Class.Binding

namespace NativeBridge

variable {σ ω : Type}

/-- What the channel says about a call that failed. -/
structure Failure.TellsOf (failure : Failure) (cls : NativeClass σ ω) (called : String)
    (error : CallError) : Prop where
  className : failure.className = cls.name.text
  position : failure.position = error.position?
  message : failure.message = error.message
  /-- A name that finds no method is given as it was called. -/
  unknown : ∀ className name, error = .unknownMethod className name → failure.method = called
  /-- A method that was found is named as it was declared. -/
  declared : (∀ className name, error ≠ .unknownMethod className name) →
    ∃ found, cls.method? called = some found ∧ failure.method = found.name
  /-- Only bad arguments of a method that cannot raise exceptions are a warning. -/
  kind : failure.kind = .warning ↔ error.isOfArguments = true ∧
    ∃ found, cls.method? called = some found ∧ found.flags.exceptionCapable = false

private theorem FailureKind.ofFetch_eq_warning_iff {exceptionCapable : Bool} :
    FailureKind.ofFetch exceptionCapable = .warning ↔ exceptionCapable = false := by
  cases exceptionCapable <;> simp [FailureKind.ofFetch]

namespace Host

/-- The run phase fails at the arguments, at the receiver or in the body, and
the host can live with each of them. It never reports an unknown method. -/
theorem runCall_error {host : Host σ ω} {className : String} {method : Method σ ω} {frame : Frame}
    {error : CallError} (h : (host.runCall className method frame).1 = .error error) :
    error.isRecoverable = true ∧ ∀ owner name, error ≠ .unknownMethod owner name := by
  obtain haccepts | ⟨obstacle, hfirst⟩ :=
    accepts_or_firstObstacle host.options.strictness className method frame
  · obtain ⟨input, hprepare, _⟩ := haccepts.prepare_eq className
    rw [runCall_of_prepare_ok hprepare] at h
    unfold bodyOutcome at h
    cases hended : (method.body.run input (host.enter method)).1 with
    | ok _ =>
      rw [hended] at h
      cases h
    | error cause =>
      rw [hended] at h
      cases h
      exact ⟨rfl, by simp⟩
  · rw [runCall_of_prepare_error hfirst.prepare_eq] at h
    cases h
    cases hfirst <;> exact ⟨rfl, by simp⟩

private theorem tellsOf_failureOf {cls : NativeClass σ ω} {called : String} {found : Method σ ω}
    (hfound : cls.method? called = some found) {error : CallError}
    (hknown : ∀ owner name, error ≠ .unknownMethod owner name) :
    (failureOf cls.name.text found error).TellsOf cls called error where
  className := rfl
  position := rfl
  message := rfl
  unknown := fun owner name heq => absurd heq (hknown owner name)
  declared := fun _ => ⟨found, hfound, rfl⟩
  kind := by
    cases harguments : error.isOfArguments <;>
      simp [failureOf, harguments, hfound, FailureKind.ofFetch_eq_warning_iff]

private theorem tellsOf_unknown {cls : NativeClass σ ω} {called : String}
    (hnone : cls.method? called = none) :
    Failure.TellsOf
      ⟨.exception, cls.name.text, called, none,
        (CallError.unknownMethod cls.name.text called).message⟩
      cls called (.unknownMethod cls.name.text called) where
  className := rfl
  position := rfl
  message := rfl
  unknown := fun _ _ _ => rfl
  declared := fun hknown => absurd rfl (hknown _ _)
  kind := by simp [hnone]

variable [NativeState σ]

/-- A call adds one entry to the channel if it failed and the host can live with
that, and none otherwise. What was in the channel before stays as it was. -/
theorem failures_invoke (host : Host σ ω) (cls : NativeClass σ ω) (called : String)
    (frame : Frame) :
    (∃ error failure, (host.invoke cls called frame).1 = .error error ∧
      error.isRecoverable = true ∧ failure.TellsOf cls called error ∧
      (host.invoke cls called frame).2.failures = host.failures ++ [failure]) ∨
    ((∀ error, (host.invoke cls called frame).1 = .error error → error.isRecoverable = false) ∧
      (host.invoke cls called frame).2.failures = host.failures) := by
  obtain ⟨gap, -, hbind⟩ | ⟨-, hnone, hbind⟩ | ⟨found, -, hfound, hbind⟩ := cls.bind_cases called
  · refine Or.inr ⟨?_, ?_⟩
    · intro other hother
      simp only [invoke, hbind, Except.error.injEq] at hother
      exact hother ▸ rfl
    · simp [invoke, hbind, CallError.isRecoverable]
  · refine Or.inl ⟨_, _, ?_, rfl, tellsOf_unknown hnone, ?_⟩
    · simp only [invoke, hbind]
    · simp [invoke, hbind, CallError.isRecoverable, report]
  · rw [invoke_of_ok hbind]
    obtain ⟨value, _, _, heq⟩ | ⟨value, imbalance, _, _, heq⟩ | ⟨error, houtcome, _, heq⟩ |
      ⟨error, imbalance, _, _, heq⟩ :=
        invokeMethod_cases (Prod.eta (host.runCall cls.name.text found frame)).symm <;> rw [heq]
    · exact Or.inr ⟨by simp, rfl⟩
    · exact Or.inr ⟨by simp [CallError.isRecoverable], rfl⟩
    · obtain ⟨hrecoverable, hknown⟩ := runCall_error houtcome
      exact Or.inl ⟨error, failureOf cls.name.text found error, rfl, hrecoverable,
        tellsOf_failureOf hfound hknown, rfl⟩
    · exact Or.inr ⟨by simp [CallError.isRecoverable], rfl⟩

/-- A call ends in a violated contract exactly when its name is bound to one. No
body and no argument can make a call end that way. -/
theorem fst_invoke_eq_contractViolation_iff {host : Host σ ω} {cls : NativeClass σ ω}
    {called : String} {frame : Frame} {className capability : String} {missing : List String} :
    (host.invoke cls called frame).1 =
        .error (.contractViolation className capability missing) ↔
      cls.bind called = .error (.contractViolation className capability missing) := by
  cases hbind : cls.bind called with
  | error error => simp [invoke, hbind]
  | ok found =>
    rw [invoke_of_ok hbind]
    obtain ⟨value, _, _, heq⟩ | ⟨value, imbalance, _, _, heq⟩ | ⟨error, houtcome, _, heq⟩ |
      ⟨error, imbalance, _, _, heq⟩ :=
        invokeMethod_cases (Prod.eta (host.runCall cls.name.text found frame)).symm <;> rw [heq]
    · simp
    · simp
    · -- The run phase fails at nothing that is not reported.
      obtain ⟨hrecoverable, -⟩ := runCall_error houtcome
      have hdiffers : error ≠ .contractViolation className capability missing := by
        rintro rfl
        cases hrecoverable
      simp [hdiffers]
    · simp

end Host

/-- A call by the name of a class fails exactly as the call on that class does.
The look-up of the class has errors of its own. -/
theorem Bridge.fst_call_eq_error_iff [NativeState σ] {bridge : Bridge σ ω} {className : String}
    {cls : NativeClass σ ω} (hget : bridge.registry.get className = .ok cls) {called : String}
    {receiver : Option RawReceiver} {arguments : List Value} {error : CallError} :
    (bridge.call className called receiver arguments).1 = .error (.call error) ↔
      (bridge.host.invoke cls called ⟨receiver, arguments⟩).1 = .error error := by
  simp only [call, hget]
  cases (bridge.host.invoke cls called ⟨receiver, arguments⟩).1 <;> simp [Except.mapError]

/-- A call that was made: the class it reached, the name it called there, and
how it ended. -/
structure CallRecord (σ ω : Type) where
  cls : Option (NativeClass σ ω)
  called : String
  outcome : Except BridgeError Value

namespace CallRecord

/-- The call failed, and the host can live with that. -/
def isRecoverable (record : CallRecord σ ω) : Bool :=
  match record.outcome with
  | .error (.call error) => error.isRecoverable
  | _ => false

/-- An entry of the channel is about this call. -/
def ToldBy (failure : Failure) (record : CallRecord σ ω) : Prop :=
  ∃ cls error, record.cls = some cls ∧ record.outcome = .error (.call error) ∧
    failure.TellsOf cls record.called error

end CallRecord

variable [NativeState σ]

/-- Calls one after the other, by the name of a class or on a class at hand,
with a record of each. Whatever happens between calls leaves the channel
alone. -/
inductive Bridge.Calls (start : Bridge σ ω) : List (CallRecord σ ω) → Bridge σ ω → Prop
  | start : start.Calls [] start
  | named {log : List (CallRecord σ ω)} {bridge : Bridge σ ω} (className called : String)
      (receiver : Option RawReceiver) (arguments : List Value) : start.Calls log bridge →
    start.Calls
      (log ++ [⟨bridge.registry.get? className, called,
        (bridge.call className called receiver arguments).1⟩])
      (bridge.call className called receiver arguments).2
  | direct {log : List (CallRecord σ ω)} {bridge : Bridge σ ω} (cls : NativeClass σ ω)
      (called : String) (frame : Frame) : start.Calls log bridge →
    start.Calls
      (log ++ [⟨some cls, called, (bridge.host.invoke cls called frame).1.mapError .call⟩])
      { bridge with host := (bridge.host.invoke cls called frame).2 }
  | between {log : List (CallRecord σ ω)} {bridge after : Bridge σ ω} : start.Calls log bridge →
    after.host.failures = bridge.host.failures → start.Calls log after

namespace Bridge

/-- What a call adds to the channel is what its record calls for: one entry or
none. This is the step of the run below. -/
theorem told_invoke (host : Host σ ω) (cls : NativeClass σ ω) (called : String) (frame : Frame) :
    ∃ added, (host.invoke cls called frame).2.failures = host.failures ++ added ∧
      List.Forall₂ CallRecord.ToldBy added
        ([⟨some cls, called, (host.invoke cls called frame).1.mapError .call⟩].filter
          CallRecord.isRecoverable) := by
  obtain ⟨error, failure, houtcome, hrecoverable, htells, hfailures⟩ | ⟨hnone, hfailures⟩ :=
    host.failures_invoke cls called frame
  · refine ⟨[failure], hfailures, ?_⟩
    have hkept : CallRecord.isRecoverable
        ⟨some cls, called, (host.invoke cls called frame).1.mapError .call⟩ = true := by
      rw [houtcome]
      exact hrecoverable
    rw [List.filter_cons_of_pos hkept, List.filter_nil]
    refine .cons ⟨cls, error, rfl, ?_, htells⟩ .nil
    rw [houtcome]
    rfl
  · refine ⟨[], by rw [hfailures, List.append_nil], ?_⟩
    have hdropped : ¬ CallRecord.isRecoverable
        ⟨some cls, called, (host.invoke cls called frame).1.mapError .call⟩ = true := by
      cases houtcome : (host.invoke cls called frame).1 with
      | ok value => exact Bool.false_ne_true
      | error error =>
        have hfatal := hnone error houtcome
        intro hkept
        change error.isRecoverable = true at hkept
        rw [hfatal] at hkept
        cases hkept
    rw [List.filter_cons_of_neg hdropped, List.filter_nil]
    exact .nil

/-- Over a run of calls that finds the channel empty and does not drain it, the
channel lists the calls that failed and that the host can live with: one entry
for each, in the order of the calls, and no entry for any other call. -/
theorem failures_told {start bridge : Bridge σ ω} {log : List (CallRecord σ ω)}
    (h : start.Calls log bridge) (hempty : start.host.failures = []) :
    List.Forall₂ CallRecord.ToldBy bridge.host.failures (log.filter CallRecord.isRecoverable) := by
  induction h with
  | start =>
    rw [hempty]
    exact .nil
  | @named log bridge className called receiver arguments _ ih =>
    rw [List.filter_append]
    cases hclass : bridge.registry.get? className with
    | none =>
      have hcall : bridge.call className called receiver arguments =
          (.error (.registration (.unknownClass className)), bridge) := by
        simp only [call, Registry.get, hclass]
      rw [hcall]
      simpa [CallRecord.isRecoverable] using ih
    | some cls =>
      have hcall : bridge.call className called receiver arguments =
          ((bridge.host.invoke cls called ⟨receiver, arguments⟩).1.mapError .call,
            { bridge with host := (bridge.host.invoke cls called ⟨receiver, arguments⟩).2 }) := by
        simp only [call, Registry.get, hclass]
      obtain ⟨added, hfailures, htold⟩ := told_invoke bridge.host cls called ⟨receiver, arguments⟩
      rw [hcall, hfailures]
      exact List.rel_append ih htold
  | @direct log bridge cls called frame _ ih =>
    obtain ⟨added, hfailures, htold⟩ := told_invoke bridge.host cls called frame
    rw [List.filter_append, hfailures]
    exact List.rel_append ih htold
  | between _ hfailures ih =>
    rw [hfailures]
    exact ih

/-- Takes one integer. -/
def count : Method Sample Unit :=
  .declare "count" [.required "n" .long] .none (CallM.setResult .null)

/-- Opens a scope, leaves it open, and fails. -/
def spoil : Method Sample Unit :=
  .declare "spoil" [] .none do
    let _ ← CallM.openNested false
    CallM.fail (.other "spoiled")

/-- A class with both methods. -/
def talker : NativeClass Sample Unit where
  name := .global "Talker"
  parent := none
  capabilities := .empty
  methods := [count, spoil]
  properties := []
  distinct := MethodTable.firstRepeat?_nil_eq_none_iff.1 rfl

def quietBridge : Bridge Sample Unit := .new .standard false ()

/-- The bridge after a call without receiver and arguments. -/
def afterCall (bridge : Bridge Sample Unit) (called : String) : Bridge Sample Unit :=
  { bridge with host := (bridge.host.invoke talker called ⟨none, []⟩).2 }

def talkedBridge : Bridge Sample Unit :=
  ((quietBridge.afterCall "sing").afterCall "COUNT").afterCall "spoil"

/-- A class that is not known, a method that is not known, too few arguments,
and a body that fails with a scope left open: the second and the third call are
reported. -/
theorem failures_told_talker :
    ∃ log, quietBridge.Calls log talkedBridge ∧ quietBridge.host.failures = [] ∧
      log.map CallRecord.called = ["sing", "sing", "COUNT", "spoil"] ∧
      talkedBridge.host.failures =
        [⟨.exception, "Talker", "sing", none, "call to undefined method Talker::sing()"⟩,
          ⟨.warning, "Talker", "count", some 0,
            "Talker::count() expects exactly 1 argument(s), 0 given"⟩] ∧
      List.Forall₂ CallRecord.ToldBy talkedBridge.host.failures
        (log.filter CallRecord.isRecoverable) := by
  have hstart : quietBridge.Calls [] quietBridge := .start
  have hrun := (((hstart.named "Nobody" "sing" none []).direct talker "sing" ⟨none, []⟩).direct
    talker "COUNT" ⟨none, []⟩).direct talker "spoil" ⟨none, []⟩
  exact ⟨_, hrun, rfl, rfl, by decide +kernel, failures_told hrun rfl⟩

end Bridge

end NativeBridge
