import NativeBridge.Dispatch

namespace NativeBridge.Host

variable {σ ω : Type}

@[simp]
private theorem ledger_passOn (value : Value) (state : CallState σ ω) :
    (passOn value state).ledger = state.ledger := by
  unfold passOn
  split <;> rfl

/-- The check of the ledger when a call ends. The scope of the call is closed
first, so it is never the one that is missing. -/
def exitCheck (host : Host σ ω) (state : CallState σ ω) : Except ScopeImbalance Unit :=
  state.ledger.closeScope.checkSince state.scope.id host.ledger

variable [NativeState σ]

/-- A call whose run phase failed ends with that error when its scopes are in
order. It is reported, and nothing is passed on. -/
theorem invokeMethod_of_error {host : Host σ ω} {className : String} {method : Method σ ω}
    {frame : Frame} {error : CallError} {state : CallState σ ω}
    (hrun : host.runCall className method frame = (.error error, state))
    (hcheck : host.exitCheck state = .ok ()) :
    host.invokeMethod className method frame =
      (.error error, (host.leave state).report (failureOf className method error)) := by
  have hledger : (host.leave state).ledger = state.ledger.closeScope := rfl
  simp only [invokeMethod, hrun, hledger]
  rw [← exitCheck, hcheck]

/-- Everything a call can do after its run phase: the phase did or did not leave
a value, and the scopes opened since the call began were or were not all closed.
What is known of calls is read off these four exits. -/
theorem invokeMethod_cases {host : Host σ ω} {className : String} {method : Method σ ω}
    {frame : Frame} {outcome : Except CallError Value} {state : CallState σ ω}
    (hrun : host.runCall className method frame = (outcome, state)) :
    (∃ value, outcome = .ok value ∧ host.exitCheck state = .ok () ∧
      host.invokeMethod className method frame =
        (.ok value, host.leave (passOn value state))) ∨
    (∃ value imbalance, outcome = .ok value ∧ host.exitCheck state = .error imbalance ∧
      host.invokeMethod className method frame = (.error (.scopeImbalance imbalance),
        { host.leave (passOn value state) with
          heap := (host.leave (passOn value state)).heap.releaseValue value })) ∨
    (∃ error, outcome = .error error ∧ host.exitCheck state = .ok () ∧
      host.invokeMethod className method frame =
        (.error error, (host.leave state).report (failureOf className method error))) ∨
    (∃ error imbalance, outcome = .error error ∧ host.exitCheck state = .error imbalance ∧
      host.invokeMethod className method frame =
        (.error (.scopeImbalance imbalance), host.leave state)) := by
  cases outcome with
  | ok value =>
    have hledger : (host.leave (passOn value state)).ledger = state.ledger.closeScope := by
      simp [leave, Scope.close]
    cases hcheck : host.exitCheck state with
    | ok _ =>
      refine Or.inl ⟨value, rfl, rfl, ?_⟩
      simp only [invokeMethod, hrun, hledger]
      rw [← exitCheck, hcheck]
    | error imbalance =>
      refine Or.inr (Or.inl ⟨value, imbalance, rfl, rfl, ?_⟩)
      simp only [invokeMethod, hrun, hledger]
      rw [← exitCheck, hcheck]
  | error error =>
    cases hcheck : host.exitCheck state with
    | ok _ =>
      exact Or.inr (Or.inr (Or.inl ⟨error, rfl, rfl, invokeMethod_of_error hrun hcheck⟩))
    | error imbalance =>
      have hledger : (host.leave state).ledger = state.ledger.closeScope := rfl
      refine Or.inr (Or.inr (Or.inr ⟨error, imbalance, rfl, rfl, ?_⟩))
      simp only [invokeMethod, hrun, hledger]
      rw [← exitCheck, hcheck]

/-- When the ledger is in order, a call ends the way its run phase did. The
value that is passed on is the one the phase left. -/
theorem fst_invokeMethod {host : Host σ ω} {className : String} {method : Method σ ω}
    {frame : Frame} {outcome : Except CallError Value} {state : CallState σ ω}
    (hrun : host.runCall className method frame = (outcome, state))
    (hcheck : host.exitCheck state = .ok ()) :
    (host.invokeMethod className method frame).1 = outcome := by
  obtain ⟨value, houtcome, _, heq⟩ | ⟨_, imbalance, _, hfails, _⟩ | ⟨error, houtcome, _, heq⟩ |
    ⟨_, imbalance, _, hfails, _⟩ := invokeMethod_cases hrun
  · rw [heq, houtcome]
  · rw [hcheck] at hfails
    cases hfails
  · rw [heq, houtcome]
  · rw [hcheck] at hfails
    cases hfails

/-- A call closes one scope after its run phase, its own, whichever way it
ends. -/
theorem ledger_invokeMethod {host : Host σ ω} {className : String} {method : Method σ ω}
    {frame : Frame} {outcome : Except CallError Value} {state : CallState σ ω}
    (hrun : host.runCall className method frame = (outcome, state)) :
    (host.invokeMethod className method frame).2.ledger = state.ledger.closeScope := by
  obtain ⟨value, _, _, heq⟩ | ⟨value, imbalance, _, _, heq⟩ | ⟨error, _, _, heq⟩ |
    ⟨error, imbalance, _, _, heq⟩ := invokeMethod_cases hrun <;> rw [heq]
  · simp [leave, Scope.close]
  · simp [leave, Scope.close]
  · rfl
  · rfl

/-- A call tells of scopes exactly when the check at its end does. No run phase
makes up such an error by itself, which is what the premise is for. -/
theorem fst_invokeMethod_eq_scopeImbalance_iff {host : Host σ ω} {className : String}
    {method : Method σ ω} {frame : Frame} {outcome : Except CallError Value}
    {state : CallState σ ω} (hrun : host.runCall className method frame = (outcome, state))
    (hother : ∀ imbalance, outcome ≠ .error (.scopeImbalance imbalance))
    {imbalance : ScopeImbalance} :
    (host.invokeMethod className method frame).1 = .error (.scopeImbalance imbalance) ↔
      host.exitCheck state = .error imbalance := by
  obtain ⟨value, _, hcheck, heq⟩ | ⟨value, found, _, hcheck, heq⟩ |
    ⟨error, houtcome, hcheck, heq⟩ | ⟨error, found, _, hcheck, heq⟩ := invokeMethod_cases hrun <;>
    rw [heq, hcheck]
  · simp
  · simp
  · rw [houtcome] at hother
    simp [hother]
  · simp

end NativeBridge.Host
