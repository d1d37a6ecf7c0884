import Mathlib.Algebra.GroupWithZero.Nat
import NativeBridge.Proofs.Call.Phases
import NativeBridge.Proofs.Scope.Events
import NativeBridge.Sample.State

namespace NativeBridge

open ScopeEvent

/-- What a call had to do with scopes: nothing if its name led to no method,
else the number of its own scope and what happened to the scopes of its body. -/
inductive CallScopes where
  | unresolved
  | bound (id : Nat) (events : List ScopeEvent)

namespace CallScopes

/-- The numbers of the scopes that a call opened, its own first. -/
def ids : CallScopes → List Nat
  | unresolved => []
  | bound id events => id :: openedIds events

def opened : CallScopes → Nat
  | unresolved => 0
  | bound _ events => 1 + openedCount events

def closed : CallScopes → Nat
  | unresolved => 0
  | bound _ events => 1 + closedCount events

def forgotten : CallScopes → Nat
  | unresolved => 0
  | bound _ events => forgottenCount events

end CallScopes

namespace Host

variable {σ ω : Type}

/-- The state of a call when its body has ended, or when it was kept from its
body. -/
def bodyEnd (host : Host σ ω) (className : String) (method : Method σ ω) (frame : Frame) :
    CallState σ ω :=
  match prepare host.options.strictness className method frame with
  | .ok input => (method.body.run input (host.enter method)).2
  | .error _ => host.enter method

/-- What a call had to do with scopes. -/
def HasScopes (host : Host σ ω) (cls : NativeClass σ ω) (method : String) (frame : Frame) :
    CallScopes → Prop
  | .unresolved => ∃ error, cls.bind method = .error error
  | .bound id events => ∃ found, cls.bind method = .ok found ∧ id = (host.enter found).scope.id ∧
      (host.enter found).Evolves events (host.bodyEnd cls.name.text found frame)

private theorem snd_runCall (host : Host σ ω) (className : String) (method : Method σ ω)
    (frame : Frame) :
    (host.runCall className method frame).2 =
      dropLeftOpen (host.bodyEnd className method frame) := by
  unfold bodyEnd
  cases hprepare : prepare host.options.strictness className method frame with
  | ok input => rw [runCall_of_prepare_ok hprepare]
  | error error =>
    rw [runCall_of_prepare_error hprepare]
    rfl

/-- The run phase reports no scopes, however it ends. The check at the end of
the call is the only place to do so. -/
theorem fst_runCall_ne_scopeImbalance (host : Host σ ω) (className : String)
    (method : Method σ ω) (frame : Frame) (imbalance : ScopeImbalance) :
    (host.runCall className method frame).1 ≠ .error (.scopeImbalance imbalance) := by
  obtain haccepts | ⟨error, hfirst⟩ :=
    accepts_or_firstObstacle host.options.strictness className method frame
  · obtain ⟨input, hprepare, _⟩ := haccepts.prepare_eq className
    rw [runCall_of_prepare_ok hprepare]
    unfold bodyOutcome
    intro himbalance
    cases hended : (method.body.run input (host.enter method)).1 with
    | ok _ | error _ =>
      rw [hended] at himbalance
      cases himbalance
  · rw [runCall_of_prepare_error hfirst.prepare_eq]
    cases hfirst <;> simp

/-- Whatever the body is, what it did to the scopes of its call is a list of
events. A call that did not get to its body has none. -/
theorem exists_evolves_bodyEnd (host : Host σ ω) (className : String) (method : Method σ ω)
    (frame : Frame) :
    ∃ events, (host.enter method).Evolves events (host.bodyEnd className method frame) := by
  unfold bodyEnd
  split
  · exact method.body.evolves _ _
  · exact CallM.evolves_of_sameScopes (.refl _)

/-- Every call has something to do with scopes in this sense, so no call of a
run is left out of account. -/
theorem exists_hasScopes (host : Host σ ω) (cls : NativeClass σ ω) (method : String)
    (frame : Frame) : ∃ scopes, host.HasScopes cls method frame scopes := by
  cases hbind : cls.bind method with
  | error error => exact ⟨.unresolved, error, hbind⟩
  | ok found =>
    obtain ⟨events, hevolves⟩ := host.exists_evolves_bodyEnd cls.name.text found frame
    exact ⟨.bound (host.enter found).scope.id events, found, hbind, rfl, hevolves⟩

private theorem bind_ne_scopeImbalance (cls : NativeClass σ ω) (method : String)
    (imbalance : ScopeImbalance) : cls.bind method ≠ .error (.scopeImbalance imbalance) := by
  unfold NativeClass.bind
  split
  · simp
  · split <;> simp

section

variable {host : Host σ ω} {className : String} {found : Method σ ω} {frame : Frame}
  {events : List ScopeEvent}

/-- What the ledger has counted when the check at the end of a call is made. A
scope that was dropped counts as leaked, one that was forgotten as neither
closed nor leaked. -/
theorem exitLedger_eq
    (h : (host.enter found).Evolves events (host.bodyEnd className found frame)) :
    (host.runCall className found frame).2.ledger.closeScope =
      ⟨host.ledger.opened + (1 + openedCount events), host.ledger.closed + (1 + closedCount events),
        host.ledger.leaked + (openedCount events - closedCount events - forgottenCount events),
        host.ledger.lastId + (1 + openedCount events)⟩ := by
  have hgrows := h.ledgerGrows
  have hended := hgrows.ended_le rfl
  rw [snd_runCall]
  simp only [dropLeftOpen, Ledger.closeScope, hgrows.opened, hgrows.closed, hgrows.leaked,
    hgrows.lastId, enter, Ledger.openScope, Ledger.mk.injEq]
  omega

/-- The check compares how much the ledger grew, so it tells of the scopes of
this call, whatever earlier calls have left in the ledger. -/
theorem exitCheck_eq
    (h : (host.enter found).Evolves events (host.bodyEnd className found frame)) :
    host.exitCheck (host.runCall className found frame).2 =
      if closedCount events < openedCount events then
        .error ⟨host.ledger.lastId + 1, 1 + openedCount events, 1 + closedCount events⟩
      else .ok () := by
  have hended := h.ledgerGrows.ended_le rfl
  have hid : (host.runCall className found frame).2.scope.id = host.ledger.lastId + 1 := by
    rw [snd_runCall]
    exact h.ledgerGrows.id
  rw [exitCheck, exitLedger_eq h, hid]
  simp only [Ledger.checkSince, Nat.add_sub_cancel_left]
  split <;> split <;> first | rfl | omega

end

variable {start host : Host σ ω} {cls : NativeClass σ ω} {method : String} {frame : Frame}
  {scopes : CallScopes}

private theorem ids_eq_range (h : host.HasScopes cls method frame scopes) :
    scopes.ids = List.range' (host.ledger.lastId + 1) scopes.opened := by
  cases scopes with
  | unresolved => rfl
  | bound id events =>
    obtain ⟨found, _, hid, hevolves⟩ := h
    rw [CallScopes.opened, CallScopes.ids, hevolves.ledgerGrows.openedIds, hid,
      Nat.add_comm 1, List.range'_succ]
    rfl

/-- A call ends no more scopes than it opens, so the differences of its numbers
do not underflow. -/
theorem ended_le_opened (h : host.HasScopes cls method frame scopes) :
    scopes.closed + scopes.forgotten ≤ scopes.opened := by
  cases scopes with
  | unresolved => exact Nat.le_refl 0
  | bound id events =>
    obtain ⟨found, _, _, hevolves⟩ := h
    have hended := hevolves.ledgerGrows.ended_le rfl
    simp only [CallScopes.opened, CallScopes.closed, CallScopes.forgotten]
    omega

variable [NativeState σ]

private theorem ledger_invoke_of_error {error : CallError} (h : cls.bind method = .error error) :
    (host.invoke cls method frame).2.ledger = host.ledger := by
  simp only [invoke, h]
  split <;> rfl

/-- A name that is bound to a method is called as that method, under the name of
the class that it was found in. -/
theorem invoke_of_ok {found : Method σ ω} (h : cls.bind method = .ok found) :
    host.invoke cls method frame = host.invokeMethod cls.name.text found frame := by
  simp only [invoke, h]

/-- What a call adds to the ledger: its own scope and those of its body. Nothing
is taken away from any of the four numbers. -/
theorem ledger_invoke (h : host.HasScopes cls method frame scopes) :
    (host.invoke cls method frame).2.ledger =
      ⟨host.ledger.opened + scopes.opened, host.ledger.closed + scopes.closed,
        host.ledger.leaked + (scopes.opened - scopes.closed - scopes.forgotten),
        host.ledger.lastId + scopes.opened⟩ := by
  cases scopes with
  | unresolved =>
    obtain ⟨error, hbind⟩ := h
    exact ledger_invoke_of_error hbind
  | bound id events =>
    obtain ⟨found, hbind, _, hevolves⟩ := h
    rw [invoke_of_ok hbind, ledger_invokeMethod (Prod.eta _).symm, exitLedger_eq hevolves]
    simp only [CallScopes.opened, CallScopes.closed, CallScopes.forgotten, Ledger.mk.injEq,
      true_and, and_true]
    omega

/-- A call reports its own scopes, by the number of the first of them, exactly
when it left one of them open. -/
theorem fst_invoke_eq_scopeImbalance_iff (h : host.HasScopes cls method frame scopes)
    (imbalance : ScopeImbalance) :
    (host.invoke cls method frame).1 = .error (.scopeImbalance imbalance) ↔
      scopes.closed < scopes.opened ∧
        imbalance = ⟨host.ledger.lastId + 1, scopes.opened, scopes.closed⟩ := by
  cases scopes with
  | unresolved =>
    obtain ⟨error, hbind⟩ := h
    have hne := bind_ne_scopeImbalance cls method imbalance
    rw [hbind] at hne
    simp only [invoke, hbind]
    simpa [CallScopes.opened, CallScopes.closed] using hne
  | bound id events =>
    obtain ⟨found, hbind, _, hevolves⟩ := h
    rw [invoke_of_ok hbind, fst_invokeMethod_eq_scopeImbalance_iff (Prod.eta _).symm
      (fst_runCall_ne_scopeImbalance host cls.name.text found frame), exitCheck_eq hevolves]
    simp only [CallScopes.opened, CallScopes.closed, Nat.add_lt_add_iff_left]
    split <;> simp [*, eq_comm]

/-- Calls one after the other, with what each had to do with scopes. Whatever
happens to the host between calls leaves the ledger alone. -/
inductive CallRun (start : Host σ ω) : List CallScopes → Host σ ω → Prop
  | start : CallRun start [] start
  | call {log : List CallScopes} {host : Host σ ω} {scopes : CallScopes} (cls : NativeClass σ ω)
      (method : String) (frame : Frame) : CallRun start log host →
    host.HasScopes cls method frame scopes →
    CallRun start (log ++ [scopes]) (host.invoke cls method frame).2
  | between {log : List CallScopes} {host after : Host σ ω} : CallRun start log host →
    after.ledger = host.ledger → CallRun start log after

/-- What the calls of a run add to the ledger. Between two runs the numbers may
be any, so a ledger need not start out empty. -/
theorem CallRun.ledger_eq {log : List CallScopes} (h : start.CallRun log host) :
    host.ledger.opened = start.ledger.opened + (log.map CallScopes.opened).sum ∧
    host.ledger.closed = start.ledger.closed + (log.map CallScopes.closed).sum ∧
    host.ledger.lastId = start.ledger.lastId + (log.map CallScopes.opened).sum ∧
    host.ledger.leaked + (log.map CallScopes.closed).sum + (log.map CallScopes.forgotten).sum =
      start.ledger.leaked + (log.map CallScopes.opened).sum := by
  induction h with
  | start => simp
  | @call log host scopes cls method frame _ hscopes ih =>
    obtain ⟨hopened, hclosed, hlastId, hleaked⟩ := ih
    have hended := ended_le_opened hscopes
    rw [ledger_invoke hscopes]
    simp only [List.map_append, List.map_cons, List.map_nil, List.sum_append, List.sum_cons,
      List.sum_nil]
    omega
  | between _ hledger ih =>
    rw [hledger]
    exact ih

/-- Scopes are numbered one after the other over the whole run. No number is
given out again when its scope is closed. -/
theorem CallRun.ids_eq_range {log : List CallScopes} (h : start.CallRun log host) :
    log.flatMap CallScopes.ids =
      List.range' (start.ledger.lastId + 1) (log.map CallScopes.opened).sum := by
  induction h with
  | start => rfl
  | @call log host scopes cls method frame hrun hscopes ih =>
    obtain ⟨_, _, hlastId, _⟩ := hrun.ledger_eq
    rw [List.flatMap_append, ih, List.flatMap_singleton, Host.ids_eq_range hscopes, hlastId,
      List.map_append, List.sum_append, ← List.range'_append_1]
    simp [Nat.add_right_comm]
  | between _ _ ih => exact ih

/-- In every run the ledger grows by the scopes of each call, so the differences
that a check takes are exact, and each call reports its own scopes exactly when
it left one open, whatever earlier calls have left in the ledger. Scopes are
numbered by how many were opened, and between calls every scope is closed or
known to have leaked unless one was forgotten. -/
theorem scopes_accounted {log : List CallScopes} (hrun : start.CallRun log host) :
    (∀ cls method frame, ∃ scopes, host.HasScopes cls method frame scopes) ∧
    (∀ cls method frame, host.HasScopes cls method frame .unresolved →
      (host.invoke cls method frame).2.ledger = host.ledger ∧
      ∀ imbalance, (host.invoke cls method frame).1 ≠ .error (.scopeImbalance imbalance)) ∧
    (∀ cls method frame id events, host.HasScopes cls method frame (.bound id events) →
      closedCount events ≤ openedCount events ∧
      (host.invoke cls method frame).2.ledger.opened =
        host.ledger.opened + (1 + openedCount events) ∧
      (host.invoke cls method frame).2.ledger.closed =
        host.ledger.closed + (1 + closedCount events) ∧
      host.ledger.opened ≤ (host.invoke cls method frame).2.ledger.opened ∧
      host.ledger.closed ≤ (host.invoke cls method frame).2.ledger.closed ∧
      ∀ imbalance, (host.invoke cls method frame).1 = .error (.scopeImbalance imbalance) ↔
        closedCount events < openedCount events ∧
          imbalance = ⟨id, 1 + openedCount events, 1 + closedCount events⟩) ∧
    host.ledger.opened = start.ledger.opened + (log.map CallScopes.opened).sum ∧
    host.ledger.closed = start.ledger.closed + (log.map CallScopes.closed).sum ∧
    (start.ledger.lastId = start.ledger.opened →
      host.ledger.lastId = host.ledger.opened ∧ (log.flatMap CallScopes.ids).Nodup ∧
      log.flatMap CallScopes.ids =
        List.range' (start.ledger.opened + 1) (host.ledger.opened - start.ledger.opened)) ∧
    (start.ledger.opened = start.ledger.closed + start.ledger.leaked →
      (∀ scopes ∈ log, scopes.forgotten = 0) →
      host.ledger.opened = host.ledger.closed + host.ledger.leaked) := by
  obtain ⟨hopened, hclosed, hlastId, hleaked⟩ := hrun.ledger_eq
  refine ⟨host.exists_hasScopes, ?_, ?_, hopened, hclosed, ?_, ?_⟩
  · intro cls method frame hscopes
    refine ⟨ledger_invoke hscopes, fun imbalance => ?_⟩
    rw [ne_eq, fst_invoke_eq_scopeImbalance_iff hscopes]
    exact fun hopen => absurd hopen.1 (Nat.lt_irrefl 0)
  · intro cls method frame id events hscopes
    have hended := ended_le_opened hscopes
    have hreports := fst_invoke_eq_scopeImbalance_iff hscopes
    rw [ledger_invoke hscopes]
    obtain ⟨found, _, rfl, _⟩ := hscopes
    simp only [CallScopes.opened, CallScopes.closed, Nat.add_lt_add_iff_left,
      true_and] at hended hreports ⊢
    exact ⟨by omega, Nat.le_add_right _ _, Nat.le_add_right _ _, hreports⟩
  · intro hstart
    rw [hrun.ids_eq_range, hstart]
    refine ⟨by omega, List.nodup_range' _, ?_⟩
    rw [hopened, Nat.add_sub_cancel_left]
  · intro hstart hnone
    have hforgotten : (log.map CallScopes.forgotten).sum = 0 := by
      rw [List.sum_eq_zero_iff_forall_eq_nat]
      simpa using hnone
    omega

/-- Opens a scope and leaves it open. -/
def leaveOpen : Method Sample Unit :=
  .declare "leaveOpen" [] .none do
    let _ ← CallM.openNested false

/-- Does nothing with scopes. -/
def idle : Method Sample Unit :=
  .declare "idle" [] .none (CallM.setResult .null)

/-- A class with both methods. -/
def scopeUser : NativeClass Sample Unit where
  name := .global "ScopeUser"
  parent := none
  capabilities := .empty
  methods := [leaveOpen, idle]
  properties := []
  distinct := MethodTable.firstRepeat?_nil_eq_none_iff.1 rfl

def emptyHost : Host Sample Unit := .new .standard ()

/-- The call that leaves a scope open fails; the call after it does not, though
the ledger still shows the difference. -/
theorem scopes_accounted_scopeUser :
    (emptyHost.invoke scopeUser "leaveOpen" ⟨none, []⟩).1 = .error (.scopeImbalance ⟨1, 2, 1⟩) ∧
    (∀ imbalance, ((emptyHost.invoke scopeUser "leaveOpen" ⟨none, []⟩).2.invoke scopeUser "idle"
      ⟨none, []⟩).1 ≠ .error (.scopeImbalance imbalance)) ∧
    (emptyHost.invoke scopeUser "leaveOpen" ⟨none, []⟩).2.ledger.opened =
      (emptyHost.invoke scopeUser "leaveOpen" ⟨none, []⟩).2.ledger.closed +
        (emptyHost.invoke scopeUser "leaveOpen" ⟨none, []⟩).2.ledger.leaked := by
  have hleaves : emptyHost.HasScopes scopeUser "leaveOpen" ⟨none, []⟩ (.bound 1 [.opened 2]) :=
    ⟨leaveOpen, rfl, rfl, .opens _ false⟩
  have hidle : (emptyHost.invoke scopeUser "leaveOpen" ⟨none, []⟩).2.HasScopes scopeUser "idle"
      ⟨none, []⟩ (.bound 3 []) :=
    ⟨idle, rfl, rfl, .work ⟨rfl, rfl, rfl, rfl⟩⟩
  have hstart : emptyHost.CallRun [] emptyHost := .start
  have hrun := hstart.call scopeUser "leaveOpen" ⟨none, []⟩ hleaves
  obtain ⟨_, _, hfirst, _⟩ := scopes_accounted hstart
  obtain ⟨_, _, hsecond, _, _, _, hbalanced⟩ := scopes_accounted hrun
  refine ⟨?_, ?_, hbalanced rfl ?_⟩
  · obtain ⟨_, _, _, _, _, hreports⟩ := hfirst scopeUser "leaveOpen" ⟨none, []⟩ 1 [.opened 2] hleaves
    exact (hreports ⟨1, 2, 1⟩).2 ⟨by decide, rfl⟩
  · obtain ⟨_, _, _, _, _, hreports⟩ := hsecond scopeUser "idle" ⟨none, []⟩ 3 [] hidle
    intro imbalance heq
    exact absurd ((hreports imbalance).1 heq).1 (by decide)
  · intro scopes hmem
    rw [List.mem_singleton.1 hmem]
    rfl

end Host

end NativeBridge
