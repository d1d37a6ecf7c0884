import NativeBridge.Call.Error

/-!
# Method bodies

A body works on the state of its call: the heap, the call's own scope, scopes nested in it, and
whatever else the embedding's bodies share. It may do to them what it likes, save for the ledger:
that changes only when a nested scope is opened, closed or dropped (`CallState.Evolves`). Every
body carries the proof of that, so laws about calls hold for all bodies without a hypothesis.
-/

namespace NativeBridge

/-- What a body is given: the receiver and the parameters. -/
structure CallInput where
  receiver : Receiver
  params : Params

structure CallState (σ ω : Type) where
  heap : Heap σ
  ledger : Ledger
  /-- The call's own scope. -/
  scope : Scope
  /-- The scopes opened by the body that are still open. -/
  nested : List Scope
  /-- The value the call will answer with. -/
  result : Value
  shared : ω

/-- What happens to a scope nested in a call. One that is forgotten is not heard
of again. -/
inductive ScopeEvent where
  | opened (id : Nat)
  | closed (id : Nat)
  | dropped (id : Nat)
  | forgotten (id : Nat)
deriving DecidableEq, Repr

namespace CallState

variable {σ ω : Type}

/-- Nothing was opened or ended between two states. What the scopes answer for
may differ. -/
structure SameScopes (before after : CallState σ ω) : Prop where
  ledger : after.ledger = before.ledger
  id : after.scope.id = before.scope.id
  grows : after.scope.grows = before.scope.grows
  nested : after.nested.map Scope.id = before.nested.map Scope.id

/-- How the state of a call changes while its body runs, with what happens to
nested scopes, in order. The heap and whatever bodies share may change in any
way. -/
inductive Evolves : CallState σ ω → List ScopeEvent → CallState σ ω → Prop
  | work {before after : CallState σ ω} : before.SameScopes after → before.Evolves [] after
  | opens (state : CallState σ ω) (grows : Bool) :
    state.Evolves [.opened (state.ledger.openScope grows).1.id]
      { state with
        ledger := (state.ledger.openScope grows).2
        nested := (state.ledger.openScope grows).1 :: state.nested }
  | closes {state : CallState σ ω} {id : Nat} {scope : Scope} {rest : List Scope} :
    Scope.take id state.nested = some (scope, rest) →
    state.Evolves [.closed id] { state with ledger := state.ledger.closeScope, nested := rest }
  | drops {state : CallState σ ω} {id : Nat} {scope : Scope} {rest : List Scope} :
    Scope.take id state.nested = some (scope, rest) →
    state.Evolves [.dropped id] { state with ledger := state.ledger.dropScope, nested := rest }
  | forgets {state : CallState σ ω} {id : Nat} {scope : Scope} {rest : List Scope} :
    Scope.take id state.nested = some (scope, rest) →
    state.Evolves [.forgotten id] { state with nested := rest }
  | trans {before middle after : CallState σ ω} {first second : List ScopeEvent} :
    before.Evolves first middle → middle.Evolves second after →
    before.Evolves (first ++ second) after

theorem SameScopes.refl (state : CallState σ ω) : state.SameScopes state :=
  ⟨rfl, rfl, rfl, rfl⟩

end CallState

/-- A computation of a method body. -/
structure CallM (σ ω α : Type) where
  run : CallInput → CallState σ ω → Except BodyError α × CallState σ ω
  evolves : ∀ (input : CallInput) (state : CallState σ ω),
    ∃ events, state.Evolves events (run input state).2

namespace CallM

variable {σ ω α β : Type}

/-- Between the states of one step that opens and ends no scope. -/
theorem evolves_of_sameScopes {before after : CallState σ ω} (same : before.SameScopes after) :
    ∃ events, before.Evolves events after :=
  ⟨[], .work same⟩

def pure (a : α) : CallM σ ω α where
  run := fun _ state => (.ok a, state)
  evolves := fun _ state => evolves_of_sameScopes (.refl state)

/-- Runs one computation and then another; a failure of the first ends both. -/
def bind (first : CallM σ ω α) (next : α → CallM σ ω β) : CallM σ ω β where
  run := fun input state =>
    match first.run input state with
    | (.ok a, state) => (next a).run input state
    | (.error e, state) => (.error e, state)
  evolves := fun input state => by
    obtain ⟨events, h⟩ := first.evolves input state
    split <;> rename_i heq <;> rw [heq] at h
    · obtain ⟨more, hnext⟩ := (next _).evolves input _
      exact ⟨events ++ more, h.trans hnext⟩
    · exact ⟨events, h⟩

instance : Monad (CallM σ ω) where
  pure := pure
  bind := bind

/-- What the body was given. -/
def input : CallM σ ω CallInput where
  run := fun input state => (.ok input, state)
  evolves := fun _ state => evolves_of_sameScopes (.refl state)

def inspect (f : CallInput → CallState σ ω → Except BodyError α) : CallM σ ω α where
  run := fun input state => (f input state, state)
  evolves := fun _ state => evolves_of_sameScopes (.refl state)

def fail (error : BodyError) : CallM σ ω α :=
  inspect fun _ _ => .error error

/-- Goes on with the result of a computation, or ends the body with its
failure. -/
def ofExcept (result : Except BodyError α) : CallM σ ω α :=
  inspect fun _ _ => result

/-- Runs a computation and answers how it ended, so that its failure does
not end the body. -/
def attempt (action : CallM σ ω α) : CallM σ ω (Except BodyError α) where
  run := fun input state => (.ok (action.run input state).1, (action.run input state).2)
  evolves := action.evolves

def withHeap (f : Heap σ → α × Heap σ) : CallM σ ω α where
  run := fun _ state => (.ok (f state.heap).1, { state with heap := (f state.heap).2 })
  evolves := fun _ _ => evolves_of_sameScopes ⟨rfl, rfl, rfl, rfl⟩

def withShared (f : ω → α × ω) : CallM σ ω α where
  run := fun _ state => (.ok (f state.shared).1, { state with shared := (f state.shared).2 })
  evolves := fun _ _ => evolves_of_sameScopes ⟨rfl, rfl, rfl, rfl⟩

def setResult (value : Value) : CallM σ ω Unit where
  run := fun _ state => (.ok (), { state with result := value })
  evolves := fun _ _ => evolves_of_sameScopes ⟨rfl, rfl, rfl, rfl⟩

/-- Has the call's scope answer for one more reference. -/
def track (handle : Handle) : CallM σ ω Unit where
  run := fun _ state => (.ok (), { state with scope := state.scope.track handle })
  evolves := fun _ _ => evolves_of_sameScopes ⟨rfl, rfl, rfl, rfl⟩

/-- Hands a reference that the call's scope answers for on to the body. -/
def handOff (value : Value) : CallM σ ω Bool where
  run := fun _ state =>
    (.ok (state.scope.handOff value).1, { state with scope := (state.scope.handOff value).2 })
  evolves := fun _ state => by
    have h : (state.scope.handOff value).2.id = state.scope.id ∧
        (state.scope.handOff value).2.grows = state.scope.grows := by
      unfold Scope.handOff
      split <;> exact ⟨rfl, rfl⟩
    exact evolves_of_sameScopes ⟨rfl, h.1, h.2, rfl⟩

/-- Opens a scope inside the call; answers its number. -/
def openNested (grows : Bool) : CallM σ ω Nat where
  run := fun _ state =>
    let (scope, ledger) := state.ledger.openScope grows
    (.ok scope.id, { state with ledger, nested := scope :: state.nested })
  evolves := fun _ state => ⟨_, .opens state grows⟩

/-- Has a nested scope answer for one more reference. -/
def trackNested (id : Nat) (handle : Handle) : CallM σ ω Unit where
  run := fun _ state =>
    (.ok (), { state with
      nested := state.nested.map fun scope =>
        if scope.id = id then scope.track handle else scope })
  evolves := fun _ state => evolves_of_sameScopes ⟨rfl, rfl, rfl, by
    rw [List.map_map]
    refine List.map_congr_left fun scope _ => ?_
    simp only [Function.comp_apply]
    split <;> rfl⟩

/-- Closes a nested scope; answers how many references it gave up, or nothing
when no scope of this number is open. -/
def closeNested [NativeState σ] (id : Nat) : CallM σ ω (Option Nat) where
  run := fun _ state =>
    match Scope.take id state.nested with
    | some (scope, nested) =>
      let (released, ledger, heap) := scope.close state.ledger state.heap
      (.ok (some released), { state with ledger, heap, nested })
    | none => (.ok none, state)
  evolves := fun _ state => by
    split
    · rename_i scope nested htake
      exact ⟨_, (CallState.Evolves.closes htake).trans (.work ⟨rfl, rfl, rfl, rfl⟩)⟩
    · exact evolves_of_sameScopes (.refl state)

/-- Drops a nested scope without closing it; answers whether one of this number
was open. -/
def dropNested (id : Nat) : CallM σ ω Bool where
  run := fun _ state =>
    match Scope.take id state.nested with
    | some (_, nested) => (.ok true, { state with ledger := state.ledger.dropScope, nested })
    | none => (.ok false, state)
  evolves := fun _ state => by
    split
    · rename_i scope nested htake
      exact ⟨_, .drops htake⟩
    · exact evolves_of_sameScopes (.refl state)

/-- A parameter as a box; one that was left out is undefined. -/
def argument (index : Nat) : CallM σ ω Value :=
  inspect fun input _ => input.params.value index

def argumentAs (type : NativeType) (index : Nat) : CallM σ ω type.Carrier :=
  inspect fun input _ => input.params.get type index

def this (kind : StateKind σ α) : CallM σ ω α :=
  inspect fun input state => input.receiver.state kind state.heap

/-- A change of a state that may fail; what it did up to the failure stays. -/
abbrev Update (α β : Type) := α → Except BodyError β × α

def updateThis (kind : StateKind σ α) (update : Update α β) : CallM σ ω β := do
  let handle ← inspect fun input _ => input.receiver.handle
  let (outcome, state) := update (← this kind)
  withHeap fun heap => ((), heap.set kind handle state)
  ofExcept outcome

/-- Stores an array that the call's scope answers for. -/
def allocateArray [NativeState σ] (items : OrderedArray) : CallM σ ω Value := do
  let handle ← withHeap fun heap => heap.allocate (.array items)
  track handle
  return .array handle

/-- Stores an instance that the call's scope answers for. -/
def allocateObject [NativeState σ] (classId : Identity) (state : State σ) : CallM σ ω Value := do
  let handle ← withHeap fun heap => heap.allocateInstance classId state
  track handle
  return .object handle

/-- Takes a reference that outlives the call. -/
def retain (value : Value) : CallM σ ω Unit :=
  withHeap fun heap => ((), heap.retainValue value)

def release [NativeState σ] (value : Value) : CallM σ ω Unit :=
  withHeap fun heap => ((), heap.releaseValue value)

end CallM

end NativeBridge
