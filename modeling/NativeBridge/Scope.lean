import NativeBridge.Heap

/-!
# Scopes

A scope answers for the references that native code acquires while it runs. It lists the handles
it answers for, as often as it owes a reference to each, and gives all of them up when it is
closed, except those handed on before. A ledger counts the scopes that were opened, closed, and
dropped without being closed, so a scope that was forgotten shows as a difference. It also numbers
the scopes.
-/

namespace NativeBridge

/-- How many scopes were opened, closed, and dropped without being closed. -/
structure Ledger where
  opened : Nat
  closed : Nat
  leaked : Nat
  /-- The number of the scope opened last. -/
  lastId : Nat
deriving DecidableEq, Repr

/-- The scopes opened differ from those closed. -/
structure ScopeImbalance where
  scope : Nat
  opened : Nat
  closed : Nat
deriving DecidableEq, Repr

def ScopeImbalance.message (imbalance : ScopeImbalance) : String :=
  "memory scope " ++ toString imbalance.scope ++ " imbalance: " ++ toString imbalance.opened ++
    " opened, " ++ toString imbalance.closed ++ " closed"

/-- A scope with its number. The handles it answers for are listed with the
newest first. -/
structure Scope where
  id : Nat
  grows : Bool
  tracked : List Handle
deriving DecidableEq, Repr

namespace Ledger

def empty : Ledger := ⟨0, 0, 0, 0⟩

def IsBalanced (ledger : Ledger) : Prop := ledger.opened = ledger.closed

instance (ledger : Ledger) : Decidable ledger.IsBalanced :=
  inferInstanceAs (Decidable (ledger.opened = ledger.closed))

/-- Opens a scope under the next number. -/
def openScope (ledger : Ledger) (grows : Bool) : Scope × Ledger :=
  (⟨ledger.lastId + 1, grows, []⟩,
    { ledger with opened := ledger.opened + 1, lastId := ledger.lastId + 1 })

def closeScope (ledger : Ledger) : Ledger :=
  { ledger with closed := ledger.closed + 1 }

/-- Counts a scope that ended without being closed. -/
def dropScope (ledger : Ledger) : Ledger :=
  { ledger with leaked := ledger.leaked + 1 }

/-- Checks that every scope opened since an earlier state of the ledger was
closed. The scope named is the one the check is made for. -/
def checkSince (ledger : Ledger) (scope : Nat) (before : Ledger) : Except ScopeImbalance Unit :=
  let opened := ledger.opened - before.opened
  let closed := ledger.closed - before.closed
  if opened = closed then .ok () else .error ⟨scope, opened, closed⟩

/-- Checks that every scope was closed. -/
def check (ledger : Ledger) (scope : Nat) : Except ScopeImbalance Unit :=
  ledger.checkSince scope empty

end Ledger

namespace Scope

def track (scope : Scope) (handle : Handle) : Scope :=
  { scope with tracked := handle :: scope.tracked }

/-- Takes the newest entry for a handle off the list; the newest entry of all
moves into its place. Nothing if the handle is not on the list. -/
def strike (handle : Handle) : List Handle → Option (List Handle)
  | [] => none
  | newest :: older =>
    if newest = handle then some older
    else if handle ∈ older then some (older.replace handle newest)
    else none

/-- Hands the reference of a boxed array or object on to the caller. Answers
whether the scope answered for it. -/
def handOff (scope : Scope) (value : Value) : Bool × Scope :=
  match value.handle?.bind fun handle => strike handle scope.tracked with
  | some tracked => (true, { scope with tracked })
  | none => (false, scope)

/-- Closes a scope: gives up its references, the oldest first. Answers how many
there were. -/
def close {σ : Type} [NativeState σ] (scope : Scope) (ledger : Ledger) (heap : Heap σ) :
    Nat × Ledger × Heap σ :=
  (scope.tracked.length, ledger.closeScope, heap.releaseAll scope.tracked.reverse)

/-- The scope of a number and the others. -/
def take (id : Nat) : List Scope → Option (Scope × List Scope)
  | [] => none
  | scope :: rest =>
    if scope.id = id then some (scope, rest)
    else (take id rest).map fun found => (found.1, scope :: found.2)

/-- A scope that is taken out of a list leaves one fewer there. -/
theorem length_of_take {id : Nat} {scopes rest : List Scope} {scope : Scope}
    (h : take id scopes = some (scope, rest)) : scopes.length = rest.length + 1 := by
  induction scopes generalizing rest with
  | nil => cases h
  | cons first others ih =>
    unfold take at h
    split at h
    · cases h
      rfl
    · obtain ⟨⟨found, left⟩, hfound, heq⟩ := Option.map_eq_some_iff.1 h
      cases heq
      simp [ih hfound]

def inspect (scope : Scope) : String :=
  "MemoryScope \x7b id: " ++ toString scope.id ++ ", grows: " ++ toString scope.grows ++
    ", tracked: " ++ toString scope.tracked.length ++ ", .. \x7d"

end Scope

end NativeBridge
