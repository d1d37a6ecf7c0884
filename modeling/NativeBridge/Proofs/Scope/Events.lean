import NativeBridge.Call.Body

namespace NativeBridge

namespace ScopeEvent

def openedId? : ScopeEvent → Option Nat
  | opened id => some id
  | _ => none

def isClosed : ScopeEvent → Bool
  | closed _ => true
  | _ => false

def isDropped : ScopeEvent → Bool
  | dropped _ => true
  | _ => false

def isForgotten : ScopeEvent → Bool
  | forgotten _ => true
  | _ => false

/-- The numbers of the scopes that were opened, in order. -/
def openedIds (events : List ScopeEvent) : List Nat := events.filterMap openedId?

def openedCount (events : List ScopeEvent) : Nat := (openedIds events).length

def closedCount (events : List ScopeEvent) : Nat := events.countP isClosed

def droppedCount (events : List ScopeEvent) : Nat := events.countP isDropped

def forgottenCount (events : List ScopeEvent) : Nat := events.countP isForgotten

private theorem openedIds_append (first second : List ScopeEvent) :
    openedIds (first ++ second) = openedIds first ++ openedIds second :=
  List.filterMap_append

private theorem openedCount_append (first second : List ScopeEvent) :
    openedCount (first ++ second) = openedCount first + openedCount second := by
  simp [openedCount, openedIds_append]

private theorem closedCount_append (first second : List ScopeEvent) :
    closedCount (first ++ second) = closedCount first + closedCount second :=
  List.countP_append

private theorem droppedCount_append (first second : List ScopeEvent) :
    droppedCount (first ++ second) = droppedCount first + droppedCount second :=
  List.countP_append

private theorem forgottenCount_append (first second : List ScopeEvent) :
    forgottenCount (first ++ second) = forgottenCount first + forgottenCount second :=
  List.countP_append

end ScopeEvent

open ScopeEvent

namespace CallState

variable {σ ω : Type} {before after : CallState σ ω} {events : List ScopeEvent}

/-- What the events between two states of a call did to the ledger, and how many
nested scopes are left to be heard of. -/
structure LedgerGrows (before : CallState σ ω) (events : List ScopeEvent)
    (after : CallState σ ω) : Prop where
  id : after.scope.id = before.scope.id
  lastId : after.ledger.lastId = before.ledger.lastId + openedCount events
  openedIds : openedIds events = List.range' (before.ledger.lastId + 1) (openedCount events)
  opened : after.ledger.opened = before.ledger.opened + openedCount events
  closed : after.ledger.closed = before.ledger.closed + closedCount events
  leaked : after.ledger.leaked = before.ledger.leaked + droppedCount events
  nested : before.nested.length + openedCount events = after.nested.length +
    closedCount events + droppedCount events + forgottenCount events

/-- While a body runs, the ledger grows by what happens to nested scopes and by
nothing else. By induction on the events, each of which changes one number. -/
theorem Evolves.ledgerGrows (h : before.Evolves events after) :
    before.LedgerGrows events after := by
  induction h with
  | work same =>
    have hnested := congrArg List.length same.nested
    simp only [List.length_map] at hnested
    refine ⟨same.id, ?_, rfl, ?_, ?_, ?_, hnested.symm⟩ <;> rw [same.ledger] <;> rfl
  | opens state grows => exact ⟨rfl, rfl, rfl, rfl, rfl, rfl, rfl⟩
  | closes htake => exact ⟨rfl, rfl, rfl, rfl, rfl, rfl, Scope.length_of_take htake⟩
  | drops htake => exact ⟨rfl, rfl, rfl, rfl, rfl, rfl, Scope.length_of_take htake⟩
  | forgets htake => exact ⟨rfl, rfl, rfl, rfl, rfl, rfl, Scope.length_of_take htake⟩
  | trans _ _ hfirst hsecond =>
    constructor
    · exact hsecond.id.trans hfirst.id
    · rw [hsecond.lastId, hfirst.lastId, openedCount_append]
      omega
    · rw [openedIds_append, hfirst.openedIds, hsecond.openedIds, hfirst.lastId,
        openedCount_append, ← List.range'_append_1]
      congr 2
      omega
    · rw [hsecond.opened, hfirst.opened, openedCount_append]
      omega
    · rw [hsecond.closed, hfirst.closed, closedCount_append]
      omega
    · rw [hsecond.leaked, hfirst.leaked, droppedCount_append]
      omega
    · have hleft := hfirst.nested
      have hright := hsecond.nested
      rw [openedCount_append, closedCount_append, droppedCount_append, forgottenCount_append]
      omega

/-- From no nested scopes on, no more are ended than were opened, and those that
are neither are still at hand. -/
theorem LedgerGrows.ended_le (h : before.LedgerGrows events after) (hnone : before.nested = []) :
    closedCount events + droppedCount events + forgottenCount events + after.nested.length =
      openedCount events := by
  have hnested := h.nested
  rw [hnone, List.length_nil] at hnested
  omega

end CallState

end NativeBridge
