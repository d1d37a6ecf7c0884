import NativeBridge.OrderedArray
import NativeBridge.Identity

/-!
# States in the heap

What a slot of the heap stores: an ordered array, or state of one of the types that the embedding
brings along. The heap needs to know two things about foreign state: its type, and the handles it
holds. A kind singles out the states of one type, so that code can ask for the state it expects.
-/

namespace NativeBridge

/-- What the heap asks of the embedding's states. -/
class NativeState (σ : Type) where
  /-- The type of ordered arrays. -/
  arrayType : StateType
  typeOf : σ → StateType
  /-- The handles a state holds one reference to each, in order, as often as they occur. -/
  handles : σ → List Handle

inductive State (σ : Type) where
  | array (items : OrderedArray)
  | native (state : σ)

namespace State

variable {σ : Type}

def isArray : State σ → Bool
  | array _ => true
  | native _ => false

def type [NativeState σ] : State σ → StateType
  | array _ => NativeState.arrayType σ
  | native state => NativeState.typeOf state

def handles [NativeState σ] : State σ → List Handle
  | array items => items.handles
  | native state => NativeState.handles state

end State

/-- The states of one type, seen as values of `α`: reading finds exactly what writing stores. -/
structure StateKind (σ α : Type) where
  type : StateType
  read : State σ → Option α
  write : α → State σ
  read_write : ∀ a, read (write a) = some a
  write_of_read : ∀ {state a}, read state = some a → write a = state

/-- Ordered arrays as a kind of state. -/
def StateKind.array (σ : Type) [NativeState σ] : StateKind σ OrderedArray where
  type := NativeState.arrayType σ
  read := fun
    | .array items => some items
    | .native _ => none
  write := .array
  read_write := fun _ => rfl
  write_of_read := by
    intro state items h
    cases state <;> simp_all

end NativeBridge
