import NativeBridge.Method

/-!
# Methods of capabilities

Native state says what it can do by instances of the classes below, one for each capability. From
an instance comes the capability's part of a method table: the bodies reach the receiver's state,
call the instance, and hand its answer to the host.

State with offsets that owns what it stores is handed one reference along with each value, and
hands back every value that it does not keep.
-/

namespace NativeBridge

open CallM (Update)

/-- State with a number of elements. -/
class Counts (α : Type) where
  count : α → Int64

/-- State that is a position in a sequence. -/
class Iterates (α : Type) where
  current : α → Value
  key : α → Value
  next : α → α
  rewind : α → α
  valid : α → Bool

/-- An iterator around another one. -/
class WrapsIterator (α : Type) extends Iterates α where
  innerIterator : α → Value

/-- An iterator whose elements may be iterated themselves. -/
class IteratesChildren (α : Type) extends Iterates α where
  children : α → Value
  hasChildren : α → Bool

/-- An iterator that can be moved to any position. -/
class Seeks (α : Type) extends Iterates α where
  seek : Int64 → Update α Unit

/-- State that provides an iterator. -/
class ProvidesIterator (α : Type) where
  iterator : α → Value

/-- State with values at offsets. -/
class HasOffsets (α : Type) where
  offsetExists : α → Value → Except BodyError Bool
  offsetGet : α → Value → Except BodyError Value
  /-- Stores a value; hands back the value that it replaces or does not keep. -/
  offsetSet : Value → Value → Update α (Option Value)
  /-- Removes a value and hands it back. -/
  offsetUnset : Value → Update α (Option Value)

/-- State that can be written out and read back. -/
class Serializes (α : Type) where
  serialize : α → Option String
  unserialize : String → Update α Unit

/-- State with every capability. -/
class FullyCapable (α : Type) extends Counts α, WrapsIterator α, IteratesChildren α, Seeks α,
  ProvidesIterator α, HasOffsets α, Serializes α

namespace MethodTable

variable {σ ω α : Type} [NativeState σ]

/-- Answers with what a function finds in the receiver's state. -/
def answer (kind : StateKind σ α) (f : α → Value) : CallM σ ω Unit := do
  CallM.setResult (f (← CallM.this kind))

def change (kind : StateKind σ α) (f : α → α) : CallM σ ω Unit :=
  CallM.updateThis kind fun state => (.ok (), f state)

/-- Gives up the reference of a value that was handed back. -/
def giveUp (returned : Option Value) : CallM σ ω Unit :=
  match returned with
  | some value => CallM.release value
  | none => pure ()

/-- Stores a value at an offset. The state gets a reference for the value up front; when the state
cannot be reached or refuses the value, the reference is taken back. -/
def storeOffset (kind : StateKind σ α) [HasOffsets α] : CallM σ ω Unit := do
  let offset ← CallM.argument 0
  let value ← CallM.argument 1
  CallM.retain value
  match ← (CallM.updateThis kind (HasOffsets.offsetSet offset value)).attempt with
  | .ok returned => giveUp returned
  | .error error => do
    CallM.release value
    CallM.fail error

def instanceMethod (table : MethodTable σ ω) (name : String) (params : List ParamDecl)
    (body : CallM σ ω Unit) : MethodTable σ ω :=
  table.add (.declare name params .instanceOnly body)

def offsetParam : ParamDecl := .required "offset" .mixed

def withCountable (kind : StateKind σ α) [Counts α] (table : MethodTable σ ω) : MethodTable σ ω :=
  table.instanceMethod "count" [] (answer kind fun state => .int (Counts.count state))

def withIterator (kind : StateKind σ α) [Iterates α] (table : MethodTable σ ω) : MethodTable σ ω :=
  table
    |>.instanceMethod "current" [] (answer kind Iterates.current)
    |>.instanceMethod "key" [] (answer kind Iterates.key)
    |>.instanceMethod "next" [] (change kind Iterates.next)
    |>.instanceMethod "rewind" [] (change kind Iterates.rewind)
    |>.instanceMethod "valid" [] (answer kind fun state => .bool (Iterates.valid state))

/-- Only what an outer iterator adds to an iterator. -/
def withOuterIterator (kind : StateKind σ α) [WrapsIterator α] (table : MethodTable σ ω) :
    MethodTable σ ω :=
  table.instanceMethod "getInnerIterator" [] (answer kind WrapsIterator.innerIterator)

/-- Only what a recursive iterator adds to an iterator. -/
def withRecursiveIterator (kind : StateKind σ α) [IteratesChildren α] (table : MethodTable σ ω) :
    MethodTable σ ω :=
  table
    |>.instanceMethod "getChildren" [] (answer kind IteratesChildren.children)
    |>.instanceMethod "hasChildren" []
      (answer kind fun state => .bool (IteratesChildren.hasChildren state))

/-- Only what a seekable iterator adds to an iterator. -/
def withSeekableIterator (kind : StateKind σ α) [Seeks α] (table : MethodTable σ ω) :
    MethodTable σ ω :=
  table.instanceMethod "seek" [.required "position" .long] do
    let position ← CallM.argumentAs .int64 0
    CallM.updateThis kind (Seeks.seek position)

def withAggregate (kind : StateKind σ α) [ProvidesIterator α] (table : MethodTable σ ω) :
    MethodTable σ ω :=
  table.instanceMethod "getIterator" [] (answer kind ProvidesIterator.iterator)

def withArrayAccess (kind : StateKind σ α) [HasOffsets α] (table : MethodTable σ ω) :
    MethodTable σ ω :=
  table
    |>.instanceMethod "offsetExists" [offsetParam] (do
      let offset ← CallM.argument 0
      let found ← CallM.ofExcept (HasOffsets.offsetExists (← CallM.this kind) offset)
      CallM.setResult (.bool found))
    |>.instanceMethod "offsetGet" [offsetParam] (do
      let offset ← CallM.argument 0
      CallM.setResult (← CallM.ofExcept (HasOffsets.offsetGet (← CallM.this kind) offset)))
    |>.instanceMethod "offsetSet" [offsetParam, .required "value" .mixed] (storeOffset kind)
    |>.instanceMethod "offsetUnset" [offsetParam] (do
      let offset ← CallM.argument 0
      giveUp (← CallM.updateThis kind (HasOffsets.offsetUnset offset)))

def withSerializable (kind : StateKind σ α) [Serializes α] (table : MethodTable σ ω) :
    MethodTable σ ω :=
  (table.instanceMethod "serialize" []
    (answer kind fun state => ((Serializes.serialize state).map Value.string).getD .null)).add
    (.declare "unserialize" [.required "serialized" .string] ⟨true, true, true⟩ do
      let serialized ← CallM.argumentAs .string 0
      CallM.updateThis kind (Serializes.unserialize serialized))

end MethodTable

end NativeBridge
