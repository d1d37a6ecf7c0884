import NativeBridge.Fixture.Placeholder
import NativeBridge.Sample.Bag

/-!
# Sample states

The states of an embedding that is made for trying the bridge out: bags, holders of handles,
counters, texts, the unit, and the placeholder of the class with every capability.
-/

namespace NativeBridge

inductive Sample where
  | bag (bag : Bag)
  | holder (handles : List Handle)
  | counter (n : Int64)
  | text (s : String)
  | unit
  | placeholder

/-- The types of states in the heap of the sample embedding. -/
inductive SampleType where
  | array | bag | holder | counter | text | unit | placeholder
deriving DecidableEq, Repr

namespace SampleType

/-- The full name of a type, as messages give it. -/
def type : SampleType → StateType
  | array => ⟨"hostbind_core::runtime::array::HostArray"⟩
  | bag => ⟨"oracle_driver::states::Bag"⟩
  | holder => ⟨"oracle_driver::states::Holder"⟩
  | counter => ⟨"oracle_driver::states::Counter"⟩
  | text => ⟨"alloc::string::String"⟩
  | unit => ⟨"()"⟩
  | placeholder => ⟨"hostbind_modules::native_implements::OoNativeImplements"⟩

def Carrier : SampleType → Type
  | array => OrderedArray
  | bag => Bag
  | holder => List Handle
  | counter => Int64
  | text => String
  | unit => Unit
  | placeholder => Placeholder

end SampleType

namespace Sample

def sampleType : Sample → SampleType
  | bag _ => .bag
  | holder _ => .holder
  | counter _ => .counter
  | text _ => .text
  | unit => .unit
  | placeholder => .placeholder

def handles : Sample → List Handle
  | bag b => b.handles
  | holder hs => hs
  | _ => []

instance : NativeState Sample where
  arrayType := SampleType.array.type
  typeOf := fun sample => sample.sampleType.type
  handles := handles

end Sample

/-- A kind of sample states from the way they are told apart. -/
def Sample.kindOf {α : Type} (t : SampleType) (read : Sample → Option α) (write : α → Sample)
    (read_write : ∀ a, read (write a) = some a)
    (write_of_read : ∀ {sample a}, read sample = some a → write a = sample) :
    StateKind Sample α where
  type := t.type
  read := fun
    | .native sample => read sample
    | .array _ => none
  write := fun a => .native (write a)
  read_write := read_write
  write_of_read := by
    intro state a h
    cases state with
    | array items => cases h
    | native sample => exact congrArg State.native (write_of_read h)

namespace SampleType

def bagKind : StateKind Sample Bag :=
  Sample.kindOf bag (fun | .bag b => some b | _ => none) .bag (fun _ => rfl)
    (by intro s a h; cases s <;> simp_all)

def holderKind : StateKind Sample (List Handle) :=
  Sample.kindOf holder (fun | .holder hs => some hs | _ => none) .holder (fun _ => rfl)
    (by intro s a h; cases s <;> simp_all)

def counterKind : StateKind Sample Int64 :=
  Sample.kindOf counter (fun | .counter n => some n | _ => none) .counter (fun _ => rfl)
    (by intro s a h; cases s <;> simp_all)

def textKind : StateKind Sample String :=
  Sample.kindOf text (fun | .text s => some s | _ => none) .text (fun _ => rfl)
    (by intro s a h; cases s <;> simp_all)

def unitKind : StateKind Sample Unit :=
  Sample.kindOf unit (fun | .unit => some () | _ => none) (fun _ => .unit) (fun _ => rfl)
    (by intro s a h; cases s <;> simp_all)

def placeholderKind : StateKind Sample Placeholder :=
  Sample.kindOf placeholder (fun | .placeholder => some ⟨⟩ | _ => none) (fun _ => .placeholder)
    (fun _ => rfl) (by intro s a h; cases s <;> simp_all)

def kind : (t : SampleType) → StateKind Sample t.Carrier
  | array => StateKind.array Sample
  | bag => bagKind
  | holder => holderKind
  | counter => counterKind
  | text => textKind
  | unit => unitKind
  | placeholder => placeholderKind

end SampleType

end NativeBridge
