import NativeBridge.Decimal.Style
import NativeBridge.Text.Quoted

/-!
# Values

What crosses between the host runtime and native code: scalars, texts, and handles to arrays and
objects that live in the heap.
-/

namespace NativeBridge

/-- The type of a state in the heap, told apart by its full name. -/
structure StateType where
  name : String
deriving DecidableEq, Repr

/-- A reference to a slot of the heap, as it was when the handle was issued. The type is that of
the state stored then; only comparing handles looks at it. -/
structure Handle where
  index : UInt32
  generation : UInt32
  type : StateType
deriving DecidableEq, Repr

/-- Slot and generation, the way a handle is shown. -/
def Handle.text (handle : Handle) : String :=
  toString handle.index.toNat ++ ":" ++ toString handle.generation.toNat

/-- A value of the host runtime. A box that nothing was assigned to is `undefined`. -/
inductive Value where
  | undefined
  | null
  | bool (b : Bool)
  | int (n : Int64)
  | double (x : Float)
  | string (s : String)
  | array (handle : Handle)
  | object (handle : Handle)
deriving Inhabited

namespace Value

/-- The name of a value's type in messages. -/
def typeName : Value → String
  | undefined => "undefined"
  | null => "null"
  | bool _ => "bool"
  | int _ => "int"
  | double _ => "double"
  | string _ => "string"
  | array _ => "array"
  | object _ => "object"

def isDefined : Value → Bool
  | undefined => false
  | _ => true

def isNull : Value → Bool
  | null => true
  | _ => false

/-- The handle of an array or an object. -/
def handle? : Value → Option Handle
  | array handle | object handle => some handle
  | _ => none

/-- Whether two values are equal. Doubles compare as numbers: zero equals negative zero, and NaN
equals nothing. -/
def same : Value → Value → Bool
  | undefined, undefined | null, null => true
  | bool a, bool b => a == b
  | int a, int b => a == b
  | double a, double b => a == b
  | string a, string b => a == b
  | array a, array b => a == b
  | object a, object b => a == b
  | _, _ => false

instance : BEq Value := ⟨same⟩

/-- The decimal text of a 64-bit integer. -/
def intText (n : Int64) : String := n.toInt.repr

/-- A value with its type, as diagnostics show it. -/
def inspect : Value → String
  | undefined => "Undefined"
  | null => "Null"
  | bool b => "Bool(" ++ (if b then "true" else "false") ++ ")"
  | int n => "Int(" ++ intText n ++ ")"
  | double x => "Double(" ++ Decimal.inspected.write x ++ ")"
  | string s => "String(" ++ Text.quoted s ++ ")"
  | array handle => "Array(" ++ handle.text ++ ")"
  | object handle => "Object(" ++ handle.text ++ ")"

end Value

end NativeBridge
