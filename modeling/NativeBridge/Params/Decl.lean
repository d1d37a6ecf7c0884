import NativeBridge.Value.Native

/-!
# Parameter declarations

A method declares a list of parameters, each with a name, a type, and whether the caller may leave
it out.
-/

namespace NativeBridge

/-- The declared type of a parameter. A mixed parameter takes the argument's box
as it is. -/
inductive ParamType where
  | mixed
  | long | int | uint | ulong
  | char | uchar
  | double | bool | string
deriving DecidableEq, Repr

namespace ParamType

def name : ParamType → String
  | mixed => "mixed"
  | long => "long"
  | int => "int"
  | uint => "unsigned int"
  | ulong => "unsigned long"
  | char => "char"
  | uchar => "unsigned char"
  | double => "double"
  | bool => "bool"
  | string => "string"

/-- The native type that an argument is converted to; none for a mixed
parameter. -/
def native? : ParamType → Option NativeType
  | mixed => none
  | long => some .int64
  | int => some .int32
  | uint => some .uint32
  | ulong => some .uint64
  | char => some .int8
  | uchar => some .uint8
  | double => some .float64
  | bool => some .bool
  | string => some .string

/-- Mixed parameters alone have no native type to be converted to. -/
theorem native?_eq_none_iff {type : ParamType} : type.native? = none ↔ type = mixed := by
  cases type <;> simp [native?]

/-- No argument is converted to a box or to a single-precision double. -/
theorem ne_of_native? {type : ParamType} {native : NativeType} (h : type.native? = some native) :
    native ≠ .value ∧ native ≠ .float32 := by
  cases type <;> cases h <;> decide

end ParamType

structure ParamDecl where
  name : String
  type : ParamType
  optional : Bool
deriving DecidableEq, Repr

/-- A parameter the caller has to supply. -/
def ParamDecl.required (name : String) (type : ParamType) : ParamDecl := ⟨name, type, false⟩

end NativeBridge
