import NativeBridge.Value.Conversion

/-!
# Native types

The types native code takes its arguments in and answers with. Boxes hold one integer type, so
narrow integers are cut to their low bits on the way in and widened on the way out: signed ones
keep their sign, unsigned ones are filled with zeros, and 64 unsigned bits are read as signed.
-/

namespace NativeBridge

/-- A type of native arguments and results. -/
inductive NativeType where
  | int8 | int16 | int32 | int64
  | uint8 | uint16 | uint32 | uint64
  | float32 | float64
  | bool | string
  /-- The box itself. -/
  | value
deriving DecidableEq, Repr

namespace NativeType

/-- What a native of each type is. -/
def Carrier : NativeType → Type
  | int8 => Int8
  | int16 => Int16
  | int32 => Int32
  | int64 => Int64
  | uint8 => UInt8
  | uint16 => UInt16
  | uint32 => UInt32
  | uint64 => UInt64
  | float32 => Float32
  | float64 => Float
  | bool => Bool
  | string => String
  | value => Value

/-- Converts a box to a native type. -/
def coerce (rule : Strictness) (v : Value) : (t : NativeType) → Except ConversionError t.Carrier
  | int8 => (v.coerceInt rule).map Int64.toInt8
  | int16 => (v.coerceInt rule).map Int64.toInt16
  | int32 => (v.coerceInt rule).map Int64.toInt32
  | int64 => v.coerceInt rule
  | uint8 => (v.coerceInt rule).map fun n => n.toUInt64.toUInt8
  | uint16 => (v.coerceInt rule).map fun n => n.toUInt64.toUInt16
  | uint32 => (v.coerceInt rule).map fun n => n.toUInt64.toUInt32
  | uint64 => (v.coerceInt rule).map Int64.toUInt64
  | float32 => (v.coerceDouble rule).map Float.toFloat32
  | float64 => v.coerceDouble rule
  | bool => v.asBool
  | string => v.asString
  | value => .ok v

/-- Boxes a native. -/
def box : (t : NativeType) → t.Carrier → Value
  | int8, n => .int (Int8.toInt64 n)
  | int16, n => .int (Int16.toInt64 n)
  | int32, n => .int (Int32.toInt64 n)
  | int64, n => .int n
  | uint8, n => .int (UInt8.toUInt64 n).toInt64
  | uint16, n => .int (UInt16.toUInt64 n).toInt64
  | uint32, n => .int (UInt32.toUInt64 n).toInt64
  | uint64, n => .int (UInt64.toInt64 n)
  | float32, x => .double (Float32.toFloat x)
  | float64, x => .double x
  | bool, b => .bool b
  | string, s => .string s
  | value, v => v

end NativeType

/-- The name of a native type among the kinds of arguments. -/
def NativeType.argumentName : NativeType → String
  | int8 => "Char"
  | int16 => "Short"
  | int32 => "Int"
  | int64 => "Long"
  | uint8 => "UChar"
  | uint16 => "UShort"
  | uint32 => "UInt"
  | uint64 => "ULong"
  | float32 => "Float"
  | float64 => "Double"
  | bool => "Bool"
  | string => "Str"
  | value => "Box"

/-- The text of a native as diagnostics show it. -/
def NativeType.inspect : (t : NativeType) → t.Carrier → String
  | int8, n => (Int8.toInt n).repr
  | int16, n => (Int16.toInt n).repr
  | int32, n => (Int32.toInt n).repr
  | int64, n => (Int64.toInt n).repr
  | uint8, n => (UInt8.toNat n).repr
  | uint16, n => (UInt16.toNat n).repr
  | uint32, n => (UInt32.toNat n).repr
  | uint64, n => (UInt64.toNat n).repr
  | float32, x => Decimal.inspected.write (Float32.toFloat x)
  | float64, x => Decimal.inspected.write x
  | bool, b => cond b "true" "false"
  | string, s => Text.quoted s
  | value, v => v.inspect

structure Native where
  type : NativeType
  carrier : type.Carrier

def Native.ofValue (rule : Strictness) (type : NativeType) (value : Value) :
    Except ConversionError Native :=
  (type.coerce rule value).map (Native.mk type)

def Native.toValue (native : Native) : Value :=
  native.type.box native.carrier

/-- A native with the name of its kind. -/
def Native.inspect : Native → String
  | ⟨type, carrier⟩ => type.argumentName ++ "(" ++ type.inspect carrier ++ ")"

/-- Boxes a result that may be missing; a missing one is null. -/
def Native.optionToValue : Option Native → Value
  | some native => native.toValue
  | none => .null

end NativeBridge
