import NativeBridge.Value
import NativeBridge.Decimal.Literal
import NativeBridge.Text.Blank

/-!
# Conversions of values

How a value becomes an integer, a double, a text or a truth value, and why it may not. Reading a
number from a text has two rules. The strict one wants nothing but blanks around the number; the
lenient one takes the number the text starts with, and zero when there is none.
-/

namespace NativeBridge

/-- How strings become numbers. -/
inductive Strictness where
  | strict
  | lenient
deriving DecidableEq, Repr, Inhabited

/-- Why a value could not be converted. -/
inductive ConversionError where
  /-- Values of this type never convert to the target. -/
  | typeMismatch (expected actual : String)
  /-- The box was read before anything was assigned to it. -/
  | undefined (target : String)
  /-- The text holds no number under the rule in force. -/
  | nonNumeric (text target : String)
  /-- NaN and the infinities have no whole part. -/
  | nonFinite (value : Float) (target : String)
  /-- The handle's object is no longer in the heap. -/
  | staleHandle (index : UInt32)

def ConversionError.message : ConversionError → String
  | typeMismatch expected actual => "type mismatch: expected " ++ expected ++ ", got " ++ actual
  | undefined target => "undefined value cannot be converted to " ++ target
  | nonNumeric text target =>
    "non-numeric string " ++ Text.quoted text ++ " cannot be converted to " ++ target
  | nonFinite value target =>
    "non-finite float " ++ Decimal.inMessage.write value ++ " cannot be converted to " ++ target
  | staleHandle index => "stale handle: object at index " ++ toString index.toNat ++ " has been freed"

/-- The number in a text. The target is only named in the error. -/
def parseNumber (rule : Strictness) (target text : String) :
    Except ConversionError Decimal.Number :=
  match Decimal.Literal.scan? (Text.trimLeft text.toList), rule with
  | some (literal, rest), .strict =>
    if rest.all Text.isBlank then .ok literal.toNumber else .error (.nonNumeric text target)
  | some (literal, _), .lenient => .ok literal.toNumber
  | none, .strict => .error (.nonNumeric text target)
  | none, .lenient => .ok (.int 0)

/-- The whole part of a double, moved to the nearest end of the 64-bit range when it lies
outside. -/
def wholePart (x : Float) : Except ConversionError Int64 :=
  match Decimal.truncate? x with
  | some n => .ok (Int64.ofIntClamp n)
  | none => .error (.nonFinite x "int")

namespace Value

/-- The value as an integer. -/
def coerceInt (rule : Strictness) : Value → Except ConversionError Int64
  | int n => .ok n
  | double x => wholePart x
  | bool b => .ok (if b then 1 else 0)
  | null => .ok 0
  | string s => do
    match ← parseNumber rule "int" s with
    | .int n => .ok n
    | .double x => wholePart x
  | undefined => .error (.undefined "int")
  | v@(array _) | v@(object _) => .error (.typeMismatch "int" v.typeName)

/-- The value as a double. -/
def coerceDouble (rule : Strictness) : Value → Except ConversionError Float
  | double x => .ok x
  | int n => .ok (Float.ofInt n.toInt)
  | bool b => .ok (if b then 1 else 0)
  | null => .ok 0
  | string s => do
    match ← parseNumber rule "double" s with
    | .int n => .ok (Float.ofInt n.toInt)
    | .double x => .ok x
  | undefined => .error (.undefined "double")
  | v@(array _) | v@(object _) => .error (.typeMismatch "double" v.typeName)

/-- The value as a text. -/
def asString : Value → Except ConversionError String
  | string s => .ok s
  | int n => .ok (intText n)
  | double x => .ok (Decimal.asText.write x)
  | bool b => .ok (if b then "1" else "")
  | null => .ok ""
  | undefined => .error (.undefined "string")
  | v@(array _) | v@(object _) => .error (.typeMismatch "string" v.typeName)

/-- The truth of a value. The empty text and `0` are false, every object is true, and arrays have
no truth value. -/
def asBool : Value → Except ConversionError Bool
  | bool b => .ok b
  | int n => .ok (n != 0)
  | double x => .ok (x != 0)
  | null => .ok false
  | string s => .ok (s != "" && s != "0")
  | object _ => .ok true
  | undefined => .error (.undefined "bool")
  | array _ => .error (.typeMismatch "bool" "array")

/-- The value as an integer under the strict rule. -/
def asInt (value : Value) : Except ConversionError Int64 := value.coerceInt .strict

/-- The value as a double under the strict rule. -/
def asDouble (value : Value) : Except ConversionError Float := value.coerceDouble .strict

end Value

end NativeBridge
