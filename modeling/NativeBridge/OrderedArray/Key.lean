import NativeBridge.Value.Conversion

/-!
# Array keys

Offsets become integer or string keys. A string that is the decimal text of a 64-bit integer, and
no other string, is an integer key; so two strings never share a key, and an integer shares one
with its own text alone.
-/

namespace NativeBridge

inductive Key where
  | int (n : Int64)
  | string (s : String)
deriving DecidableEq

namespace Key

/-- The key of a string: the integer it is the decimal text of, or else itself. -/
def ofString (s : String) : Key :=
  match s.toInt?.bind Decimal.int64? with
  | some n => if Value.intText n = s then int n else string s
  | none => string s

/-- The key an offset stands for. Doubles lose their fraction, truth values are 0 and 1, and null
is the empty string. -/
def ofValue : Value → Except ConversionError Key
  | .int n => .ok (int n)
  | .bool b => .ok (int (if b then 1 else 0))
  | v@(.double _) => v.asInt.map int
  | .null => .ok (string "")
  | .string s => .ok (ofString s)
  | .undefined => .error (.undefined "array key")
  | v@(.array _) | v@(.object _) => .error (.typeMismatch "array key" v.typeName)

def toValue : Key → Value
  | int n => .int n
  | string s => .string s

end Key

end NativeBridge
