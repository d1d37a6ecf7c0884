/-!
# The exact value of a double

A finite double is a whole number times a power of two. Everything that is said about a double's
digits, or about the integer nearest to it, is computed from these two numbers in exact arithmetic.
-/

namespace NativeBridge.Decimal

/-- The magnitude `significand * 2 ^ exponent` of a finite double. -/
structure Dyadic where
  significand : Nat
  exponent : Int
  /-- The double below is half as far away as the double above: true at a power of two. -/
  narrowBelow : Bool
deriving DecidableEq, Repr

/-- Whether the sign bit is set; negative zero is negative here. -/
def isNegative (x : Float) : Bool :=
  x.toBits >>> 63 == 1

/-- The magnitude of a finite double, read off its bits. -/
def Dyadic.ofFloat (x : Float) : Dyadic :=
  let bits := x.toBits
  let biased := ((bits >>> 52) &&& 0x7FF).toNat
  let fraction := (bits &&& 0xFFFFFFFFFFFFF).toNat
  if biased = 0 then ⟨fraction, -1074, false⟩
  else ⟨0x10000000000000 + fraction, (biased : Int) - 1075, fraction = 0 && 1 < biased⟩

def Dyadic.floor (d : Dyadic) : Nat :=
  if 0 ≤ d.exponent then d.significand <<< d.exponent.toNat
  else d.significand >>> (-d.exponent).toNat

/-- The integer next to a finite double in the direction of zero. NaN and the infinities have
none. -/
def truncate? (x : Float) : Option Int :=
  if x.isFinite then
    let whole := (Dyadic.ofFloat x).floor
    some (if isNegative x then -(whole : Int) else whole)
  else none

end NativeBridge.Decimal
