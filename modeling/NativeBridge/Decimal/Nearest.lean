/-!
# The double nearest to a decimal

Reading a decimal rounds once, to the nearest double, and to the even one of two equally near.
Decimals far outside the range of doubles are settled by their size alone, so a huge exponent
costs nothing.
-/

namespace NativeBridge.Decimal

def infinity : Float := Float.ofBits 0x7FF0000000000000

/-- The double nearest to `digits * 10 ^ exponent`. A decimal of `n` digits lies between
`10 ^ (n - 1 + exponent)` and `10 ^ (n + exponent)`: from `10 ^ 310` on every decimal rounds to
infinity, and below `10 ^ -330` to zero. -/
def nearestDouble (digits : Nat) (exponent : Int) : Float :=
  let size : Int := (Nat.toDigits 10 digits).length + exponent
  if digits = 0 then 0
  else if 310 < size then infinity
  else if size < -330 then 0
  else Float.ofScientific digits (exponent < 0) exponent.natAbs

end NativeBridge.Decimal
