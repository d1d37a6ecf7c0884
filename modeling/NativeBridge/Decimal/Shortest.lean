import NativeBridge.Decimal.Dyadic

/-!
# The fewest digits that read back

Many decimals round to the same double. The one written is the shortest; among the shortest the
nearest; and of two equally near the larger. The choice is made in exact arithmetic, by trying
one digit, then two, and so on.
-/

namespace NativeBridge.Decimal

/-- The decimal `digits * 10 ^ exponent`. -/
structure Digits where
  digits : Nat
  exponent : Int
deriving DecidableEq, Repr

/-- Compares `a * 10 ^ i` with `n * 2 ^ j` exactly. -/
def compareScaled (a : Nat) (i : Int) (n : Nat) (j : Int) : Ordering :=
  compare ((a * Nat.pow 10 i.toNat) <<< (-j).toNat) ((n <<< j.toNat) * Nat.pow 10 (-i).toNat)

/-- Whether a decimal lies among the reals that round to the given double. They reach halfway to
either neighbour, and the ends belong to the double whose significand is even. -/
def Dyadic.readsBack (d : Dyadic) (decimal : Digits) : Bool :=
  let low := if d.narrowBelow then 4 * d.significand - 1 else 4 * d.significand - 2
  let high := 4 * d.significand + 2
  let closed := d.significand % 2 == 0
  let fromLow := compareScaled decimal.digits decimal.exponent low (d.exponent - 2)
  let toHigh := compareScaled decimal.digits decimal.exponent high (d.exponent - 2)
  (fromLow == .gt || (closed && fromLow == .eq)) && (toHigh == .lt || (closed && toHigh == .eq))

/-- The multiple of `10 ^ exponent` just below the magnitude. -/
def Dyadic.gridFloor (d : Dyadic) (exponent : Int) : Nat :=
  ((d.significand <<< d.exponent.toNat) * Nat.pow 10 (-exponent).toNat) /
    (Nat.pow 10 exponent.toNat <<< (-d.exponent).toNat)

/-- The point of the grid `10 ^ exponent` chosen for a double, if one of its two neighbours on the
grid reads back: the nearer of the two, and the larger when they are equally near. -/
def Dyadic.onGrid? (d : Dyadic) (exponent : Int) : Option Digits :=
  let below : Digits := ⟨d.gridFloor exponent, exponent⟩
  let above : Digits := ⟨below.digits + 1, exponent⟩
  match d.readsBack below, d.readsBack above with
  | false, false => none
  | true, false => some below
  | false, true => some above
  | true, true =>
    let middle := compareScaled (below.digits + above.digits) exponent (2 * d.significand) d.exponent
    some (if middle == .gt then below else above)

/-- Whether the magnitude is below `10 ^ k`. -/
def Dyadic.below (d : Dyadic) (k : Int) : Bool :=
  compareScaled 1 k d.significand d.exponent == .gt

/-- The least `k` such that a magnitude other than zero is below `10 ^ k`. The first guess comes
from the binary logarithm and is at most one step off. -/
def Dyadic.scale (d : Dyadic) : Int :=
  let bits := (d.significand.log2 : Int) + d.exponent
  let guess := Int.fdiv (bits * 30103) 100000
  if d.below guess then guess
  else if d.below (guess + 1) then guess + 1
  else guess + 2

/-- Moves the zeros at the end of the digits into the exponent. -/
def Digits.strip (decimal : Digits) : Digits :=
  go decimal.digits.log2 decimal
where
  /-- At most one zero for each binary digit. -/
  go : Nat → Digits → Digits
    | 0, d => d
    | n + 1, d =>
      if d.digits ≠ 0 ∧ d.digits % 10 = 0 then go n ⟨d.digits / 10, d.exponent + 1⟩ else d

/-- The shortest decimal that reads back as the given magnitude, which is not zero. Seventeen
digits are always enough. -/
def Dyadic.shortest (d : Dyadic) : Digits :=
  let scale := d.scale
  let found := (List.range 17).findSome? fun n => d.onGrid? (scale - (n + 1 : Nat))
  (found.getD ⟨d.gridFloor (scale - 17), scale - 17⟩).strip

end NativeBridge.Decimal
