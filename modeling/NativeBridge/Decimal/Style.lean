import NativeBridge.Decimal.Shortest

/-!
# Writing a double

The digits are the shortest that read back. A style decides how they are laid out and what stands
for the values that have no digits.
-/

namespace NativeBridge.Decimal

/-- The decisions a written form of a double leaves open. -/
structure Style where
  /-- Whether the point stands in its place when the leading digit counts `10 ^ e`. Otherwise the
  number is written with an exponent. -/
  positional : Int → Bool
  /-- Whether a whole number ends in `.0`. -/
  pointZero : Bool
  nan : String
  infinity : String

/-- The form a double has when it becomes text: never an exponent, no point in a whole number. -/
def asText : Style where
  positional := fun _ => true
  pointZero := false
  nan := "NAN"
  infinity := "INF"

/-- The form a double has inside a message. -/
def inMessage : Style where
  positional := fun _ => true
  pointZero := false
  nan := "NaN"
  infinity := "inf"

/-- The form that tells a double from an integer: a whole number keeps its point, and numbers
below `1e-4` or from `1e16` on have an exponent. -/
def inspected : Style where
  positional := fun e => -4 ≤ e && e < 16
  pointZero := true
  nan := "NaN"
  infinity := "inf"

def Digits.positional (decimal : Digits) (pointZero : Bool) : String :=
  let text := Nat.toDigits 10 decimal.digits
  let point : Int := text.length + decimal.exponent
  if 0 ≤ decimal.exponent then
    String.ofList (text ++ List.replicate decimal.exponent.toNat '0') ++
      (if pointZero then ".0" else "")
  else if 0 < point then
    String.ofList (text.take point.toNat ++ '.' :: text.drop point.toNat)
  else
    "0." ++ String.ofList (List.replicate (-point).toNat '0' ++ text)

/-- The digits with the point after the first one and an exponent behind them. -/
def Digits.scientific (decimal : Digits) : String :=
  let text := Nat.toDigits 10 decimal.digits
  let exponent := decimal.exponent + (text.length : Int) - 1
  let fraction := text.drop 1
  String.ofList (text.take 1) ++ (if fraction = [] then "" else "." ++ String.ofList fraction) ++
    "e" ++ exponent.repr

def Style.magnitude (style : Style) (d : Dyadic) : String :=
  if d.significand = 0 then (⟨0, 0⟩ : Digits).positional style.pointZero
  else
    let decimal := d.shortest
    let leading := decimal.exponent + ((Nat.toDigits 10 decimal.digits).length : Int) - 1
    if style.positional leading then decimal.positional style.pointZero else decimal.scientific

/-- A double written in a style. Negative zero keeps its sign; NaN has none. -/
def Style.write (style : Style) (x : Float) : String :=
  if x.isNaN then style.nan
  else
    (if isNegative x then "-" else "") ++
      (if x.isFinite then style.magnitude (Dyadic.ofFloat x) else style.infinity)

end NativeBridge.Decimal
