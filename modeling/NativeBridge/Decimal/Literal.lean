import NativeBridge.Decimal.Nearest

/-!
# Numeric literals

A literal is an optional sign, digits with at most one point among or around them, and an optional
exponent. Reading one from the front of a text takes as much of the text as a literal can have.
Main statement: what is read and what is left make up the text (`text_append_of_scan?`).
-/

namespace NativeBridge.Decimal

inductive Sign where
  | plus
  | minus
deriving DecidableEq, Repr

/-- How a sign is written, if there is one. -/
def Sign.text : Option Sign → List Char
  | none => []
  | some .plus => ['+']
  | some .minus => ['-']

/-- The exponent of a literal: its mark is `e` or `E`. -/
structure Exponent where
  mark : Char
  sign : Option Sign
  digits : List Char
deriving DecidableEq, Repr

/-- A numeric literal, part by part. `fraction` holds the digits behind the
point, if there is a point. -/
structure Literal where
  sign : Option Sign
  whole : List Char
  fraction : Option (List Char)
  exponent : Option Exponent
deriving DecidableEq, Repr

def Exponent.text (e : Exponent) : List Char :=
  e.mark :: (Sign.text e.sign ++ e.digits)

def Literal.text (l : Literal) : List Char :=
  Sign.text l.sign ++ l.whole ++ (l.fraction.elim [] fun digits => '.' :: digits) ++
    (l.exponent.elim [] Exponent.text)

/-- A literal with a point or an exponent stands for a double even when its
value is whole. -/
def Literal.isFractional (l : Literal) : Bool :=
  l.fraction.isSome || l.exponent.isSome

def takeSign : List Char → Option Sign × List Char
  | '+' :: rest => (some .plus, rest)
  | '-' :: rest => (some .minus, rest)
  | text => (none, text)

def takeDigits (text : List Char) : List Char × List Char :=
  (text.takeWhile Char.isDigit, text.dropWhile Char.isDigit)

/-- Reads a point and the digits behind it. A point needs a digit on at least
one side. -/
def takeFraction (whole text : List Char) : Option (List Char) × List Char :=
  match text with
  | '.' :: rest =>
    let (digits, after) := takeDigits rest
    if whole = [] ∧ digits = [] then (none, text) else (some digits, after)
  | _ => (none, text)

/-- Reads an exponent. Without a digit in it there is none. -/
def takeExponent (text : List Char) : Option Exponent × List Char :=
  match text with
  | mark :: rest =>
    if mark = 'e' ∨ mark = 'E' then
      let (sign, unsigned) := takeSign rest
      let (digits, after) := takeDigits unsigned
      if digits = [] then (none, text) else (some ⟨mark, sign, digits⟩, after)
    else (none, text)
  | [] => (none, [])

/-- Reads the longest literal at the front of a text; answers it and the text
behind it. -/
def Literal.scan? (text : List Char) : Option (Literal × List Char) :=
  let (sign, unsigned) := takeSign text
  let (whole, afterWhole) := takeDigits unsigned
  let (fraction, afterFraction) := takeFraction whole afterWhole
  if whole = [] ∧ fraction = none then none
  else
    let (exponent, rest) := takeExponent afterFraction
    some (⟨sign, whole, fraction, exponent⟩, rest)

/-- What a literal stands for. -/
inductive Number where
  | int (n : Int64)
  | double (x : Float)

/-- The 64-bit integer of this value, if there is one. -/
def int64? (n : Int) : Option Int64 :=
  if Int64.minValue.toInt ≤ n ∧ n ≤ Int64.maxValue.toInt then some (Int64.ofInt n) else none

/-- A natural number with a sign in front. -/
def Sign.apply : Option Sign → Nat → Int
  | some .minus, n => -(n : Int)
  | _, n => n

/-- The exponent's value; none counts as zero. -/
def Exponent.value : Option Exponent → Int
  | none => 0
  | some e => Sign.apply e.sign (Nat.ofDigitChars 10 e.digits 0)

def Literal.toFloat (l : Literal) : Float :=
  let fraction := l.fraction.getD []
  let magnitude := nearestDouble (Nat.ofDigitChars 10 (l.whole ++ fraction) 0)
    (Exponent.value l.exponent - fraction.length)
  if l.sign = some .minus then -magnitude else magnitude

/-- A literal of digits alone is an integer when 64 bits hold it; every other
literal is a double. -/
def Literal.toNumber (l : Literal) : Number :=
  if l.isFractional then .double l.toFloat
  else
    match int64? (Sign.apply l.sign (Nat.ofDigitChars 10 l.whole 0)) with
    | some n => .int n
    | none => .double l.toFloat

theorem text_append_of_takeSign {text rest : List Char} {sign : Option Sign}
    (h : takeSign text = (sign, rest)) : Sign.text sign ++ rest = text := by
  unfold takeSign at h
  split at h <;> obtain ⟨rfl, rfl⟩ := Prod.mk.inj h <;> rfl

theorem append_of_takeDigits {text digits rest : List Char}
    (h : takeDigits text = (digits, rest)) : digits ++ rest = text := by
  obtain ⟨rfl, rfl⟩ := Prod.mk.inj h
  exact List.takeWhile_append_dropWhile

theorem append_of_takeFraction {whole text rest : List Char} {fraction : Option (List Char)}
    (h : takeFraction whole text = (fraction, rest)) :
    (fraction.elim [] fun digits => '.' :: digits) ++ rest = text := by
  unfold takeFraction at h
  split at h
  · split at h
    rename_i digits after hdigits
    split at h <;> simp only [Prod.mk.injEq] at h <;> obtain ⟨rfl, rfl⟩ := h
    · rfl
    · simp [append_of_takeDigits hdigits]
  · obtain ⟨rfl, rfl⟩ := Prod.mk.inj h
    rfl

/-- The exponent that is taken off the front of a text and what is left make up
the text. The parts before it are taken off in the same way. -/
theorem append_of_takeExponent {text rest : List Char} {exponent : Option Exponent}
    (h : takeExponent text = (exponent, rest)) :
    exponent.elim [] Exponent.text ++ rest = text := by
  unfold takeExponent at h
  split at h
  · split at h
    · split at h
      rename_i sign unsigned hsign
      split at h
      rename_i digits after hdigits
      split at h <;> simp only [Prod.mk.injEq] at h <;> obtain ⟨rfl, rfl⟩ := h
      · rfl
      · simp [Exponent.text, append_of_takeDigits hdigits, text_append_of_takeSign hsign]
    · obtain ⟨rfl, rfl⟩ := Prod.mk.inj h
      rfl
  · obtain ⟨rfl, rfl⟩ := Prod.mk.inj h
    rfl

/-- A literal and the text behind it make up the text that was read. -/
theorem text_append_of_scan? {text rest : List Char} {literal : Literal}
    (h : Literal.scan? text = some (literal, rest)) : literal.text ++ rest = text := by
  unfold Literal.scan? at h
  split at h
  rename_i sign unsigned hsign
  split at h
  rename_i whole afterWhole hwhole
  split at h
  rename_i fraction afterFraction hfraction
  split at h
  · exact absurd h (by simp)
  · split at h
    rename_i exponent behind hexponent
    obtain ⟨rfl, rfl⟩ := Prod.mk.inj (Option.some.inj h)
    simp only [Literal.text, List.append_assoc]
    rw [append_of_takeExponent hexponent, append_of_takeFraction hfraction,
      append_of_takeDigits hwhole, text_append_of_takeSign hsign]

end NativeBridge.Decimal
