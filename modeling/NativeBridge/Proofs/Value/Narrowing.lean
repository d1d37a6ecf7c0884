import Mathlib.Data.Int.ModEq
import NativeBridge.Value.Native

namespace NativeBridge

/-- A range of `2 ^ width` integers in a row. -/
structure IntegerRange where
  width : Nat
  least : Int

namespace IntegerRange

/-- The integer lies in the range. -/
def Holds (range : IntegerRange) (n : Int) : Prop :=
  range.least ≤ n ∧ n < range.least + 2 ^ range.width

instance (range : IntegerRange) (n : Int) : Decidable (range.Holds n) :=
  inferInstanceAs (Decidable (_ ∧ _))

/-- The one integer of the range that is congruent to another integer modulo the
width. -/
structure IsResidue (range : IntegerRange) (n k : Int) : Prop where
  holds : range.Holds k
  modEq : k ≡ n [ZMOD 2 ^ range.width]
  unique : ∀ m, range.Holds m → m ≡ n [ZMOD 2 ^ range.width] → m = k

/-- No two integers of a range are congruent. Congruent integers are a multiple
of the length of the range apart. -/
theorem Holds.eq_of_modEq {range : IntegerRange} {m n : Int} (hm : range.Holds m)
    (hn : range.Holds n) (h : m ≡ n [ZMOD 2 ^ range.width]) : m = n := by
  obtain ⟨hmleast, hmmost⟩ := hm
  obtain ⟨hnleast, hnmost⟩ := hn
  have hclose : |m - n| < 2 ^ range.width := abs_lt.2 ⟨by omega, by omega⟩
  exact Int.sub_eq_zero.1 (Int.eq_zero_of_abs_lt_dvd h.symm.dvd hclose)

/-- Being in the range and congruent is enough for a residue; that there is no
second one comes by itself. -/
theorem Holds.isResidue {range : IntegerRange} {n k : Int} (hk : range.Holds k)
    (h : k ≡ n [ZMOD 2 ^ range.width]) : range.IsResidue n k :=
  ⟨hk, h, fun _ hm hmn => hm.eq_of_modEq hk (hmn.trans h.symm)⟩

/-- The casts between 64-bit integers and a type whose natives stand for the
integers of a range. -/
structure Casts (range : IntegerRange) {α : Type} (narrow : Int64 → α) (widen : α → Int64) :
    Prop where
  narrow_widen : ∀ x, narrow (widen x) = x
  holds : ∀ x, range.Holds (widen x).toInt
  modEq : ∀ n, (widen (narrow n)).toInt ≡ n.toInt [ZMOD 2 ^ range.width]

private theorem bmod_modEq (n : Int) (width : Nat) : n.bmod (2 ^ width) ≡ n [ZMOD 2 ^ width] := by
  simpa [Int.ModEq] using Int.bmod_emod (x := n) (m := 2 ^ width)

/-- Signed types keep the sign: the residue next to zero stands for itself. The
premises are what the library says of each width. -/
theorem casts_signed {α : Type} {toInt : α → Int} {narrow : Int64 → α} {widen : α → Int64}
    {width : Nat} (hnarrow : ∀ n, toInt (narrow n) = n.toInt.bmod (2 ^ (width + 1)))
    (hwiden : ∀ x, (widen x).toInt = toInt x) (hback : ∀ x, narrow (widen x) = x)
    (hlower : ∀ x, -2 ^ width ≤ toInt x) (hupper : ∀ x, toInt x < 2 ^ width) :
    (⟨width + 1, -2 ^ width⟩ : IntegerRange).Casts narrow widen where
  narrow_widen := hback
  holds x := by
    have hmost : toInt x < -2 ^ width + 2 ^ (width + 1) := by
      have := hupper x
      omega
    rw [hwiden]
    exact ⟨hlower x, hmost⟩
  modEq n := by
    rw [hwiden, hnarrow]
    exact bmod_modEq n.toInt (width + 1)

private theorem toInt_toInt64_modEq (word : UInt64) :
    word.toInt64.toInt ≡ word.toNat [ZMOD 2 ^ 64] := by
  rw [← Int64.toInt_toBitVec, UInt64.toBitVec_toInt64, BitVec.toInt_eq_toNat_bmod,
    UInt64.toNat_toBitVec]
  exact bmod_modEq word.toNat 64

private theorem toInt_toInt64_of_lt {word : UInt64} (h : word.toNat < 2 ^ 63) :
    word.toInt64.toInt = word.toNat := by
  have hhalf : 2 * word.toBitVec.toNat < 2 ^ 64 := by
    rw [UInt64.toNat_toBitVec]
    omega
  rw [← Int64.toInt_toBitVec, UInt64.toBitVec_toInt64, BitVec.toInt_eq_toNat_of_lt hhalf,
    UInt64.toNat_toBitVec]

/-- Unsigned types of less than 64 bits are cut from the bits of a box and
filled with zeros. With all 64 bits the sign would come in, so that width is a
case of its own. -/
theorem casts_unsigned {α : Type} {toNat : α → Nat} {cut : UInt64 → α} {fill : α → UInt64}
    {width : Nat} (hwidth : width < 64) (hcut : ∀ word, toNat (cut word) = word.toNat % 2 ^ width)
    (hfill : ∀ x, (fill x).toNat = toNat x) (hback : ∀ x, cut (fill x) = x)
    (hupper : ∀ x, toNat x < 2 ^ width) :
    (⟨width, 0⟩ : IntegerRange).Casts (fun n => cut n.toUInt64) fun x => (fill x).toInt64 := by
  have hvalue : ∀ x, (fill x).toInt64.toInt = toNat x := by
    intro x
    have hpow : 2 ^ width ≤ 2 ^ 63 := Nat.pow_le_pow_right (by decide) (by omega)
    have hlt : (fill x).toNat < 2 ^ 63 := hfill x ▸ (hupper x).trans_le hpow
    rw [toInt_toInt64_of_lt hlt, hfill]
  refine ⟨hback, fun x => ?_, fun n => ?_⟩
  · rw [hvalue, Holds, zero_add]
    exact ⟨Int.natCast_nonneg _, by exact_mod_cast hupper x⟩
  · rw [hvalue, hcut, Int.natCast_emod, Int.natCast_pow]
    have hdvd : (2 : Int) ^ width ∣ 2 ^ 64 := pow_dvd_pow 2 hwidth.le
    calc (n.toUInt64.toNat : Int) % (2 : Nat) ^ width
      _ ≡ n.toUInt64.toNat [ZMOD 2 ^ width] := Int.mod_modEq _ _
      _ ≡ n.toInt [ZMOD 2 ^ width] := ((toInt_toInt64_modEq n.toUInt64).of_dvd hdvd).symm

end IntegerRange

namespace NativeType

/-- The integers that the natives of an integer type are in a box: those of the
type. Only 64 unsigned bits are read as signed, so that a box can hold them. -/
def boxedRange? : NativeType → Option IntegerRange
  | int8 => some ⟨8, -2 ^ 7⟩
  | int16 => some ⟨16, -2 ^ 15⟩
  | int32 => some ⟨32, -2 ^ 31⟩
  | int64 | uint64 => some ⟨64, -2 ^ 63⟩
  | uint8 => some ⟨8, 0⟩
  | uint16 => some ⟨16, 0⟩
  | uint32 => some ⟨32, 0⟩
  | float32 | float64 | bool | string | value => none

/-- With 64 bits the range holds every integer of a box, so nothing is lost at
that width. -/
theorem holds_of_width_eq {t : NativeType} {range : IntegerRange} (h : t.boxedRange? = some range)
    (hwidth : range.width = 64) (n : Int64) : range.Holds n.toInt := by
  cases t with
  | int64 | uint64 =>
    cases h
    exact ⟨n.le_toInt, n.toInt_lt⟩
  | _ => cases h <;> cases hwidth

/-- An integer type converts through the integer of a box, and by its casts
alone. -/
structure ConvertsBy (t : NativeType) (range : IntegerRange) (narrow : Int64 → t.Carrier)
    (widen : t.Carrier → Int64) : Prop where
  casts : range.Casts narrow widen
  coerce_eq : ∀ rule v, t.coerce rule v = (v.coerceInt rule).map narrow
  box_eq : ∀ x, t.box x = .int (widen x)

/-- Each of the eight integer types converts by casts to its range. What is
shown of casts once holds of all of them. -/
theorem exists_convertsBy {t : NativeType} {range : IntegerRange}
    (h : t.boxedRange? = some range) : ∃ narrow widen, t.ConvertsBy range narrow widen := by
  cases t with
  | int8 =>
    cases h
    have hcasts := IntegerRange.casts_signed Int64.toInt_toInt8 Int8.toInt_toInt64
      Int8.toInt8_toInt64 Int8.le_toInt Int8.toInt_lt
    exact ⟨_, _, hcasts, fun _ _ => rfl, fun _ => rfl⟩
  | int16 =>
    cases h
    have hcasts := IntegerRange.casts_signed Int64.toInt_toInt16 Int16.toInt_toInt64
      Int16.toInt16_toInt64 Int16.le_toInt Int16.toInt_lt
    exact ⟨_, _, hcasts, fun _ _ => rfl, fun _ => rfl⟩
  | int32 =>
    cases h
    have hcasts := IntegerRange.casts_signed Int64.toInt_toInt32 Int32.toInt_toInt64
      Int32.toInt32_toInt64 Int32.le_toInt Int32.toInt_lt
    exact ⟨_, _, hcasts, fun _ _ => rfl, fun _ => rfl⟩
  | int64 =>
    cases h
    have hself : ∀ n : Int64, (id n).toInt = n.toInt.bmod (2 ^ 64) :=
      fun n => n.toInt_bmod_size.symm
    have hcasts := IntegerRange.casts_signed hself (fun _ => rfl) (fun _ => rfl) Int64.le_toInt
      Int64.toInt_lt
    exact ⟨_, _, hcasts, fun _ _ => (congrFun Except.map_id _).symm, fun _ => rfl⟩
  | uint8 =>
    cases h
    have hcasts := IntegerRange.casts_unsigned (by decide) UInt64.toNat_toUInt8
      UInt8.toNat_toUInt64 UInt8.toUInt8_toUInt64 UInt8.toNat_lt
    exact ⟨_, _, hcasts, fun _ _ => rfl, fun _ => rfl⟩
  | uint16 =>
    cases h
    have hcasts := IntegerRange.casts_unsigned (by decide) UInt64.toNat_toUInt16
      UInt16.toNat_toUInt64 UInt16.toUInt16_toUInt64 UInt16.toNat_lt
    exact ⟨_, _, hcasts, fun _ _ => rfl, fun _ => rfl⟩
  | uint32 =>
    cases h
    have hcasts := IntegerRange.casts_unsigned (by decide) UInt64.toNat_toUInt32
      UInt32.toNat_toUInt64 UInt32.toUInt32_toUInt64 UInt32.toNat_lt
    exact ⟨_, _, hcasts, fun _ _ => rfl, fun _ => rfl⟩
  | uint64 =>
    cases h
    -- The bits of a box are all kept, and only read in another way.
    have hcasts : (⟨64, -2 ^ 63⟩ : IntegerRange).Casts Int64.toUInt64 UInt64.toInt64 :=
      ⟨UInt64.toUInt64_toInt64, fun x => ⟨x.toInt64.le_toInt, x.toInt64.toInt_lt⟩, fun _ => rfl⟩
    exact ⟨_, _, hcasts, fun _ _ => rfl, fun _ => rfl⟩
  | float32 | float64 | bool | string | value => cases h

namespace ConvertsBy

variable {t : NativeType} {range : IntegerRange} {narrow : Int64 → t.Carrier}
  {widen : t.Carrier → Int64} (h : t.ConvertsBy range narrow widen)

include h

private theorem coerce_eq_error_iff {rule : Strictness} {v : Value} {error : ConversionError} :
    t.coerce rule v = .error error ↔ v.coerceInt rule = .error error := by
  rw [h.coerce_eq]
  cases v.coerceInt rule <;> simp [Except.map]

private theorem coerce_of_coerceInt {rule : Strictness} {v : Value} {n : Int64}
    (hv : v.coerceInt rule = .ok n) : t.coerce rule v = .ok (narrow n) := by
  rw [h.coerce_eq, hv]
  rfl

private theorem coerce_box (rule : Strictness) (x : t.Carrier) :
    t.coerce rule (t.box x) = .ok x := by
  rw [h.box_eq, h.coerce_of_coerceInt rfl, h.casts.narrow_widen]

end ConvertsBy

/-- What is boxed comes out of the box as it was, whatever the rule. A
single-precision double is left out: it is widened on the way in and rounded on
the way out. -/
theorem coerce_box {t : NativeType} (ht : t ≠ .float32) (rule : Strictness) (x : t.Carrier) :
    t.coerce rule (t.box x) = .ok x := by
  cases hrange : t.boxedRange? with
  | some range =>
    obtain ⟨narrow, widen, hconverts⟩ := exists_convertsBy hrange
    exact hconverts.coerce_box rule x
  | none =>
    cases t with
    | float32 => exact absurd rfl ht
    | float64 | bool | string | value => rfl
    | _ => cases hrange

/-- An integer type converts what converts to an integer, and fails with the
same error. What comes of an integer is in a box the one integer of the type's
range that is congruent to it, with 64 bits the integer itself. A native comes
out of a box as it was, so no two are boxed alike. -/
theorem narrowing_exact {t : NativeType} {range : IntegerRange} (ht : t.boxedRange? = some range)
    (rule : Strictness) :
    (∀ v error, t.coerce rule v = .error error ↔ v.coerceInt rule = .error error) ∧
    (∀ v n, v.coerceInt rule = .ok n → ∃ x k, t.coerce rule v = .ok x ∧ t.box x = .int k ∧
      range.IsResidue n.toInt k.toInt ∧ (range.width = 64 → k = n)) ∧
    (∀ x, t.coerce rule (t.box x) = .ok x) ∧
    Function.Injective t.box := by
  obtain ⟨narrow, widen, h⟩ := exists_convertsBy ht
  refine ⟨fun v error => h.coerce_eq_error_iff, fun v n hv => ?_, h.coerce_box rule, ?_⟩
  · have hresidue := (h.casts.holds (narrow n)).isResidue (h.casts.modEq n)
    refine ⟨narrow n, widen (narrow n), h.coerce_of_coerceInt hv, h.box_eq _, hresidue, ?_⟩
    intro hwidth
    exact Int64.toInt_inj.1 (hresidue.unique n.toInt (holds_of_width_eq ht hwidth n) rfl).symm
  · intro x y hxy
    have hx := h.coerce_box rule x
    rw [hxy, h.coerce_box] at hx
    cases hx
    rfl

/-- The integer 200 has no place among 8 signed bits, and comes out of them as
-56. -/
theorem narrowing_exact_octet :
    int8.boxedRange? = some ⟨8, -2 ^ 7⟩ ∧
    (Value.string " 200 ").coerceInt .strict = .ok 200 ∧
    ∃ x, int8.coerce .strict (.string " 200 ") = .ok x ∧ int8.box x = .int (-56) := by
  have hread : (Value.string " 200 ").coerceInt .strict = .ok 200 := by rfl
  obtain ⟨-, hconverts, -, -⟩ := narrowing_exact (t := int8) rfl .strict
  obtain ⟨x, k, hcoerce, hbox, hresidue, -⟩ := hconverts _ _ hread
  have hk : (-56 : Int64).toInt = k.toInt := hresidue.unique _ (by decide) (by decide)
  exact ⟨rfl, hread, x, hcoerce, Int64.toInt_inj.1 hk ▸ hbox⟩

end NativeType

end NativeBridge
