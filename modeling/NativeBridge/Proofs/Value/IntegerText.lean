import NativeBridge.Proofs.Decimal.Canonical
import NativeBridge.Proofs.Params.Fetching

namespace NativeBridge

open Decimal

namespace Decimal.Literal

/-- The digits of an integer, with a sign in front of those of a negative
one. -/
def ofInt (n : Int) : Literal where
  sign := if 0 ≤ n then none else some .minus
  whole := Nat.toDigits 10 n.natAbs
  fraction := none
  exponent := none

/-- The text of this literal is how the integer is written, so one literal
stands for the integer and its text. -/
theorem text_ofInt (n : Int) : (ofInt n).text = n.repr.toList := by
  obtain h | h := Int.lt_or_le n 0
  · have habs : (-n).toNat = n.natAbs := by omega
    rw [toList_repr_of_neg h, habs]
    simp [text, ofInt, Sign.text, Int.not_le.2 h]
  · have habs : n.toNat = n.natAbs := by omega
    rw [toList_repr_of_nonneg h, habs]
    simp [text, ofInt, Sign.text, h]

private theorem wellFormed_ofInt (n : Int) : (ofInt n).WellFormed where
  whole := (plainDigits_toDigits n.natAbs).isDigit
  fraction _ h := by cases h
  digit := .inl (plainDigits_toDigits n.natAbs).ne_nil
  exponent _ h := by cases h

private theorem apply_ofInt (n : Int) :
    Sign.apply (ofInt n).sign (Nat.ofDigitChars 10 (ofInt n).whole 0) = n := by
  simp only [ofInt, Nat.ofDigitChars_ten_toDigits]
  split <;> simp only [Sign.apply] <;> omega

/-- A literal of digits alone is read as an integer when 64 bits hold it, the
least one included. -/
theorem toNumber_ofInt (n : Int64) : (ofInt n.toInt).toNumber = .int n := by
  have hint : int64? (Sign.apply (ofInt n.toInt).sign
      (Nat.ofDigitChars 10 (ofInt n.toInt).whole 0)) = some n :=
    int64?_eq_some_iff.2 (apply_ofInt n.toInt).symm
  rw [toNumber, hint]
  rfl

end Decimal.Literal

namespace Value

private theorem toList_intText (n : Int64) : (intText n).toList = (Literal.ofInt n.toInt).text :=
  (Literal.text_ofInt n.toInt).symm

private theorem trim_intText (n : Int64) :
    Text.trim (intText n).toList = (Literal.ofInt n.toInt).text := by
  have hl := Literal.wellFormed_ofInt n.toInt
  have htrim : Text.trim ([] ++ (Literal.ofInt n.toInt).text ++ []) =
      (Literal.ofInt n.toInt).text :=
    Text.trim_append (by simp) hl.text_ne_nil hl.isBlank_eq_false (by simp)
  rw [toList_intText]
  rwa [List.nil_append, List.append_nil] at htrim

/-- The text of an integer is read as that integer under both rules, and
whatever the number is for. -/
theorem parseNumber_intText (rule : Strictness) (target : String) (n : Int64) :
    parseNumber rule target (intText n) = .ok (.int n) := by
  rw [parseNumber_of_trim (Literal.wellFormed_ofInt n.toInt) (trim_intText n).symm,
    Literal.toNumber_ofInt]

private theorem coerceInt_intText (rule : Strictness) (n : Int64) :
    (string (intText n)).coerceInt rule = .ok n := by
  simp only [coerceInt, parseNumber_intText]
  rfl

private theorem coerceDouble_intText (rule : Strictness) (n : Int64) :
    (string (intText n)).coerceDouble rule = .ok (Float.ofInt n.toInt) := by
  simp only [coerceDouble, parseNumber_intText]
  rfl

private theorem intText_injective {m n : Int64} (h : intText m = intText n) : m = n := by
  have hm := coerceInt_intText .strict m
  rw [h, coerceInt_intText] at hm
  cases hm
  rfl

/-- No integer is written as the empty text, so null and integers do not share a
key. -/
theorem intText_ne_empty (n : Int64) : intText n ≠ "" := by
  intro h
  have htext := toList_intText n
  rw [h] at htext
  exact (Literal.wellFormed_ofInt n.toInt).text_ne_nil htext.symm

/-- Of the texts that count as false only `0` is the text of an integer, and its
integer is zero. -/
theorem asBool_intText (n : Int64) : (string (intText n)).asBool = (int n).asBool := by
  have hzero : intText n = "0" ↔ n = 0 := ⟨fun h => intText_injective (n := 0) h, fun h => h ▸ rfl⟩
  have hbool : (intText n != "" && intText n != "0") = (n != 0) := by
    rw [Bool.eq_iff_iff]
    simp [intText_ne_empty, hzero]
  simp only [asBool, hbool]

end Value

/-- An integer and its text convert alike to every native type but the one that
takes the box itself. -/
theorem NativeType.coerce_intText {t : NativeType} (ht : t ≠ .value) (rule : Strictness)
    (n : Int64) : t.coerce rule (.string (Value.intText n)) = t.coerce rule (.int n) := by
  have hint := Value.coerceInt_intText rule n
  have hdouble := Value.coerceDouble_intText rule n
  cases t with
  | value => exact absurd rfl ht
  | bool => exact Value.asBool_intText n
  | string => rfl
  | int64 => exact hint
  | float64 => exact hdouble
  | float32 =>
    simp only [coerce, hdouble]
    rfl
  | _ =>
    simp only [coerce, hint]
    rfl

namespace Params

private theorem fetchSlot_intText {type : ParamType} (h : type ≠ .mixed) (rule : Strictness)
    (n : Int64) :
    fetchSlot rule type (some (.string (Value.intText n))) =
      fetchSlot rule type (some (.int n)) := by
  cases hnative : type.native? with
  | none => exact absurd (ParamType.native?_eq_none_iff.1 hnative) h
  | some native =>
    have hcoerce := NativeType.coerce_intText (ParamType.ne_of_native? hnative).1 rule n
    simp only [fetchSlot, hnative, Native.ofValue, hcoerce]

/-- At a position that is not mixed an integer may be given as its text. The
other arguments may be any, also ones that the fetch refuses. -/
theorem fetchTyped_set_intText (rule : Strictness) (exceptionCapable : Bool)
    {decls : List ParamDecl} {arguments : List Value} {position : Nat} {n : Int64}
    (hargument : arguments[position]? = some (.int n))
    (htyped : ∀ decl, decls[position]? = some decl → decl.type ≠ .mixed) :
    fetchTyped rule exceptionCapable decls
        (arguments.set position (.string (Value.intText n))) =
      fetchTyped rule exceptionCapable decls arguments := by
  have hslots : fetchSlots rule 0 decls (arguments.set position (.string (Value.intText n))) =
      fetchSlots rule 0 decls arguments := by
    refine fetchSlots_congr (fun other decl hdecl => ?_) 0
    by_cases hother : position = other
    · subst hother
      obtain ⟨hlt, -⟩ := List.getElem?_eq_some_iff.1 hargument
      rw [List.getElem?_set_self hlt, hargument]
      exact fetchSlot_intText (htyped decl hdecl) rule n
    · rw [List.getElem?_set_ne hother]
  simp only [fetchTyped, List.length_set, hslots]

end Params

/-- The box of an integer and the box of its decimal text are interchangeable.
They convert alike to an integer, a double, a text, a truth value and every
native type, a fetch makes no difference between them at a position that is
declared with a type, and the text reads back as the integer. -/
theorem Value.int_interchangeable (rule : Strictness) (n : Int64) :
    (string (intText n)).coerceInt rule = (int n).coerceInt rule ∧
    (string (intText n)).coerceDouble rule = (int n).coerceDouble rule ∧
    (string (intText n)).asString = (int n).asString ∧
    (string (intText n)).asBool = (int n).asBool ∧
    (∀ t : NativeType, t ≠ .value →
      t.coerce rule (string (intText n)) = t.coerce rule (int n)) ∧
    (∀ (exceptionCapable : Bool) (decls : List ParamDecl) (arguments : List Value)
      (position : Nat), arguments[position]? = some (int n) →
      (∀ decl, decls[position]? = some decl → decl.type ≠ .mixed) →
      Params.fetchTyped rule exceptionCapable decls
          (arguments.set position (string (intText n))) =
        Params.fetchTyped rule exceptionCapable decls arguments) ∧
    ∃ text, (int n).asString = .ok text ∧ (string text).coerceInt rule = .ok n := by
  refine ⟨coerceInt_intText rule n, coerceDouble_intText rule n, rfl, asBool_intText n, ?_, ?_, ?_⟩
  · exact fun t ht => NativeType.coerce_intText ht rule n
  · intro exceptionCapable decls arguments position hargument htyped
    exact Params.fetchTyped_set_intText rule exceptionCapable hargument htyped
  · exact ⟨intText n, rfl, coerceInt_intText rule n⟩

/-- The least integer, given as its text behind a mixed argument. Its magnitude
alone would not fit into 64 signed bits. -/
theorem Value.int_interchangeable_least :
    Params.fetchTyped .lenient false [.required "what" .mixed, .required "level" .uchar]
        [int 1, string "-9223372036854775808"] =
      Params.fetchTyped .lenient false [.required "what" .mixed, .required "level" .uchar]
        [int 1, int Int64.minValue] := by
  obtain ⟨-, -, -, -, -, hfetch, -⟩ := int_interchangeable .lenient Int64.minValue
  have htyped : ∀ decl, [ParamDecl.required "what" .mixed, .required "level" .uchar][1]? =
      some decl → decl.type ≠ .mixed := by
    rintro decl ⟨⟩
    decide
  exact hfetch false _ [int 1, int Int64.minValue] 1 rfl htyped

end NativeBridge
