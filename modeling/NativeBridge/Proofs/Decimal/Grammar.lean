import Mathlib.Computability.RegularExpressions
import NativeBridge.Decimal.Literal

namespace NativeBridge.Decimal

open RegularExpression

/-- One of the characters. -/
def oneOf (chars : List Char) : RegularExpression Char :=
  (chars.map char).sum

def optional (r : RegularExpression Char) : RegularExpression Char := 1 + r

def figures : List Char := ['0', '1', '2', '3', '4', '5', '6', '7', '8', '9']

def digit : RegularExpression Char := oneOf figures

/-- At least one digit. -/
def digits : RegularExpression Char := digit * digit.star

def sign : RegularExpression Char := oneOf ['+', '-']

/-- The numeric literals: `[+-]?([0-9]+(\.[0-9]*)?|\.[0-9]+)([eE][+-]?[0-9]+)?`.
A digit has to stand before the point or behind it. -/
def numeral : RegularExpression Char :=
  optional sign * (digits * optional (char '.' * digit.star) + char '.' * digits) *
    optional (oneOf ['e', 'E'] * optional sign * digits)

/-- The texts that the grammar admits. -/
def IsNumeral (text : List Char) : Prop := text ∈ numeral.matches'

instance (text : List Char) : Decidable (IsNumeral text) :=
  decidable_of_iff _ (rmatch_iff_matches' numeral text)

private theorem mem_char {c : Char} {text : List Char} :
    text ∈ (char c).matches' ↔ text = [c] := Iff.rfl

private theorem mem_oneOf {chars text : List Char} :
    text ∈ (oneOf chars).matches' ↔ ∃ c ∈ chars, text = [c] := by
  induction chars with
  | nil => simp [oneOf, matches'_zero, Language.notMem_zero]
  | cons first rest ih =>
    have hsum : oneOf (first :: rest) = char first + oneOf rest := rfl
    rw [hsum, matches'_add, Language.mem_add, ih, mem_char]
    simp

private theorem mem_optional {r : RegularExpression Char} {text : List Char} :
    text ∈ (optional r).matches' ↔ text = [] ∨ text ∈ r.matches' := by
  rw [optional, matches'_add, Language.mem_add, matches'_epsilon, Language.mem_one]

/-- The digits are the ten ASCII ones, as the grammar lists them. No other
numeral of any script is among them. -/
theorem isDigit_iff {c : Char} : c.isDigit = true ↔ c ∈ figures := by
  constructor
  · intro h
    have hrange : 48 ≤ c.toNat ∧ c.toNat < 58 := by
      simp only [Char.isDigit, Bool.and_eq_true, decide_eq_true_eq] at h
      exact ⟨h.1, Nat.lt_succ_of_le h.2⟩
    have hall : ∀ n < 58, 48 ≤ n → Char.ofNat n ∈ figures := by decide
    exact Char.ofNat_toNat c ▸ hall c.toNat hrange.2 hrange.1
  · have hall : figures.all Char.isDigit = true := rfl
    exact List.all_eq_true.1 hall c

private theorem mem_digit {text : List Char} :
    text ∈ digit.matches' ↔ ∃ c : Char, c.isDigit = true ∧ text = [c] := by
  rw [digit, mem_oneOf]
  simp only [isDigit_iff]

private theorem mem_star_digit {text : List Char} :
    text ∈ digit.star.matches' ↔ ∀ c ∈ text, c.isDigit = true := by
  rw [matches'_star, Language.mem_kstar]
  constructor
  · rintro ⟨parts, rfl, hparts⟩ c hc
    obtain ⟨part, hpart, hmem⟩ := List.mem_flatten.1 hc
    obtain ⟨d, hd, rfl⟩ := mem_digit.1 (hparts part hpart)
    exact List.mem_singleton.1 hmem ▸ hd
  · intro h
    refine ⟨text.map fun c => [c], (List.flatMap_singleton' text).symm, ?_⟩
    intro part hpart
    obtain ⟨c, hc, rfl⟩ := List.mem_map.1 hpart
    exact mem_digit.2 ⟨c, h c hc, rfl⟩

private theorem mem_digits {text : List Char} :
    text ∈ digits.matches' ↔ text ≠ [] ∧ ∀ c ∈ text, c.isDigit = true := by
  rw [digits, matches'_mul, Language.mem_mul]
  constructor
  · rintro ⟨first, hfirst, rest, hrest, rfl⟩
    obtain ⟨c, hc, rfl⟩ := mem_digit.1 hfirst
    refine ⟨List.cons_ne_nil c rest, List.forall_mem_cons.2 ⟨hc, mem_star_digit.1 hrest⟩⟩
  · rintro ⟨hne, h⟩
    obtain ⟨c, rest, rfl⟩ := List.exists_cons_of_ne_nil hne
    rw [List.forall_mem_cons] at h
    exact ⟨[c], mem_digit.2 ⟨c, h.1, rfl⟩, rest, mem_star_digit.2 h.2, rfl⟩

private theorem mem_sign {text : List Char} :
    text ∈ (optional sign).matches' ↔ ∃ s, Sign.text s = text := by
  rw [mem_optional, sign, mem_oneOf]
  constructor
  · rintro (rfl | ⟨c, hc, rfl⟩)
    · exact ⟨none, rfl⟩
    · simp only [List.mem_cons, List.not_mem_nil, or_false] at hc
      obtain rfl | rfl := hc
      · exact ⟨some .plus, rfl⟩
      · exact ⟨some .minus, rfl⟩
  · rintro ⟨_ | _ | _, rfl⟩
    · exact .inl rfl
    · exact .inr ⟨'+', by decide, rfl⟩
    · exact .inr ⟨'-', by decide, rfl⟩

structure Exponent.WellFormed (e : Exponent) : Prop where
  mark : e.mark = 'e' ∨ e.mark = 'E'
  ne_nil : e.digits ≠ []
  digits : ∀ c ∈ e.digits, c.isDigit = true

/-- Digits are digits, and there is one before or behind the point. -/
structure Literal.WellFormed (l : Literal) : Prop where
  whole : ∀ c ∈ l.whole, c.isDigit = true
  fraction : ∀ ds, l.fraction = some ds → ∀ c ∈ ds, c.isDigit = true
  digit : l.whole ≠ [] ∨ ∃ ds, l.fraction = some ds ∧ ds ≠ []
  exponent : ∀ e, l.exponent = some e → e.WellFormed

/-- How the point and the digits behind it are written, if there is a point. -/
def fractionText (fraction : Option (List Char)) : List Char :=
  fraction.elim [] fun digits => '.' :: digits

private theorem mem_body {text : List Char} :
    text ∈ (digits * optional (char '.' * digit.star) + char '.' * digits).matches' ↔
      ∃ whole fraction, text = whole ++ fractionText fraction ∧
        (∀ c ∈ whole, c.isDigit = true) ∧
        (∀ ds, fraction = some ds → ∀ c ∈ ds, c.isDigit = true) ∧
        (whole ≠ [] ∨ ∃ ds, fraction = some ds ∧ ds ≠ []) := by
  rw [matches'_add, Language.mem_add, matches'_mul, matches'_mul, Language.mem_mul,
    Language.mem_mul]
  constructor
  · rintro (⟨whole, hwhole, rest, hrest, rfl⟩ | ⟨point, rfl, ds, hds, rfl⟩)
    · obtain ⟨hne, hwhole⟩ := mem_digits.1 hwhole
      obtain rfl | hrest := mem_optional.1 hrest
      · exact ⟨whole, none, rfl, hwhole, by simp, .inl hne⟩
      · rw [matches'_mul, Language.mem_mul] at hrest
        obtain ⟨point, rfl, ds, hds, rfl⟩ := hrest
        refine ⟨whole, some ds, rfl, hwhole, ?_, .inl hne⟩
        rintro _ ⟨⟩
        exact mem_star_digit.1 hds
    · obtain ⟨hne, hds⟩ := mem_digits.1 hds
      refine ⟨[], some ds, rfl, by simp, ?_, .inr ⟨ds, rfl, hne⟩⟩
      rintro _ ⟨⟩
      exact hds
  · rintro ⟨whole, fraction, rfl, hwhole, hfraction, hdigit⟩
    by_cases hne : whole = []
    · obtain ⟨ds, rfl, hds⟩ := hdigit.resolve_left (not_not.2 hne)
      exact .inr ⟨['.'], rfl, ds, mem_digits.2 ⟨hds, hfraction ds rfl⟩, by rw [hne]; rfl⟩
    · refine .inl ⟨whole, mem_digits.2 ⟨hne, hwhole⟩, fractionText fraction, mem_optional.2 ?_, rfl⟩
      cases fraction with
      | none => exact .inl rfl
      | some ds =>
        rw [matches'_mul, Language.mem_mul]
        exact .inr ⟨['.'], rfl, ds, mem_star_digit.2 (hfraction ds rfl), rfl⟩

private theorem mem_exponent {text : List Char} :
    text ∈ (optional (oneOf ['e', 'E'] * optional sign * digits)).matches' ↔
      ∃ exponent : Option Exponent, text = exponent.elim [] Exponent.text ∧
        ∀ e, exponent = some e → e.WellFormed := by
  rw [mem_optional, matches'_mul, Language.mem_mul]
  constructor
  · rintro (rfl | ⟨front, hfront, ds, hds, rfl⟩)
    · exact ⟨none, rfl, by simp⟩
    · rw [matches'_mul, Language.mem_mul] at hfront
      obtain ⟨marked, hmark, signed, hsign, rfl⟩ := hfront
      obtain ⟨mark, hmem, rfl⟩ := mem_oneOf.1 hmark
      obtain ⟨s, rfl⟩ := mem_sign.1 hsign
      obtain ⟨hne, hds⟩ := mem_digits.1 hds
      refine ⟨some ⟨mark, s, ds⟩, by simp [Exponent.text], ?_⟩
      rintro _ ⟨⟩
      exact ⟨by simpa using hmem, hne, hds⟩
  · rintro ⟨exponent, rfl, h⟩
    cases exponent with
    | none => exact .inl rfl
    | some e =>
      obtain ⟨hmark, hne, hds⟩ := h e rfl
      refine .inr ⟨e.mark :: Sign.text e.sign, ?_, e.digits, mem_digits.2 ⟨hne, hds⟩, rfl⟩
      rw [matches'_mul, Language.mem_mul]
      exact ⟨[e.mark], mem_oneOf.2 ⟨e.mark, by simpa using hmark, rfl⟩, Sign.text e.sign,
        mem_sign.2 ⟨e.sign, rfl⟩, rfl⟩

/-- The grammar admits the texts of well-formed literals. A literal keeps what
the expression leaves open: the sign, the mark of the exponent and how many
digits there are. -/
theorem isNumeral_iff {text : List Char} :
    IsNumeral text ↔ ∃ l : Literal, l.WellFormed ∧ l.text = text := by
  rw [IsNumeral, numeral, matches'_mul, Language.mem_mul]
  constructor
  · rintro ⟨front, hfront, behind, hbehind, rfl⟩
    rw [matches'_mul, Language.mem_mul] at hfront
    obtain ⟨signed, hsign, body, hbody, rfl⟩ := hfront
    obtain ⟨s, rfl⟩ := mem_sign.1 hsign
    obtain ⟨whole, fraction, rfl, hwhole, hfraction, hdigit⟩ := mem_body.1 hbody
    obtain ⟨exponent, rfl, hexponent⟩ := mem_exponent.1 hbehind
    exact ⟨⟨s, whole, fraction, exponent⟩, ⟨hwhole, hfraction, hdigit, hexponent⟩,
      by simp [Literal.text, fractionText]⟩
  · rintro ⟨l, h, rfl⟩
    refine ⟨Sign.text l.sign ++ (l.whole ++ fractionText l.fraction), ?_,
      l.exponent.elim [] Exponent.text, mem_exponent.2 ⟨l.exponent, rfl, h.exponent⟩,
      by simp [Literal.text, fractionText]⟩
    rw [matches'_mul, Language.mem_mul]
    exact ⟨Sign.text l.sign, mem_sign.2 ⟨l.sign, rfl⟩, _,
      mem_body.2 ⟨l.whole, l.fraction, rfl, h.whole, h.fraction, h.digit⟩, rfl⟩

example : IsNumeral "-.5e+10".toList ∧ ¬ IsNumeral "1e".toList ∧ ¬ IsNumeral ".".toList := by
  decide

/-- The characters that literals are written with. -/
def alphabet : List Char := figures ++ ['+', '-', '.', 'e', 'E']

/-- A literal is written in this alphabet, and so in ASCII and without
blanks. -/
theorem Literal.WellFormed.mem_alphabet {l : Literal} (h : l.WellFormed) :
    ∀ c ∈ l.text, c ∈ alphabet := by
  have hsign : ∀ s, ∀ c ∈ Sign.text s, c ∈ alphabet := by
    rintro (_ | _ | _) <;> simp [Sign.text, alphabet]
  have hdigits : ∀ ds : List Char, (∀ c ∈ ds, c.isDigit = true) → ∀ c ∈ ds, c ∈ alphabet :=
    fun ds hds c hc => List.mem_append_left _ (isDigit_iff.1 (hds c hc))
  simp only [Literal.text, List.forall_mem_append]
  refine ⟨⟨⟨hsign l.sign, hdigits l.whole h.whole⟩, ?_⟩, ?_⟩
  · cases hcases : l.fraction with
    | none => simp
    | some ds => exact List.forall_mem_cons.2 ⟨by decide, hdigits ds (h.fraction ds hcases)⟩
  · cases hcases : l.exponent with
    | none => simp
    | some e =>
      obtain ⟨hmark, -, hds⟩ := h.exponent e hcases
      refine List.forall_mem_cons.2 ⟨?_, List.forall_mem_append.2 ⟨hsign e.sign, hdigits _ hds⟩⟩
      obtain hmark | hmark := hmark <;> rw [hmark] <;> decide

/-- The text of a well-formed literal is one that the grammar admits. -/
theorem Literal.WellFormed.isNumeral {l : Literal} (h : l.WellFormed) : IsNumeral l.text :=
  isNumeral_iff.2 ⟨l, h, rfl⟩

end NativeBridge.Decimal
