import Mathlib.Data.List.TakeWhile
import NativeBridge.Proofs.Decimal.Grammar

namespace NativeBridge.Decimal

/-- The longest text of some kind at the front of a text. -/
structure IsLongest (kind : List Char → Prop) (text front : List Char) : Prop where
  isPrefix : front <+: text
  holds : kind front
  longest : ∀ other, other <+: text → kind other → other.length ≤ front.length

/-- A text with a front of some kind has a longest one. The kind need not be
decidable, and longer fronts need not be of it. -/
theorem exists_isLongest {kind : List Char → Prop} {text front : List Char}
    (hfront : front <+: text) (hkind : kind front) : ∃ longest, IsLongest kind text longest := by
  by_cases hmore : ∃ other, other <+: text ∧ kind other ∧ front.length < other.length
  · obtain ⟨other, hother, hkind, hlt⟩ := hmore
    have := hother.length_le
    exact exists_isLongest hother hkind
  · exact ⟨front, hfront, hkind, fun other hother hkind =>
      not_lt.1 fun hlt => hmore ⟨other, hother, hkind, hlt⟩⟩
termination_by text.length - front.length

/-- Two fronts of one text that are longest are the same front, since fronts of
one length are equal. -/
theorem IsLongest.unique {kind : List Char → Prop} {text front other : List Char}
    (h : IsLongest kind text front) (h' : IsLongest kind text other) : front = other := by
  have hlength : front.length = other.length :=
    le_antisymm (h'.longest front h.isPrefix h.holds) (h.longest other h'.isPrefix h'.holds)
  exact (List.prefix_of_prefix_length_le h.isPrefix h'.isPrefix hlength.le).eq_of_length hlength

/-- Digits with more text behind them are read to their end, and on into that
text if it begins with a digit. -/
theorem takeDigits_append {ds : List Char} (h : ∀ c ∈ ds, c.isDigit = true) (tail : List Char) :
    takeDigits (ds ++ tail) = (ds ++ (takeDigits tail).1, (takeDigits tail).2) := by
  rw [takeDigits, List.takeWhile_append_of_pos h, List.dropWhile_append_of_pos h]
  rfl

/-- Nothing that could go on with digits or a point. -/
def Stops (tail : List Char) : Prop :=
  ∀ c, tail.head? = some c → c.isDigit = false ∧ c ≠ '.'

/-- No digits are read off a text that does not begin with one. -/
theorem takeDigits_of_stop {tail : List Char}
    (h : ∀ c, tail.head? = some c → c.isDigit = false) : takeDigits tail = ([], tail) := by
  cases tail with
  | nil => rfl
  | cons c rest =>
    have hc : ¬ c.isDigit = true := by simp [h c rfl]
    rw [takeDigits, List.takeWhile_cons_of_neg hc, List.dropWhile_cons_of_neg hc]

/-- What is read as digits are digits, and only those. -/
theorem isDigit_of_takeDigits {text ds rest : List Char} (h : takeDigits text = (ds, rest)) :
    ∀ c ∈ ds, c.isDigit = true := by
  obtain ⟨rfl, -⟩ := Prod.mk.inj h
  exact fun c => List.mem_takeWhile_imp

private theorem suffix_of_takeDigits {text ds rest : List Char} (h : takeDigits text = (ds, rest)) :
    rest <:+ text := ⟨ds, append_of_takeDigits h⟩

private theorem suffix_of_takeFraction {whole text rest : List Char} {fraction : Option (List Char)}
    (h : takeFraction whole text = (fraction, rest)) : rest <:+ text :=
  ⟨_, append_of_takeFraction h⟩

private theorem suffix_of_takeExponent {text rest : List Char} {exponent : Option Exponent}
    (h : takeExponent text = (exponent, rest)) : rest <:+ text :=
  ⟨_, append_of_takeExponent h⟩

private theorem takeSign_text_append (sign : Option Sign) {body : List Char}
    (h : ∀ c, body.head? = some c → c ≠ '+' ∧ c ≠ '-') :
    takeSign (Sign.text sign ++ body) = (sign, body) := by
  cases sign with
  | some sign => cases sign <;> rfl
  | none =>
    cases body with
    | nil => rfl
    | cons c rest =>
      obtain ⟨hplus, hminus⟩ := h c rfl
      simp [Sign.text, takeSign, hplus, hminus]

private theorem wellFormed_of_takeExponent {text rest : List Char} {exponent : Option Exponent}
    (h : takeExponent text = (exponent, rest)) : ∀ e, exponent = some e → e.WellFormed := by
  unfold takeExponent at h
  split at h
  · split at h
    · rename_i hmark
      split at h
      split at h
      rename_i digits after hdigits
      split at h <;> simp only [Prod.mk.injEq] at h <;> obtain ⟨rfl, rfl⟩ := h
      · simp
      · rename_i hne
        rintro _ ⟨⟩
        exact ⟨hmark, hne, isDigit_of_takeDigits hdigits⟩
    · obtain ⟨rfl, -⟩ := Prod.mk.inj h
      simp
  · obtain ⟨rfl, -⟩ := Prod.mk.inj h
    simp

private theorem wellFormed_of_takeFraction {whole text rest : List Char}
    {fraction : Option (List Char)} (h : takeFraction whole text = (fraction, rest)) :
    ∀ ds, fraction = some ds → (∀ c ∈ ds, c.isDigit = true) ∧ (whole ≠ [] ∨ ds ≠ []) := by
  unfold takeFraction at h
  split at h
  · split at h
    rename_i digits after hdigits
    split at h <;> simp only [Prod.mk.injEq] at h <;> obtain ⟨rfl, rfl⟩ := h
    · simp
    · rename_i hdigit
      rintro _ ⟨⟩
      exact ⟨isDigit_of_takeDigits hdigits, not_and_or.1 hdigit⟩
  · obtain ⟨rfl, -⟩ := Prod.mk.inj h
    simp

/-- Reading goes through its stages: the sign, the digits before the point, the
point with the digits behind it, and the exponent. It fails only where neither
digits nor a point were found. -/
theorem scan?_eq_some_iff {text rest : List Char} {l : Literal} :
    Literal.scan? text = some (l, rest) ↔
      ∃ unsigned afterWhole afterFraction,
        takeSign text = (l.sign, unsigned) ∧ takeDigits unsigned = (l.whole, afterWhole) ∧
        takeFraction l.whole afterWhole = (l.fraction, afterFraction) ∧
        ¬ (l.whole = [] ∧ l.fraction = none) ∧ takeExponent afterFraction = (l.exponent, rest) := by
  constructor
  · intro h
    unfold Literal.scan? at h
    split at h
    rename_i sign unsigned hsign
    split at h
    rename_i whole afterWhole hwhole
    split at h
    rename_i fraction afterFraction hfraction
    split at h
    · cases h
    · rename_i hdigit
      split at h
      rename_i exponent behind hexponent
      obtain ⟨rfl, rfl⟩ := Prod.mk.inj (Option.some.inj h)
      exact ⟨unsigned, afterWhole, afterFraction, hsign, hwhole, hfraction, hdigit, hexponent⟩
  · rintro ⟨unsigned, afterWhole, afterFraction, hsign, hwhole, hfraction, hdigit, hexponent⟩
    simp only [Literal.scan?, hsign, hwhole, hfraction, hexponent, if_neg hdigit]

/-- What is read is a literal that the grammar admits. Nothing is assumed of the
text. -/
theorem wellFormed_of_scan? {text rest : List Char} {l : Literal}
    (h : Literal.scan? text = some (l, rest)) : l.WellFormed := by
  obtain ⟨unsigned, afterWhole, afterFraction, -, hwhole, hfraction, hdigit, hexponent⟩ :=
    scan?_eq_some_iff.1 h
  have hfraction := wellFormed_of_takeFraction hfraction
  refine ⟨isDigit_of_takeDigits hwhole, fun ds hds => (hfraction ds hds).1, ?_,
    wellFormed_of_takeExponent hexponent⟩
  cases hcases : l.fraction with
  | none => exact .inl fun hnil => hdigit ⟨hnil, hcases⟩
  | some ds => exact (hfraction ds hcases).2.imp_right fun hne => ⟨ds, rfl, hne⟩

private theorem takeFraction_point {whole ds tail : List Char} (hds : ∀ c ∈ ds, c.isDigit = true)
    (hdigit : whole ≠ [] ∨ ds ≠ []) :
    takeFraction whole ('.' :: (ds ++ tail)) =
      (some (ds ++ (takeDigits tail).1), (takeDigits tail).2) := by
  have hnot : ¬ (whole = [] ∧ ds ++ (takeDigits tail).1 = []) := by
    rintro ⟨hwhole, hnil⟩
    exact hdigit.elim (· hwhole) (· (List.append_eq_nil_iff.1 hnil).1)
  simp only [takeFraction, takeDigits_append hds, if_neg hnot]

private theorem takeFraction_of_ne {whole tail : List Char}
    (h : ∀ c, tail.head? = some c → c ≠ '.') : takeFraction whole tail = (none, tail) := by
  unfold takeFraction
  split
  · exact absurd rfl (h '.' rfl)
  · rfl

/-- The digits and the point are read to their end, and further only if the text
behind goes on with a digit or a point. -/
theorem read_body {whole : List Char} {fraction : Option (List Char)}
    (hwhole : ∀ c ∈ whole, c.isDigit = true)
    (hfraction : ∀ ds, fraction = some ds → ∀ c ∈ ds, c.isDigit = true)
    (hdigit : whole ≠ [] ∨ ∃ ds, fraction = some ds ∧ ds ≠ []) (tail : List Char) :
    ∃ whole' afterWhole fraction' afterFraction,
      takeDigits (whole ++ (fractionText fraction ++ tail)) = (whole', afterWhole) ∧
      takeFraction whole' afterWhole = (fraction', afterFraction) ∧
      ¬ (whole' = [] ∧ fraction' = none) ∧ afterFraction <:+ tail ∧
      (Stops tail → whole' = whole ∧ fraction' = fraction ∧ afterFraction = tail) := by
  rw [takeDigits_append hwhole]
  cases fraction with
  | none =>
    have hne : whole ≠ [] := by simpa using hdigit
    rw [show fractionText none ++ tail = tail from rfl]
    rcases htail : takeDigits tail with ⟨more, rest⟩
    rcases hpoint : takeFraction (whole ++ more) rest with ⟨fraction', after⟩
    refine ⟨_, _, _, _, rfl, hpoint, fun h => hne (List.append_eq_nil_iff.1 h.1).1,
      (suffix_of_takeFraction hpoint).trans (suffix_of_takeDigits htail), fun hstops => ?_⟩
    rw [takeDigits_of_stop fun c hc => (hstops c hc).1] at htail
    cases htail
    rw [takeFraction_of_ne fun c hc => (hstops c hc).2] at hpoint
    cases hpoint
    exact ⟨List.append_nil whole, rfl, rfl⟩
  | some ds =>
    have hds := hfraction ds rfl
    have hpoint : takeDigits (fractionText (some ds) ++ tail) = ([], '.' :: (ds ++ tail)) :=
      takeDigits_of_stop fun c hc => by cases hc; rfl
    rw [hpoint, List.append_nil]
    refine ⟨_, _, _, _, rfl, takeFraction_point hds (by simpa using hdigit), by simp,
      suffix_of_takeDigits rfl, fun hstops => ?_⟩
    rw [takeDigits_of_stop fun c hc => (hstops c hc).1, List.append_nil]
    exact ⟨rfl, rfl, rfl⟩

private theorem takeExponent_text_append {e : Exponent} (h : e.WellFormed) (tail : List Char) :
    takeExponent (e.text ++ tail) =
      (some { e with digits := e.digits ++ (takeDigits tail).1 }, (takeDigits tail).2) := by
  have hsign : takeSign (Sign.text e.sign ++ (e.digits ++ tail)) = (e.sign, e.digits ++ tail) := by
    refine takeSign_text_append e.sign fun c hc => ?_
    obtain ⟨d, rest, hd⟩ := List.exists_cons_of_ne_nil h.ne_nil
    rw [hd] at hc
    cases hc
    have hdigit := h.digits c (hd ▸ List.mem_cons_self)
    constructor <;> rintro rfl <;> cases hdigit
  have hne : e.digits ++ (takeDigits tail).1 ≠ [] :=
    fun hnil => h.ne_nil (List.append_eq_nil_iff.1 hnil).1
  simp only [Exponent.text, List.cons_append, List.append_assoc, takeExponent, if_pos h.mark,
    hsign, takeDigits_append h.digits, if_neg hne]

private theorem ne_sign_of_body {whole : List Char} {fraction : Option (List Char)}
    (hwhole : ∀ c ∈ whole, c.isDigit = true)
    (hdigit : whole ≠ [] ∨ ∃ ds, fraction = some ds ∧ ds ≠ []) (tail : List Char) :
    ∀ c, (whole ++ (fractionText fraction ++ tail)).head? = some c → c ≠ '+' ∧ c ≠ '-' := by
  intro c hc
  cases whole with
  | nil =>
    obtain ⟨ds, rfl, -⟩ := hdigit.resolve_left (not_not.2 rfl)
    cases hc
    decide
  | cons d rest =>
    cases hc
    have hd := hwhole c List.mem_cons_self
    constructor <;> rintro rfl <;> cases hd

private theorem stops_exponent {e : Exponent} (h : e.WellFormed) (tail : List Char) :
    Stops (e.text ++ tail) := by
  rintro c ⟨⟩
  obtain hmark | hmark := h.mark <;> rw [hmark] <;> decide

/-- A literal with more text behind it is read at least to its end, and one
without is read as it is. -/
theorem scan?_text_append {l : Literal} (h : l.WellFormed) (tail : List Char) :
    ∃ l' rest, Literal.scan? (l.text ++ tail) = some (l', rest) ∧ rest <:+ tail ∧
      (tail = [] → l' = l) := by
  obtain ⟨sign, whole, fraction, exponent⟩ := l
  have htext : (Literal.mk sign whole fraction exponent).text ++ tail =
      Sign.text sign ++ (whole ++ (fractionText fraction ++
        (exponent.elim [] Exponent.text ++ tail))) := by
    simp [Literal.text, fractionText]
  have hsign := takeSign_text_append sign
    (ne_sign_of_body h.whole h.digit (exponent.elim [] Exponent.text ++ tail))
  obtain ⟨whole', afterWhole, fraction', afterFraction, htake, hpoint, hfound, hsuffix, hexact⟩ :=
    read_body h.whole h.fraction h.digit (exponent.elim [] Exponent.text ++ tail)
  rw [htext]
  cases exponent with
  | none =>
    rcases hexponent : takeExponent afterFraction with ⟨exponent', rest⟩
    refine ⟨⟨sign, whole', fraction', exponent'⟩, rest, scan?_eq_some_iff.2 ⟨_, _, _, hsign, htake,
      hpoint, hfound, hexponent⟩, (suffix_of_takeExponent hexponent).trans hsuffix, ?_⟩
    rintro rfl
    obtain ⟨rfl, rfl, rfl⟩ := hexact (by simp [Stops])
    cases hexponent
    rfl
  | some e =>
    have he := h.exponent e rfl
    obtain ⟨rfl, rfl, rfl⟩ := hexact (stops_exponent he tail)
    refine ⟨⟨sign, _, _, _⟩, _, scan?_eq_some_iff.2 ⟨_, _, _, hsign, htake, hpoint, hfound,
      takeExponent_text_append he tail⟩, suffix_of_takeDigits rfl, ?_⟩
    rintro rfl
    simp [takeDigits]

/-- What is read of a literal with more text behind it is the literal, with
some of that text. So no literal at the front of a text is longer than what
is read. -/
theorem scan?_goes_on {l : Literal} (h : l.WellFormed) (tail : List Char) :
    ∃ l' more rest, Literal.scan? (l.text ++ tail) = some (l', rest) ∧ more ++ rest = tail ∧
      l'.text = l.text ++ more := by
  obtain ⟨l', rest, hscan, ⟨more, rfl⟩, -⟩ := scan?_text_append h tail
  refine ⟨l', more, rest, hscan, rfl, ?_⟩
  have hread := text_append_of_scan? hscan
  rwa [← List.append_assoc, List.append_cancel_right_eq] at hread

/-- The parts of a literal can be told from its text. Reading the text finds
them again. -/
theorem Literal.WellFormed.text_injective {l l' : Literal} (h : l.WellFormed) (h' : l'.WellFormed)
    (heq : l.text = l'.text) : l = l' := by
  obtain ⟨found, rest, hscan, -, hfound⟩ := scan?_text_append h []
  obtain ⟨found', rest', hscan', -, hfound'⟩ := scan?_text_append h' []
  rw [heq, hscan', hfound rfl, hfound' rfl] at hscan
  cases hscan
  rfl

/-- Nothing is read exactly when the grammar admits nothing at the front of the
text. -/
theorem scan?_eq_none_iff {text : List Char} :
    Literal.scan? text = none ↔ ∀ front, front <+: text → ¬ IsNumeral front := by
  constructor
  · rintro hnone front ⟨tail, rfl⟩ hfront
    obtain ⟨l, hl, rfl⟩ := isNumeral_iff.1 hfront
    obtain ⟨l', rest, hscan, -⟩ := scan?_text_append hl tail
    rw [hnone] at hscan
    cases hscan
  · intro h
    cases hscan : Literal.scan? text with
    | none => rfl
    | some found =>
      obtain ⟨l, rest⟩ := found
      exact absurd (wellFormed_of_scan? hscan).isNumeral
        (h l.text ⟨rest, text_append_of_scan? hscan⟩)

/-- What is read is the longest literal at the front of the text. The grammar
settles the longest one, so no order in which its parts are tried enters. -/
theorem isLongest_of_scan? {text rest : List Char} {l : Literal}
    (h : Literal.scan? text = some (l, rest)) : IsLongest IsNumeral text l.text := by
  refine ⟨⟨rest, text_append_of_scan? h⟩, (wellFormed_of_scan? h).isNumeral, ?_⟩
  rintro other ⟨tail, rfl⟩ hother
  obtain ⟨l', hl', rfl⟩ := isNumeral_iff.1 hother
  obtain ⟨found, more, rest', hscan, -, happend⟩ := scan?_goes_on hl' tail
  rw [h] at hscan
  cases hscan
  rw [happend, List.length_append]
  exact Nat.le_add_right _ _

/-- A literal without a point and an exponent is written with a sign and digits
alone. -/
theorem Literal.text_of_not_fractional {l : Literal} (h : l.isFractional = false) :
    l.text = Sign.text l.sign ++ l.whole := by
  obtain ⟨sign, whole, fraction, exponent⟩ := l
  cases fraction <;> cases exponent <;> simp_all [Literal.isFractional, Literal.text]

/-- Whether a point or an exponent is written in a text. -/
def IsFractional (text : List Char) : Prop := '.' ∈ text ∨ 'e' ∈ text ∨ 'E' ∈ text

/-- Whether a literal has a point or an exponent can be seen from the characters
of its text. No other part of it is written with them. -/
theorem Literal.WellFormed.isFractional_iff {l : Literal} (h : l.WellFormed) :
    l.isFractional = true ↔ IsFractional l.text := by
  unfold IsFractional
  constructor
  · intro hfractional
    rw [Literal.isFractional, Bool.or_eq_true] at hfractional
    obtain hfraction | hexponent := hfractional
    · obtain ⟨ds, hds⟩ := Option.isSome_iff_exists.1 hfraction
      exact .inl (by simp [Literal.text, hds])
    · obtain ⟨e, he⟩ := Option.isSome_iff_exists.1 hexponent
      have hmem : e.mark ∈ l.text := by simp [Literal.text, he, Exponent.text]
      obtain hmark | hmark := (h.exponent e he).mark
      · exact .inr (.inl (hmark ▸ hmem))
      · exact .inr (.inr (hmark ▸ hmem))
  · contrapose!
    intro hplain
    rw [Literal.text_of_not_fractional (Bool.not_eq_true _ ▸ hplain)]
    have hnot : ∀ c : Char, c.isDigit = false → c ∉ Sign.text l.sign →
        c ∉ Sign.text l.sign ++ l.whole := by
      intro c hc hsign hmem
      obtain hmem | hmem := List.mem_append.1 hmem
      · exact hsign hmem
      · simp [h.whole c hmem] at hc
    refine ⟨hnot '.' rfl ?_, hnot 'e' rfl ?_, hnot 'E' rfl ?_⟩
    all_goals
      obtain _ | _ | _ := l.sign <;> decide

end NativeBridge.Decimal
