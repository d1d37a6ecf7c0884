import Mathlib.Data.List.DropRight
import NativeBridge.Proofs.Decimal.Cursor
import NativeBridge.Value.Conversion

namespace NativeBridge.Text

/-- The characters left when the blanks at both ends are dropped. -/
def trim (text : List Char) : List Char := (trimLeft text).rdropWhile isBlank

variable {before core after : List Char}

private theorem rdropWhile_append_of_blank (hcore : ∀ c ∈ core, isBlank c = false)
    (hafter : ∀ c ∈ after, isBlank c = true) : (core ++ after).rdropWhile isBlank = core := by
  have hdrop : (core ++ after).rdropWhile isBlank = core.rdropWhile isBlank := by
    rw [List.rdropWhile, List.reverse_append,
      List.dropWhile_append_of_pos fun c hc => hafter c (List.mem_reverse.1 hc)]
    rfl
  rw [hdrop, List.rdropWhile_eq_self_iff]
  intro hne
  rw [hcore _ (List.getLast_mem hne)]
  decide

/-- Trimming on the left drops the blanks in front and stops at the first
character that is none. -/
theorem trimLeft_append (hbefore : ∀ c ∈ before, isBlank c = true) (hne : core ≠ [])
    (hcore : ∀ c ∈ core, isBlank c = false) :
    trimLeft (before ++ core ++ after) = core ++ after := by
  obtain ⟨c, rest, rfl⟩ := List.exists_cons_of_ne_nil hne
  have hc : ¬ isBlank c = true := by simp [hcore c List.mem_cons_self]
  rw [trimLeft, List.append_assoc, List.dropWhile_append_of_pos hbefore, List.cons_append,
    List.dropWhile_cons_of_neg hc]

/-- Trimming gives back a text without blanks from between any blanks, of
whatever kinds these are. -/
theorem trim_append (hbefore : ∀ c ∈ before, isBlank c = true) (hne : core ≠ [])
    (hcore : ∀ c ∈ core, isBlank c = false) (hafter : ∀ c ∈ after, isBlank c = true) :
    trim (before ++ core ++ after) = core := by
  rw [trim, trimLeft_append hbefore hne hcore, rdropWhile_append_of_blank hcore hafter]

/-- Trimming on the left leaves what trimming leaves, with blanks behind it. -/
theorem trimLeft_eq_trim_append (text : List Char) :
    ∃ blanks, (∀ c ∈ blanks, isBlank c = true) ∧ trimLeft text = trim text ++ blanks :=
  ⟨(trimLeft text).rtakeWhile isBlank, fun _ => List.mem_rtakeWhile_imp,
    List.rdropWhile_append_rtakeWhile.symm⟩

/-- What trimming on the left drops are blanks, and it drops nothing else. -/
theorem eq_blanks_append_trimLeft (text : List Char) :
    ∃ blanks, (∀ c ∈ blanks, isBlank c = true) ∧ text = blanks ++ trimLeft text :=
  ⟨text.takeWhile isBlank, fun _ => List.mem_takeWhile_imp,
    List.takeWhile_append_dropWhile.symm⟩

end NativeBridge.Text

namespace NativeBridge.Decimal

open NativeBridge.Text

/-- No character of a literal is blank, so trimming never cuts into one. -/
theorem Literal.WellFormed.isBlank_eq_false {l : Literal} (h : l.WellFormed) :
    ∀ c ∈ l.text, isBlank c = false := by
  have hall : alphabet.all (fun c => isBlank c == false) = true := rfl
  exact fun c hc => eq_of_beq (List.all_eq_true.1 hall c (h.mem_alphabet c hc))

/-- A literal has a digit, so its text is not empty. -/
theorem Literal.WellFormed.text_ne_nil {l : Literal} (h : l.WellFormed) : l.text ≠ [] := by
  intro hnil
  have hnot : ¬ IsNumeral [] := by decide
  exact hnot (hnil ▸ h.isNumeral)

/-- A literal does not go on with blanks, also not where reading has stopped
inside of it. -/
theorem Literal.WellFormed.eq_nil_of_blank {l : Literal} (h : l.WellFormed)
    {front more : List Char} (htext : l.text = front ++ more)
    (hmore : ∀ c ∈ more, isBlank c = true) : more = [] := by
  refine List.eq_nil_iff_forall_not_mem.2 fun c hc => ?_
  have hsolid := h.isBlank_eq_false c (htext ▸ List.mem_append_right _ hc)
  rw [hmore c hc] at hsolid
  cases hsolid

/-- Reading finds a literal with only blanks behind it exactly when it is what
trimming leaves. One side says how the strict rule reads and the other what it
accepts. -/
theorem scan?_trimLeft_iff {text : List Char} {l : Literal} :
    (∃ rest, Literal.scan? (trimLeft text) = some (l, rest) ∧ rest.all isBlank = true) ↔
      l.WellFormed ∧ l.text = trim text := by
  constructor
  · rintro ⟨rest, hscan, hblank⟩
    have hl := wellFormed_of_scan? hscan
    refine ⟨hl, ?_⟩
    rw [trim, ← text_append_of_scan? hscan,
      rdropWhile_append_of_blank hl.isBlank_eq_false (List.all_eq_true.1 hblank)]
  · rintro ⟨hl, htrim⟩
    obtain ⟨blanks, hblanks, htext⟩ := trimLeft_eq_trim_append text
    rw [← htrim] at htext
    obtain ⟨l', more, rest, hscan, hmore, happend⟩ := scan?_goes_on hl blanks
    rw [← htext] at hscan
    have hl' := wellFormed_of_scan? hscan
    have hnil : more = [] :=
      hl'.eq_nil_of_blank happend fun c hc => hblanks c (hmore ▸ List.mem_append_left _ hc)
    rw [hnil, List.append_nil] at happend
    rw [hnil, List.nil_append] at hmore
    rw [hl'.text_injective hl happend] at hscan
    exact ⟨rest, hscan, List.all_eq_true.2 (hmore ▸ hblanks)⟩

/-- The integer that digits stand for, with or without a sign in front of
them. -/
def integerValue : List Char → Int
  | '-' :: digits => -(Nat.ofDigitChars 10 digits 0 : Int)
  | '+' :: digits => Nat.ofDigitChars 10 digits 0
  | digits => Nat.ofDigitChars 10 digits 0

/-- The number a literal stands for: the integer when it is written without a
point and an exponent and fits into 64 bits, else the double nearest to it. -/
inductive ReadsAs (text : List Char) : Number → Prop
  | int (n : Int64) : ¬ IsFractional text → n.toInt = integerValue text → ReadsAs text (.int n)
  | double (l : Literal) : l.WellFormed → l.text = text →
      (¬ IsFractional text → ∀ n : Int64, n.toInt ≠ integerValue text) →
      ReadsAs text (.double l.toFloat)

/-- An integer fits into 64 bits as the one word that stands for it. -/
theorem int64?_eq_some_iff {n : Int} {k : Int64} : int64? n = some k ↔ k.toInt = n := by
  unfold int64?
  constructor
  · intro h
    split at h
    · rename_i hbounds
      cases h
      exact Int64.toInt_ofInt_of_le hbounds.1 (Int.lt_of_le_sub_one hbounds.2)
    · cases h
  · rintro rfl
    rw [if_pos ⟨Int64.minValue_le_toInt k, Int64.toInt_le k⟩, Int64.ofInt_toInt]

private theorem Literal.WellFormed.integerValue_text {l : Literal} (h : l.WellFormed)
    (hwhole : l.isFractional = false) :
    integerValue l.text = Sign.apply l.sign (Nat.ofDigitChars 10 l.whole 0) := by
  rw [Literal.text_of_not_fractional hwhole]
  obtain hsign | ⟨_ | _, hsign⟩ := Option.eq_none_or_eq_some l.sign <;> rw [hsign]
  · rw [Sign.text, List.nil_append]
    unfold integerValue
    split
    · rename_i digits heq
      have := h.whole '-' (heq ▸ List.mem_cons_self)
      cases this
    · rename_i digits heq
      have := h.whole '+' (heq ▸ List.mem_cons_self)
      cases this
    · rfl
  · rfl
  · rfl

/-- A literal stands for one number. A text has one literal, so the number can
be told from the text. -/
theorem Literal.WellFormed.readsAs_iff {l : Literal} (h : l.WellFormed) {number : Number} :
    ReadsAs l.text number ↔ number = l.toNumber := by
  unfold Literal.toNumber
  by_cases hfractional : l.isFractional = true
  · rw [if_pos hfractional]
    constructor
    · rintro (⟨n, hplain, -⟩ | ⟨l', hl', heq, -⟩)
      · exact absurd (h.isFractional_iff.1 hfractional) hplain
      · rw [hl'.text_injective h heq]
    · rintro rfl
      exact .double l h rfl fun hplain => absurd (h.isFractional_iff.1 hfractional) hplain
  · rw [if_neg hfractional]
    have hplain : ¬ IsFractional l.text := mt h.isFractional_iff.2 hfractional
    have hvalue := h.integerValue_text (Bool.eq_false_iff.2 hfractional)
    cases hint : int64? (Sign.apply l.sign (Nat.ofDigitChars 10 l.whole 0)) with
    | some k =>
      have hk := int64?_eq_some_iff.1 hint
      constructor
      · rintro (⟨n, -, hn⟩ | ⟨l', -, -, hnone⟩)
        · rw [Int64.toInt_inj.1 (hn.trans (hvalue.trans hk.symm))]
        · exact absurd (hk.trans hvalue.symm) (hnone hplain k)
      · rintro rfl
        exact .int k hplain (hk.trans hvalue.symm)
    | none =>
      have hnone : ∀ n : Int64, n.toInt ≠ integerValue l.text := by
        intro n hn
        rw [int64?_eq_some_iff.2 (hn.trans hvalue)] at hint
        cases hint
      constructor
      · rintro (⟨n, -, hn⟩ | ⟨l', hl', heq, -⟩)
        · exact absurd hn (hnone n)
        · rw [hl'.text_injective h heq]
      · rintro rfl
        exact .double l h rfl fun _ => hnone

end NativeBridge.Decimal

namespace NativeBridge

open Decimal

/-- A text is read as the literal that trimming leaves, whatever the rule. The
rules differ only where trimming leaves no literal. -/
theorem parseNumber_of_trim {text : String} {l : Literal} (h : l.WellFormed)
    (htrim : l.text = Text.trim text.toList) (rule : Strictness) (target : String) :
    parseNumber rule target text = .ok l.toNumber := by
  obtain ⟨rest, hscan, hblank⟩ := scan?_trimLeft_iff.2 ⟨h, htrim⟩
  cases rule <;> simp [parseNumber, hscan, hblank]

private theorem parseNumber_strict_error {text : String} (h : ¬ IsNumeral (Text.trim text.toList))
    (target : String) : parseNumber .strict target text = .error (.nonNumeric text target) := by
  unfold parseNumber
  cases hscan : Literal.scan? (Text.trimLeft text.toList) with
  | none => rfl
  | some found =>
    obtain ⟨l, rest⟩ := found
    have hrest : ¬ rest.all Text.isBlank = true := by
      intro hblank
      obtain ⟨hl, htrim⟩ := scan?_trimLeft_iff.1 ⟨rest, hscan, hblank⟩
      exact h (htrim ▸ hl.isNumeral)
    exact if_neg hrest

/-- The strict rule reads a number exactly where trimming leaves a literal, and
it is the number that the literal stands for. -/
theorem parseNumber_strict_eq_ok_iff {target text : String} {number : Number} :
    parseNumber .strict target text = .ok number ↔
      IsNumeral (Text.trim text.toList) ∧ ReadsAs (Text.trim text.toList) number := by
  by_cases hnumeral : IsNumeral (Text.trim text.toList)
  · obtain ⟨l, hl, htrim⟩ := isNumeral_iff.1 hnumeral
    rw [parseNumber_of_trim hl htrim, ← htrim, hl.readsAs_iff, Except.ok.injEq, eq_comm]
    exact (and_iff_right hl.isNumeral).symm
  · rw [parseNumber_strict_error hnumeral]
    simp [hnumeral]

/-- The strict rule has one refusal, which names the text with its blanks. What
the number is for shows only in it. -/
theorem parseNumber_strict_eq_error_iff {target text : String} {error : ConversionError} :
    parseNumber .strict target text = .error error ↔
      ¬ IsNumeral (Text.trim text.toList) ∧ error = .nonNumeric text target := by
  by_cases hnumeral : IsNumeral (Text.trim text.toList)
  · obtain ⟨l, hl, htrim⟩ := isNumeral_iff.1 hnumeral
    rw [parseNumber_of_trim hl htrim]
    simp [hnumeral]
  · rw [parseNumber_strict_error hnumeral, Except.error.injEq, eq_comm]
    exact (and_iff_right hnumeral).symm

/-- Reading goes by the grammar. The cursor stops behind the longest literal at
the front of a text, at a boundary between characters, and finds nothing only
when no literal is there; what stands for an integer has no point and no
exponent. A text holds a number under the strict rule exactly when trimming
leaves a literal, it is the number that the literal stands for, and the only
refusal names the whole text. -/
theorem numerals_read_exactly (target text : String) :
    (literalEnd? (utf8 text) = (Literal.scan? text.toList).map fun found =>
      (utf8Length found.1.text, found.1.isFractional)) ∧
    (literalEnd? (utf8 text) = none ↔ ∀ front, front <+: text.toList → ¬ IsNumeral front) ∧
    (∀ stop isFloat, literalEnd? (utf8 text) = some (stop, isFloat) ↔
      ∃ front, IsLongest IsNumeral text.toList front ∧ stop = utf8Length front ∧
        String.Pos.Raw.IsValid text ⟨stop⟩ ∧ (isFloat = true ↔ IsFractional front)) ∧
    (∀ number, parseNumber .strict target text = .ok number ↔
      IsNumeral (Text.trim text.toList) ∧ ReadsAs (Text.trim text.toList) number) ∧
    (∀ error, parseNumber .strict target text = .error error ↔
      ¬ IsNumeral (Text.trim text.toList) ∧ error = .nonNumeric text target) :=
  ⟨literalEnd?_eq text, literalEnd?_eq_none_iff, fun _ _ => literalEnd?_eq_some_iff,
    fun _ => parseNumber_strict_eq_ok_iff, fun _ => parseNumber_strict_eq_error_iff⟩

end NativeBridge
