import NativeBridge.Proofs.Value.Strict
import NativeBridge.Value.Native

namespace NativeBridge

open Decimal Text

/-- The strict rule reads a number in the text. -/
def Accepted (target : String) (text : List Char) : Prop :=
  ∃ number, parseNumber .strict target (String.ofList text) = .ok number

/-- The strict rule accepts a text when trimming it leaves a numeral, whatever
the number is for. -/
theorem accepted_iff {target : String} {text : List Char} :
    Accepted target text ↔ IsNumeral (trim text) := by
  constructor
  · rintro ⟨number, h⟩
    rw [parseNumber_strict_eq_ok_iff, String.toList_ofList] at h
    exact h.1
  · intro h
    obtain ⟨l, hl, htrim⟩ := isNumeral_iff.1 h
    exact ⟨l.toNumber, parseNumber_of_trim hl (by rwa [String.toList_ofList]) _ _⟩

/-- The literal that reading finds is accepted with the blanks before it. It
need not be all of the longest front, which may take blanks behind it too. -/
theorem accepted_of_scan? (target : String) {text rest : List Char} {l : Literal}
    (h : Literal.scan? (trimLeft text) = some (l, rest)) :
    ∃ blanks, (∀ c ∈ blanks, isBlank c = true) ∧ text = blanks ++ l.text ++ rest ∧
      Accepted target (blanks ++ l.text) := by
  obtain ⟨blanks, hblanks, htext⟩ := eq_blanks_append_trimLeft text
  have hl := wellFormed_of_scan? h
  refine ⟨blanks, hblanks, ?_, accepted_iff.2 ?_⟩
  · rw [List.append_assoc, text_append_of_scan? h, ← htext]
  · have htrim : trim (blanks ++ l.text ++ []) = l.text :=
      trim_append hblanks hl.text_ne_nil hl.isBlank_eq_false (by simp)
    rw [← List.append_nil (blanks ++ l.text), htrim]
    exact hl.isNumeral

/-- A front that is accepted starts with the blanks before the literal, so
trimming the whole text drops the same blanks. -/
theorem trimLeft_of_accepted {target : String} {text front : List Char} (hfront : front <+: text)
    (h : Accepted target front) :
    ∃ before after tail, (∀ c ∈ before, isBlank c = true) ∧ (∀ c ∈ after, isBlank c = true) ∧
      front = before ++ trim front ++ after ∧ text = front ++ tail ∧
      trimLeft text = trim front ++ after ++ tail := by
  obtain ⟨l, hl, htrim⟩ := isNumeral_iff.1 (accepted_iff.1 h)
  obtain ⟨tail, rfl⟩ := hfront
  obtain ⟨before, hbefore, hsplit⟩ := eq_blanks_append_trimLeft front
  obtain ⟨after, hafter, hbody⟩ := trimLeft_eq_trim_append front
  rw [hbody, ← List.append_assoc] at hsplit
  refine ⟨before, after, tail, hbefore, hafter, hsplit, rfl, ?_⟩
  have hdrop : trimLeft (before ++ trim front ++ (after ++ tail)) = trim front ++ (after ++ tail) :=
    trimLeft_append hbefore (htrim ▸ hl.text_ne_nil) (htrim ▸ hl.isBlank_eq_false)
  rwa [← List.append_assoc, ← hsplit, ← List.append_assoc] at hdrop

/-- Reading finds the literal of the longest front that is accepted. Blanks
behind the literal are in that front, but not in the literal. -/
theorem scan?_of_isLongest {target : String} {text front : List Char}
    (h : IsLongest (Accepted target) text front) :
    ∃ l rest, Literal.scan? (trimLeft text) = some (l, rest) ∧ l.text = trim front := by
  obtain ⟨before, after, tail, hbefore, hafter, hfront, htext, hbody⟩ :=
    trimLeft_of_accepted h.isPrefix h.holds
  obtain ⟨own, hown, htrim⟩ := isNumeral_iff.1 (accepted_iff.1 h.holds)
  rw [List.append_assoc, ← htrim] at hbody
  obtain ⟨l, more, rest, hscan, hmore, happend⟩ := scan?_goes_on hown (after ++ tail)
  rw [← hbody] at hscan
  -- The blanks before and the literal make an accepted front, which is no longer than the longest.
  obtain ⟨blanks, -, hsplit, haccepted⟩ := accepted_of_scan? target hscan
  have hle := h.longest _ ⟨rest, hsplit.symm⟩ haccepted
  have hshort : more.length ≤ after.length := by
    have hlength := congrArg List.length hsplit
    rw [htext, hfront, ← htrim] at hlength
    rw [hfront, ← htrim] at hle
    have := congrArg List.length hmore
    simp only [happend, List.length_append] at hlength hle this
    omega
  have hblank : ∀ c ∈ more, isBlank c = true := by
    have hmoreFront : more <+: after :=
      List.prefix_of_prefix_length_le ⟨rest, hmore⟩ ⟨tail, rfl⟩ hshort
    exact fun c hc => hafter c (hmoreFront.subset hc)
  have hnil := (wellFormed_of_scan? hscan).eq_nil_of_blank happend hblank
  rw [hnil, List.append_nil] at happend
  exact ⟨l, rest, hscan, happend.trans htrim⟩

/-- The lenient rule reads the longest front that the strict rule accepts, as
the strict rule reads it. -/
theorem parseNumber_lenient_of_isLongest {target text : String} {front : List Char}
    (h : IsLongest (Accepted target) text.toList front) :
    parseNumber .lenient target text = parseNumber .strict target (String.ofList front) := by
  obtain ⟨l, rest, hscan, htrim⟩ := scan?_of_isLongest h
  rw [← String.toList_ofList (l := front)] at htrim
  have hstrict := parseNumber_of_trim (wellFormed_of_scan? hscan) htrim .strict target
  rw [hstrict]
  simp only [parseNumber, hscan]

/-- A text is zero to the lenient rule when the strict rule accepts no front of
it, the empty text among them. -/
theorem parseNumber_lenient_of_none {target text : String}
    (h : ∀ front, front <+: text.toList → ¬ Accepted target front) :
    parseNumber .lenient target text = .ok (.int 0) := by
  unfold parseNumber
  cases hscan : Literal.scan? (trimLeft text.toList) with
  | none => rfl
  | some found =>
    obtain ⟨l, rest⟩ := found
    obtain ⟨blanks, -, htext, haccepted⟩ := accepted_of_scan? target hscan
    exact absurd haccepted (h _ ⟨rest, htext.symm⟩)

private theorem parseNumber_lenient_of_accepted {target text : String}
    (h : Accepted target text.toList) (target' : String) :
    parseNumber .lenient target' text = parseNumber .strict target' text := by
  obtain ⟨l, hl, htrim⟩ := isNumeral_iff.1 (accepted_iff.1 h)
  rw [parseNumber_of_trim hl htrim, parseNumber_of_trim hl htrim]

private theorem parseNumber_lenient_isOk (target text : String) :
    ∃ number, parseNumber .lenient target text = .ok number := by
  unfold parseNumber
  cases Literal.scan? (trimLeft text.toList) with
  | none => exact ⟨.int 0, rfl⟩
  | some found => exact ⟨found.1.toNumber, rfl⟩

private theorem accepted_congr (target target' : String) : Accepted target = Accepted target' :=
  funext fun _ => propext (accepted_iff.trans accepted_iff.symm)

namespace Value

variable {rule : Strictness} {text text' : String}

private theorem coerceInt_congr {rule' : Strictness}
    (h : parseNumber rule "int" text = parseNumber rule' "int" text') :
    (string text).coerceInt rule = (string text').coerceInt rule' := by
  simp only [coerceInt, h]

private theorem coerceDouble_congr {rule' : Strictness}
    (h : parseNumber rule "double" text = parseNumber rule' "double" text') :
    (string text).coerceDouble rule = (string text').coerceDouble rule' := by
  simp only [coerceDouble, h]

private theorem coerceInt_of_not_string {v : Value} (h : ∀ s, v ≠ string s)
    (rule rule' : Strictness) : v.coerceInt rule = v.coerceInt rule' := by
  cases v with
  | string s => exact absurd rfl (h s)
  | _ => rfl

private theorem coerceDouble_of_not_string {v : Value} (h : ∀ s, v ≠ string s)
    (rule rule' : Strictness) : v.coerceDouble rule = v.coerceDouble rule' := by
  cases v with
  | string s => exact absurd rfl (h s)
  | _ => rfl

section

variable (v : Value) (text target : String)

private theorem coerceInt_lenient_ne_nonNumeric :
    v.coerceInt .lenient ≠ .error (.nonNumeric text target) := by
  have hwhole : ∀ x, wholePart x ≠ .error (.nonNumeric text target) := by
    intro x
    unfold wholePart
    split <;> simp
  cases v with
  | double x => exact hwhole x
  | string s =>
    obtain ⟨number, hnumber⟩ := parseNumber_lenient_isOk "int" s
    simp only [coerceInt, hnumber]
    cases number with
    | int n => simp [bind, Except.bind]
    | double x => exact hwhole x
  | _ => simp [coerceInt]

private theorem coerceDouble_lenient_ne_nonNumeric :
    v.coerceDouble .lenient ≠ .error (.nonNumeric text target) := by
  cases v with
  | string s =>
    obtain ⟨number, hnumber⟩ := parseNumber_lenient_isOk "double" s
    simp only [coerceDouble, hnumber]
    cases number <;> simp [bind, Except.bind]
  | _ => simp [coerceDouble]

private theorem asBool_ne_nonNumeric : v.asBool ≠ .error (.nonNumeric text target) := by
  cases v <;> simp [asBool]

private theorem asString_ne_nonNumeric : v.asString ≠ .error (.nonNumeric text target) := by
  cases v <;> simp [asString]

end

end Value

namespace NativeType

/-- A rule matters to a native type only through the integer and the double of
the value. So what is shown of these two holds of every native type. -/
theorem coerce_congr {v : Value} {rule rule' : Strictness}
    (hint : v.coerceInt rule = v.coerceInt rule')
    (hdouble : v.coerceDouble rule = v.coerceDouble rule') (t : NativeType) :
    t.coerce rule v = t.coerce rule' v := by
  cases t with
  | float64 => exact hdouble
  | float32 => simp only [coerce, hdouble]
  | int64 => exact hint
  | bool | string | value => rfl
  | _ => simp only [coerce, hint]

private theorem map_ne_error {α β : Type} {x : Except ConversionError α} {error : ConversionError}
    (h : x ≠ .error error) (f : α → β) : x.map f ≠ .error error := by
  cases x with
  | ok a => simp [Except.map]
  | error e =>
    intro heq
    cases heq
    exact h rfl

/-- The lenient rule never finds a text without a number, whatever native type
it is converted to. -/
theorem coerce_lenient_ne_nonNumeric (t : NativeType) (v : Value) (text target : String) :
    t.coerce .lenient v ≠ .error (.nonNumeric text target) := by
  have hint := v.coerceInt_lenient_ne_nonNumeric text target
  have hdouble := v.coerceDouble_lenient_ne_nonNumeric text target
  cases t with
  | float64 => exact hdouble
  | float32 => exact map_ne_error hdouble _
  | int64 => exact hint
  | bool => exact v.asBool_ne_nonNumeric text target
  | string => exact v.asString_ne_nonNumeric text target
  | value => simp [coerce]
  | _ => exact map_ne_error hint _

end NativeType

namespace Value

private theorem coerce_lenient_of_accepted {target text : String}
    (h : ∃ front, front <+: text.toList ∧ Accepted target front) :
    ∃ longest, IsLongest (Accepted target) text.toList longest ∧
      (string text).coerceInt .lenient = (string (String.ofList longest)).coerceInt .strict ∧
      (string text).coerceDouble .lenient =
        (string (String.ofList longest)).coerceDouble .strict := by
  obtain ⟨front, hfront, haccepted⟩ := h
  obtain ⟨longest, hlongest⟩ := exists_isLongest hfront haccepted
  have hany : ∀ target', IsLongest (Accepted target') text.toList longest :=
    fun target' => accepted_congr target target' ▸ hlongest
  exact ⟨longest, hlongest, coerceInt_congr (parseNumber_lenient_of_isLongest (hany "int")),
    coerceDouble_congr (parseNumber_lenient_of_isLongest (hany "double"))⟩

private theorem coerce_lenient_of_none {target text : String}
    (h : ∀ front, front <+: text.toList → ¬ Accepted target front) :
    (string text).coerceInt .lenient = .ok 0 ∧ (string text).coerceDouble .lenient = .ok 0 := by
  have hzero : ∀ target', parseNumber .lenient target' text = .ok (.int 0) :=
    fun target' => parseNumber_lenient_of_none (accepted_congr target target' ▸ h)
  constructor
  · simp only [coerceInt, hzero]
    rfl
  · simp only [coerceDouble, hzero]
    rfl

/-- A text that the strict rule accepts converts alike under both rules, to
every native type. -/
theorem coerce_lenient_of_whole {target text : String} (h : Accepted target text.toList)
    (t : NativeType) : t.coerce .lenient (string text) = t.coerce .strict (string text) :=
  t.coerce_congr (coerceInt_congr (parseNumber_lenient_of_accepted h "int"))
    (coerceDouble_congr (parseNumber_lenient_of_accepted h "double"))

/-- The lenient rule is the strict one on the longest front that it accepts, and
zero without one. So the rules agree where the strict one accepts, the lenient
one never finds a text without a number, and values that are not texts convert
alike under both. -/
theorem lenient_reads_longest (target text : String) :
    ((∃ front, front <+: text.toList ∧ Accepted target front) →
      ∃ longest, IsLongest (Accepted target) text.toList longest ∧
        (string text).coerceInt .lenient = (string (String.ofList longest)).coerceInt .strict ∧
        (string text).coerceDouble .lenient =
          (string (String.ofList longest)).coerceDouble .strict) ∧
    ((∀ front, front <+: text.toList → ¬ Accepted target front) →
      (string text).coerceInt .lenient = .ok 0 ∧ (string text).coerceDouble .lenient = .ok 0) ∧
    (Accepted target text.toList →
      parseNumber .lenient target text = parseNumber .strict target text ∧
      ∀ t : NativeType, t.coerce .lenient (string text) = t.coerce .strict (string text)) ∧
    (∀ (t : NativeType) (named target' : String),
      t.coerce .lenient (string text) ≠ .error (.nonNumeric named target')) ∧
    (∀ v : Value, (∀ s, v ≠ string s) →
      v.coerceInt .lenient = v.coerceInt .strict ∧
      v.coerceDouble .lenient = v.coerceDouble .strict ∧
      ∀ t : NativeType, t.coerce .lenient v = t.coerce .strict v) := by
  refine ⟨coerce_lenient_of_accepted, coerce_lenient_of_none,
    fun h => ⟨parseNumber_lenient_of_accepted h target, coerce_lenient_of_whole h⟩,
    fun t => t.coerce_lenient_ne_nonNumeric (string text), fun v hv => ?_⟩
  have hint := coerceInt_of_not_string hv .lenient .strict
  have hdouble := coerceDouble_of_not_string hv .lenient .strict
  exact ⟨hint, hdouble, fun t => t.coerce_congr hint hdouble⟩

/-- The case of a text with more behind its number, and of a truth value, for
which the rules are the same. -/
theorem lenient_reads_longest_measure :
    (∃ longest, IsLongest (Accepted "int") " 12 kg".toList longest ∧
      (string " 12 kg").coerceInt .lenient = (string (String.ofList longest)).coerceInt .strict) ∧
    (bool true).coerceInt .lenient = (bool true).coerceInt .strict := by
  have haccepted : ∃ front, front <+: " 12 kg".toList ∧ Accepted "int" front :=
    ⟨" 12".toList, by decide, accepted_iff.2 (by decide +kernel)⟩
  obtain ⟨hread, -, -, -, hother⟩ := lenient_reads_longest "int" " 12 kg"
  obtain ⟨longest, hlongest, hint, -⟩ := hread haccepted
  exact ⟨⟨longest, hlongest, hint⟩, (hother (bool true) (by simp)).1⟩

end Value

end NativeBridge
