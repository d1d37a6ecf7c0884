import NativeBridge.Proofs.Value.Strict

namespace NativeBridge.Decimal

/-- Digits that do not start with a zero unless there is nothing else. -/
structure PlainDigits (digits : List Char) : Prop where
  ne_nil : digits ≠ []
  isDigit : ∀ c ∈ digits, c.isDigit = true
  eq_zero_of_head? : digits.head? = some '0' → digits = ['0']

/-- The canonical text of an integer. There is no sign ahead of a zero. -/
inductive Canonical : Int → List Char → Prop
  | plain (digits : List Char) :
      PlainDigits digits → Canonical (Nat.ofDigitChars 10 digits 0) digits
  | minus (digits : List Char) : PlainDigits digits → digits ≠ ['0'] →
      Canonical (-(Nat.ofDigitChars 10 digits 0 : Int)) ('-' :: digits)

private theorem toNat_sub_lt_ten {c : Char} (h : c.isDigit = true) : c.toNat - '0'.toNat < 10 := by
  have hlast : c.toNat ≤ 57 := (Char.isDigit_iff_toNat.1 h).2
  have hzero : '0'.toNat = 48 := rfl
  omega

private theorem digitChar_toNat_sub {c : Char} (h : c.isDigit = true) :
    Nat.digitChar (c.toNat - '0'.toNat) = c := by
  have hfirst : 48 ≤ c.toNat := (Char.isDigit_iff_toNat.1 h).1
  have hzero : '0'.toNat = 48 := rfl
  apply Char.toNat_inj.1
  rw [Nat.toNat_digitChar_of_lt_ten (toNat_sub_lt_ten h)]
  omega

private theorem ofDigitChars_concat (front : List Char) (c : Char) :
    Nat.ofDigitChars 10 (front ++ [c]) 0 =
      10 * Nat.ofDigitChars 10 front 0 + (c.toNat - '0'.toNat) := by
  rw [Nat.ofDigitChars_append, Nat.ofDigitChars_cons, Nat.ofDigitChars_nil]

private theorem head?_toDigits_ne {n : Nat} (h : 0 < n) : (Nat.toDigits 10 n).head? ≠ some '0' := by
  induction n using Nat.strong_induction_on with
  | _ n ih =>
    rw [Nat.toDigits_eq_if (by omega)]
    split
    · rw [List.head?_cons, ne_eq, Option.some_inj, Nat.digitChar_eq_zero]
      omega
    · rw [List.head?_append_of_ne_nil _ Nat.toDigits_ne_nil]
      apply ih (n / 10)
      · omega
      · omega

/-- The digits a number is written with are plain, those of zero included. -/
theorem plainDigits_toDigits (n : Nat) : PlainDigits (Nat.toDigits 10 n) where
  ne_nil := Nat.toDigits_ne_nil
  isDigit _ hc := Nat.isDigit_of_mem_toDigits (by omega) (by omega) hc
  eq_zero_of_head? hhead := by
    obtain rfl | hpos := Nat.eq_zero_or_pos n
    · rfl
    · exact absurd hhead (head?_toDigits_ne hpos)

private theorem ofDigitChars_pos_of_toDigits_eq {digits : List Char}
    (h : Nat.toDigits 10 (Nat.ofDigitChars 10 digits 0) = digits) (hne : digits ≠ ['0']) :
    0 < Nat.ofDigitChars 10 digits 0 := by
  apply Nat.pos_of_ne_zero
  intro hzero
  rw [hzero] at h
  exact hne h.symm

private theorem toDigits_eq_zero_iff {n : Nat} : Nat.toDigits 10 n = ['0'] ↔ n = 0 := by
  constructor
  · intro h
    rw [← Nat.ofDigitChars_ten_toDigits (n := n), h]
    rfl
  · rintro rfl
    rfl

private theorem PlainDigits.of_concat {front : List Char} {c : Char}
    (h : PlainDigits (front ++ [c])) (hfront : front ≠ []) :
    PlainDigits front ∧ front ≠ ['0'] := by
  have hhead : front.head? ≠ some '0' := by
    intro hzero
    have hall := h.eq_zero_of_head? (by rw [List.head?_append_of_ne_nil _ hfront, hzero])
    have hlength := congrArg List.length hall
    rw [List.length_append, List.length_singleton, List.length_singleton] at hlength
    exact hfront (List.eq_nil_of_length_eq_zero (by omega))
  refine ⟨⟨hfront, ?_, fun hzero => absurd hzero hhead⟩, ?_⟩
  · exact fun d hd => h.isDigit d (List.mem_append_left _ hd)
  · rintro rfl
    exact hhead rfl

/-- Plain digits are those of the number they stand for. Reading and writing
undo each other on them, which leading zeros would break. -/
theorem PlainDigits.toDigits_eq {digits : List Char} (h : PlainDigits digits) :
    Nat.toDigits 10 (Nat.ofDigitChars 10 digits 0) = digits := by
  -- By induction from the last digit: dropping it leaves plain digits of a positive number.
  induction digits using List.reverseRecOn with
  | nil => exact absurd rfl h.ne_nil
  | append_singleton front c ih =>
    have hdigit : c.isDigit = true := h.isDigit c (by simp)
    have hlt := toNat_sub_lt_ten hdigit
    rw [ofDigitChars_concat]
    by_cases hfront : front = []
    · subst hfront
      rw [Nat.ofDigitChars_nil, Nat.mul_zero, Nat.zero_add, Nat.toDigits_of_lt_base hlt,
        digitChar_toNat_sub hdigit]
      rfl
    · obtain ⟨hplain, hne⟩ := h.of_concat hfront
      have hdigits := ih hplain
      have hpos := ofDigitChars_pos_of_toDigits_eq hdigits hne
      rw [← Nat.toDigits_append_toDigits (by omega) hpos hlt, hdigits,
        Nat.toDigits_of_lt_base hlt, digitChar_toNat_sub hdigit]

/-- An integer that is not negative is written with the digits of a number, and
without a sign. -/
theorem toList_repr_of_nonneg {n : Int} (h : 0 ≤ n) :
    n.repr.toList = Nat.toDigits 10 n.toNat := by
  rw [Int.repr_eq_if, if_pos h, Nat.repr_eq_ofList_toDigits, String.toList_ofList]

/-- A negative integer is written with a minus sign ahead of the digits of its
magnitude. -/
theorem toList_repr_of_neg {n : Int} (h : n < 0) :
    n.repr.toList = '-' :: Nat.toDigits 10 (-n).toNat := by
  rw [Int.repr_eq_if, if_neg (by omega), Nat.repr_eq_ofList_toDigits, String.toList_append]
  exact congrArg (List.cons '-') (String.toList_ofList ..)

/-- Writing an integer gives its canonical text, and it has no other: no plus
sign, no zero in front of other digits, and a minus sign only below zero. -/
theorem canonical_iff {n : Int} {text : List Char} :
    Canonical n text ↔ text = n.repr.toList := by
  constructor
  · rintro (⟨digits, hplain⟩ | ⟨digits, hplain, hne⟩)
    · rw [toList_repr_of_nonneg (by omega), Int.toNat_natCast, hplain.toDigits_eq]
    · have hdigits := hplain.toDigits_eq
      have hpos := ofDigitChars_pos_of_toDigits_eq hdigits hne
      rw [toList_repr_of_neg (by omega), Int.neg_neg, Int.toNat_natCast, hdigits]
  · rintro rfl
    obtain hneg | hnonneg := Int.lt_or_le n 0
    · have hne : Nat.toDigits 10 (-n).toNat ≠ ['0'] := by
        rw [ne_eq, toDigits_eq_zero_iff]
        omega
      have hcanonical := Canonical.minus _ (plainDigits_toDigits (-n).toNat) hne
      rw [Nat.ofDigitChars_ten_toDigits] at hcanonical
      rw [toList_repr_of_neg hneg]
      convert hcanonical using 1
      omega
    · have hcanonical := Canonical.plain _ (plainDigits_toDigits n.toNat)
      rw [Nat.ofDigitChars_ten_toDigits, Int.toNat_of_nonneg hnonneg] at hcanonical
      rwa [toList_repr_of_nonneg hnonneg]

private theorem ne_underscore_of_isDigit {c : Char} (h : c.isDigit = true) : c ≠ '_' := by
  rintro rfl
  exact absurd h (by decide)

private theorem head?_beq_minus_of_isDigit {digits : List Char}
    (h : ∀ c ∈ digits, c.isDigit = true) : (digits.head? == some '-') = false := by
  cases digits with
  | nil => rfl
  | cons c rest =>
    have hne : c ≠ '-' := by
      rintro rfl
      exact absurd (h '-' List.mem_cons_self) (by decide)
    simpa using hne

private theorem forIn_digits {β : Type} {step : Char → β → Id (ForInStep β)} (going : β)
    (hstep : ∀ c, c.isDigit = true → ∀ sofar, step c sofar = pure (.yield going))
    {digits : List Char} (hne : digits ≠ []) (hdigits : ∀ c ∈ digits, c.isDigit = true)
    (start : β) : forIn digits start step = pure going := by
  induction digits generalizing start with
  | nil => exact absurd rfl hne
  | cons c rest ih =>
    rw [List.forIn_cons, hstep c (hdigits c List.mem_cons_self)]
    by_cases hrest : rest = []
    · subst hrest
      rfl
    · exact ih hrest (fun d hd => hdigits d (List.mem_cons_of_mem c hd)) going

private theorem isNat_of_isDigit {text : String.Slice} (hne : text.copy.toList ≠ [])
    (hdigits : ∀ c ∈ text.copy.toList, c.isDigit = true) : text.isNat = true := by
  simp only [String.Slice.isNat, String.Slice.forIn_eq_forIn_toList]
  -- A digit leaves the loop without an answer, and the last one answers for the whole text.
  rw [forIn_digits (none, true) _ hne hdigits]
  · rfl
  · intro c hc sofar
    rw [if_neg (ne_underscore_of_isDigit hc), if_pos hc]

private theorem foldl_eq_ofDigitChars (digits : List Char) (sofar : Nat)
    (hdigits : ∀ c ∈ digits, c.isDigit = true) :
    digits.foldl (fun n c => if c = '_' then n else n * 10 + (c.toNat - '0'.toNat)) sofar =
      Nat.ofDigitChars 10 digits sofar := by
  induction digits generalizing sofar with
  | nil => rfl
  | cons c rest ih =>
    have hc := hdigits c List.mem_cons_self
    rw [List.foldl_cons, Nat.ofDigitChars_cons, if_neg (ne_underscore_of_isDigit hc),
      Nat.mul_comm]
    exact ih _ fun d hd => hdigits d (List.mem_cons_of_mem c hd)

private theorem toNat?_of_digits {text : String.Slice} {digits : List Char}
    (htext : text.copy.toList = digits) (hne : digits ≠ [])
    (hdigits : ∀ c ∈ digits, c.isDigit = true) :
    text.toNat? = some (Nat.ofDigitChars 10 digits 0) := by
  subst htext
  rw [String.Slice.toNat?, if_pos (isNat_of_isDigit hne hdigits),
    String.Slice.foldl_eq_foldl_toList, foldl_eq_ofDigitChars _ 0 hdigits]

/-- The canonical text of an integer is read back as that integer. The reader is
the one of the string library, which takes more texts than these: leading zeros
and separated digits as well. -/
theorem Canonical.toInt?_eq {n : Int} {text : String} (h : Canonical n text.toList) :
    text.toInt? = some n := by
  rw [String.toInt?, String.Slice.toInt?]
  generalize hchars : text.toList = chars at h
  have hcopy : text.toSlice.copy.toList = chars := by rw [String.copy_toSlice, hchars]
  obtain ⟨digits, hplain⟩ | ⟨digits, hplain, -⟩ := h
  · have hnone : text.toSlice.dropPrefix? '-' = none := by
      rw [String.Slice.dropPrefix?_eq_none_iff, String.Slice.startsWith_char_eq_head?, hcopy]
      exact head?_beq_minus_of_isDigit hplain.isDigit
    rw [hnone, toNat?_of_digits hcopy hplain.ne_nil hplain.isDigit]
    rfl
  · cases hrest : text.toSlice.dropPrefix? '-' with
    | none =>
      rw [String.Slice.dropPrefix?_eq_none_iff, String.Slice.startsWith_char_eq_head?, hcopy]
        at hrest
      simp at hrest
    | some rest =>
      have hdigits : rest.copy.toList = digits := by
        have hsplit := String.Slice.eq_append_of_dropPrefix?_char_eq_some hrest
        have hlist := congrArg String.toList hsplit
        rw [hcopy, String.toList_append, String.toList_singleton] at hlist
        exact (List.tail_eq_of_cons_eq hlist).symm
      simp only [toNat?_of_digits hdigits hplain.ne_nil hplain.isDigit, Option.map_some,
        Int.negOfNat_eq]
      rfl

end NativeBridge.Decimal
