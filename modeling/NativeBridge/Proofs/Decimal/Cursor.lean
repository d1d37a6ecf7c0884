import NativeBridge.Proofs.Decimal.Longest

namespace NativeBridge.Decimal

/-- The bytes of a text. -/
def utf8 (text : String) : Array UInt8 := text.toByteArray.data

/-- How many bytes characters take. -/
def utf8Length (text : List Char) : Nat := (String.ofList text).utf8ByteSize

namespace Cursor

variable (bytes : Array UInt8)

def isDigit (b : UInt8) : Bool := '0'.toUInt8 ≤ b && b ≤ '9'.toUInt8

/-- Behind the sign at `i`, if there is one. -/
def signEnd (i : Nat) : Nat :=
  if bytes[i]? = some '+'.toUInt8 ∨ bytes[i]? = some '-'.toUInt8 then i + 1 else i

/-- Behind the digits from `i` on. -/
def digitsEnd (i : Nat) : Nat :=
  if h : i < bytes.size then
    if isDigit bytes[i] then digitsEnd (i + 1) else i
  else i
termination_by bytes.size - i

/-- Behind the point at `i` and its digits. The digits before it start at
`start`. -/
def pointEnd? (start i : Nat) : Option Nat :=
  let stop := digitsEnd bytes (i + 1)
  if bytes[i]? = some '.'.toUInt8 ∧ (start < i ∨ i + 1 < stop) then some stop else none

/-- Behind the exponent at `i`. -/
def exponentEnd? (i : Nat) : Option Nat :=
  let start := signEnd bytes (i + 1)
  let stop := digitsEnd bytes start
  if (bytes[i]? = some 'e'.toUInt8 ∨ bytes[i]? = some 'E'.toUInt8) ∧ start < stop then some stop
  else none

end Cursor

open Cursor in
/-- Behind the literal at the front, and whether it has a point or an exponent.
The cursor tries the point and the exponent ahead of itself and moves past them
only when their digits are there. -/
def literalEnd? (bytes : Array UInt8) : Option (Nat × Bool) :=
  let start := signEnd bytes 0
  let afterWhole := digitsEnd bytes start
  let point? := pointEnd? bytes start afterWhole
  if start = afterWhole ∧ point? = none then none
  else
    let afterFraction := point?.getD afterWhole
    let exponent? := exponentEnd? bytes afterFraction
    some (exponent?.getD afterFraction, point?.isSome || exponent?.isSome)

namespace Cursor

/-- The first byte of a character. -/
def leadByte (c : Char) : UInt8 := (String.utf8EncodeChar c).headD 0

private theorem leadByte_of_ascii {c : Char} (h : c.utf8Size = 1) : leadByte c = c.toUInt8 := by
  rw [leadByte, String.utf8EncodeChar_eq_singleton h]
  rfl

private theorem leadByte_of_wide {c : Char} (h : c.utf8Size ≠ 1) : 0x80 ≤ leadByte c := by
  have hc : ¬ c.val.toNat ≤ 127 := by
    rwa [ne_eq, Char.utf8Size_eq_one_iff, UInt32.le_iff_toNat_le] at h
  unfold leadByte String.utf8EncodeChar
  rw [UInt8.le_iff_toNat_le]
  simp only [hc, if_false]
  split_ifs <;> simp only [List.headD_cons, UInt8.toNat_ofNat'] <;> simp <;> omega

private theorem toNat_toUInt8_of_ascii {c : Char} (h : c.utf8Size = 1) :
    c.toUInt8.toNat = c.toNat ∧ c.toNat ≤ 127 := by
  rw [Char.utf8Size_eq_one_iff, UInt32.le_iff_toNat_le] at h
  have hle : c.toNat ≤ 127 := h
  refine ⟨?_, hle⟩
  rw [Char.toUInt8, UInt32.toNat_toUInt8]
  exact Nat.mod_eq_of_lt (lt_of_le_of_lt hle (by decide))

/-- A character of ASCII is told by its byte: no other character starts with
it. -/
theorem leadByte_eq_iff {c d : Char} (hd : d.utf8Size = 1) : leadByte c = d.toUInt8 ↔ c = d := by
  obtain ⟨hbyte, hle⟩ := toNat_toUInt8_of_ascii hd
  constructor
  · intro h
    by_cases hc : c.utf8Size = 1
    · rw [leadByte_of_ascii hc] at h
      have hsame : c.toNat = d.toNat := by
        rw [← (toNat_toUInt8_of_ascii hc).1, ← hbyte, h]
      exact Char.toNat_inj.1 hsame
    · have hwide := UInt8.le_iff_toNat_le.1 (leadByte_of_wide hc)
      rw [h, hbyte] at hwide
      exact absurd (hwide.trans hle) (by decide)
  · rintro rfl
    exact leadByte_of_ascii hd

private theorem utf8Size_of_isDigit {c : Char} (h : c.isDigit = true) : c.utf8Size = 1 := by
  have hall : figures.all (fun c => c.utf8Size == 1) = true := rfl
  exact eq_of_beq (List.all_eq_true.1 hall c (isDigit_iff.1 h))

private theorem isDigit_leadByte (c : Char) : isDigit (leadByte c) = c.isDigit := by
  by_cases hc : c.utf8Size = 1
  · obtain ⟨hbyte, -⟩ := toNat_toUInt8_of_ascii hc
    rw [leadByte_of_ascii hc, Bool.eq_iff_iff]
    simp only [isDigit, Char.isDigit, Bool.and_eq_true, decide_eq_true_eq, UInt8.le_iff_toNat_le,
      UInt32.le_iff_toNat_le, hbyte]
    rfl
  · rw [Bool.eq_false_iff.2 fun h => hc (utf8Size_of_isDigit h), isDigit, Bool.and_eq_false_iff]
    have hwide := UInt8.le_iff_toNat_le.1 (leadByte_of_wide hc)
    right
    rw [decide_eq_false_iff_not, UInt8.le_iff_toNat_le]
    exact fun hle => absurd (hwide.trans hle) (by decide)

/-- The cursor stands in front of these characters. -/
def At (bytes : Array UInt8) (i : Nat) (text : List Char) : Prop :=
  bytes.toList.drop i = text.flatMap String.utf8EncodeChar

private theorem at_zero (text : String) : At (utf8 text) 0 text.toList := by
  have hbytes : text.toByteArray = text.toList.utf8Encode := by
    rw [← String.toByteArray_ofList, String.ofList_toList]
  rw [At, utf8, hbytes, List.utf8Encode, List.toList_data_toByteArray]
  rfl

variable {bytes : Array UInt8} {i : Nat} {text : List Char}

private theorem At.getElem?_eq (h : At bytes i text) : bytes[i]? = text.head?.map leadByte := by
  rw [← Array.getElem?_toList, ← List.head?_drop, h]
  cases text with
  | nil => rfl
  | cons c rest =>
    obtain ⟨b, more, hbytes⟩ :=
      List.exists_cons_of_ne_nil (String.utf8EncodeChar_ne_nil (c := c))
    simp [leadByte, hbytes]

/-- A character of ASCII stands at the cursor exactly when its byte does. For
wider characters one byte would not do. -/
theorem At.getElem?_eq_some_iff (h : At bytes i text) {d : Char} (hd : d.utf8Size = 1) :
    bytes[i]? = some d.toUInt8 ↔ text.head? = some d := by
  simp only [h.getElem?_eq, Option.map_eq_some_iff, leadByte_eq_iff hd, exists_eq_right]

private theorem length_flatMap_of_ascii {front : List Char} (h : ∀ c ∈ front, c.utf8Size = 1) :
    (front.flatMap String.utf8EncodeChar).length = front.length := by
  rw [List.length_flatMap, List.map_congr_left fun c hc => by
    rw [String.length_utf8EncodeChar, h c hc]]
  simp

/-- Past characters of ASCII the cursor moves by one byte for each, and then
stands in front of what comes after them. -/
theorem At.skip {front rest : List Char} (h : At bytes i (front ++ rest))
    (hfront : ∀ c ∈ front, c.utf8Size = 1) : At bytes (i + front.length) rest := by
  rw [At, ← List.drop_drop, h, List.flatMap_append, ← length_flatMap_of_ascii hfront,
    List.drop_left]

private theorem At.next {c : Char} {rest : List Char} (h : At bytes i (c :: rest))
    (hc : c.utf8Size = 1) : At bytes (i + 1) rest := by
  rw [← List.singleton_append] at h
  exact h.skip (List.forall_mem_singleton.2 hc)

private theorem ascii_signText (sign : Option Sign) : ∀ c ∈ Sign.text sign, c.utf8Size = 1 := by
  obtain _ | _ | _ := sign <;> simp [Sign.text] <;> rfl

/-- The cursor moves past a sign as reading takes one off. Where there is none
it stays where it is. -/
theorem At.signEnd_eq {sign : Option Sign} {rest : List Char} (h : At bytes i text)
    (hsign : takeSign text = (sign, rest)) :
    signEnd bytes i = i + (Sign.text sign).length ∧
      At bytes (i + (Sign.text sign).length) rest := by
  have hskip := At.skip ((text_append_of_takeSign hsign).symm ▸ h) (ascii_signText sign)
  refine ⟨?_, hskip⟩
  simp only [signEnd, h.getElem?_eq_some_iff (d := '+') (by decide),
    h.getElem?_eq_some_iff (d := '-') (by decide)]
  unfold takeSign at hsign
  split at hsign <;> obtain ⟨rfl, rfl⟩ := Prod.mk.inj hsign
  · rfl
  · rfl
  · rename_i hplus hminus
    refine if_neg ?_
    rintro (hc | hc) <;> obtain ⟨tail, rfl⟩ := List.head?_eq_some_iff.1 hc
    · exact hplus tail rfl
    · exact hminus tail rfl

private theorem digitsEnd_eq_ite (bytes : Array UInt8) (i : Nat) :
    digitsEnd bytes i = if bytes[i]?.any isDigit then digitsEnd bytes (i + 1) else i := by
  rw [digitsEnd]
  by_cases hi : i < bytes.size <;> simp [hi]

/-- The cursor goes over the digits that reading takes, and stops in front of
what reading leaves. -/
theorem At.digitsEnd_eq {ds rest : List Char} (h : At bytes i text)
    (hds : takeDigits text = (ds, rest)) :
    digitsEnd bytes i = i + ds.length ∧ At bytes (i + ds.length) rest := by
  have hskip := At.skip ((append_of_takeDigits hds).symm ▸ h)
    fun c hc => utf8Size_of_isDigit (isDigit_of_takeDigits hds c hc)
  refine ⟨?_, hskip⟩
  clear hskip
  -- The digits one after the other: the cursor and the characters move together.
  induction text generalizing i ds with
  | nil =>
    cases hds
    rw [digitsEnd_eq_ite, h.getElem?_eq]
    rfl
  | cons c tail ih =>
    rw [digitsEnd_eq_ite, h.getElem?_eq, List.head?_cons, Option.map_some, Option.any_some,
      isDigit_leadByte]
    by_cases hc : c.isDigit = true
    · have hnext : At bytes (i + 1) tail := h.next (utf8Size_of_isDigit hc)
      rcases htail : takeDigits tail with ⟨more, behind⟩
      rw [← List.singleton_append, takeDigits_append (List.forall_mem_singleton.2 hc), htail] at hds
      cases hds
      rw [if_pos hc, ih hnext htail, List.length_append, List.length_singleton, Nat.add_assoc]
    · rw [takeDigits_of_stop (by simpa using hc)] at hds
      cases hds
      rw [if_neg hc]
      rfl

/-- The cursor moves past a point exactly when reading takes one, digits before
or behind it being there. -/
theorem At.pointEnd?_eq {start : Nat} {whole rest : List Char} {fraction : Option (List Char)}
    (h : At bytes i text) (hstart : start + whole.length = i)
    (hpoint : takeFraction whole text = (fraction, rest)) :
    pointEnd? bytes start i = fraction.map (fun _ => i + (fractionText fraction).length) ∧
      At bytes (i + (fractionText fraction).length) rest := by
  unfold takeFraction at hpoint
  split at hpoint
  · rename_i tail
    have hnext : At bytes (i + 1) tail := h.next (by decide)
    rcases hds : takeDigits tail with ⟨ds, behind⟩
    obtain ⟨hstop, hbehind⟩ := hnext.digitsEnd_eq hds
    have hmark : bytes[i]? = some '.'.toUInt8 := (h.getElem?_eq_some_iff (by decide)).2 rfl
    have hdigit : (start < i ∨ i + 1 < i + 1 + ds.length) ↔ ¬ (whole = [] ∧ ds = []) := by
      rw [← List.length_eq_zero_iff, ← List.length_eq_zero_iff]
      omega
    simp only [pointEnd?, hstop, hmark, true_and, hdigit]
    simp only [hds] at hpoint
    by_cases hnone : whole = [] ∧ ds = []
    · rw [if_pos hnone] at hpoint
      cases hpoint
      exact ⟨if_neg (not_not.2 hnone), h⟩
    · rw [if_neg hnone] at hpoint
      cases hpoint
      have hlength : i + 1 + ds.length = i + (fractionText (some ds)).length := by
        simp [fractionText]
        omega
      rw [if_pos hnone, ← hlength]
      exact ⟨rfl, hbehind⟩
  · rename_i hother
    cases hpoint
    refine ⟨if_neg fun hc => ?_, h⟩
    obtain ⟨tail, rfl⟩ :=
      List.head?_eq_some_iff.1 ((h.getElem?_eq_some_iff (by decide)).1 hc.1)
    exact hother tail rfl

/-- The cursor moves past an exponent exactly when reading takes one. A mark
without digits behind it is left alone by both. -/
theorem At.exponentEnd?_eq {rest : List Char} {exponent : Option Exponent} (h : At bytes i text)
    (hexponent : takeExponent text = (exponent, rest)) :
    exponentEnd? bytes i = exponent.map fun e => i + e.text.length := by
  have hmark : (bytes[i]? = some 'e'.toUInt8 ∨ bytes[i]? = some 'E'.toUInt8) ↔
      (text.head? = some 'e' ∨ text.head? = some 'E') := by
    rw [h.getElem?_eq_some_iff (by decide), h.getElem?_eq_some_iff (by decide)]
  simp only [exponentEnd?, hmark]
  cases text with
  | nil =>
    cases hexponent
    rfl
  | cons mark tail =>
    simp only [List.head?_cons, Option.some.injEq]
    by_cases hm : mark = 'e' ∨ mark = 'E'
    · have hnext : At bytes (i + 1) tail := by
        refine h.next ?_
        obtain rfl | rfl := hm <;> decide
      rcases hsign : takeSign tail with ⟨sign, unsigned⟩
      rcases hds : takeDigits unsigned with ⟨ds, behind⟩
      obtain ⟨hstart, hunsigned⟩ := hnext.signEnd_eq hsign
      obtain ⟨hstop, -⟩ := hunsigned.digitsEnd_eq hds
      simp only [takeExponent, if_pos hm, hsign, hds] at hexponent
      simp only [hstart, hstop, hm, true_and, Nat.lt_add_right_iff_pos, List.length_pos_iff]
      by_cases hne : ds = []
      · rw [if_pos hne] at hexponent
        cases hexponent
        exact if_neg (not_not.2 hne)
      · rw [if_neg hne] at hexponent
        cases hexponent
        rw [if_pos hne]
        simp [Exponent.text]
        omega
    · rw [takeExponent, if_neg hm] at hexponent
      cases hexponent
      exact if_neg fun hc => hm hc.1

end Cursor

private theorem Literal.WellFormed.ascii {l : Literal} (h : l.WellFormed) :
    ∀ c ∈ l.text, c.utf8Size = 1 := by
  have hall : alphabet.all (fun c => c.utf8Size == 1) = true := rfl
  exact fun c hc => eq_of_beq (List.all_eq_true.1 hall c (h.mem_alphabet c hc))

private theorem Literal.WellFormed.utf8Length_text {l : Literal} (h : l.WellFormed) :
    utf8Length l.text = l.text.length := by
  rw [utf8Length, ← String.size_toByteArray, String.toByteArray_ofList, List.utf8Encode,
    List.size_toByteArray, Cursor.length_flatMap_of_ascii h.ascii]

/-- Behind characters at the front of a text no character is cut. The characters
may be any. -/
theorem isValid_utf8Length {text : String} {front : List Char} (h : front <+: text.toList) :
    String.Pos.Raw.IsValid text ⟨utf8Length front⟩ := by
  obtain ⟨rest, hrest⟩ := h
  refine String.Pos.Raw.isValid_iff_exists_append.2
    ⟨String.ofList front, String.ofList rest, ?_, rfl⟩
  rw [← String.ofList_append, hrest, String.ofList_toList]

/-- The cursor finds what reading the characters finds. A character beyond ASCII
is written in bytes beyond ASCII, none of which belongs to a literal. -/
theorem literalEnd?_eq (text : String) :
    literalEnd? (utf8 text) = (Literal.scan? text.toList).map fun found =>
      (utf8Length found.1.text, found.1.isFractional) := by
  rcases hsign : takeSign text.toList with ⟨sign, unsigned⟩
  rcases hwhole : takeDigits unsigned with ⟨whole, afterWhole⟩
  rcases hpoint : takeFraction whole afterWhole with ⟨fraction, afterFraction⟩
  rcases hexponent : takeExponent afterFraction with ⟨exponent, rest⟩
  obtain ⟨hsignEnd, hunsigned⟩ := (Cursor.at_zero text).signEnd_eq hsign
  obtain ⟨hwholeEnd, hafterWhole⟩ := hunsigned.digitsEnd_eq hwhole
  obtain ⟨hpointEnd, hafterFraction⟩ := hafterWhole.pointEnd?_eq rfl hpoint
  have hexponentEnd := hafterFraction.exponentEnd?_eq hexponent
  have hgetD : ∀ n : Nat, (fraction.map fun _ => n + (fractionText fraction).length).getD n =
      n + (fractionText fraction).length := by
    intro n
    cases fraction <;> rfl
  have hnone : ∀ n m : Nat, (n = n + whole.length ∧ fraction.map (fun _ => m) = none) ↔
      (whole = [] ∧ fraction = none) := by
    intro n m
    rw [Nat.left_eq_add, List.length_eq_zero_iff, Option.map_eq_none_iff]
  simp only [literalEnd?, hsignEnd, hwholeEnd, hpointEnd, hnone, hgetD, hexponentEnd]
  by_cases hdigit : whole = [] ∧ fraction = none
  · simp only [Literal.scan?, hsign, hwhole, hpoint, if_pos hdigit, Option.map_none]
  · have hscan : Literal.scan? text.toList = some (⟨sign, whole, fraction, exponent⟩, rest) :=
      scan?_eq_some_iff.2
        ⟨unsigned, afterWhole, afterFraction, hsign, hwhole, hpoint, hdigit, hexponent⟩
    rw [hscan, if_neg hdigit, Option.map_some, (wellFormed_of_scan? hscan).utf8Length_text,
      Literal.isFractional, Option.isSome_map, Option.isSome_map]
    cases exponent <;> simp [Literal.text, fractionText] <;> omega

/-- The cursor finds nothing exactly when the grammar admits nothing at the
front of the text. -/
theorem literalEnd?_eq_none_iff {text : String} :
    literalEnd? (utf8 text) = none ↔ ∀ front, front <+: text.toList → ¬ IsNumeral front := by
  rw [literalEnd?_eq, Option.map_eq_none_iff, scan?_eq_none_iff]

/-- The cursor stops behind the longest literal, at a boundary between
characters, and tells whether a point or an exponent is in it. -/
theorem literalEnd?_eq_some_iff {text : String} {stop : Nat} {isFloat : Bool} :
    literalEnd? (utf8 text) = some (stop, isFloat) ↔
      ∃ front, IsLongest IsNumeral text.toList front ∧ stop = utf8Length front ∧
        String.Pos.Raw.IsValid text ⟨stop⟩ ∧ (isFloat = true ↔ IsFractional front) := by
  rw [literalEnd?_eq, Option.map_eq_some_iff]
  constructor
  · rintro ⟨⟨l, rest⟩, hscan, ⟨⟩⟩
    have hlongest := isLongest_of_scan? hscan
    exact ⟨l.text, hlongest, rfl, isValid_utf8Length hlongest.isPrefix,
      (wellFormed_of_scan? hscan).isFractional_iff⟩
  · rintro ⟨front, hlongest, rfl, -, hfloat⟩
    cases hscan : Literal.scan? text.toList with
    | none =>
      exact absurd hlongest.holds (scan?_eq_none_iff.1 hscan front hlongest.isPrefix)
    | some found =>
      obtain ⟨l, rest⟩ := found
      obtain rfl := (isLongest_of_scan? hscan).unique hlongest
      rw [← (wellFormed_of_scan? hscan).isFractional_iff, ← Bool.eq_iff_iff] at hfloat
      exact ⟨(l, rest), rfl, by rw [hfloat]⟩

example : literalEnd? (utf8 "-1.e5é") = some (5, true) := by decide +kernel

example : literalEnd? (utf8 "12e+") = some (2, false) := by decide +kernel

end NativeBridge.Decimal
