import NativeBridge.Params

namespace NativeBridge.Params

variable {rule : Strictness} {decls : List ParamDecl} {arguments : List Value}

/-- The argument at a position does not convert to the type declared there. -/
def Refuses (rule : Strictness) (decls : List ParamDecl) (arguments : List Value) (position : Nat)
    (cause : ConversionError) : Prop :=
  ∃ decl native argument, decls[position]? = some decl ∧ decl.type.native? = some native ∧
    arguments[position]? = some argument ∧ native.coerce rule argument = .error cause

/-- The first argument that does not convert. -/
structure RefusesFirst (rule : Strictness) (decls : List ParamDecl) (arguments : List Value)
    (position : Nat) (cause : ConversionError) : Prop where
  refuses : Refuses rule decls arguments position cause
  first : ∀ earlier < position, ∀ other, ¬ Refuses rule decls arguments earlier other

/-- A number of arguments that the declared parameters can take. -/
def FitsArity (decls : List ParamDecl) (supplied : Nat) : Prop :=
  leadingRequired decls ≤ supplied ∧ supplied ≤ decls.length

instance (decls : List ParamDecl) (supplied : Nat) : Decidable (FitsArity decls supplied) :=
  inferInstanceAs (Decidable (_ ∧ _))

/-- A position is refused with one error only, the one of converting its
argument. -/
theorem Refuses.cause_eq {position : Nat} {first second : ConversionError}
    (hfirst : Refuses rule decls arguments position first)
    (hsecond : Refuses rule decls arguments position second) : first = second := by
  obtain ⟨decl, native, argument, hdecl, hnative, hargument, hcause⟩ := hfirst
  obtain ⟨decl', native', argument', hdecl', hnative', hargument', hcause'⟩ := hsecond
  rw [hdecl] at hdecl'
  cases hdecl'
  rw [hnative] at hnative'
  cases hnative'
  rw [hargument] at hargument'
  cases hargument'
  rw [hcause] at hcause'
  cases hcause'
  rfl

/-- No two positions are the first to be refused, so the error of a fetch is
determined. -/
theorem RefusesFirst.position_eq {first second : Nat} {cause other : ConversionError}
    (hfirst : RefusesFirst rule decls arguments first cause)
    (hsecond : RefusesFirst rule decls arguments second other) : first = second := by
  rcases Nat.lt_trichotomy first second with hlt | heq | hgt
  · exact absurd hfirst.refuses (hsecond.first first hlt cause)
  · exact heq
  · exact absurd hsecond.refuses (hfirst.first second hgt other)

private theorem fetchSlot_eq_error_iff {type : ParamType} {argument? : Option Value}
    {cause : ConversionError} :
    fetchSlot rule type argument? = .error cause ↔
      ∃ native argument, type.native? = some native ∧ argument? = some argument ∧
        native.coerce rule argument = .error cause := by
  cases argument? with
  | none => simp [fetchSlot]
  | some argument =>
    cases hnative : type.native? with
    | none => simp [fetchSlot, hnative]
    | some native =>
      simp only [fetchSlot, hnative, Native.ofValue]
      cases hcoerce : native.coerce rule argument <;> simp [Except.map, hcoerce]

private theorem refuses_zero {decl : ParamDecl} {cause : ConversionError} :
    Refuses rule (decl :: decls) arguments 0 cause ↔
      fetchSlot rule decl.type arguments.head? = .error cause := by
  simp [Refuses, fetchSlot_eq_error_iff, List.head?_eq_getElem?]

private theorem refuses_succ {decl : ParamDecl} {position : Nat} {cause : ConversionError} :
    Refuses rule (decl :: decls) arguments (position + 1) cause ↔
      Refuses rule decls arguments.tail position cause := by
  simp [Refuses]

/-- Either every argument converts or the first one that does not ends the
fetch. The positions are counted from wherever the fetch starts. -/
theorem fetchSlots_cases (rule : Strictness) (start : Nat) (decls : List ParamDecl)
    (arguments : List Value) :
    ((∃ slots, fetchSlots rule start decls arguments = .ok slots) ∧
      ∀ position cause, ¬ Refuses rule decls arguments position cause) ∨
    ∃ position cause, RefusesFirst rule decls arguments position cause ∧
      fetchSlots rule start decls arguments = .error (.coercion (start + position) cause) := by
  induction decls generalizing start arguments with
  | nil =>
    refine Or.inl ⟨⟨[], rfl⟩, ?_⟩
    rintro position cause ⟨decl, _, _, hdecl, _⟩
    cases hdecl
  | cons decl decls ih =>
    simp only [fetchSlots]
    cases hslot : fetchSlot rule decl.type arguments.head? with
    | error cause =>
      refine Or.inr ⟨0, cause, ⟨refuses_zero.2 hslot, ?_⟩, rfl⟩
      intro earlier hlt
      cases hlt
    | ok slot =>
      have hhead : ∀ cause, ¬ Refuses rule (decl :: decls) arguments 0 cause := by
        intro cause hrefuses
        rw [refuses_zero, hslot] at hrefuses
        cases hrefuses
      obtain ⟨⟨slots, hslots⟩, hnone⟩ | ⟨position, cause, hfirst, hslots⟩ :=
        ih (start + 1) arguments.tail
      · refine Or.inl ⟨⟨slot :: slots, ?_⟩, ?_⟩
        · rw [hslots]
          rfl
        · intro position cause
          cases position with
          | zero => exact hhead cause
          | succ position => exact fun hrefuses => hnone position cause (refuses_succ.1 hrefuses)
      · refine Or.inr ⟨position + 1, cause, ⟨refuses_succ.2 hfirst.refuses, ?_⟩, ?_⟩
        · intro earlier hlt other
          cases earlier with
          | zero => exact hhead other
          | succ earlier =>
            exact fun hrefuses =>
              hfirst.first earlier (by omega) other (refuses_succ.1 hrefuses)
        · rw [hslots, Nat.add_right_comm, Nat.add_assoc]
          rfl

/-- The slots depend on the arguments position by position, and only on what the
declared type makes of each of them. -/
theorem fetchSlots_congr {others : List Value}
    (h : ∀ (position : Nat) (decl : ParamDecl), decls[position]? = some decl →
      fetchSlot rule decl.type arguments[position]? = fetchSlot rule decl.type others[position]?)
    (start : Nat) :
    fetchSlots rule start decls arguments = fetchSlots rule start decls others := by
  induction decls generalizing start arguments others with
  | nil => rfl
  | cons decl decls ih =>
    have hhead : fetchSlot rule decl.type arguments.head? =
        fetchSlot rule decl.type others.head? := by
      rw [List.head?_eq_getElem?, List.head?_eq_getElem?]
      exact h 0 decl rfl
    have htail : fetchSlots rule (start + 1) decls arguments.tail =
        fetchSlots rule (start + 1) decls others.tail := by
      refine ih (fun position other hother => ?_) (start + 1)
      rw [List.getElem?_tail, List.getElem?_tail]
      exact h (position + 1) other hother
    rw [fetchSlots, fetchSlots, hhead, htail]

/-- A number of arguments that fits leaves the slots to decide. What they cannot
know is added: the number of arguments and the rule. -/
theorem fetchTyped_of_fits {exceptionCapable : Bool} (hfits : FitsArity decls arguments.length) :
    fetchTyped rule exceptionCapable decls arguments =
      (fetchSlots rule 0 decls arguments).map fun slots =>
        ⟨slots, arguments.length, exceptionCapable, rule⟩ := by
  have harity : checkArity arguments.length (leadingRequired decls) decls.length = .ok () := by
    obtain ⟨hlower, hupper⟩ := hfits
    rw [checkArity, if_neg (by omega)]
  rw [fetchTyped, harity]
  cases fetchSlots rule 0 decls arguments <;> rfl

/-- A number of arguments that does not fit ends the fetch before any of them is
looked at. -/
theorem fetchTyped_of_not_fits (rule : Strictness) (exceptionCapable : Bool)
    (h : ¬ FitsArity decls arguments.length) :
    fetchTyped rule exceptionCapable decls arguments =
      .error (.arity (leadingRequired decls) decls.length arguments.length) := by
  have hout : arguments.length < leadingRequired decls ∨ decls.length < arguments.length := by
    unfold FitsArity at h
    omega
  rw [fetchTyped, checkArity, if_pos hout]
  rfl

/-- A fetch succeeds, fails at the number of arguments, or fails at the first
argument that does not convert. The cases exclude each other. -/
theorem fetchTyped_cases (rule : Strictness) (exceptionCapable : Bool) (decls : List ParamDecl)
    (arguments : List Value) :
    (¬ FitsArity decls arguments.length ∧
      fetchTyped rule exceptionCapable decls arguments =
        .error (.arity (leadingRequired decls) decls.length arguments.length)) ∨
    (FitsArity decls arguments.length ∧
      ∃ position cause, RefusesFirst rule decls arguments position cause ∧
        fetchTyped rule exceptionCapable decls arguments = .error (.coercion position cause)) ∨
    (FitsArity decls arguments.length ∧
      (∀ position cause, ¬ Refuses rule decls arguments position cause) ∧
      ∃ params, fetchTyped rule exceptionCapable decls arguments = .ok params) := by
  by_cases hfits : FitsArity decls arguments.length
  · rw [fetchTyped_of_fits hfits]
    obtain ⟨⟨slots, hslots⟩, hnone⟩ | ⟨position, cause, hfirst, hslots⟩ :=
      fetchSlots_cases rule 0 decls arguments
    · refine Or.inr (Or.inr ⟨hfits, hnone, ⟨slots, arguments.length, exceptionCapable, rule⟩, ?_⟩)
      rw [hslots]
      rfl
    · refine Or.inr (Or.inl ⟨hfits, position, cause, hfirst, ?_⟩)
      rw [hslots, Nat.zero_add]
      rfl
  · exact Or.inl ⟨hfits, fetchTyped_of_not_fits rule exceptionCapable hfits⟩

/-- Once the number fits, the first argument that does not convert decides,
whatever comes after it. -/
theorem fetchTyped_of_refusesFirst (exceptionCapable : Bool) {position : Nat}
    {cause : ConversionError} (hfits : FitsArity decls arguments.length)
    (h : RefusesFirst rule decls arguments position cause) :
    fetchTyped rule exceptionCapable decls arguments = .error (.coercion position cause) := by
  obtain ⟨hnot, _⟩ | ⟨_, other, cause', hfirst, hfetch⟩ | ⟨_, hnone, _⟩ :=
    fetchTyped_cases rule exceptionCapable decls arguments
  · exact absurd hfits hnot
  · obtain rfl := h.position_eq hfirst
    rw [hfetch, h.refuses.cause_eq hfirst.refuses]
  · exact absurd h.refuses (hnone position cause)

end NativeBridge.Params
