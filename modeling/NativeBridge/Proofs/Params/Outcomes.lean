import NativeBridge.Proofs.Params.Fetching

namespace NativeBridge.Params

variable {rule : Strictness} {exceptionCapable : Bool} {decls : List ParamDecl}
  {arguments : List Value}

/-- The declarations start with this number of parameters that the caller has to
supply, and the next one, if there is any, may be left out. -/
structure LeadsWith (decls : List ParamDecl) (required : Nat) : Prop where
  leading : ∀ position < required, ∃ decl, decls[position]? = some decl ∧ decl.optional = false
  stops : ∀ decl, decls[required]? = some decl → decl.optional = true

/-- A declaration that may be left out ends the leading run, and what stands
behind it is not counted. -/
theorem leadingRequired_cons (decl : ParamDecl) (decls : List ParamDecl) :
    leadingRequired (decl :: decls) = if decl.optional then 0 else leadingRequired decls + 1 := by
  cases h : decl.optional <;> simp [leadingRequired, h]

/-- The run is as long as it can be: its declarations have to be supplied and
the next one does not. No other number is like that. -/
theorem leadsWith_leadingRequired (decls : List ParamDecl) :
    LeadsWith decls (leadingRequired decls) := by
  induction decls with
  | nil =>
    refine ⟨fun position hlt => absurd hlt (Nat.not_lt_zero position), ?_⟩
    intro decl hdecl
    cases hdecl
  | cons decl decls ih =>
    rw [leadingRequired_cons]
    cases hoptional : decl.optional with
    | true =>
      refine ⟨fun position hlt => absurd hlt (Nat.not_lt_zero position), ?_⟩
      rintro other ⟨⟩
      exact hoptional
    | false =>
      refine ⟨fun position hlt => ?_, ih.stops⟩
      cases position with
      | zero => exact ⟨decl, rfl, hoptional⟩
      | succ position => exact ih.leading position (Nat.lt_of_succ_lt_succ hlt)

/-- What a slot holds: nothing for an argument that was left out, the box itself
for a mixed parameter, and otherwise the argument as a native of the declared
type. -/
inductive SlotOf (rule : Strictness) (type : ParamType) : Option Value → ParamSlot → Prop
  | omitted : SlotOf rule type none .undefined
  | boxed {argument : Value} : type.native? = none →
    SlotOf rule type (some argument) (.value argument)
  | converted {argument : Value} {native : NativeType} {carrier : native.Carrier} :
    type.native? = some native → native.coerce rule argument = .ok carrier →
    SlotOf rule type (some argument) (.native ⟨native, carrier⟩)

/-- There is one slot for each declaration, and each holds what it should. -/
structure SlotsOf (rule : Strictness) (decls : List ParamDecl) (arguments : List Value)
    (slots : List ParamSlot) : Prop where
  length_eq : slots.length = decls.length
  slotOf : ∀ (position : Nat) (decl : ParamDecl) (slot : ParamSlot), decls[position]? = some decl →
    slots[position]? = some slot → SlotOf rule decl.type arguments[position]? slot

private theorem fetchSlot_eq_ok_iff {type : ParamType} {argument? : Option Value}
    {slot : ParamSlot} :
    fetchSlot rule type argument? = .ok slot ↔ SlotOf rule type argument? slot := by
  constructor
  · intro h
    cases argument? with
    | none =>
      cases h
      exact .omitted
    | some argument =>
      cases hnative : type.native? with
      | none =>
        rw [fetchSlot, hnative] at h
        cases h
        exact .boxed hnative
      | some native =>
        rw [fetchSlot, hnative] at h
        cases hcoerce : native.coerce rule argument with
        | error cause =>
          simp only [Native.ofValue, hcoerce] at h
          cases h
        | ok carrier =>
          simp only [Native.ofValue, hcoerce] at h
          cases h
          exact .converted hnative hcoerce
  · rintro (_ | hnative | ⟨hnative, hcoerce⟩)
    · rfl
    · rw [fetchSlot, hnative]
    · simp only [fetchSlot, hnative, Native.ofValue, hcoerce]
      rfl

private theorem slotsOf_nil_iff {slots : List ParamSlot} :
    SlotsOf rule [] arguments slots ↔ slots = [] := by
  constructor
  · exact fun h => List.eq_nil_of_length_eq_zero h.length_eq
  · rintro rfl
    exact ⟨rfl, fun _ _ _ hdecl => by cases hdecl⟩

private theorem slotsOf_cons_iff {decl : ParamDecl} {slots : List ParamSlot} :
    SlotsOf rule (decl :: decls) arguments slots ↔
      ∃ slot rest, slots = slot :: rest ∧ SlotOf rule decl.type arguments.head? slot ∧
        SlotsOf rule decls arguments.tail rest := by
  constructor
  · intro h
    cases slots with
    | nil => cases h.length_eq
    | cons slot rest =>
      refine ⟨slot, rest, rfl, ?_, Nat.succ.inj h.length_eq, fun position other found => ?_⟩
      · rw [List.head?_eq_getElem?]
        exact h.slotOf 0 decl slot rfl rfl
      · rw [List.getElem?_tail]
        exact h.slotOf (position + 1) other found
  · rintro ⟨slot, rest, rfl, hslot, hrest⟩
    refine ⟨congrArg Nat.succ hrest.length_eq, fun position other found hdecl hfound => ?_⟩
    cases position with
    | zero =>
      cases hdecl
      cases hfound
      rwa [← List.head?_eq_getElem?]
    | succ position =>
      rw [← List.getElem?_tail]
      exact hrest.slotOf position other found hdecl hfound

/-- The slots that are fetched are the ones that hold what they should, and
there are no others like that. -/
theorem fetchSlots_eq_ok_iff {start : Nat} {slots : List ParamSlot} :
    fetchSlots rule start decls arguments = .ok slots ↔ SlotsOf rule decls arguments slots := by
  induction decls generalizing start arguments slots with
  | nil =>
    rw [slotsOf_nil_iff, fetchSlots, Except.ok.injEq, eq_comm]
  | cons decl decls ih =>
    have hrest : ∀ rest, SlotsOf rule decls arguments.tail rest ↔
        fetchSlots rule (start + 1) decls arguments.tail = .ok rest := fun rest => ih.symm
    rw [slotsOf_cons_iff, fetchSlots]
    simp only [← fetchSlot_eq_ok_iff, hrest]
    cases fetchSlot rule decl.type arguments.head? with
    | error cause =>
      constructor
      · rintro ⟨⟩
      · rintro ⟨_, _, _, ⟨⟩, _⟩
    | ok slot =>
      cases fetchSlots rule (start + 1) decls arguments.tail with
      | error error =>
        constructor
        · rintro ⟨⟩
        · rintro ⟨_, _, _, _, ⟨⟩⟩
      | ok rest =>
        constructor
        · rintro ⟨⟩
          exact ⟨slot, rest, rfl, rfl, rfl⟩
        · rintro ⟨_, _, rfl, ⟨⟩, ⟨⟩⟩
          rfl

/-- The parameters that the arguments make. -/
structure Fetched (rule : Strictness) (exceptionCapable : Bool) (decls : List ParamDecl)
    (arguments : List Value) (params : Params) : Prop where
  slotsOf : SlotsOf rule decls arguments params.slots
  supplied_eq : params.supplied = arguments.length
  exceptionCapable_eq : params.exceptionCapable = exceptionCapable
  rule_eq : params.rule = rule

/-- What a fetch comes to when it wants at least `required` arguments: it fails
at their number, or else at the first one that does not convert, or else it has
all slots. -/
inductive Outcome (rule : Strictness) (exceptionCapable : Bool) (required : Nat)
    (decls : List ParamDecl) (arguments : List Value) : Except FetchError Params → Prop
  | arity : arguments.length < required ∨ decls.length < arguments.length →
    Outcome rule exceptionCapable required decls arguments
      (.error (.arity required decls.length arguments.length))
  | coercion {position : Nat} {cause : ConversionError} :
    required ≤ arguments.length → arguments.length ≤ decls.length →
    RefusesFirst rule decls arguments position cause →
    Outcome rule exceptionCapable required decls arguments (.error (.coercion position cause))
  | fetched {params : Params} : required ≤ arguments.length → arguments.length ≤ decls.length →
    (∀ position cause, ¬ Refuses rule decls arguments position cause) →
    Fetched rule exceptionCapable decls arguments params →
    Outcome rule exceptionCapable required decls arguments (.ok params)

/-- A fetch succeeds exactly with the parameters that the arguments make. That
every argument converts is part of what the slots hold. -/
theorem fetchTyped_eq_ok_iff {params : Params} :
    fetchTyped rule exceptionCapable decls arguments = .ok params ↔
      FitsArity decls arguments.length ∧ Fetched rule exceptionCapable decls arguments params := by
  by_cases hfits : FitsArity decls arguments.length
  · rw [fetchTyped_of_fits hfits, and_iff_right hfits]
    constructor
    · intro h
      cases hslots : fetchSlots rule 0 decls arguments with
      | error error =>
        rw [hslots] at h
        cases h
      | ok slots =>
        rw [hslots] at h
        cases h
        exact ⟨fetchSlots_eq_ok_iff.1 hslots, rfl, rfl, rfl⟩
    · intro h
      obtain ⟨slots, supplied, capable, strictness⟩ := params
      obtain ⟨hslots, rfl, rfl, rfl⟩ := h
      rw [fetchSlots_eq_ok_iff.2 hslots]
      rfl
  · rw [fetchTyped_of_not_fits rule exceptionCapable hfits]
    constructor
    · rintro ⟨⟩
    · rintro ⟨h, _⟩
      exact absurd h hfits

/-- A fetch fails for the number of arguments exactly where they are fewer than
the leading parameters to be supplied, or more than are declared. -/
theorem fetchTyped_eq_arity_iff :
    fetchTyped rule exceptionCapable decls arguments =
        .error (.arity (leadingRequired decls) decls.length arguments.length) ↔
      ¬ FitsArity decls arguments.length := by
  constructor
  · intro h hfits
    rw [fetchTyped_of_fits hfits] at h
    obtain ⟨⟨slots, hslots⟩, _⟩ | ⟨position, cause, _, hslots⟩ :=
      fetchSlots_cases rule 0 decls arguments <;> rw [hslots] at h <;> cases h
  · exact fetchTyped_of_not_fits rule exceptionCapable

/-- The fetch comes to what its outcome says, and its outcome leaves no
choice. -/
theorem fetchTyped_eq_iff {result : Except FetchError Params} :
    fetchTyped rule exceptionCapable decls arguments = result ↔
      Outcome rule exceptionCapable (leadingRequired decls) decls arguments result := by
  obtain ⟨hnot, hfetch⟩ | ⟨hfits, position, cause, hfirst, hfetch⟩ | ⟨hfits, hnone, params, hfetch⟩ :=
    fetchTyped_cases rule exceptionCapable decls arguments
  · have hout : arguments.length < leadingRequired decls ∨ decls.length < arguments.length := by
      unfold FitsArity at hnot
      omega
    rw [hfetch]
    constructor
    · rintro rfl
      exact .arity hout
    · rintro (_ | ⟨hlower, hupper, _⟩ | ⟨hlower, hupper, _⟩)
      · rfl
      · exact absurd ⟨hlower, hupper⟩ hnot
      · exact absurd ⟨hlower, hupper⟩ hnot
  · obtain ⟨hlower, hupper⟩ := hfits
    rw [hfetch]
    constructor
    · rintro rfl
      exact .coercion hlower hupper hfirst
    · rintro (hout | ⟨_, _, hother⟩ | ⟨_, _, hnone, _⟩)
      · omega
      · obtain rfl := hfirst.position_eq hother
        rw [hfirst.refuses.cause_eq hother.refuses]
      · exact absurd hfirst.refuses (hnone position cause)
  · have hlower := hfits.1
    have hupper := hfits.2
    constructor
    · rintro rfl
      rw [hfetch]
      exact .fetched hlower hupper hnone (fetchTyped_eq_ok_iff.1 hfetch).2
    · rintro (hout | ⟨_, _, hfirst⟩ | ⟨_, _, _, hfetched⟩)
      · omega
      · exact absurd hfirst.refuses (hnone _ _)
      · exact fetchTyped_eq_ok_iff.2 ⟨hfits, hfetched⟩

/-- Mixed parameters of these names: those that have to be supplied, then those
that may be left out. -/
def mixedDecls (required optional : List String) : List ParamDecl :=
  required.map (fun name => ⟨name, .mixed, false⟩) ++
    optional.map fun name => ⟨name, .mixed, true⟩

private theorem length_mixedDecls (required optional : List String) :
    (mixedDecls required optional).length = required.length + optional.length := by
  simp [mixedDecls]

private theorem leadingRequired_mixedDecls (required optional : List String) :
    leadingRequired (mixedDecls required optional) = required.length := by
  unfold mixedDecls
  induction required with
  | nil =>
    cases optional with
    | nil => rfl
    | cons name optional => rfl
  | cons name required ih =>
    rw [List.map_cons, List.cons_append, leadingRequired_cons, ih]
    rfl

private theorem type_of_mem_mixedDecls {required optional : List String} {decl : ParamDecl}
    (h : decl ∈ mixedDecls required optional) : decl.type = .mixed := by
  rw [mixedDecls, List.mem_append, List.mem_map, List.mem_map] at h
  obtain ⟨name, _, rfl⟩ | ⟨name, _, rfl⟩ := h <;> rfl

/-- The slots of mixed parameters are the arguments' boxes, and undefined past
the last one. No argument is refused, since none is converted. -/
theorem fetchSlots_mixedDecls (rule : Strictness) (start : Nat) (required optional : List String)
    (arguments : List Value) :
    fetchSlots rule start (mixedDecls required optional) arguments =
      .ok ((List.range (required.length + optional.length)).map fun index =>
        match arguments[index]? with
        | some argument => ParamSlot.value argument
        | none => .undefined) := by
  refine fetchSlots_eq_ok_iff.2 ⟨by simp [length_mixedDecls], ?_⟩
  intro position decl slot hdecl hslot
  obtain ⟨hlt, _⟩ := List.getElem?_eq_some_iff.1 hdecl
  rw [length_mixedDecls] at hlt
  rw [type_of_mem_mixedDecls (List.mem_of_getElem? hdecl)]
  rw [List.getElem?_map, List.getElem?_range hlt] at hslot
  cases hslot
  dsimp only
  cases arguments[position]? with
  | none => exact .omitted
  | some argument => exact .boxed rfl

private theorem fetch_eq_fetchTyped (rule : Strictness) (exceptionCapable : Bool)
    (required optional : List String) (arguments : List Value) :
    fetch rule exceptionCapable required.length optional.length arguments =
      fetchTyped rule exceptionCapable (mixedDecls required optional) arguments := by
  rw [fetch, fetchTyped, leadingRequired_mixedDecls, length_mixedDecls]
  cases checkArity arguments.length required.length (required.length + optional.length) with
  | error error => rfl
  | ok _ =>
    rw [fetchSlots_mixedDecls]
    rfl

/-- What a fetch of declared parameters comes to is exact, and a fetch without
types is the fetch of as many mixed parameters, slot for slot and error for
error. -/
theorem fetchTyped_exact (rule : Strictness) (exceptionCapable : Bool) (arguments : List Value) :
    (∀ decls, ∃ required, LeadsWith decls required ∧ ∀ result,
      fetchTyped rule exceptionCapable decls arguments = result ↔
        Outcome rule exceptionCapable required decls arguments result) ∧
    ∀ required optional : List String,
      fetch rule exceptionCapable required.length optional.length arguments =
        fetchTyped rule exceptionCapable (mixedDecls required optional) arguments := by
  refine ⟨fun decls => ?_, fun required optional => ?_⟩
  · exact ⟨leadingRequired decls, leadsWith_leadingRequired decls, fun _ => fetchTyped_eq_iff⟩
  · exact fetch_eq_fetchTyped rule exceptionCapable required optional arguments

end NativeBridge.Params
