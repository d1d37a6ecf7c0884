import NativeBridge.Method
import NativeBridge.Proofs.Params.Outcomes
import NativeBridge.Sample.State

namespace NativeBridge

namespace Params

variable {rule : Strictness} {exceptionCapable : Bool} {decls : List ParamDecl}
  {arguments : List Value}

/-- No parameter that has to be supplied stands behind one that may be left
out. -/
def RequiredFirst (decls : List ParamDecl) : Prop :=
  decls.Pairwise fun earlier later => later.optional = false → earlier.optional = false

instance (decls : List ParamDecl) : Decidable (RequiredFirst decls) :=
  inferInstanceAs (Decidable (List.Pairwise _ decls))

/-- Declarations are in order when all parameters that have to be supplied stand
in front, among those that a fetch asks for. -/
theorem requiredFirst_iff :
    RequiredFirst decls ↔ ∀ position decl, decls[position]? = some decl →
      decl.optional = false → position < leadingRequired decls := by
  have hleads := leadsWith_leadingRequired decls
  constructor
  · intro h position decl hdecl hrequired
    obtain ⟨hposition, rfl⟩ := List.getElem?_eq_some_iff.1 hdecl
    refine Nat.lt_of_not_le fun hle => ?_
    have hlength : leadingRequired decls < decls.length := by omega
    -- The first declaration behind those in front is optional, and this one is not.
    have hstops := hleads.stops _ (List.getElem?_eq_getElem hlength)
    have hne : leadingRequired decls ≠ position := by
      rintro rfl
      rw [hrequired] at hstops
      cases hstops
    have hearlier := List.pairwise_iff_getElem.1 h _ position hlength hposition (by omega) hrequired
    rw [hstops] at hearlier
    cases hearlier
  · intro h
    refine List.pairwise_iff_getElem.2 fun earlier later hearlier hlater hlt hrequired => ?_
    have hfront := h later _ (List.getElem?_eq_getElem hlater) hrequired
    obtain ⟨decl, hdecl, hoptional⟩ := hleads.leading earlier (by omega)
    rw [List.getElem?_eq_getElem hearlier, Option.some_inj] at hdecl
    rwa [hdecl]

/-- Declarations in order start with all parameters that have to be supplied, so
a fetch asks for as many as there are. -/
theorem RequiredFirst.leadingRequired_eq (h : RequiredFirst decls) :
    leadingRequired decls = decls.countP fun decl => !decl.optional := by
  induction decls with
  | nil => rfl
  | cons decl decls ih =>
    obtain ⟨hfirst, hrest⟩ := List.pairwise_cons.1 h
    rw [leadingRequired_cons, List.countP_cons]
    cases hoptional : decl.optional with
    | false => simp [ih hrest]
    | true =>
      have hnone : decls.countP (fun other => !other.optional) = 0 := by
        rw [List.countP_eq_zero]
        intro other hother hrequired
        rw [Bool.not_eq_true'] at hrequired
        rw [hfirst other hother hrequired] at hoptional
        cases hoptional
      simp [hnone]

private theorem SlotOf.isDefined_eq {type : ParamType} {argument? : Option Value} {slot : ParamSlot}
    (h : SlotOf rule type argument? slot) : slot.isDefined = argument?.isSome := by
  cases h <;> rfl

/-- The slot of a declared parameter is defined when its argument was supplied.
Its type does not matter, and neither does the argument. -/
theorem Fetched.isDefined_iff {params : Params}
    (h : Fetched rule exceptionCapable decls arguments params) {position : Nat}
    (hposition : position < decls.length) :
    params.isDefined position = true ↔ position < arguments.length := by
  have hslots : position < params.slots.length := h.slotsOf.length_eq ▸ hposition
  have hslot := h.slotsOf.slotOf position _ _ (List.getElem?_eq_getElem hposition)
    (List.getElem?_eq_getElem hslots)
  rw [isDefined, List.getElem?_eq_getElem hslots, Option.any_some, hslot.isDefined_eq,
    Option.isSome_iff_ne_none, ne_eq, List.getElem?_eq_none_iff, Nat.not_le]

private theorem not_refuses_replicate_null (rule : Strictness) (decls : List ParamDecl)
    (count : Nat) (position : Nat) (cause : ConversionError) :
    ¬ Refuses rule decls (List.replicate count .null) position cause := by
  rintro ⟨decl, native, argument, _, hnative, hargument, hcause⟩
  obtain rfl := List.eq_of_mem_replicate (List.mem_of_getElem? hargument)
  cases native <;> cases hcause

/-- The fewest arguments that a fetch asks for are enough for some call: null
converts to every type, so that many nulls will do. -/
theorem exists_fetchTyped_eq_ok (rule : Strictness) (exceptionCapable : Bool)
    (decls : List ParamDecl) :
    ∃ arguments params, arguments.length = leadingRequired decls ∧
      fetchTyped rule exceptionCapable decls arguments = .ok params := by
  have hlength : leadingRequired decls ≤ decls.length :=
    (List.takeWhile_sublist _).length_le
  refine ⟨List.replicate (leadingRequired decls) .null, ?_⟩
  obtain ⟨hnot, _⟩ | ⟨_, position, cause, hfirst, _⟩ | ⟨_, _, params, hfetch⟩ :=
    fetchTyped_cases rule exceptionCapable decls (List.replicate (leadingRequired decls) .null)
  · rw [List.length_replicate] at hnot
    exact absurd ⟨Nat.le_refl _, hlength⟩ hnot
  · exact absurd hfirst.refuses (not_refuses_replicate_null rule decls _ position cause)
  · exact ⟨params, List.length_replicate, hfetch⟩

end Params

namespace Method

variable {σ ω : Type}

/-- The number of arguments that a method tells is the number that a fetch for
it takes, and a fetch leaves none of the parameters undefined that have to be
supplied. -/
structure KeepsRequired (method : Method σ ω) (rule : Strictness) (exceptionCapable : Bool) :
    Prop where
  defined : ∀ arguments params,
    Params.fetchTyped rule exceptionCapable method.params arguments = .ok params →
    ∀ position decl, method.params[position]? = some decl → decl.optional = false →
      params.isDefined position = true
  supplied : ∀ arguments params,
    Params.fetchTyped rule exceptionCapable method.params arguments = .ok params →
    method.requiredCount ≤ params.supplied ∧ params.supplied ≤ method.maxCount
  refuses_iff : ∀ arguments : List Value,
    Params.fetchTyped rule exceptionCapable method.params arguments =
        .error (.arity method.requiredCount method.maxCount arguments.length) ↔
      ¬ (method.requiredCount ≤ arguments.length ∧ arguments.length ≤ method.maxCount)

/-- A method keeps what it tells of its parameters when they are declared in
order, and only then. -/
theorem keepsRequired_iff (method : Method σ ω) (rule : Strictness) (exceptionCapable : Bool) :
    method.KeepsRequired rule exceptionCapable ↔ Params.RequiredFirst method.params := by
  constructor
  · intro h
    obtain ⟨arguments, params, hlength, hfetch⟩ :=
      Params.exists_fetchTyped_eq_ok rule exceptionCapable method.params
    obtain ⟨_, hfetched⟩ := Params.fetchTyped_eq_ok_iff.1 hfetch
    refine Params.requiredFirst_iff.2 fun position decl hdecl hrequired => ?_
    have hdefined := h.defined arguments params hfetch position decl hdecl hrequired
    obtain ⟨hposition, _⟩ := List.getElem?_eq_some_iff.1 hdecl
    rwa [hfetched.isDefined_iff hposition, hlength] at hdefined
  · intro h
    have hcount : Params.leadingRequired method.params = method.requiredCount :=
      h.leadingRequired_eq
    refine ⟨fun arguments params hfetch position decl hdecl hrequired => ?_,
      fun arguments params hfetch => ?_, fun arguments => ?_⟩
    · obtain ⟨hposition, _⟩ := List.getElem?_eq_some_iff.1 hdecl
      have hfront := Params.requiredFirst_iff.1 h position decl hdecl hrequired
      obtain ⟨hfits, hfetched⟩ := Params.fetchTyped_eq_ok_iff.1 hfetch
      rw [hfetched.isDefined_iff hposition]
      exact Nat.lt_of_lt_of_le hfront hfits.1
    · obtain ⟨hfits, hfetched⟩ := Params.fetchTyped_eq_ok_iff.1 hfetch
      rw [hfetched.supplied_eq, ← hcount]
      exact hfits
    · rw [← hcount]
      exact Params.fetchTyped_eq_arity_iff

/-- A method whose first parameter may be left out, but not its second. -/
def slice : Method Sample Unit :=
  .declare "slice" [⟨"length", .long, true⟩, .required "offset" .long] .none (pure ())

/-- It tells of one parameter that has to be supplied, and is called without
any. -/
theorem not_keepsRequired_slice :
    slice.requiredCount = 1 ∧
    Params.fetchTyped .strict false slice.params [] =
      .ok ⟨[.undefined, .undefined], 0, false, .strict⟩ ∧
    ¬ slice.KeepsRequired .strict false := by
  refine ⟨rfl, rfl, fun h => ?_⟩
  have hdefined := h.defined [] _ rfl 1 (.required "offset" .long) rfl rfl
  cases hdefined

end Method

end NativeBridge
