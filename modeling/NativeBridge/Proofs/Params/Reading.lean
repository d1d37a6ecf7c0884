import NativeBridge.Proofs.Params.Outcomes
import NativeBridge.Proofs.Value.Narrowing

namespace NativeBridge

/-- The declaration without its type. -/
def ParamDecl.untyped (decl : ParamDecl) : ParamDecl := { decl with type := .mixed }

namespace Params

variable {rule : Strictness} {exceptionCapable : Bool} {decls : List ParamDecl}
  {arguments : List Value} {params boxes : Params}

private theorem leadingRequired_untyped (decls : List ParamDecl) :
    leadingRequired (decls.map .untyped) = leadingRequired decls := by
  induction decls with
  | nil => rfl
  | cons decl decls ih => rw [List.map_cons, leadingRequired_cons, leadingRequired_cons, ih]; rfl

private theorem fitsArity_untyped {supplied : Nat} :
    FitsArity (decls.map .untyped) supplied ↔ FitsArity decls supplied := by
  rw [FitsArity, FitsArity, leadingRequired_untyped, List.length_map]

/-- Without types only the number of the arguments is looked at, so a fetch of
boxes succeeds where a typed one may yet fail. -/
theorem exists_fetched_untyped (rule : Strictness) (exceptionCapable : Bool)
    (h : FitsArity decls arguments.length) :
    ∃ boxes, fetchTyped rule exceptionCapable (decls.map .untyped) arguments = .ok boxes ∧
      Fetched rule exceptionCapable (decls.map .untyped) arguments boxes := by
  obtain ⟨hnot, -⟩ | ⟨-, position, cause, hfirst, -⟩ | ⟨-, -, boxes, hfetch⟩ :=
    fetchTyped_cases rule exceptionCapable (decls.map .untyped) arguments
  · exact absurd (fitsArity_untyped.2 h) hnot
  · obtain ⟨decl, native, _, hdecl, hnative, _⟩ := hfirst.refuses
    obtain ⟨_, -, rfl⟩ := List.mem_map.1 (List.mem_of_getElem? hdecl)
    cases hnative
  · exact ⟨boxes, hfetch, (fetchTyped_eq_ok_iff.1 hfetch).2⟩

/-- A fetch fails over an argument exactly when their number fits and this is
the first that does not convert. -/
theorem fetchTyped_eq_coercion_iff {position : Nat} {cause : ConversionError} :
    fetchTyped rule exceptionCapable decls arguments = .error (.coercion position cause) ↔
      FitsArity decls arguments.length ∧ RefusesFirst rule decls arguments position cause := by
  rw [fetchTyped_eq_iff]
  constructor
  · intro h
    cases h with
    | coercion hlower hupper hfirst => exact ⟨⟨hlower, hupper⟩, hfirst⟩
  · rintro ⟨hfits, hfirst⟩
    exact .coercion hfits.1 hfits.2 hfirst

private theorem get_of_slot {position : Nat} {slot : ParamSlot}
    (h : params.slots[position]? = some slot) (native : NativeType) :
    params.get native position =
      (native.coerce params.rule slot.toValue).mapError BodyError.conversion := by
  rw [get, Params.slot, h]
  rfl

private theorem Fetched.exists_slot (h : Fetched rule exceptionCapable decls arguments params)
    {position : Nat} {decl : ParamDecl} {argument : Value} (hdecl : decls[position]? = some decl)
    (hargument : arguments[position]? = some argument) :
    ∃ slot, params.slots[position]? = some slot ∧ SlotOf rule decl.type (some argument) slot := by
  obtain ⟨hposition, -⟩ := List.getElem?_eq_some_iff.1 hdecl
  have hslot := List.getElem?_eq_getElem (h.slotsOf.length_eq ▸ hposition)
  exact ⟨_, hslot, hargument ▸ h.slotsOf.slotOf position decl _ hdecl hslot⟩

/-- A mixed parameter is converted when it is read, under the rule that the
fetch was made under. -/
theorem Fetched.get_untyped
    (h : Fetched rule exceptionCapable (decls.map .untyped) arguments boxes) {position : Nat}
    {decl : ParamDecl} {argument : Value} (hdecl : decls[position]? = some decl)
    (hargument : arguments[position]? = some argument) (native : NativeType) :
    boxes.get native position =
      (native.coerce rule argument).mapError BodyError.conversion := by
  have huntyped : (decls.map .untyped)[position]? = some decl.untyped := by
    rw [List.getElem?_map, hdecl, Option.map_some]
  obtain ⟨slot, hslot, hof⟩ := h.exists_slot huntyped hargument
  rw [get_of_slot hslot, h.rule_eq]
  cases hof with
  | boxed => rfl
  | converted hnative => cases hnative

/-- A parameter that is read as its declared type gives what the fetch
converted. It has gone back into a box by then and comes out of it as it was. -/
theorem Fetched.get_declared (h : Fetched rule exceptionCapable decls arguments params)
    {position : Nat} {decl : ParamDecl} {argument : Value} {native : NativeType}
    (hdecl : decls[position]? = some decl) (hargument : arguments[position]? = some argument)
    (hnative : decl.type.native? = some native) :
    ∃ x, native.coerce rule argument = .ok x ∧ params.get native position = .ok x := by
  obtain ⟨slot, hslot, hof⟩ := h.exists_slot hdecl hargument
  cases hof with
  | boxed hmixed =>
    rw [hnative] at hmixed
    cases hmixed
  | converted hconverted hcoerce =>
    rename_i other x
    obtain rfl : native = other := Option.some.inj (hnative.symm.trans hconverted)
    refine ⟨x, hcoerce, ?_⟩
    rw [get_of_slot hslot]
    change (native.coerce params.rule (native.box x)).mapError BodyError.conversion = .ok x
    rw [NativeType.coerce_box (ParamType.ne_of_native? hnative).2]
    rfl

/-- The argument at a position is there, but its box does not read as the type
declared for it. -/
def Unreadable (decls : List ParamDecl) (boxes : Params) (position : Nat)
    (cause : ConversionError) : Prop :=
  ∃ decl native, decls[position]? = some decl ∧ decl.type.native? = some native ∧
    position < boxes.supplied ∧ boxes.get native position = .error (.conversion cause)

/-- The first argument that does not read as the type declared for it. -/
structure UnreadableFirst (decls : List ParamDecl) (boxes : Params) (position : Nat)
    (cause : ConversionError) : Prop where
  unreadable : Unreadable decls boxes position cause
  first : ∀ earlier < position, ∀ other, ¬ Unreadable decls boxes earlier other

private theorem mapError_eq_conversion_iff {α : Type} {x : Except ConversionError α}
    {cause : ConversionError} :
    x.mapError BodyError.conversion = .error (.conversion cause) ↔ x = .error cause := by
  cases x <;> simp [Except.mapError]

/-- A fetch refuses the arguments that do not read as they are declared, with
the error that reading gives. A mixed parameter is not among them. -/
theorem Fetched.unreadable_iff
    (h : Fetched rule exceptionCapable (decls.map .untyped) arguments boxes) {position : Nat}
    {cause : ConversionError} :
    Unreadable decls boxes position cause ↔ Refuses rule decls arguments position cause := by
  constructor
  · rintro ⟨decl, native, hdecl, hnative, hsupplied, hget⟩
    rw [h.supplied_eq] at hsupplied
    have hargument := List.getElem?_eq_getElem hsupplied
    rw [h.get_untyped hdecl hargument, mapError_eq_conversion_iff] at hget
    exact ⟨decl, native, _, hdecl, hnative, hargument, hget⟩
  · rintro ⟨decl, native, argument, hdecl, hnative, hargument, hcoerce⟩
    obtain ⟨hsupplied, -⟩ := List.getElem?_eq_some_iff.1 hargument
    refine ⟨decl, native, hdecl, hnative, h.supplied_eq ▸ hsupplied, ?_⟩
    rw [h.get_untyped hdecl hargument, mapError_eq_conversion_iff]
    exact hcoerce

private theorem Fetched.unreadableFirst_iff
    (h : Fetched rule exceptionCapable (decls.map .untyped) arguments boxes) {position : Nat}
    {cause : ConversionError} :
    UnreadableFirst decls boxes position cause ↔
      RefusesFirst rule decls arguments position cause := by
  constructor
  · rintro ⟨hunreadable, hfirst⟩
    refine ⟨h.unreadable_iff.1 hunreadable, fun earlier hlt other hrefuses => ?_⟩
    exact hfirst earlier hlt other (h.unreadable_iff.2 hrefuses)
  · rintro ⟨hrefuses, hfirst⟩
    refine ⟨h.unreadable_iff.2 hrefuses, fun earlier hlt other hunreadable => ?_⟩
    exact hfirst earlier hlt other (h.unreadable_iff.1 hunreadable)

/-- What a fetch under declared types comes to, against reading the boxes of the
same fetch without types. -/
structure ReadsAlike (typed : Except FetchError Params) (decls : List ParamDecl)
    (boxes : Params) : Prop where
  /-- It fails at the first box that does not read as it is declared, with the error of reading. -/
  fails_iff : ∀ position cause, typed = .error (.coercion position cause) ↔
    UnreadableFirst decls boxes position cause
  /-- Otherwise each parameter reads as its box does. -/
  same : ∀ params, typed = .ok params → ∀ (position : Nat) (decl : ParamDecl) (native : NativeType),
    decls[position]? = some decl → decl.type.native? = some native → position < boxes.supplied →
    ∃ x, params.get native position = .ok x ∧ boxes.get native position = .ok x

/-- Whatever the declarations are, a typed fetch and reading the boxes agree, if
the number of arguments fits. A wrong number ends both fetches alike. -/
theorem exists_readsAlike (rule : Strictness) (exceptionCapable : Bool)
    (h : FitsArity decls arguments.length) :
    ∃ boxes, fetchTyped rule exceptionCapable (decls.map .untyped) arguments = .ok boxes ∧
      boxes.supplied = arguments.length ∧
      ReadsAlike (fetchTyped rule exceptionCapable decls arguments) decls boxes := by
  obtain ⟨boxes, hfetch, hboxes⟩ := exists_fetched_untyped rule exceptionCapable h
  refine ⟨boxes, hfetch, hboxes.supplied_eq, fun position cause => ?_, ?_⟩
  · rw [fetchTyped_eq_coercion_iff, hboxes.unreadableFirst_iff]
    exact and_iff_right h
  · intro params htyped position decl native hdecl hnative hsupplied
    rw [hboxes.supplied_eq] at hsupplied
    have hargument := List.getElem?_eq_getElem hsupplied
    obtain ⟨x, hcoerce, hget⟩ :=
      (fetchTyped_eq_ok_iff.1 htyped).2.get_declared hdecl hargument hnative
    refine ⟨x, hget, ?_⟩
    rw [hboxes.get_untyped hdecl hargument, hcoerce]
    rfl

/-- Declaring a type and reading a mixed parameter agree. One argument under a
declared type is refused with an error exactly when its box, fetched as mixed,
reads as the native type with that error; when it is accepted, its slot reads as
the native that its box reads as. The same holds of each position of every
frame, and then the first box that does not read decides. -/
theorem declared_reads_as_mixed (rule : Strictness) (exceptionCapable : Bool) :
    (∀ (decl : ParamDecl) (native : NativeType) (argument : Value),
      decl.type.native? = some native →
      ∃ boxes, fetchTyped rule exceptionCapable [decl.untyped] [argument] = .ok boxes ∧
        (∀ cause, fetchTyped rule exceptionCapable [decl] [argument] = .error (.coercion 0 cause) ↔
          boxes.get native 0 = .error (.conversion cause)) ∧
        ∀ params, fetchTyped rule exceptionCapable [decl] [argument] = .ok params →
          ∃ x, params.get native 0 = .ok x ∧ boxes.get native 0 = .ok x) ∧
    ∀ (decls : List ParamDecl) (arguments : List Value), FitsArity decls arguments.length →
      ∃ boxes, fetchTyped rule exceptionCapable (decls.map .untyped) arguments = .ok boxes ∧
        boxes.supplied = arguments.length ∧
        ReadsAlike (fetchTyped rule exceptionCapable decls arguments) decls boxes := by
  refine ⟨fun decl native argument hnative => ?_, fun decls arguments hfits => ?_⟩
  · have hfits : FitsArity [decl] [argument].length := by
      refine ⟨?_, Nat.le_refl 1⟩
      exact (List.takeWhile_sublist _).length_le
    obtain ⟨boxes, hfetch, hsupplied, halike⟩ := exists_readsAlike rule exceptionCapable hfits
    have hzero : 0 < boxes.supplied := hsupplied ▸ Nat.one_pos
    refine ⟨boxes, hfetch, fun cause => ?_, fun params htyped => ?_⟩
    · rw [halike.fails_iff]
      constructor
      · rintro ⟨⟨other, found, hdecl, hfound, -, hget⟩, -⟩
        cases hdecl
        rw [hnative] at hfound
        cases hfound
        exact hget
      · intro hget
        refine ⟨⟨decl, native, rfl, hnative, hzero, hget⟩, fun earlier hlt => ?_⟩
        exact absurd hlt earlier.not_lt_zero
    · exact halike.same params htyped 0 decl native rfl hnative hzero
  · exact exists_readsAlike rule exceptionCapable hfits

/-- A text for an unsigned octet: the fetch cuts 321 down to 65, and reading the
mixed box does. -/
theorem declared_reads_as_mixed_octet :
    ∃ params boxes x,
      fetchTyped .strict false [.required "level" .uchar] [.string "321"] = .ok params ∧
      fetchTyped .strict false [.required "level" .mixed] [.string "321"] = .ok boxes ∧
      params.get .uint8 0 = .ok x ∧ boxes.get .uint8 0 = .ok x := by
  obtain ⟨boxes, hboxes, -, hsame⟩ := (declared_reads_as_mixed .strict false).1
    (.required "level" .uchar) .uint8 (.string "321") rfl
  have htyped : fetchTyped .strict false [.required "level" .uchar] [.string "321"] =
      .ok ⟨[.native ⟨.uint8, (65 : UInt8)⟩], 1, false, .strict⟩ := by rfl
  obtain ⟨x, hget, hread⟩ := hsame _ htyped
  exact ⟨_, boxes, x, htyped, hboxes, hget, hread⟩

end Params

end NativeBridge
