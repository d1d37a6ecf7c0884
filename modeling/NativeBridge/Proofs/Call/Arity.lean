import NativeBridge.Proofs.Call.Offsets
import NativeBridge.Proofs.Call.Spelling
import NativeBridge.Proofs.Params.Required

namespace NativeBridge

/-- A method that tells of as many parameters to be supplied as it has lets none
be left out. In general the leading ones alone have to be supplied. -/
theorem Method.leadingRequired_eq {σ ω : Type} {method : Method σ ω}
    (h : method.requiredCount = method.maxCount) :
    Params.leadingRequired method.params = method.maxCount := by
  have hall : ∀ decl ∈ method.params, decl.optional = false := by
    simpa using List.countP_eq_length.1 h
  have hordered : Params.RequiredFirst method.params :=
    List.pairwise_of_forall_mem_list fun earlier hearlier _ _ _ => hall earlier hearlier
  exact hordered.leadingRequired_eq.trans h

namespace NativeClass

variable {σ ω : Type} {declared : List Capability} {cls : NativeClass σ ω}

/-- What a name that a contract asks for is bound to takes as many parameters as
the contract says. A method with other numbers is a gap, and the name is not
bound. -/
theorem Tracks.counts_of_bind (h : Tracks declared cls) {taker : Capability}
    (htaker : InForce declared taker) {required : RequiredMethod}
    (hrequired : required ∈ taker.requiredMethods) {called : String}
    (hname : Text.SameName required.name called) {method : Method σ ω}
    (hbind : cls.bind called = .ok method) :
    method.requiredCount = required.arity ∧ method.maxCount = required.arity := by
  obtain ⟨gap, -, hends⟩ | ⟨-, -, hends⟩ | ⟨found, hnogap, hfound, hends⟩ :=
    cls.bind_cases called <;> rw [hends] at hbind <;> cases hbind
  obtain ⟨other, hother, hcounts⟩ := h.exists_method? hnogap htaker hrequired hname
  rw [hfound] at hother
  cases hother
  exact hcounts

end NativeClass

namespace Host

variable {σ ω : Type} {host : Host σ ω} {className : String} {method : Method σ ω} {frame : Frame}

/-- A call ended because of the number of its arguments. -/
def FailsAtArity (ended : Except CallError Value) : Prop :=
  ∃ className method required max supplied,
    ended = .error (.arity className method required max supplied)

private theorem not_failsAtArity_bodyOutcome (className : String) (method : Method σ ω)
    (ended : Except BodyError Unit × CallState σ ω) :
    ¬ FailsAtArity (bodyOutcome className method ended) := by
  rintro ⟨_, _, _, _, _, harity⟩
  unfold bodyOutcome at harity
  cases hended : ended.1 with
  | ok _ | error _ =>
    rw [hended] at harity
    cases harity

variable [NativeState σ]

/-- Once the body runs, nothing ends a call because of the number of its
arguments: neither what the body does nor the scopes it leaves open. -/
theorem Accepts.not_failsAtArity (h : Accepts host.options.strictness method frame)
    (className : String) : ¬ FailsAtArity (host.invokeMethod className method frame).1 := by
  obtain ⟨input, hprepare, _⟩ := h.prepare_eq className
  have hrun := runCall_of_prepare_ok hprepare
  have hbody := not_failsAtArity_bodyOutcome className method
    (method.body.run input (host.enter method))
  obtain ⟨value, _, _, hends⟩ | ⟨value, imbalance, _, _, hends⟩ | ⟨error, houtcome, _, hends⟩ |
    ⟨error, imbalance, _, _, hends⟩ := invokeMethod_cases hrun <;> rw [hends]
  · rintro ⟨_, _, _, _, _, ⟨⟩⟩
  · rintro ⟨_, _, _, _, _, ⟨⟩⟩
  · rwa [houtcome] at hbody
  · rintro ⟨_, _, _, _, _, ⟨⟩⟩

/-- Once the receiver is accepted, a number of arguments that the parameters
cannot take ends the call with the numbers that they can. -/
theorem fst_invokeMethod_of_not_fits (husable : frame.HasUsableReceiver)
    (hreceiver : HasReceiver method frame)
    (hfits : ¬ Params.FitsArity method.params frame.arguments.length) :
    (host.invokeMethod className method frame).1 =
      .error (.arity className method.name (Params.leadingRequired method.params)
        method.params.length frame.arguments.length) :=
  congrArg Prod.fst (FirstObstacle.arity husable hreceiver hfits).invokeMethod_eq

/-- With a receiver that is accepted, a call fails for the number of its
arguments exactly where the fetch refuses this number, before it looks at any of
them. -/
theorem failsAtArity_iff (husable : frame.HasUsableReceiver)
    (hreceiver : HasReceiver method frame) :
    FailsAtArity (host.invokeMethod className method frame).1 ↔
      ¬ Params.FitsArity method.params frame.arguments.length := by
  constructor
  · intro harity hfits
    obtain haccepts | ⟨error, hfirst⟩ :=
      accepts_or_firstObstacle host.options.strictness className method frame
    · exact haccepts.not_failsAtArity className harity
    · rw [hfirst.invokeMethod_eq] at harity
      obtain ⟨_, _, _, _, _, herror⟩ := harity
      cases herror
      cases hfirst with
      | arity _ _ hnot => exact hnot hfits
  · exact fun hfits => ⟨_, _, _, _, _, fst_invokeMethod_of_not_fits husable hreceiver hfits⟩

/-- For every class, a method that a capability in force asks for, once it is
bound under some spelling, is called with the contract's number of arguments or
fails for their number, and then names the contract's. How its parameters were
declared makes no difference. -/
theorem contract_arity_exact {declared : List Capability} {cls : NativeClass σ ω}
    (hcls : NativeClass.Assembled declared cls) {taker : Capability}
    (htaker : NativeClass.InForce declared taker) {required : RequiredMethod}
    (hrequired : required ∈ taker.requiredMethods) {called : String}
    (hname : EqualIgnoringCase required.name called) (hbind : cls.bind called = .ok method)
    (host : Host σ ω) (husable : frame.HasUsableReceiver)
    (hreceiver : HasReceiver method frame) :
    (FailsAtArity (host.invoke cls called frame).1 ↔ frame.arguments.length ≠ required.arity) ∧
    (frame.arguments.length ≠ required.arity → (host.invoke cls called frame).1 =
      .error (.arity cls.name.text method.name required.arity required.arity
        frame.arguments.length)) := by
  obtain ⟨hcount, hmax⟩ :=
    hcls.tracks.counts_of_bind htaker hrequired (sameName_iff.2 hname) hbind
  have hleading : Params.leadingRequired method.params = required.arity :=
    (Method.leadingRequired_eq (hcount.trans hmax.symm)).trans hmax
  have hlength : method.params.length = required.arity := hmax
  have hfits : Params.FitsArity method.params frame.arguments.length ↔
      frame.arguments.length = required.arity := by
    rw [Params.FitsArity, hleading, hlength]
    omega
  rw [invoke_of_ok hbind]
  constructor
  · rw [failsAtArity_iff husable hreceiver, hfits]
  · intro hne
    rw [fst_invokeMethod_of_not_fits husable hreceiver (mt hfits.1 hne), hleading, hlength]

end Host

/-- A class of shelves that has yet to declare what it can do. -/
def Shelf.bareClass : NativeClass Sample Unit where
  name := .inside "" "Shelf"
  parent := none
  capabilities := .empty
  methods := NativeClass.ownMethods (ClassName.inside "" "Shelf").identity
    (MethodTable.empty.withArrayAccess Shelf.kind)
  properties := []
  distinct := NativeClass.distinct_ownMethods (MethodTable.firstRepeat?_nil_eq_none_iff.1 rfl)

/-- Storing at an offset takes the offset and a value. A call without the value
fails for the number of its arguments; with both it does not, whatever else
becomes of it. -/
theorem Host.contract_arity_exact_shelf :
    (Shelf.host.invoke (Shelf.bareClass.withCapability .arrayAccess) "OFFSETSET"
      ⟨some (.bare Shelf.receiver), [.int 0]⟩).1 = .error (.arity "Shelf" "offsetSet" 2 2 1) ∧
    ¬ FailsAtArity (Shelf.host.invoke (Shelf.bareClass.withCapability .arrayAccess) "OFFSETSET"
      ⟨some (.bare Shelf.receiver), [.int 0, .null]⟩).1 := by
  have hregister : NativeClass.register "Shelf" "" (MethodTable.empty.withArrayAccess Shelf.kind) =
      .ok Shelf.bareClass := by rfl
  have hassembled := (NativeClass.Assembled.registered hregister).capability .arrayAccess
  have hinForce : NativeClass.InForce [.arrayAccess] .arrayAccess :=
    ⟨.arrayAccess, List.mem_singleton_self _, .inl rfl⟩
  have hrequired : ⟨"offsetSet", 2⟩ ∈ Capability.arrayAccess.requiredMethods := by decide
  have hname : EqualIgnoringCase "offsetSet" "OFFSETSET" := sameName_iff.1 (by decide)
  obtain ⟨found, hbind, hfound⟩ : ∃ found,
      (Shelf.bareClass.withCapability .arrayAccess).bind "OFFSETSET" = .ok found ∧
        found.name = "offsetSet" := ⟨_, rfl, rfl⟩
  have husable : ∀ arguments,
      Frame.HasUsableReceiver ⟨some (.bare Shelf.receiver), arguments⟩ := by
    rintro arguments value ⟨⟩
  constructor
  · have hshort := (contract_arity_exact hassembled hinForce hrequired hname hbind Shelf.host
      (husable [.int 0]) fun _ => rfl).2 (by decide)
    rw [hshort, hfound]
    rfl
  · have hboth := (contract_arity_exact hassembled hinForce hrequired hname hbind Shelf.host
      (husable [.int 0, .null]) fun _ => rfl).1
    exact fun harity => hboth.1 harity rfl

end NativeBridge
