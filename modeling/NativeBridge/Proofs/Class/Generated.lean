import NativeBridge.Method.Contract
import NativeBridge.Proofs.Call.Channel

namespace NativeBridge

variable {σ ω : Type}

namespace MethodTable

section Generating

variable [NativeState σ]

/-- A step that adds the methods of a capability, for any native state that has
it. -/
inductive Generates : Capability → (MethodTable σ ω → MethodTable σ ω) → Prop
  | countable {α : Type} (kind : StateKind σ α) [Counts α] :
      Generates .countable (withCountable kind)
  | iterator {α : Type} (kind : StateKind σ α) [Iterates α] :
      Generates .iterator (withIterator kind)
  | outerIterator {α : Type} (kind : StateKind σ α) [WrapsIterator α] :
      Generates .outerIterator (withOuterIterator kind)
  | recursiveIterator {α : Type} (kind : StateKind σ α) [IteratesChildren α] :
      Generates .recursiveIterator (withRecursiveIterator kind)
  | seekableIterator {α : Type} (kind : StateKind σ α) [Seeks α] :
      Generates .seekableIterator (withSeekableIterator kind)
  | aggregate {α : Type} (kind : StateKind σ α) [ProvidesIterator α] :
      Generates .aggregate (withAggregate kind)
  | arrayAccess {α : Type} (kind : StateKind σ α) [HasOffsets α] :
      Generates .arrayAccess (withArrayAccess kind)
  | serializable {α : Type} (kind : StateKind σ α) [Serializes α] :
      Generates .serializable (withSerializable kind)

/-- A table that was built from the methods of capabilities, in any order and
with any methods besides. The list holds the capabilities, the last one
first. -/
inductive Generated : List Capability → MethodTable σ ω → Prop
  | empty : Generated [] empty
  | generate {used : List Capability} {table : MethodTable σ ω} (h : Generated used table)
      {c : Capability} {step : MethodTable σ ω → MethodTable σ ω} (hstep : Generates c step) :
      Generated (c :: used) (step table)
  | add {used : List Capability} {table : MethodTable σ ω} (h : Generated used table)
      (method : Method σ ω) : Generated used (table.add method)

private theorem Generates.eq_append {c : Capability} {step : MethodTable σ ω → MethodTable σ ω}
    (h : Generates c step) (table : MethodTable σ ω) : step table = table ++ step empty := by
  cases h <;>
    simp [withCountable, withIterator, withOuterIterator, withRecursiveIterator,
      withSeekableIterator, withAggregate, withArrayAccess, withSerializable, instanceMethod, add,
      empty]

/-- The methods of a capability and what its contract asks for are the same list
of names and numbers of parameters. The native state has no say in it. -/
theorem Generates.signatures_eq {c : Capability} {step : MethodTable σ ω → MethodTable σ ω}
    (h : Generates c step) :
    (step empty).map (fun method => (method.name, method.requiredCount, method.maxCount)) =
      c.requiredMethods.map fun required => (required.name, required.arity, required.arity) := by
  cases h <;> rfl

/-- The table has every method that one of its capabilities takes. Later steps
only append, so it does not matter when the capability's turn was. -/
theorem Generated.exists_mem {used : List Capability} {table : MethodTable σ ω}
    (h : Generated used table) {c : Capability} (hc : c ∈ used) {required : RequiredMethod}
    (hrequired : required ∈ c.requiredMethods) :
    ∃ method ∈ table, method.name = required.name ∧ method.requiredCount = required.arity ∧
      method.maxCount = required.arity := by
  induction h with
  | empty => cases hc
  | generate h hstep ih =>
    rw [hstep.eq_append]
    obtain rfl | hc := List.mem_cons.1 hc
    · have hmem := List.mem_map_of_mem (f := fun r => (r.name, r.arity, r.arity)) hrequired
      rw [← hstep.signatures_eq, List.mem_map] at hmem
      obtain ⟨method, hmethod, hsignature⟩ := hmem
      simp only [Prod.mk.injEq] at hsignature
      exact ⟨method, List.mem_append_right _ hmethod, hsignature⟩
    · obtain ⟨method, hmethod, hsignature⟩ := ih hc
      exact ⟨method, List.mem_append_left _ hmethod, hsignature⟩
  | add h other ih =>
    obtain ⟨method, hmethod, hsignature⟩ := ih hc
    exact ⟨method, List.mem_append_left _ hmethod, hsignature⟩

end Generating

/-- The table after names were removed one after the other. -/
def withoutAll (table : MethodTable σ ω) (names : List String) : MethodTable σ ω :=
  names.foldl without table

private theorem mem_withoutAll_iff {table : MethodTable σ ω} {names : List String}
    {method : Method σ ω} :
    method ∈ table.withoutAll names ↔
      method ∈ table ∧ ∀ name ∈ names, ¬ Text.SameName method.name name := by
  induction names generalizing table with
  | nil => simp [withoutAll]
  | cons name rest ih =>
    change method ∈ (table.without name).withoutAll rest ↔ _
    rw [ih, without, List.mem_filter, List.forall_mem_cons, and_assoc]
    simp

/-- Removing methods from a table without a repeated name leaves one without a
repeated name. -/
theorem Distinct.withoutAll {table : MethodTable σ ω} (h : table.Distinct)
    (names : List String) : (table.withoutAll names).Distinct := by
  induction names generalizing table with
  | nil => exact h
  | cons name rest ih =>
    have hwithout : (table.without name).Distinct := h.sublist (List.filter_sublist.map _)
    exact ih hwithout

private theorem lacks_ownMethods_iff {owner : Identity} {table : MethodTable σ ω}
    {required : RequiredMethod} :
    (NativeClass.ownMethods owner table).Lacks required ↔ table.Lacks required := by
  simp [Lacks, NativeClass.ownMethods, Method.requiredCount, Method.maxCount]

/-- Of what a capability takes, a table that was generated for it lacks what was
removed. A removed name counts in any spelling, and one that no method has
removes nothing. -/
theorem Generated.lacks_withoutAll_iff [NativeState σ] {used : List Capability}
    {table : MethodTable σ ω} (h : Generated used table) {c : Capability} (hc : c ∈ used)
    {required : RequiredMethod} (hrequired : required ∈ c.requiredMethods)
    {names : List String} :
    (table.withoutAll names).Lacks required ↔
      ∃ name ∈ names, Text.SameName required.name name := by
  constructor
  · intro hlacks
    obtain ⟨method, hmem, hname, hcounts⟩ := h.exists_mem hc hrequired
    by_contra hkept
    push Not at hkept
    rw [← hname] at hkept
    exact hlacks method (mem_withoutAll_iff.2 ⟨hmem, hkept⟩) (hname ▸ .refl _) hcounts
  · rintro ⟨name, hname, hremoved⟩ method hmem hsame
    exact absurd (hsame.trans hremoved) ((mem_withoutAll_iff.1 hmem).2 name hname)

end MethodTable

/-- Those of a capability's methods that are among removed names, in the order
of the contract. -/
def Capability.removed (c : Capability) (names : List String) : List String :=
  (c.requiredMethods.filter fun required =>
    decide (∃ name ∈ names, Text.SameName required.name name)).map RequiredMethod.name

private theorem Capability.removed_nil (c : Capability) : c.removed [] = [] := by
  simp [removed]

namespace NativeClass

instance (declared : List Capability) (c : Capability) : Decidable (InForce declared c) :=
  inferInstanceAs (Decidable (∃ d ∈ declared, _))

/-- The gaps that removing names tears: at each capability in force with a
removed method, in the canonical order. -/
def removedGaps (declared : List Capability) (names : List String) : List ContractGap :=
  (Capability.all.filter fun c => decide (InForce declared c ∧ c.removed names ≠ [])).map
    fun c => ⟨c, c.removed names⟩

private theorem removedGaps_nil (declared : List Capability) : removedGaps declared [] = [] := by
  simp [removedGaps, Capability.removed_nil]

/-- Declaring a capability changes no method; the gaps alone may become
others. -/
@[simp]
theorem methods_withCapability (cls : NativeClass σ ω) (c : Capability) :
    (cls.withCapability c).methods = cls.methods := by
  unfold withCapability
  split <;> rfl

@[simp]
theorem identity_withCapability (cls : NativeClass σ ω) (c : Capability) :
    (cls.withCapability c).identity = cls.identity := by
  unfold withCapability
  split <;> rfl

/-- A class that was put together on a table of methods. Capabilities may be
declared on it, and its gaps asked for, in any order. -/
structure AssembledOn (table : MethodTable σ ω) (declared : List Capability)
    (cls : NativeClass σ ω) : Prop where
  assembled : Assembled declared cls
  methods_eq : cls.methods = ownMethods cls.identity table

/-- A class stands on the table it was registered with, before anything is
declared on it. -/
theorem assembledOn_of_register {simple path : String} {table : MethodTable σ ω}
    {cls : NativeClass σ ω} (h : register simple path table = .ok cls) :
    AssembledOn table [] cls := by
  refine ⟨.registered h, ?_⟩
  unfold register at h
  split at h
  · cases h
  · cases h
    rfl

private theorem AssembledOn.withCapability {table : MethodTable σ ω} {declared : List Capability}
    {cls : NativeClass σ ω} (h : AssembledOn table declared cls) (c : Capability) :
    AssembledOn table (c :: declared) (cls.withCapability c) := by
  refine ⟨h.assembled.capability c, ?_⟩
  rw [methods_withCapability, identity_withCapability]
  exact h.methods_eq

/-- The gaps of a class are those of the capabilities in force that its table is
deficient in, each once and in the canonical order. -/
theorem Tracks.gaps_eq_map {declared : List Capability} {cls : NativeClass σ ω}
    (h : Tracks declared cls) :
    cls.gaps = (Capability.all.filter fun c =>
      decide (InForce declared c ∧ cls.methods.lacking c ≠ [])).map
        fun c => ⟨c, cls.methods.lacking c⟩ := by
  rw [h.gaps_eq, findGaps, CapabilitySet.toList, List.filterMap_filter,
    ← List.filterMap_eq_map, List.filterMap_filter]
  refine List.filterMap_congr fun c _ => ?_
  simp only [gapAt?, missing_eq_lacking, h.has_closure_iff, decide_eq_true_eq]
  by_cases hc : InForce declared c
  · by_cases hnothing : cls.methods.lacking c = [] <;> simp [hc, hnothing]
  · simp [hc]

/-- A class on a table that was generated for all that is in force has the gaps
of what was removed. What else the table holds makes no difference. -/
theorem AssembledOn.gaps_eq_removedGaps [NativeState σ] {used declared : List Capability}
    {table : MethodTable σ ω} {names : List String} {cls : NativeClass σ ω}
    (h : AssembledOn (table.withoutAll names) declared cls)
    (hgenerated : MethodTable.Generated used table)
    (hused : ∀ c, InForce declared c → c ∈ used) :
    cls.gaps = removedGaps declared names := by
  have hlacking : ∀ c, InForce declared c → cls.methods.lacking c = c.removed names := by
    intro c hc
    refine congrArg (List.map RequiredMethod.name) (List.filter_congr fun required hrequired => ?_)
    rw [h.methods_eq, decide_eq_decide, MethodTable.lacks_ownMethods_iff,
      hgenerated.lacks_withoutAll_iff (hused c hc) hrequired]
  have hdeficient : ∀ c, (InForce declared c ∧ cls.methods.lacking c ≠ []) ↔
      InForce declared c ∧ c.removed names ≠ [] := by
    intro c
    exact and_congr_right fun hc => by rw [hlacking c hc]
  rw [h.assembled.tracks.gaps_eq_map, removedGaps]
  simp only [hdeficient]
  refine List.map_congr_left fun c hc => ?_
  rw [List.mem_filter, decide_eq_true_eq] at hc
  rw [hlacking c hc.2.1]

/-- Neither an eager registry nor a call complains about the contracts of
a class. -/
structure KeepsContracts [NativeState σ] (cls : NativeClass σ ω) : Prop where
  installs : ∀ registry : Registry σ ω, registry.eager = true →
    registry.ofIdentity? cls.identity = none →
    (∀ parent, cls.parent = some parent → registry.ofIdentity? parent.identity ≠ none) →
    registry.install cls = .ok { registry with classes := cls :: registry.classes }
  invoked : ∀ (host : Host σ ω) (called : String) (frame : Frame)
    (className capability : String) (missing : List String),
    (host.invoke cls called frame).1 ≠ .error (.contractViolation className capability missing)
  /-- The same for calls by a name under which the class is installed. -/
  called : ∀ (bridge : Bridge σ ω) (name called : String) (receiver : Option RawReceiver)
    (arguments : List Value), bridge.registry.get name = .ok cls →
    ∀ (className capability : String) (missing : List String),
    (bridge.call name called receiver arguments).1 ≠
      .error (.call (.contractViolation className capability missing))

/-- A class without gaps keeps its contracts, in every registry that has room
for it and for every name, receiver and list of arguments. -/
theorem keepsContracts_of_gaps_eq_nil [NativeState σ] {cls : NativeClass σ ω}
    (h : cls.gaps = []) : cls.KeepsContracts := by
  have hinvoked : ∀ (host : Host σ ω) called frame className capability missing,
      (host.invoke cls called frame).1 ≠
        .error (.contractViolation className capability missing) := by
    intro host called frame className capability missing hviolation
    rw [Host.fst_invoke_eq_contractViolation_iff] at hviolation
    refine violates_iff_gapFor?.1 ⟨className, capability, missing, hviolation⟩ ?_
    rw [gapFor?, h, List.find?_nil]
  refine ⟨fun registry heager hunused hparent => ?_, hinvoked, ?_⟩
  · rw [Registry.install_eq_of_eager heager hunused hparent, h]
    rfl
  · intro bridge name called receiver arguments hget className capability missing hviolation
    exact hinvoked bridge.host called _ className capability missing
      ((Bridge.fst_call_eq_error_iff hget).1 hviolation)

/-- A class that was put together on a table generated for every capability in
force, with any methods besides and any names removed afterwards: its gaps are
what was removed of the contracts, and if nothing was removed, its contracts are
kept. -/
theorem generated_gaps_exact [NativeState σ] {used declared : List Capability}
    {table : MethodTable σ ω} {names : List String} {cls : NativeClass σ ω}
    (hgenerated : MethodTable.Generated used table) (hused : ∀ c, InForce declared c → c ∈ used)
    (h : AssembledOn (table.withoutAll names) declared cls) :
    cls.gaps = removedGaps declared names ∧ (names = [] → cls.KeepsContracts) := by
  have hgaps := h.gaps_eq_removedGaps hgenerated hused
  refine ⟨hgaps, ?_⟩
  rintro rfl
  exact keepsContracts_of_gaps_eq_nil (hgaps.trans (removedGaps_nil declared))

end NativeClass

/-- Tapes: the step to any position comes before the iterator that it belongs
to, what they count is kept elsewhere, and they have a method that no contract
asks for. -/
def tapeTable : MethodTable Sample Unit :=
  MethodTable.empty
    |>.withSeekableIterator SampleType.bagKind
    |>.add (idle "tell" [⟨"from", .long, true⟩])
    |>.withIterator SampleType.bagKind
    |>.withCountable SampleType.placeholderKind

private theorem generated_tapeTable :
    MethodTable.Generated [.countable, .iterator, .seekableIterator] tapeTable :=
  (((MethodTable.Generated.empty.generate (.seekableIterator _)).add _).generate
    (.iterator _)).generate (.countable _)

/-- The class of tapes without some of its methods. -/
def tape (names : List String) : NativeClass Sample Unit where
  name := .inside "" "Tape"
  parent := none
  capabilities := .empty
  methods := NativeClass.ownMethods (ClassName.inside "" "Tape").identity
    (tapeTable.withoutAll names)
  properties := []
  distinct := NativeClass.distinct_ownMethods
    (MethodTable.Distinct.withoutAll (MethodTable.firstRepeat?_nil_eq_none_iff.1 rfl) names)

/-- Without `valid` a tape does not provide the iterator, which it never
declared by itself; with all its methods it keeps its contracts. -/
theorem generated_gaps_exact_tape :
    (((tape ["VALID", "tell"]).withCapability .seekableIterator).withCapability .countable).gaps =
      [⟨.iterator, ["valid"]⟩] ∧
    (((tape []).withCapability .seekableIterator).withCapability .countable).KeepsContracts := by
  have hused : ∀ c, NativeClass.InForce [.countable, .seekableIterator] c →
      c ∈ [Capability.countable, .iterator, .seekableIterator] := by
    intro c
    cases c <;> decide
  have htape : ∀ names, NativeClass.register "Tape" "" (tapeTable.withoutAll names) =
      .ok (tape names) →
      NativeClass.AssembledOn (tapeTable.withoutAll names) [.countable, .seekableIterator]
        (((tape names).withCapability .seekableIterator).withCapability .countable) :=
    fun _ hregister =>
      ((NativeClass.assembledOn_of_register hregister).withCapability _).withCapability _
  constructor
  · rw [(NativeClass.generated_gaps_exact generated_tapeTable hused
      (htape ["VALID", "tell"] rfl)).1]
    decide +kernel
  · exact (NativeClass.generated_gaps_exact generated_tapeTable hused (htape [] rfl)).2 rfl

end NativeBridge
