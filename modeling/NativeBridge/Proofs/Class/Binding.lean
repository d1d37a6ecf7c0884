import NativeBridge.Dispatch
import NativeBridge.Sample.State
import NativeBridge.Proofs.Class.Contracts
import NativeBridge.Proofs.Registry.Growth

namespace NativeBridge

variable {σ ω : Type}

namespace NativeClass

/-- A name runs into a gap, or it has no method, or it has one. The gap counts
before the method, so a method that is there may be out of reach. -/
theorem bind_cases (cls : NativeClass σ ω) (called : String) :
    (∃ gap, cls.gapFor? called = some gap ∧
      cls.bind called =
        .error (.contractViolation cls.name.text gap.capability.hostName gap.missing)) ∨
    (cls.gapFor? called = none ∧ cls.method? called = none ∧
      cls.bind called = .error (.unknownMethod cls.name.text called)) ∨
    ∃ found, cls.gapFor? called = none ∧ cls.method? called = some found ∧
      cls.bind called = .ok found := by
  unfold bind
  cases cls.gapFor? called with
  | some gap => exact .inl ⟨gap, rfl, rfl⟩
  | none =>
    cases cls.method? called with
    | none => exact .inr (.inl ⟨rfl, rfl, rfl⟩)
    | some found => exact .inr (.inr ⟨found, rfl, rfl, rfl⟩)

/-- A call of the name ends in a violated contract. -/
def Violates (cls : NativeClass σ ω) (called : String) : Prop :=
  ∃ className capability missing,
    cls.bind called = .error (.contractViolation className capability missing)

/-- What a name is bound to, said in terms of the declared capabilities and the
method table. Nothing in it refers to the gaps that a class has cached. -/
structure BindsExactly (declared : List Capability) (cls : NativeClass σ ω) (called : String) :
    Prop where
  /-- A contract is violated when the table is deficient in a capability that the call depends on. -/
  violates_iff : cls.Violates called ↔
    ∃ c, DependsOn declared called c ∧ cls.methods.Deficient c
  /-- The first such capability is named, with all that is missing of it. -/
  names_first : ∀ className capability missing,
    cls.bind called = .error (.contractViolation className capability missing) →
      className = cls.name.text ∧
        ∃ c, cls.methods.FirstDeficient (DependsOn declared called) c ∧
          capability = c.hostName ∧ missing = cls.methods.lacking c
  /-- Otherwise a name that no method has is unknown. -/
  unknown_iff : ¬ cls.Violates called →
    (cls.bind called = .error (.unknownMethod cls.name.text called) ↔
      ∀ method ∈ cls.methods, ¬ Text.SameName method.name called)
  /-- A name that a method has finds this method. -/
  found : ¬ cls.Violates called → ∀ method ∈ cls.methods, Text.SameName method.name called →
    cls.bind called = .ok method
  /-- A method that a capability in force takes is never unknown. -/
  required_known : ∀ taker, InForce declared taker →
    (∃ required ∈ taker.requiredMethods, Text.SameName required.name called) →
      ∀ className name, cls.bind called ≠ .error (.unknownMethod className name)

/-- A call of a name violates a contract exactly when the class has a gap for
it. An unknown method is no violation. -/
theorem violates_iff_gapFor? {cls : NativeClass σ ω} {called : String} :
    cls.Violates called ↔ cls.gapFor? called ≠ none := by
  unfold Violates
  obtain ⟨gap, hgap, hbind⟩ | ⟨hgap, -, hbind⟩ | ⟨found, hgap, -, hbind⟩ := cls.bind_cases called <;>
    simp [hgap, hbind]

/-- Where a call runs into no gap, a method that a capability in force takes is
there, with the number of parameters that the contract asks for. -/
theorem Tracks.exists_method? {declared : List Capability} {cls : NativeClass σ ω}
    (h : Tracks declared cls) {called : String} (hnogap : cls.gapFor? called = none)
    {taker : Capability} (htaker : InForce declared taker) {required : RequiredMethod}
    (hrequired : required ∈ taker.requiredMethods)
    (hname : Text.SameName required.name called) :
    ∃ method, cls.method? called = some method ∧ method.requiredCount = required.arity ∧
      method.maxCount = required.arity := by
  have hdepends : DependsOn declared called taker :=
    ⟨taker, htaker, ⟨required, hrequired, hname⟩, .inl rfl⟩
  have hprovided : ¬ cls.methods.Lacks required := fun hlacks =>
    h.gapFor?_eq_none_iff.1 hnogap taker hdepends ⟨required, hrequired, hlacks⟩
  simp only [MethodTable.Lacks, not_forall, not_not] at hprovided
  obtain ⟨method, hmem, hsame, hcounts⟩ := hprovided
  exact ⟨method, cls.distinct.find?_eq_some_iff.2 ⟨hmem, hsame.trans hname⟩, hcounts⟩

private theorem Tracks.method?_ne_none {declared : List Capability} {cls : NativeClass σ ω}
    (h : Tracks declared cls) {called : String} (hnogap : cls.gapFor? called = none)
    {taker : Capability} (htaker : InForce declared taker) {required : RequiredMethod}
    (hrequired : required ∈ taker.requiredMethods)
    (hname : Text.SameName required.name called) : cls.method? called ≠ none := by
  obtain ⟨method, hmethod, _⟩ := h.exists_method? hnogap htaker hrequired hname
  rw [hmethod]
  exact Option.some_ne_none method

/-- A class whose declared capabilities are known binds every name as those
capabilities and the table say. How often it was asked for its gaps is no part
of it. -/
theorem Tracks.bindsExactly {declared : List Capability} {cls : NativeClass σ ω}
    (h : Tracks declared cls) (called : String) : BindsExactly declared cls called where
  violates_iff := by
    rw [violates_iff_gapFor?, ne_eq, h.gapFor?_eq_none_iff]
    simp only [not_forall, not_not, exists_prop]
  names_first := by
    intro className capability missing hviolation
    obtain ⟨gap, hgap, hbind⟩ | ⟨-, -, hbind⟩ | ⟨found, -, -, hbind⟩ := cls.bind_cases called <;>
      rw [hbind] at hviolation <;> cases hviolation
    obtain ⟨hfirst, hmissing⟩ := h.gapFor?_eq_some_iff.1 hgap
    exact ⟨rfl, gap.capability, hfirst, rfl, hmissing⟩
  unknown_iff := by
    intro hok
    rw [violates_iff_gapFor?, not_not] at hok
    rw [← MethodTable.find?_eq_none_iff, bind, hok]
    change _ ↔ cls.method? called = none
    cases cls.method? called <;> simp
  found := by
    intro hok method hmem hname
    rw [violates_iff_gapFor?, not_not] at hok
    have hfound : cls.method? called = some method :=
      cls.distinct.find?_eq_some_iff.2 ⟨hmem, hname⟩
    rw [bind, hok, hfound]
  required_known := by
    rintro taker htaker ⟨required, hrequired, hname⟩ className name hunknown
    obtain ⟨gap, -, hbind⟩ | ⟨hnogap, hnone, -⟩ | ⟨found, -, -, hbind⟩ := cls.bind_cases called
    · rw [hbind] at hunknown
      cases hunknown
    · exact h.method?_ne_none hnogap htaker hrequired hname hnone
    · rw [hbind] at hunknown
      cases hunknown

/-- Some call runs into a gap exactly when a capability in force is not provided
in full. Both checks of contracts rest on this. -/
theorem Tracks.exists_violates_iff {declared : List Capability} {cls : NativeClass σ ω}
    (h : Tracks declared cls) :
    (∃ called, cls.Violates called) ↔ ∃ c, InForce declared c ∧ cls.methods.Deficient c := by
  constructor
  · rintro ⟨called, hviolates⟩
    obtain ⟨c, hdepends, hdeficient⟩ := (h.bindsExactly called).violates_iff.1 hviolates
    exact ⟨c, hdepends.inForce, hdeficient⟩
  · rintro ⟨c, hc, required, hrequired, hlacks⟩
    -- The missing method itself is a call that depends on the capability.
    refine ⟨required.name, (h.bindsExactly required.name).violates_iff.2 ⟨c, ?_, ?_⟩⟩
    · exact ⟨c, hc, ⟨required, hrequired, .refl _⟩, .inl rfl⟩
    · exact ⟨required, hrequired, hlacks⟩

end NativeClass

/-- An eager registry that has room for a class looks at its first gap and at
nothing else. The premises rule out the two errors that come before. -/
theorem Registry.install_eq_of_eager {registry : Registry σ ω} (heager : registry.eager = true)
    {cls : NativeClass σ ω} (hunused : registry.ofIdentity? cls.identity = none)
    (hparent : ∀ parent, cls.parent = some parent → registry.ofIdentity? parent.identity ≠ none) :
    registry.install cls =
      match cls.gaps.head? with
      | some gap =>
        .error (.contractViolation cls.name.text gap.capability.hostName gap.missing)
      | none => .ok { registry with classes := cls :: registry.classes } := by
  have hinstall := install_of_unused hunused hparent
  rw [if_pos heager] at hinstall
  exact hinstall

/-- Which classes a registry refuses over their contracts: those for which some
call would be bound to a violated one. -/
structure Registry.RefusesExactly (registry : Registry σ ω) (declared : List Capability)
    (cls : NativeClass σ ω) : Prop where
  refuses_iff :
    (∃ className capability missing,
      registry.install cls = .error (.contractViolation className capability missing)) ↔
      ∃ called, cls.Violates called
  /-- The first capability in force that the table is deficient in is named. -/
  names_first : ∀ className capability missing,
    registry.install cls = .error (.contractViolation className capability missing) →
      className = cls.name.text ∧
        ∃ c, cls.methods.FirstDeficient (NativeClass.InForce declared) c ∧
          capability = c.hostName ∧ missing = cls.methods.lacking c
  installs : (∀ called, ¬ cls.Violates called) →
    registry.install cls = .ok { registry with classes := cls :: registry.classes }

/-- An eager registry refuses exactly the classes that a lazy one lets run into
a violated contract, and names the first capability that is not provided. -/
theorem NativeClass.Tracks.refusesExactly {registry : Registry σ ω}
    (heager : registry.eager = true) {declared : List Capability} {cls : NativeClass σ ω}
    (h : Tracks declared cls) (hunused : registry.ofIdentity? cls.identity = none)
    (hparent : ∀ parent, cls.parent = some parent → registry.ofIdentity? parent.identity ≠ none) :
    registry.RefusesExactly declared cls := by
  have hinstall := Registry.install_eq_of_eager heager hunused hparent
  cases hgap : cls.gaps.head? with
  | none =>
    have hnone : ¬ ∃ called, cls.Violates called := by
      rw [h.exists_violates_iff]
      rintro ⟨c, hc, hdeficient⟩
      exact h.head?_gaps_eq_none_iff.1 hgap c hc hdeficient
    rw [hgap] at hinstall
    refine ⟨?_, ?_, fun _ => hinstall⟩ <;> simp [hinstall, hnone]
  | some gap =>
    obtain ⟨hfirst, hmissing⟩ := h.head?_gaps_eq_some_iff.1 hgap
    have hsome : ∃ called, cls.Violates called :=
      h.exists_violates_iff.2 ⟨gap.capability, hfirst.holds, hfirst.deficient⟩
    rw [hgap] at hinstall
    refine ⟨⟨fun _ => hsome, fun _ => ⟨_, _, _, hinstall⟩⟩, ?_, fun hno => ?_⟩
    · intro className capability missing hrefused
      rw [hinstall] at hrefused
      cases hrefused
      exact ⟨rfl, gap.capability, hfirst, rfl, hmissing⟩
    · obtain ⟨called, hviolates⟩ := hsome
      exact absurd hviolates (hno called)

/-- For every class that can be put together, whenever it was asked for its
gaps, each name is bound as the declared capabilities and the method table say,
and an eager registry refuses the class exactly when a lazy one lets some call
run into a violated contract. -/
theorem NativeClass.contracts_exact {declared : List Capability} {cls : NativeClass σ ω}
    (h : Assembled declared cls) :
    (∀ called, BindsExactly declared cls called) ∧
      ∀ registry : Registry σ ω, registry.eager = true →
        registry.ofIdentity? cls.identity = none →
        (∀ parent, cls.parent = some parent →
          registry.ofIdentity? parent.identity ≠ none) →
        registry.RefusesExactly declared cls := by
  have htracks := h.tracks
  refine ⟨fun called => htracks.bindsExactly called, ?_⟩
  intro registry heager hunused hparent
  exact htracks.refusesExactly heager hunused hparent

/-- A method without effect. -/
def idle (name : String) (params : List ParamDecl) : Method Sample Unit :=
  .declare name params .none (pure ())

/-- The methods of a seekable iterator, but `valid` takes a parameter too
many. -/
def reelTable : MethodTable Sample Unit :=
  [idle "count" [], idle "Seek" [.required "offset" .long], idle "current" [], idle "key" [],
    idle "next" [], idle "rewind" [], idle "valid" [⟨"from", .long, true⟩]]

/-- A class with these methods, before any capability is declared. -/
def reel : NativeClass Sample Unit where
  name := .inside "" "Reel"
  parent := none
  capabilities := .empty
  methods := NativeClass.ownMethods (ClassName.inside "" "Reel").identity reelTable
  properties := []
  distinct := NativeClass.distinct_ownMethods (MethodTable.firstRepeat?_nil_eq_none_iff.1 rfl)

/-- The class with two capabilities. It is asked for its gaps between the
declarations. -/
def seekableReel : NativeClass Sample Unit :=
  (reel.withCapability .countable).askGaps.2.withCapability .seekableIterator

private theorem assembled_seekableReel :
    NativeClass.Assembled [.seekableIterator, .countable] seekableReel := by
  have hreel : NativeClass.register "Reel" "" reelTable = .ok reel := by rfl
  exact (((NativeClass.Assembled.registered hreel).capability .countable).asked).capability _

/-- A call of `SEEK` depends on the whole iterator, of which `valid` is not
right; a call of `COUNT` does not. -/
theorem contracts_exact_reel :
    NativeClass.Assembled [.seekableIterator, .countable] seekableReel ∧
    seekableReel.Violates "SEEK" ∧ ¬ seekableReel.Violates "COUNT" ∧
    (∃ className capability missing, (Registry.empty true).install seekableReel =
      .error (.contractViolation className capability missing)) := by
  obtain ⟨hbinds, heager⟩ := NativeClass.contracts_exact assembled_seekableReel
  have hseek : seekableReel.Violates "SEEK" := by
    refine (hbinds "SEEK").violates_iff.2 ⟨.iterator, ⟨.seekableIterator, ?_, ?_, ?_⟩, ?_⟩
    · exact ⟨.seekableIterator, by simp, .inl rfl⟩
    · decide +kernel
    · decide
    · decide +kernel
  have hcount : ¬ seekableReel.Violates "COUNT" := by
    rw [(hbinds "COUNT").violates_iff]
    rintro ⟨c, ⟨taker, -, htakes, hc⟩, hdeficient⟩
    obtain rfl : taker = .countable := by
      revert htakes
      cases taker <;> decide +kernel
    obtain rfl | ⟨-, hextends⟩ := hc
    · revert hdeficient
      decide +kernel
    · simp at hextends
  have hrefuses := heager (Registry.empty true) rfl rfl (fun parent hparent => by cases hparent)
  exact ⟨assembled_seekableReel, hseek, hcount, hrefuses.refuses_iff.2 ⟨"SEEK", hseek⟩⟩

end NativeBridge
