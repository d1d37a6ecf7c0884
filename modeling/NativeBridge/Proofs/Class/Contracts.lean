import NativeBridge.Assoc
import NativeBridge.Proofs.Class.Capabilities

namespace NativeBridge

namespace MethodTable

variable {σ ω : Type}

/-- No method of the table has the name and takes exactly the number of
arguments. A method of the name with another number does not count. -/
def Lacks (table : MethodTable σ ω) (required : RequiredMethod) : Prop :=
  ∀ method ∈ table, Text.SameName method.name required.name →
    ¬ (method.requiredCount = required.arity ∧ method.maxCount = required.arity)

instance (table : MethodTable σ ω) (required : RequiredMethod) :
    Decidable (table.Lacks required) :=
  inferInstanceAs (Decidable (∀ method ∈ table, _))

/-- The table lacks one of the methods that a capability takes itself. -/
def Deficient (table : MethodTable σ ω) (c : Capability) : Prop :=
  ∃ required ∈ c.requiredMethods, table.Lacks required

instance (table : MethodTable σ ω) (c : Capability) : Decidable (table.Deficient c) :=
  inferInstanceAs (Decidable (∃ required ∈ c.requiredMethods, _))

/-- The names of the methods that the table lacks, in the order of the
contract. -/
def lacking (table : MethodTable σ ω) (c : Capability) : List String :=
  (c.requiredMethods.filter fun required => decide (table.Lacks required)).map RequiredMethod.name

private theorem lacking_ne_nil_iff {table : MethodTable σ ω} {c : Capability} :
    table.lacking c ≠ [] ↔ table.Deficient c := by
  simp [lacking, Deficient]

/-- The first capability with a property, in the canonical order, that the table
is deficient in. -/
structure FirstDeficient (table : MethodTable σ ω) (p : Capability → Prop) (c : Capability) :
    Prop where
  holds : p c
  deficient : table.Deficient c
  first : ∀ d, p d → table.Deficient d → c.id ≤ d.id

/-- In a table whose names are distinct a name finds the one method that has it,
in whatever case it is spelled. -/
theorem Distinct.find?_eq_some_iff {table : MethodTable σ ω} (h : table.Distinct) {name : String}
    {method : Method σ ω} :
    table.find? name = some method ↔ method ∈ table ∧ Text.SameName method.name name :=
  Assoc.find?_key_eq_some_iff h

/-- A name finds nothing exactly when no method of the table has it. The names
need not be distinct for this. -/
theorem find?_eq_none_iff {table : MethodTable σ ω} {name : String} :
    table.find? name = none ↔ ∀ method ∈ table, ¬ Text.SameName method.name name := by
  simp [find?]

end MethodTable

private theorem ContractGap.find?_eq_some_iff {gaps : List ContractGap}
    (hsorted : gaps.Pairwise fun gap later => gap.capability.id < later.capability.id)
    {p : ContractGap → Bool} {gap : ContractGap} :
    gaps.find? p = some gap ↔ gap ∈ gaps ∧ p gap = true ∧
      ∀ other ∈ gaps, p other = true → gap.capability.id ≤ other.capability.id := by
  induction gaps with
  | nil => simp
  | cons head rest ih =>
    obtain ⟨hhead, hrest⟩ := List.pairwise_cons.1 hsorted
    by_cases hp : p head = true
    · rw [List.find?_cons_of_pos hp]
      constructor
      · rintro ⟨⟩
        refine ⟨List.mem_cons_self, hp, fun other hother _ => ?_⟩
        obtain rfl | hother := List.mem_cons.1 hother
        · exact UInt8.le_refl _
        · exact UInt8.le_of_lt (hhead other hother)
      · rintro ⟨hmem, -, hfirst⟩
        obtain rfl | hmem := List.mem_cons.1 hmem
        · rfl
        · have hle := hfirst head List.mem_cons_self hp
          exact absurd (hhead gap hmem) (UInt8.not_lt.2 hle)
    · rw [List.find?_cons_of_neg hp, ih hrest]
      have hother : ∀ other ∈ head :: rest, p other = true → other ∈ rest := by
        intro other hmem hother
        obtain rfl | hmem := List.mem_cons.1 hmem
        · exact absurd hother hp
        · exact hmem
      constructor
      · rintro ⟨hmem, hgap, hfirst⟩
        exact ⟨List.mem_cons_of_mem _ hmem, hgap, fun other hmem' hp' =>
          hfirst other (hother other hmem' hp') hp'⟩
      · rintro ⟨hmem, hgap, hfirst⟩
        exact ⟨hother gap hmem hgap, hgap, fun other hmem' =>
          hfirst other (List.mem_cons_of_mem _ hmem')⟩

namespace NativeClass

variable {σ ω : Type}

private theorem provides_eq_true_iff {cls : NativeClass σ ω} {required : RequiredMethod} :
    cls.provides required = true ↔ ¬ cls.methods.Lacks required := by
  rw [provides, Option.any_eq_true, MethodTable.Lacks]
  constructor
  · rintro ⟨method, hmethod, hcounts⟩ hlacks
    obtain ⟨hmem, hname⟩ := cls.distinct.find?_eq_some_iff.1 hmethod
    exact hlacks method hmem hname (by simpa using hcounts)
  · intro h
    simp only [not_forall, not_not] at h
    obtain ⟨method, hmem, hname, hcounts⟩ := h
    exact ⟨method, cls.distinct.find?_eq_some_iff.2 ⟨hmem, hname⟩, by simpa using hcounts⟩

/-- What is missing from a class is what its table lacks. The class looks up
each required method; the table is searched for a match. -/
theorem missing_eq_lacking (cls : NativeClass σ ω) (c : Capability) :
    cls.missing c = cls.methods.lacking c := by
  refine congrArg (List.map RequiredMethod.name) (List.filter_congr fun required _ => ?_)
  rw [Bool.eq_iff_iff, Bool.not_eq_true', ← Bool.not_eq_true, provides_eq_true_iff]
  simp

private theorem gapAt?_eq_some_iff {cls : NativeClass σ ω} {c : Capability} {gap : ContractGap} :
    cls.gapAt? c = some gap ↔
      gap.capability = c ∧ gap.missing = cls.methods.lacking c ∧ cls.methods.Deficient c := by
  rw [gapAt?, missing_eq_lacking, ← MethodTable.lacking_ne_nil_iff]
  by_cases hnothing : cls.methods.lacking c = []
  · simp [hnothing]
  · rw [if_neg hnothing, Option.some_inj]
    constructor
    · rintro rfl
      exact ⟨rfl, rfl, hnothing⟩
    · rintro ⟨rfl, hmissing, -⟩
      rw [← hmissing]

/-- There is a gap at every capability in force that the table is deficient in,
with all that is missing there. -/
theorem mem_findGaps_iff {cls : NativeClass σ ω} {gap : ContractGap} :
    gap ∈ cls.findGaps ↔ cls.capabilities.closure.has gap.capability = true ∧
      cls.methods.Deficient gap.capability ∧
      gap.missing = cls.methods.lacking gap.capability := by
  simp only [findGaps, List.mem_filterMap, gapAt?_eq_some_iff, CapabilitySet.mem_toList_iff]
  constructor
  · rintro ⟨c, hc, rfl, hmissing, hdeficient⟩
    exact ⟨hc, hdeficient, hmissing⟩
  · rintro ⟨hc, hdeficient, hmissing⟩
    exact ⟨gap.capability, hc, rfl, hmissing, hdeficient⟩

/-- Gaps are found in canonical order, so the first one is that of the least
capability. -/
theorem pairwise_findGaps (cls : NativeClass σ ω) :
    cls.findGaps.Pairwise fun gap later => gap.capability.id < later.capability.id := by
  refine (CapabilitySet.pairwise_toList _).filterMap _ fun c d hlt gap hgap later hlater => ?_
  rw [(gapAt?_eq_some_iff.1 hgap).1, (gapAt?_eq_some_iff.1 hlater).1]
  exact hlt

/-- Looking for the first gap finds the first capability that the table is
deficient in, among those of some kind. -/
theorem find?_findGaps_eq_some_iff {cls : NativeClass σ ω} {p : Capability → Bool}
    {gap : ContractGap} :
    cls.findGaps.find? (fun gap => p gap.capability) = some gap ↔
      cls.methods.FirstDeficient (fun c => cls.capabilities.closure.has c = true ∧ p c = true)
        gap.capability ∧ gap.missing = cls.methods.lacking gap.capability := by
  rw [ContractGap.find?_eq_some_iff cls.pairwise_findGaps, mem_findGaps_iff]
  constructor
  · rintro ⟨⟨hhas, hdeficient, hmissing⟩, hp, hfirst⟩
    refine ⟨⟨⟨hhas, hp⟩, hdeficient, fun d hd hdeficient' => ?_⟩, hmissing⟩
    exact hfirst ⟨d, cls.methods.lacking d⟩ (mem_findGaps_iff.2 ⟨hd.1, hdeficient', rfl⟩) hd.2
  · rintro ⟨⟨⟨hhas, hp⟩, hdeficient, hfirst⟩, hmissing⟩
    refine ⟨⟨hhas, hdeficient, hmissing⟩, hp, fun other hother hp' => ?_⟩
    obtain ⟨hhas', hdeficient', -⟩ := mem_findGaps_iff.1 hother
    exact hfirst other.capability ⟨hhas', hp'⟩ hdeficient'

/-- No gap of some kind is found exactly when the table has all that the
capabilities of that kind take. -/
theorem find?_findGaps_eq_none_iff {cls : NativeClass σ ω} {p : Capability → Bool} :
    cls.findGaps.find? (fun gap => p gap.capability) = none ↔
      ∀ c, cls.capabilities.closure.has c = true → p c = true → ¬ cls.methods.Deficient c := by
  rw [List.find?_eq_none]
  constructor
  · intro h c hhas hp hdeficient
    exact h ⟨c, cls.methods.lacking c⟩ (mem_findGaps_iff.2 ⟨hhas, hdeficient, rfl⟩) hp
  · intro h gap hgap hp
    obtain ⟨hhas, hdeficient, -⟩ := mem_findGaps_iff.1 hgap
    exact h gap.capability hhas hp hdeficient

private theorem has_dependencies_iff {cls : NativeClass σ ω} {method : String} {c : Capability} :
    (cls.dependencies method).has c = true ↔
      ∃ taker, cls.capabilities.closure.has taker = true ∧ taker.requires method = true ∧
        (c = taker ∨ taker.Extends c) := by
  simp only [dependencies, CapabilitySet.has_unionOf_iff, List.mem_filter,
    CapabilitySet.mem_toList_iff, CapabilitySet.has_implied_iff, and_assoc]

/-- A class that was registered and then added to, with the capabilities that
were declared. In between it may have been asked for its gaps, and it keeps what
it answered. -/
inductive Assembled : List Capability → NativeClass σ ω → Prop where
  | registered {simple path : String} {table : MethodTable σ ω} {cls : NativeClass σ ω}
      (h : register simple path table = .ok cls) : Assembled [] cls
  | capability {declared : List Capability} {cls : NativeClass σ ω} (h : Assembled declared cls)
      (c : Capability) : Assembled (c :: declared) (cls.withCapability c)
  | numbered {declared : List Capability} {cls after : NativeClass σ ω}
      (h : Assembled declared cls) {id : UInt8} {c : Capability} (hid : Capability.ofId? id = some c)
      (hok : cls.declareCapability id = .ok after) : Assembled (c :: declared) after
  | parent {declared : List Capability} {cls : NativeClass σ ω} (h : Assembled declared cls)
      (name : String) : Assembled declared (cls.withParent name)
  | property {declared : List Capability} {cls after : NativeClass σ ω}
      (h : Assembled declared cls) {property : Property}
      (hok : cls.declareProperty property = .ok after) : Assembled declared after
  | asked {declared : List Capability} {cls : NativeClass σ ω} (h : Assembled declared cls) :
      Assembled declared cls.askGaps.2

/-- Whether a capability is declared or extended by a declared one. -/
def InForce (declared : List Capability) (c : Capability) : Prop :=
  ∃ d ∈ declared, c = d ∨ d.Extends c

/-- Whether a call of a method depends on a capability: one that is in force and
takes a method of this name, or one that such a capability extends. -/
def DependsOn (declared : List Capability) (method : String) (c : Capability) : Prop :=
  ∃ taker, InForce declared taker ∧
    (∃ required ∈ taker.requiredMethods, Text.SameName required.name method) ∧
    (c = taker ∨ taker.Extends c)

/-- What is known of a class in the making: its capabilities are those declared,
and if gaps are known, they are right. Declaring a capability forgets known
gaps. -/
structure Tracks (declared : List Capability) (cls : NativeClass σ ω) : Prop where
  has_iff : ∀ c, cls.capabilities.has c = true ↔ c ∈ declared
  gaps_eq : cls.gaps = cls.findGaps

private theorem Tracks.withCapability {declared : List Capability} {cls : NativeClass σ ω}
    (h : Tracks declared cls) (c : Capability) :
    Tracks (c :: declared) (cls.withCapability c) := by
  unfold NativeClass.withCapability
  split
  · next hhas =>
    -- A capability that is declared again leaves the known gaps, and they are still right.
    refine ⟨fun d => ?_, h.gaps_eq⟩
    rw [h.has_iff, List.mem_cons]
    exact ⟨.inr, fun hd => hd.elim (fun heq => heq ▸ (h.has_iff c).1 hhas) id⟩
  · refine ⟨fun d => ?_, rfl⟩
    rw [CapabilitySet.has_union, Bool.or_eq_true, h.has_iff, CapabilitySet.has_singleton_iff,
      List.mem_cons, or_comm]

/-- However a class is put together, and whenever it is asked for its gaps, it
answers with the gaps it has. No order of the steps can make it answer with
stale ones. -/
theorem Assembled.tracks {declared : List Capability} {cls : NativeClass σ ω}
    (h : Assembled declared cls) : Tracks declared cls := by
  induction h with
  | registered h =>
    unfold register at h
    split at h
    · cases h
    · cases h
      exact ⟨fun c => by simp [CapabilitySet.has_empty], rfl⟩
  | capability h c ih => exact ih.withCapability c
  | numbered h hid hok ih =>
    rw [declareCapability, hid] at hok
    cases hok
    exact ih.withCapability _
  | parent h name ih => exact ⟨ih.has_iff, ih.gaps_eq⟩
  | property h hok ih =>
    unfold declareProperty at hok
    split at hok
    · cases hok
    · cases hok
      exact ⟨ih.has_iff, ih.gaps_eq⟩
  | asked h ih => exact ⟨ih.has_iff, ih.gaps_eq⟩

private theorem InForce.extended {declared : List Capability} {c base : Capability}
    (h : InForce declared c) (hextends : c.Extends base) : InForce declared base := by
  obtain ⟨d, hd, rfl | hd'⟩ := h
  · exact ⟨c, hd, .inr hextends⟩
  · exact absurd hextends (hd'.not_extends base)

/-- A call depends only on capabilities that are in force. What others would
take of a class does not matter to it. -/
theorem DependsOn.inForce {declared : List Capability} {method : String} {c : Capability}
    (h : DependsOn declared method c) : InForce declared c := by
  obtain ⟨taker, htaker, -, rfl | hextends⟩ := h
  · exact htaker
  · exact htaker.extended hextends

/-- The capabilities that a class checks are those in force: declared, or
extended by a declared one. -/
theorem Tracks.has_closure_iff {declared : List Capability} {cls : NativeClass σ ω}
    (h : Tracks declared cls) {c : Capability} :
    cls.capabilities.closure.has c = true ↔ InForce declared c := by
  simp only [CapabilitySet.has_closure_iff, h.has_iff, InForce]

private theorem Tracks.has_dependencies_iff {declared : List Capability} {cls : NativeClass σ ω}
    (h : Tracks declared cls) {method : String} {c : Capability} :
    (cls.dependencies method).has c = true ↔ DependsOn declared method c := by
  simp only [NativeClass.has_dependencies_iff, h.has_closure_iff, DependsOn, Capability.requires,
    List.any_eq_true, decide_eq_true_eq]

/-- The gap that a call runs into is the first one that it depends on, in
canonical order and with all that is missing there. -/
theorem Tracks.gapFor?_eq_some_iff {declared : List Capability} {cls : NativeClass σ ω}
    (h : Tracks declared cls) {method : String} {gap : ContractGap} :
    cls.gapFor? method = some gap ↔
      cls.methods.FirstDeficient (DependsOn declared method) gap.capability ∧
        gap.missing = cls.methods.lacking gap.capability := by
  have hsame : (fun c => cls.capabilities.closure.has c = true ∧
      (cls.dependencies method).has c = true) = DependsOn declared method := by
    funext c
    rw [h.has_closure_iff, h.has_dependencies_iff]
    exact propext ⟨And.right, fun hc => ⟨hc.inForce, hc⟩⟩
  rw [gapFor?, h.gaps_eq, find?_findGaps_eq_some_iff, hsame]

/-- A call runs into no gap exactly when the table has all that the capabilities
take that it depends on. -/
theorem Tracks.gapFor?_eq_none_iff {declared : List Capability} {cls : NativeClass σ ω}
    (h : Tracks declared cls) {method : String} :
    cls.gapFor? method = none ↔
      ∀ c, DependsOn declared method c → ¬ cls.methods.Deficient c := by
  rw [gapFor?, h.gaps_eq, find?_findGaps_eq_none_iff]
  simp only [h.has_closure_iff, h.has_dependencies_iff]
  exact ⟨fun hall c hc => hall c hc.inForce hc, fun hall c _ hc => hall c hc⟩

private theorem Tracks.head?_gaps_eq {declared : List Capability} {cls : NativeClass σ ω}
    (h : Tracks declared cls) : cls.gaps.head? = cls.findGaps.find? fun _ => true := by
  rw [h.gaps_eq]
  cases cls.findGaps <;> rfl

/-- The gap that an eager registry names is the first one in force, with all
that is missing there. -/
theorem Tracks.head?_gaps_eq_some_iff {declared : List Capability} {cls : NativeClass σ ω}
    (h : Tracks declared cls) {gap : ContractGap} :
    cls.gaps.head? = some gap ↔
      cls.methods.FirstDeficient (InForce declared) gap.capability ∧
        gap.missing = cls.methods.lacking gap.capability := by
  have hsame : (fun c => cls.capabilities.closure.has c = true ∧ true = true) =
      InForce declared := by
    funext c
    simp only [h.has_closure_iff, and_true]
  rw [h.head?_gaps_eq, ← hsame]
  exact find?_findGaps_eq_some_iff (p := fun _ => true)

/-- An eager registry finds no gap exactly when the table has all that the
capabilities in force take. -/
theorem Tracks.head?_gaps_eq_none_iff {declared : List Capability} {cls : NativeClass σ ω}
    (h : Tracks declared cls) :
    cls.gaps.head? = none ↔ ∀ c, InForce declared c → ¬ cls.methods.Deficient c := by
  have hnone : cls.findGaps.find? (fun _ => true) = none ↔ ∀ c,
      cls.capabilities.closure.has c = true → true = true → ¬ cls.methods.Deficient c :=
    find?_findGaps_eq_none_iff (p := fun _ => true)
  rw [h.head?_gaps_eq, hnone]
  simp only [h.has_closure_iff, forall_const]

end NativeClass

end NativeBridge
