import NativeBridge.Bridge
import NativeBridge.Proofs.Static.Resolution
import NativeBridge.Sample.State

namespace NativeBridge

/-- What happens to a bridge as far as static properties are concerned. A failed
installation and a read are steps as well. -/
inductive StaticStep (σ ω : Type) where
  | install (cls : NativeClass σ ω)
  | update (target property : String) (value : Value) (scope : Option String)
  | read (target property : String) (scope : Option String)

/-- The slots of any two declarations of installed classes differ. It is an
assumption on digests alone, and it can be decided for each registry. -/
def Registry.SlotsDistinct {σ ω : Type} (registry : Registry σ ω) : Prop :=
  ∀ cls ∈ registry.classes, ∀ property ∈ cls.properties,
    ∀ other ∈ registry.classes, ∀ property' ∈ other.properties,
      Identity.ofProperty cls.identity property.name =
          Identity.ofProperty other.identity property'.name →
        cls.identity = other.identity ∧ property.name = property'.name

instance {σ ω : Type} (registry : Registry σ ω) : Decidable registry.SlotsDistinct :=
  inferInstanceAs (Decidable (∀ cls ∈ registry.classes, _))

namespace Registry

variable {σ ω : Type}

/-- A slot then tells the class and the name apart that it was computed from. -/
theorem SlotsDistinct.slot_eq_iff {registry : Registry σ ω} (hslots : registry.SlotsDistinct)
    {found reached : StaticProperty σ ω} (hfound : registry.Declares found)
    (hreached : registry.Declares reached) :
    reached.slot = found.slot ↔
      reached.declaring.identity = found.declaring.identity ∧
        reached.property.name = found.property.name := by
  constructor
  · exact hslots _ hreached.installed _ hreached.mem_properties _ hfound.installed _
      hfound.mem_properties
  · rintro ⟨hclass, hname⟩
    rw [StaticProperty.slot, hclass, hname]
    rfl

end Registry

namespace Bridge

variable {σ ω : Type} [NativeState σ]

/-- A step that fails leaves the registry and all static properties as they
are. -/
def afterStep (bridge : Bridge σ ω) : StaticStep σ ω → Bridge σ ω
  | .install cls =>
    match bridge.install cls with
    | .ok after => after
    | .error _ => bridge
  | .update target property value scope => (bridge.updateStatic target property value scope).2
  | .read _ _ _ => bridge

/-- The bridge after steps. The last one is listed first. -/
def afterSteps (start : Bridge σ ω) : List (StaticStep σ ω) → Bridge σ ω
  | [] => start
  | step :: earlier => (start.afterSteps earlier).afterStep step

/-- The value of the last update that resolved, when it was made, to a property
of some kind. Updates that failed and all other steps are passed over. -/
def assignedWhere (start : Bridge σ ω) (kind : StaticProperty σ ω → Bool) :
    List (StaticStep σ ω) → Option Value
  | [] => none
  | .update target property value scope :: earlier =>
    match (start.afterSteps earlier).registry.resolve target property scope with
    | .ok reached => if kind reached then some value else start.assignedWhere kind earlier
    | .error _ => start.assignedWhere kind earlier
  | .install _ :: earlier => start.assignedWhere kind earlier
  | .read _ _ _ :: earlier => start.assignedWhere kind earlier

/-- The value that steps assigned last to the property that a class declares
under a name. It is said in terms of what updates resolve to, not of slots. -/
def assigned (start : Bridge σ ω) (declaring : Identity) (name : String)
    (steps : List (StaticStep σ ω)) : Option Value :=
  start.assignedWhere (fun reached =>
    reached.declaring.identity == declaring && reached.property.name == name) steps

omit [NativeState σ] in
/-- A bridge installs what its registry installs, and leaves its host alone. -/
theorem install_eq_ok_iff {bridge after : Bridge σ ω} {cls : NativeClass σ ω} :
    bridge.install cls = .ok after ↔
      ∃ registry, bridge.registry.install cls = .ok registry ∧
        after = { bridge with registry } := by
  cases h : bridge.registry.install cls <;> simp [install, h, Except.map, eq_comm]

/-- An update whose access resolves succeeds and writes the slot of what was
found. -/
theorem updateStatic_of_ok {bridge : Bridge σ ω} {target property : String}
    {scope : Option String} {reached : StaticProperty σ ω}
    (h : bridge.registry.resolve target property scope = .ok reached) (value : Value) :
    bridge.updateStatic target property value scope =
      (.ok (), { bridge with host := bridge.host.storeStatic reached.slot value }) := by
  rw [updateStatic, Host.updateStatic, h]
  rfl

/-- An update whose access fails ends with that error. It gives up the value and
leaves all slots as they are. -/
theorem updateStatic_of_error {bridge : Bridge σ ω} {target property : String}
    {scope : Option String} {error : PropertyError}
    (h : bridge.registry.resolve target property scope = .error error) (value : Value) :
    bridge.updateStatic target property value scope =
      (.error (.property error),
        { bridge with host := { bridge.host with heap := bridge.host.heap.releaseValue value } }) := by
  rw [updateStatic, Host.updateStatic, h]
  rfl

private theorem distinct_afterStep {bridge : Bridge σ ω} (h : bridge.registry.Distinct)
    (step : StaticStep σ ω) : (bridge.afterStep step).registry.Distinct := by
  cases step with
  | install cls =>
    rw [afterStep]
    split
    · next hinstall =>
      obtain ⟨registry, hregistry, rfl⟩ := install_eq_ok_iff.1 hinstall
      exact h.install hregistry
    · exact h
  | update target property value scope => exact h
  | read target property scope => exact h

private theorem grows_afterStep (bridge : Bridge σ ω) (step : StaticStep σ ω) :
    bridge.registry.Grows (bridge.afterStep step).registry := by
  cases step with
  | install cls =>
    rw [afterStep]
    split
    · next hinstall =>
      obtain ⟨registry, hregistry, rfl⟩ := install_eq_ok_iff.1 hinstall
      exact .of_install hregistry
    · exact .refl _
  | update target property value scope => exact .refl _
  | read target property scope => exact .refl _

omit [NativeState σ] in
private theorem static?_install {bridge after : Bridge σ ω} {cls : NativeClass σ ω}
    (h : bridge.install cls = .ok after) (slot : Identity) :
    after.host.static? slot = bridge.host.static? slot := by
  obtain ⟨registry, -, rfl⟩ := install_eq_ok_iff.1 h
  rfl

/-- Storing a value is seen in its own slot only. -/
theorem static?_storeStatic (host : Host σ ω) (slot other : Identity) (value : Value) :
    (host.storeStatic slot value).static? other =
      if slot = other then some value else host.static? other :=
  Assoc.find?_put slot other value host.statics

section Steps

variable {start : Bridge σ ω}

private theorem distinct_afterSteps (h : start.registry.Distinct) (steps : List (StaticStep σ ω)) :
    (start.afterSteps steps).registry.Distinct := by
  induction steps with
  | nil => exact h
  | cons step earlier ih => exact distinct_afterStep ih step

/-- However many steps come later, a registry only grows, so what an access has
resolved to it goes on resolving to. -/
theorem grows_afterSteps (more steps : List (StaticStep σ ω)) :
    (start.afterSteps steps).registry.Grows (start.afterSteps (more ++ steps)).registry := by
  induction more with
  | nil => exact .refl _
  | cons step more ih => exact ih.trans (grows_afterStep _ step)

/-- A slot has the value of the last update that resolved to a property with
that slot. This holds also where slots collide. -/
theorem static?_afterSteps (hnew : ∀ slot, start.host.static? slot = none) (slot : Identity)
    (steps : List (StaticStep σ ω)) :
    (start.afterSteps steps).host.static? slot =
      start.assignedWhere (fun reached => reached.slot == slot) steps := by
  induction steps with
  | nil => exact hnew slot
  | cons step earlier ih =>
    rw [afterSteps]
    cases step with
    | install cls =>
      rw [assignedWhere, ← ih, afterStep]
      split
      · next hinstall => exact static?_install hinstall slot
      · rfl
    | read target property scope => exact ih
    | update target property value scope =>
      rw [assignedWhere, afterStep]
      cases hreached : (start.afterSteps earlier).registry.resolve target property scope with
      | error error =>
        rw [updateStatic_of_error hreached]
        exact ih
      | ok reached =>
        rw [updateStatic_of_ok hreached]
        by_cases hslot : reached.slot = slot
        · simp [static?_storeStatic, hslot]
        · simp [static?_storeStatic, hslot, ih]

/-- Kinds of properties that agree on what is declared are assigned the same.
Only what the registry declares in the end has to be looked at, for nothing
declared is ever lost. -/
theorem assignedWhere_congr {kind kind' : StaticProperty σ ω → Bool}
    (hdistinct : start.registry.Distinct) {steps : List (StaticStep σ ω)}
    (h : ∀ reached, (start.afterSteps steps).registry.Declares reached →
      kind reached = kind' reached) :
    start.assignedWhere kind steps = start.assignedWhere kind' steps := by
  induction steps with
  | nil => rfl
  | cons step earlier ih =>
    -- What was declared before the step is declared after it.
    have hearlier : ∀ reached, (start.afterSteps earlier).registry.Declares reached →
        kind reached = kind' reached := fun reached hreached =>
      h reached (hreached.grows (distinct_afterSteps hdistinct earlier) (grows_afterStep _ step))
    cases step with
    | install cls => exact ih hearlier
    | read target property scope => exact ih hearlier
    | update target property value scope =>
      rw [assignedWhere, assignedWhere]
      cases hreached : (start.afterSteps earlier).registry.resolve target property scope with
      | error error => exact ih hearlier
      | ok reached =>
        have hsame := hearlier reached (Registry.declares_of_resolve hreached).1
        simp only [hsame, ih hearlier]

end Steps

omit [NativeState σ] in
private theorem readStatic_of_ok {bridge : Bridge σ ω} {target property : String}
    {scope : Option String} {found : StaticProperty σ ω}
    (h : bridge.registry.resolve target property scope = .ok found) :
    bridge.readStatic target property scope =
      .ok ((bridge.host.static? found.slot).getD found.property.initial) := by
  rw [readStatic, Host.readStatic, h]
  rfl

omit [NativeState σ] in
private theorem readStatic_of_error {bridge : Bridge σ ω} {target property : String}
    {scope : Option String} {error : PropertyError}
    (h : bridge.registry.resolve target property scope = .error error) :
    bridge.readStatic target property scope = .error (.property error) := by
  rw [readStatic, Host.readStatic, h]
  rfl

/-- A read sees the values that are assigned to what it resolves to. Distinct
slots are needed only of the registry that the steps end with. -/
theorem readStatic_afterSteps {start : Bridge σ ω} (hdistinct : start.registry.Distinct)
    (hnew : ∀ slot, start.host.static? slot = none) {steps : List (StaticStep σ ω)}
    (hslots : (start.afterSteps steps).registry.SlotsDistinct) {target property : String}
    {scope : Option String} {found : StaticProperty σ ω}
    (h : (start.afterSteps steps).registry.resolve target property scope = .ok found) :
    (start.afterSteps steps).readStatic target property scope =
      .ok ((start.assigned found.declaring.identity found.property.name steps).getD
        found.property.initial) := by
  have hkinds : start.assignedWhere (fun reached => reached.slot == found.slot) steps =
      start.assigned found.declaring.identity found.property.name steps := by
    refine assignedWhere_congr hdistinct fun reached hreached => ?_
    rw [Bool.eq_iff_iff]
    simpa using hslots.slot_eq_iff (Registry.declares_of_resolve h).1 hreached
  rw [readStatic_of_ok h, static?_afterSteps hnew, hkinds]

/-- An update is not seen by a read of another slot. Either access may fail, and
no slots are assumed to be distinct. -/
theorem readStatic_updateStatic_of_slot_ne {bridge : Bridge σ ω} {target property : String}
    {scope : Option String} {target' property' : String} {scope' : Option String}
    (h : ∀ reached found, bridge.registry.resolve target' property' scope' = .ok reached →
      bridge.registry.resolve target property scope = .ok found → reached.slot ≠ found.slot)
    (value : Value) :
    (bridge.updateStatic target' property' value scope').2.readStatic target property scope =
      bridge.readStatic target property scope := by
  cases hread : bridge.registry.resolve target property scope with
  | error error =>
    rw [readStatic_of_error hread]
    exact readStatic_of_error hread
  | ok found =>
    have hafter : (bridge.updateStatic target' property' value scope').2.registry.resolve target
        property scope = .ok found := hread
    rw [readStatic_of_ok hafter, readStatic_of_ok hread]
    cases hupdate : bridge.registry.resolve target' property' scope' with
    | error error =>
      rw [updateStatic_of_error hupdate]
      rfl
    | ok reached =>
      rw [updateStatic_of_ok hupdate, static?_storeStatic, if_neg (h reached found hupdate hread)]

/-- An update is not seen by a read that does not resolve to the same
property. -/
theorem readStatic_updateStatic {bridge : Bridge σ ω} (hdistinct : bridge.registry.Distinct)
    (hslots : bridge.registry.SlotsDistinct) {target property : String} {scope : Option String}
    {target' property' : String} {scope' : Option String}
    (h : ∀ reached, bridge.registry.resolve target' property' scope' = .ok reached →
      bridge.registry.resolve target property scope ≠ .ok reached) (value : Value) :
    (bridge.updateStatic target' property' value scope').2.readStatic target property scope =
      bridge.readStatic target property scope := by
  refine readStatic_updateStatic_of_slot_ne (fun reached found hupdate hread hslot => ?_) value
  have hfound := (Registry.declares_of_resolve hread).1
  have hreached := (Registry.declares_of_resolve hupdate).1
  obtain ⟨hclass, hname⟩ := (hslots.slot_eq_iff hfound hreached).1 hslot
  rw [hreached.eq_of_names hdistinct hfound hclass hname] at hupdate
  exact h found hupdate hread

/-- Reads and updates fail alike, with the same error, for an access is resolved
without looking at the values. -/
theorem readStatic_eq_error_iff {bridge : Bridge σ ω} {target property : String}
    {scope : Option String} (value : Value) {error : BridgeError} :
    bridge.readStatic target property scope = .error error ↔
      (bridge.updateStatic target property value scope).1 = .error error := by
  cases h : bridge.registry.resolve target property scope with
  | error cause =>
    rw [readStatic_of_error h, updateStatic_of_error h]
    simp
  | ok found =>
    rw [readStatic_of_ok h, updateStatic_of_ok h]
    simp

/-- Static properties are a map from a declaring class and a name to a value. An
access that resolves to a declaration reads the value that was assigned to it
last, through whatever target and scope, or its initial value; it goes on
resolving to that declaration. An update that fails or resolves to something
else is not seen, and reads and updates fail alike. -/
theorem statics_map (options : Options) (eager : Bool) (shared : ω)
    (steps : List (StaticStep σ ω)) (target property : String) (scope : Option String)
    (hslots : ((Bridge.new options eager shared).afterSteps steps).registry.SlotsDistinct) :
    let start : Bridge σ ω := Bridge.new options eager shared
    let bridge := start.afterSteps steps
    (∀ found, bridge.registry.resolve target property scope = .ok found →
      bridge.registry.Declares found ∧
      bridge.readStatic target property scope =
        .ok ((start.assigned found.declaring.identity found.property.name steps).getD
          found.property.initial) ∧
      ∀ more, (start.afterSteps (more ++ steps)).registry.resolve target property scope =
        .ok found) ∧
    (∀ target' property' scope' value,
      (∀ reached, bridge.registry.resolve target' property' scope' = .ok reached →
        bridge.registry.resolve target property scope ≠ .ok reached) →
      (bridge.updateStatic target' property' value scope').2.readStatic target property scope =
        bridge.readStatic target property scope) ∧
    ∀ value error, bridge.readStatic target property scope = .error error ↔
      (bridge.updateStatic target property value scope).1 = .error error := by
  intro start bridge
  have hempty : start.registry.Distinct := Registry.distinct_empty eager
  have hdistinct : bridge.registry.Distinct := distinct_afterSteps hempty steps
  refine ⟨fun found hfound => ⟨(Registry.declares_of_resolve hfound).1, ?_, fun more => ?_⟩,
    fun target' property' scope' value hother => ?_, fun value error => ?_⟩
  · exact readStatic_afterSteps hempty (fun _ => rfl) hslots hfound
  · exact (grows_afterSteps more steps).resolve hdistinct hfound
  · exact readStatic_updateStatic hdistinct hslots hother value
  · exact readStatic_eq_error_iff value

/-- A property that anybody may use. -/
def kept : Property := ⟨"kept", .everywhere, true, .int 1⟩

/-- A class with a static property. -/
def keeper : NativeClass Sample Unit where
  name := .global "Keeper"
  parent := none
  capabilities := .empty
  methods := []
  properties := [kept]
  distinct := List.nodup_nil

/-- A class that inherits the property. -/
def heir : NativeClass Sample Unit :=
  { keeper with name := .global "Heir", parent := some keeper.name, properties := [] }

/-- A class that declares a property of that name again. -/
def rival : NativeClass Sample Unit :=
  { heir with name := .global "Rival", properties := [⟨"kept", .ownClass, true, .int 9⟩] }

/-- Updates of the inherited property, of a missing one and of the one declared
again. -/
def familySteps : List (StaticStep Sample Unit) :=
  [.update "self" "kept" (.int 4) (some "Rival"), .install rival,
    .update "Keeper" "lost" (.int 8) none, .update "parent" "kept" (.int 5) (some "Heir"),
    .install heir, .install keeper]

private theorem exists_ok_of_any {ε α : Type} {p : α → Bool} {outcome : Except ε α}
    (h : outcome.toOption.any p = true) : ∃ found, outcome = .ok found ∧ p found = true := by
  cases outcome with
  | error error => cases h
  | ok found => exact ⟨found, rfl, h⟩

/-- What was assigned from below is read from anywhere in the family. The
property declared again is another one: a later update of it is not seen. -/
theorem statics_map_family :
    let start : Bridge Sample Unit := Bridge.new .standard false ()
    let bridge := start.afterSteps familySteps
    bridge.registry.SlotsDistinct ∧
    (∃ found, bridge.registry.resolve "heir" "kept" none = .ok found ∧
      found.declaring.identity = keeper.identity) ∧
    (∃ value, bridge.readStatic "heir" "kept" none = .ok value ∧ (value == .int 5) = true) ∧
    (bridge.updateStatic "Rival" "kept" .null (some "Rival")).2.readStatic "heir" "kept" none =
      bridge.readStatic "heir" "kept" none := by
  intro start bridge
  have hslots : bridge.registry.SlotsDistinct := by decide +kernel
  have hassigned : (start.assigned keeper.identity "kept" familySteps).any (· == .int 5) = true := by
    decide +kernel
  obtain ⟨found, hfound, hclass⟩ := exists_ok_of_any (show
    (bridge.registry.resolve "heir" "kept" none).toOption.any
      (fun found => found.declaring.identity == keeper.identity) = true by decide +kernel)
  obtain ⟨other, hother, hrival⟩ := exists_ok_of_any (show
    (bridge.registry.resolve "Rival" "kept" (some "Rival")).toOption.any
      (fun found => found.declaring.identity != keeper.identity) = true by decide +kernel)
  obtain ⟨hreads, hunseen, _⟩ :=
    statics_map .standard false () familySteps "heir" "kept" none hslots
  obtain ⟨_, hread, _⟩ := hreads found hfound
  have hname := (Registry.declares_of_resolve hfound).2
  rw [eq_of_beq hclass, hname] at hread
  obtain ⟨value, hvalue, hsame⟩ := (Option.any_eq_true _ _).1 hassigned
  refine ⟨hslots, ⟨found, hfound, eq_of_beq hclass⟩, ⟨value, ?_, hsame⟩, ?_⟩
  · rw [hread, hvalue, Option.getD_some]
  · refine hunseen _ _ _ _ fun reached hreached hsame => ?_
    rw [hother] at hreached
    rw [hfound] at hsame
    cases hreached
    cases hsame
    exact (bne_iff_ne.1 hrival) (eq_of_beq hclass)

end Bridge

end NativeBridge
