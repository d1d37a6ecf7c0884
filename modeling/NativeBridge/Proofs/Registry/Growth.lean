import NativeBridge.StaticProperty

namespace NativeBridge.Registry

variable {σ ω : Type}

/-- No two installed classes share an identity. Installing keeps this, so
looking up an identity, following parents and resolving a static property never
change an answer once they have given one. -/
def Distinct (registry : Registry σ ω) : Prop :=
  (registry.classes.map NativeClass.identity).Nodup

/-- A new registry has no classes that could share an identity, whether it is
eager or not. -/
theorem distinct_empty (eager : Bool) : (empty eager : Registry σ ω).Distinct := List.nodup_nil

/-- An identity finds nothing exactly when no installed class has it. No
assumption on the registry is needed. -/
theorem ofIdentity?_eq_none_iff {registry : Registry σ ω} {id : Identity} :
    registry.ofIdentity? id = none ↔ id ∉ registry.classes.map NativeClass.identity := by
  simp [ofIdentity?]

/-- A look-up sees the class in front first, and otherwise what it saw before.
This holds also where the new class hides an older one of its identity. -/
theorem ofIdentity?_cons (registry : Registry σ ω) (cls : NativeClass σ ω) (id : Identity) :
    ({ registry with classes := cls :: registry.classes } : Registry σ ω).ofIdentity? id =
      if cls.identity = id then some cls else registry.ofIdentity? id := by
  by_cases h : cls.identity = id
  · rw [if_pos h, ofIdentity?, List.find?_cons_of_pos (by simpa using h)]
  · rw [if_neg h, ofIdentity?, List.find?_cons_of_neg (by simpa using h)]
    rfl

/-- The class that is found has the identity that was asked for. -/
theorem identity_of_ofIdentity? {registry : Registry σ ω} {id : Identity} {cls : NativeClass σ ω}
    (h : registry.ofIdentity? id = some cls) : cls.identity = id := by
  simpa using List.find?_some h

/-- In a registry of distinct identities, looking up and being installed are the
same, so the order of the classes does not matter to a look-up. -/
theorem Distinct.ofIdentity?_eq_some_iff {registry : Registry σ ω} (h : registry.Distinct)
    {id : Identity} {cls : NativeClass σ ω} :
    registry.ofIdentity? id = some cls ↔ cls ∈ registry.classes ∧ cls.identity = id :=
  Assoc.find?_key_eq_some_iff h

/-- What an installation that succeeds has checked and done. Nothing is
replaced: the class comes to stand in front of all others, and its identity was
not in use. -/
theorem install_eq_ok {registry after : Registry σ ω} {cls : NativeClass σ ω}
    (h : registry.install cls = .ok after) :
    registry.ofIdentity? cls.identity = none ∧
      after = { registry with classes := cls :: registry.classes } := by
  cases hused : registry.ofIdentity? cls.identity with
  | some other =>
    rw [install, hused] at h
    cases h
  | none =>
    refine ⟨rfl, ?_⟩
    simp only [install, hused, Option.isSome_none, Bool.false_eq_true, ↓reduceIte] at h
    -- Each way through the other checks ends in an error or adds the class.
    repeat' split at h
    all_goals cases h <;> rfl

/-- Once its name is unused and its parent is there, only a gap is left to
refuse a class for, and only in an eager registry. -/
theorem install_of_unused {registry : Registry σ ω} {cls : NativeClass σ ω}
    (hunused : registry.ofIdentity? cls.identity = none)
    (hparent : ∀ parent, cls.parent = some parent →
      registry.ofIdentity? parent.identity ≠ none) :
    registry.install cls =
      match if registry.eager then cls.gaps.head? else none with
      | some gap =>
        .error (.contractViolation cls.name.text gap.capability.hostName gap.missing)
      | none => .ok { registry with classes := cls :: registry.classes } := by
  rw [install, hunused]
  cases hname : cls.parent with
  | none =>
    cases registry.eager with
    | false => rfl
    | true => cases cls.gaps.head? <;> rfl
  | some parent =>
    obtain ⟨other, hother⟩ := Option.ne_none_iff_exists'.1 (hparent parent hname)
    dsimp only
    rw [hother]
    cases registry.eager with
    | false => rfl
    | true => cases cls.gaps.head? <;> rfl

/-- A class with an unused name, an installed parent and no gap is installed. A
registry that is not eager does not ask for the gaps. -/
theorem install_of_gaps_eq_nil {registry : Registry σ ω} {cls : NativeClass σ ω}
    (hunused : registry.ofIdentity? cls.identity = none)
    (hparent : ∀ parent, cls.parent = some parent →
      registry.ofIdentity? parent.identity ≠ none)
    (hgaps : registry.eager = true → cls.gaps = []) :
    registry.install cls = .ok { registry with classes := cls :: registry.classes } := by
  have hgap : (if registry.eager then cls.gaps.head? else none) = none := by
    split
    · next heager => rw [hgaps heager, List.head?_nil]
    · rfl
  rw [install_of_unused hunused hparent, hgap]

/-- Installing keeps identities distinct, for a class whose identity is in use
is refused. -/
theorem Distinct.install {registry after : Registry σ ω} {cls : NativeClass σ ω}
    (hdistinct : registry.Distinct) (h : registry.install cls = .ok after) : after.Distinct := by
  obtain ⟨hunused, rfl⟩ := install_eq_ok h
  exact List.nodup_cons.2 ⟨ofIdentity?_eq_none_iff.1 hunused, hdistinct⟩

/-- Every class of a registry is in another one, under the same identity and
with the same ancestors. That is all that look-ups depend on. -/
structure Grows (registry later : Registry σ ω) : Prop where
  keeps : ∀ {id : Identity} {cls : NativeClass σ ω}, registry.ofIdentity? id = some cls →
    later.ofIdentity? id = some cls
  lineage : ∀ {id : Identity} {cls : NativeClass σ ω}, registry.ofIdentity? id = some cls →
    later.lineage id = registry.lineage id

namespace Grows

theorem refl (registry : Registry σ ω) : registry.Grows registry := ⟨id, fun _ => rfl⟩

/-- Growth composes, so what one installation keeps any number of them keeps. -/
theorem trans {first second third : Registry σ ω} (h : first.Grows second)
    (h' : second.Grows third) : first.Grows third where
  keeps hfound := h'.keeps (h.keeps hfound)
  lineage hfound := (h'.lineage (h.keeps hfound)).trans (h.lineage hfound)

/-- An installation that succeeds lets a registry grow. The identity of the
new class found nothing before, so it cannot get between an old class and its
ancestors. -/
theorem of_install {registry after : Registry σ ω} {cls : NativeClass σ ω}
    (h : registry.install cls = .ok after) : registry.Grows after := by
  obtain ⟨hunused, rfl⟩ := install_eq_ok h
  -- The identity of the new class found nothing before.
  have hne : ∀ {id other}, registry.ofIdentity? id = some other → cls.identity ≠ id := by
    rintro id other hfound rfl
    rw [hunused] at hfound
    cases hfound
  refine ⟨fun hfound => ?_, fun hfound => ?_⟩
  · simpa [ofIdentity?, hne hfound] using hfound
  · simp [Registry.lineage, lineageIn, hne hfound]

variable {registry later : Registry σ ω}

/-- A written name goes on finding the class that it has once found. -/
theorem get? (h : registry.Grows later) {name : String} {cls : NativeClass σ ω}
    (hfound : registry.get? name = some cls) : later.get? name = some cls :=
  h.keeps hfound

/-- The parent of a class stays the same when further classes are installed. -/
theorem parentOf? (h : registry.Grows later) {cls parent : NativeClass σ ω}
    (hfound : registry.parentOf? cls = some parent) : later.parentOf? cls = some parent := by
  obtain ⟨name, hname, hparent⟩ := Option.bind_eq_some_iff.1 hfound
  rw [Registry.parentOf?, hname]
  exact h.keeps hparent

/-- Whether an installed class inherits from an identity does not change, also
where that identity belongs to no class yet. -/
theorem isSubclass_iff (h : registry.Grows later) {cls : NativeClass σ ω} {ancestor : Identity}
    (hfound : registry.ofIdentity? cls.identity = some cls) :
    later.IsSubclass cls ancestor ↔ registry.IsSubclass cls ancestor := by
  rw [IsSubclass, IsSubclass, h.lineage hfound]

end Grows

end NativeBridge.Registry
