import Mathlib.Logic.Basic
import NativeBridge.Proofs.Registry.Growth

namespace NativeBridge.Registry

variable {σ ω : Type}

/-- The class is installed and declares the property under its name. Every
access that succeeds has found such a declaration. -/
structure Declares (registry : Registry σ ω) (found : StaticProperty σ ω) : Prop where
  installed : found.declaring ∈ registry.classes
  declared : found.declaring.property? found.property.name = some found.property

/-- A declaration is among the properties of its class. -/
theorem Declares.mem_properties {registry : Registry σ ω} {found : StaticProperty σ ω}
    (h : registry.Declares found) : found.property ∈ found.declaring.properties :=
  List.mem_of_find?_eq_some h.declared

/-- The class of a declaration is found under its identity, so the slot of the
declaration leads back to it. -/
theorem Declares.ofIdentity? {registry : Registry σ ω} (hdistinct : registry.Distinct)
    {found : StaticProperty σ ω} (h : registry.Declares found) :
    registry.ofIdentity? found.declaring.identity = some found.declaring :=
  hdistinct.ofIdentity?_eq_some_iff.2 ⟨h.installed, rfl⟩

/-- Two declarations by one class under one name are the same. Classes are
compared by identity, which is all that a slot keeps of them. -/
theorem Declares.eq_of_names {registry : Registry σ ω} (hdistinct : registry.Distinct)
    {found other : StaticProperty σ ω} (h : registry.Declares found)
    (h' : registry.Declares other)
    (hclass : found.declaring.identity = other.declaring.identity)
    (hname : found.property.name = other.property.name) : found = other := by
  have hdeclaring := h.ofIdentity? hdistinct
  rw [hclass, h'.ofIdentity? hdistinct, Option.some_inj] at hdeclaring
  have hproperty := h.declared
  rw [← hdeclaring, hname, h'.declared, Option.some_inj] at hproperty
  cases found
  cases other
  cases hdeclaring
  cases hproperty
  rfl

/-- What is declared stays declared when further classes are installed. -/
theorem Declares.grows {registry later : Registry σ ω} (hdistinct : registry.Distinct)
    {found : StaticProperty σ ω} (h : registry.Declares found) (hgrows : registry.Grows later) :
    later.Declares found :=
  ⟨List.mem_of_find?_eq_some (hgrows.keeps (h.ofIdentity? hdistinct)), h.declared⟩

private theorem mem_of_mem_lineageIn {id : Identity} {cls : NativeClass σ ω}
    {classes : List (NativeClass σ ω)} (h : cls ∈ lineageIn id classes) : cls ∈ classes := by
  induction classes generalizing id with
  | nil => cases h
  | cons newest older ih =>
    rw [lineageIn] at h
    split at h
    · obtain rfl | habove := List.mem_cons.1 h
      · exact List.mem_cons_self
      · split at habove
        · exact List.mem_cons_of_mem _ (ih habove)
        · cases habove
    · exact List.mem_cons_of_mem _ (ih h)

private theorem declaredIn?_eq_some {name : String} {classes : List (NativeClass σ ω)}
    {found : StaticProperty σ ω} (h : declaredIn? name classes = some found) :
    found.declaring ∈ classes ∧ found.declaring.property? name = some found.property := by
  induction classes with
  | nil => cases h
  | cons cls ancestors ih =>
    rw [declaredIn?] at h
    split at h
    · next hproperty =>
      cases h
      exact ⟨List.mem_cons_self, hproperty⟩
    · exact ⟨List.mem_cons_of_mem _ (ih h).1, (ih h).2⟩

/-- An access succeeds when it has a class to start from, a declaration and the
permission, in this order. The rest of the theory goes through these three. -/
theorem resolve_eq_ok_iff {registry : Registry σ ω} {target property : String}
    {scope : Option String} {found : StaticProperty σ ω} :
    registry.resolve target property scope = .ok found ↔
      ∃ cls, registry.targetClass (StaticTarget.ofText target) property scope = .ok cls ∧
        declaredIn? property (registry.lineage cls.identity) = some found ∧
        registry.checkAccess found (scope.bind registry.get?) = .ok () := by
  unfold resolve
  cases htarget : registry.targetClass (StaticTarget.ofText target) property scope with
  | error error => simp [bind, Except.bind]
  | ok cls =>
    cases hnearest : declaredIn? property (registry.lineage cls.identity) with
    | none => simp [bind, Except.bind, hnearest, throw, throwThe, MonadExceptOf.throw]
    | some nearest =>
      by_cases hsame : nearest = found
      · subst hsame
        cases haccess : registry.checkAccess nearest (scope.bind registry.get?) <;>
          simp [bind, Except.bind, hnearest, haccess, pure, Except.pure]
      · cases haccess : registry.checkAccess nearest (scope.bind registry.get?) <;>
          simp [bind, Except.bind, hnearest, haccess, pure, Except.pure, hsame]

/-- A keyword stands for a class when the access is made from one and that class
is found. Which keyword it is only shows in the error. -/
theorem scopeClass_eq_ok_iff {registry : Registry σ ω} {scope : Option String} {keyword : String}
    {cls : NativeClass σ ω} :
    registry.scopeClass scope keyword = .ok cls ↔ scope.bind registry.get? = some cls := by
  cases scope with
  | none => simp [scopeClass]
  | some name => cases hfound : registry.get? name <;> simp [scopeClass, hfound]

/-- The class that a search starts from was found under a written name, or is
the parent of one that was. -/
theorem targetClass_eq_ok_iff {registry : Registry σ ω} {target : StaticTarget} {property : String}
    {scope : Option String} {cls : NativeClass σ ω} :
    registry.targetClass target property scope = .ok cls ↔
      match target with
      | .self => scope.bind registry.get? = some cls
      | .parent => ∃ child, scope.bind registry.get? = some child ∧
          registry.parentOf? child = some cls
      | .named name => registry.get? name = some cls := by
  cases target with
  | self => exact scopeClass_eq_ok_iff
  | named name => cases hfound : registry.get? name <;> simp [targetClass, hfound]
  | parent =>
    cases hscope : registry.scopeClass scope "parent" with
    | error error =>
      have hnone : scope.bind registry.get? = none := by
        rw [Option.eq_none_iff_forall_ne_some]
        intro found hfound
        rw [scopeClass_eq_ok_iff.2 hfound] at hscope
        cases hscope
      simp [targetClass, hscope, hnone, bind, Except.bind]
    | ok child =>
      have hchild := scopeClass_eq_ok_iff.1 hscope
      cases hparent : registry.parentOf? child <;>
        simp [targetClass, hscope, hchild, hparent, bind, Except.bind]

private theorem installed_of_get? {registry : Registry σ ω} {name : String} {cls : NativeClass σ ω}
    (h : registry.get? name = some cls) : registry.ofIdentity? cls.identity = some cls := by
  rwa [identity_of_ofIdentity? h]

/-- The class that an access is made from is installed under its identity. -/
theorem installed_of_scope {registry : Registry σ ω} {scope : Option String}
    {cls : NativeClass σ ω} (h : scope.bind registry.get? = some cls) :
    registry.ofIdentity? cls.identity = some cls := by
  obtain ⟨name, rfl, hname⟩ := Option.bind_eq_some_iff.1 h
  exact installed_of_get? hname

/-- A search starts from an installed class, whether it was named, is the class
of the access or is the parent of that. -/
theorem installed_of_targetClass {registry : Registry σ ω} {target : StaticTarget}
    {property : String} {scope : Option String} {cls : NativeClass σ ω}
    (h : registry.targetClass target property scope = .ok cls) :
    registry.ofIdentity? cls.identity = some cls := by
  have hcls := targetClass_eq_ok_iff.1 h
  cases target with
  | self => exact installed_of_scope hcls
  | parent =>
    obtain ⟨child, -, hparent⟩ := hcls
    obtain ⟨name, -, hname⟩ := Option.bind_eq_some_iff.1 hparent
    exact identity_of_ofIdentity? hname ▸ hname
  | named name => exact installed_of_get? hcls

/-- What an access resolves to is declared by an installed class under the name
it asks for. No assumption on the registry is needed. -/
theorem declares_of_resolve {registry : Registry σ ω} {target property : String}
    {scope : Option String} {found : StaticProperty σ ω}
    (h : registry.resolve target property scope = .ok found) :
    registry.Declares found ∧ found.property.name = property := by
  obtain ⟨cls, -, hnearest, -⟩ := resolve_eq_ok_iff.1 h
  obtain ⟨hmem, hproperty⟩ := declaredIn?_eq_some hnearest
  have hname : found.property.name = property := by simpa using List.find?_some hproperty
  refine ⟨⟨mem_of_mem_lineageIn hmem, ?_⟩, hname⟩
  rw [hname]
  exact hproperty

private theorem guarded_eq_ok_iff {allowed : Bool} {error : PropertyError} :
    (if allowed then Except.ok () else .error error) = Except.ok () ↔ allowed = true := by
  cases allowed <;> simp

/-- Who may access a declaration: only a static one, and by its visibility
everybody, its own class, or the classes above and below. -/
theorem checkAccess_eq_ok_iff {registry : Registry σ ω} {found : StaticProperty σ ω}
    {scope : Option (NativeClass σ ω)} :
    registry.checkAccess found scope = .ok () ↔
      found.property.isStatic = true ∧
        match found.property.visibility with
        | .everywhere => True
        | .ownClass => ∃ cls, scope = some cls ∧ cls.identity = found.declaring.identity
        | .hierarchy => ∃ cls, scope = some cls ∧
            (registry.IsSubclass cls found.declaring.identity ∨
              registry.IsSubclass found.declaring cls.identity) := by
  obtain ⟨declaring, name, visibility, isStatic, initial⟩ := found
  cases isStatic with
  | false => simp [checkAccess]
  | true =>
    cases visibility with
    | everywhere => simp [checkAccess]
    | ownClass =>
      refine guarded_eq_ok_iff.trans ?_
      simp [Option.any_eq_true]
    | hierarchy =>
      refine guarded_eq_ok_iff.trans ?_
      simp [Option.any_eq_true]

variable {registry later : Registry σ ω}

private theorem Grows.scope (h : registry.Grows later) {scope : Option String}
    {cls : NativeClass σ ω} (hfound : scope.bind registry.get? = some cls) :
    scope.bind later.get? = some cls := by
  obtain ⟨name, rfl, hname⟩ := Option.bind_eq_some_iff.1 hfound
  exact h.get? hname

/-- A search goes on starting from the same class when further classes are
installed. -/
theorem Grows.targetClass (h : registry.Grows later) {target : StaticTarget} {property : String}
    {scope : Option String} {cls : NativeClass σ ω}
    (hfound : registry.targetClass target property scope = .ok cls) :
    later.targetClass target property scope = .ok cls := by
  rw [targetClass_eq_ok_iff] at hfound ⊢
  cases target with
  | self => exact h.scope hfound
  | parent =>
    obtain ⟨child, hchild, hparent⟩ := hfound
    exact ⟨child, h.scope hchild, h.parentOf? hparent⟩
  | named name => exact h.get? hfound

/-- A permission is not lost when further classes are installed: who stands
above and below whom does not change for classes that are there. -/
theorem Grows.checkAccess (h : registry.Grows later) {found : StaticProperty σ ω}
    (hdeclaring : registry.ofIdentity? found.declaring.identity = some found.declaring)
    {scope : Option String}
    (haccess : registry.checkAccess found (scope.bind registry.get?) = .ok ()) :
    later.checkAccess found (scope.bind later.get?) = .ok () := by
  obtain ⟨hstatic, hvisible⟩ := checkAccess_eq_ok_iff.1 haccess
  refine checkAccess_eq_ok_iff.2 ⟨hstatic, ?_⟩
  cases hvisibility : found.property.visibility with
  | everywhere => trivial
  | ownClass =>
    rw [hvisibility] at hvisible
    obtain ⟨cls, hscope, hsame⟩ := hvisible
    exact ⟨cls, h.scope hscope, hsame⟩
  | hierarchy =>
    rw [hvisibility] at hvisible
    obtain ⟨cls, hscope, hrelated⟩ := hvisible
    refine ⟨cls, h.scope hscope, ?_⟩
    rwa [h.isSubclass_iff (installed_of_scope hscope), h.isSubclass_iff hdeclaring]

/-- An access goes on resolving to the same declaration however many classes are
installed later. One that failed may succeed then. -/
theorem Grows.resolve (h : registry.Grows later) (hdistinct : registry.Distinct)
    {target property : String} {scope : Option String} {found : StaticProperty σ ω}
    (hfound : registry.resolve target property scope = .ok found) :
    later.resolve target property scope = .ok found := by
  obtain ⟨cls, htarget, hnearest, haccess⟩ := resolve_eq_ok_iff.1 hfound
  have hinstalled := (declares_of_resolve hfound).1.ofIdentity? hdistinct
  refine resolve_eq_ok_iff.2 ⟨cls, h.targetClass htarget, ?_, h.checkAccess hinstalled haccess⟩
  rw [h.lineage (installed_of_targetClass htarget)]
  exact hnearest

end NativeBridge.Registry
