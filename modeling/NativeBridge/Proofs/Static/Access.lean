import NativeBridge.Proofs.Registry.Ancestry
import NativeBridge.Proofs.Static.Resolution
import NativeBridge.Sample.State

namespace NativeBridge.Registry

variable {σ ω : Type}

/-- The class is installed under a written name. The case of ASCII letters and
one backslash in front do not matter. -/
def Names (registry : Registry σ ω) (name : String) (cls : NativeClass σ ω) : Prop :=
  cls ∈ registry.classes ∧ cls.identity = Identity.ofClass (dropLeadingSeparator name)

/-- The access is made from the class. A scope that names no installed class is
none. -/
def MadeFrom (registry : Registry σ ω) (scope : Option String) (cls : NativeClass σ ω) : Prop :=
  ∃ name, scope = some name ∧ registry.Names name cls

private theorem MadeFrom.mem {registry : Registry σ ω} {scope : Option String}
    {cls : NativeClass σ ω} (h : registry.MadeFrom scope cls) : cls ∈ registry.classes := by
  obtain ⟨name, -, hmem, -⟩ := h
  exact hmem

/-- The class in which the search for a property starts: the scope for `self`,
the parent of the scope for `parent`, and a class of that name otherwise. -/
inductive StartsAt (registry : Registry σ ω) (target : String) (scope : Option String) :
    NativeClass σ ω → Prop
  | self {cls : NativeClass σ ω} : Text.SameName target "self" → registry.MadeFrom scope cls →
      registry.StartsAt target scope cls
  | parent {cls parent : NativeClass σ ω} {name : ClassName} : Text.SameName target "parent" →
      registry.MadeFrom scope cls → cls.parent = some name → parent ∈ registry.classes →
      parent.identity = name.identity → registry.StartsAt target scope parent
  | named {cls : NativeClass σ ω} : ¬ Text.SameName target "self" →
      ¬ Text.SameName target "parent" → registry.Names target cls →
      registry.StartsAt target scope cls

/-- Why there is no class to start from. The keywords fail over the scope first
and over its parent after that, whatever the property is. -/
inductive StartFails (registry : Registry σ ω) (target property : String) :
    Option String → PropertyError → Prop
  | noScope {keyword : String} : keyword = "self" ∨ keyword = "parent" →
      Text.SameName target keyword →
      registry.StartFails target property none (.noClassScope keyword)
  | unknownScope {scope : String} : Text.SameName target "self" ∨ Text.SameName target "parent" →
      (∀ cls, ¬ registry.Names scope cls) →
      registry.StartFails target property (some scope) (.unknownClass scope)
  | noParent {scope : Option String} {cls : NativeClass σ ω} : Text.SameName target "parent" →
      registry.MadeFrom scope cls → cls.parent = none →
      registry.StartFails target property scope (.noParentClass cls.name.text property)
  | unknownClass {scope : Option String} : ¬ Text.SameName target "self" →
      ¬ Text.SameName target "parent" → (∀ cls, ¬ registry.Names target cls) →
      registry.StartFails target property scope (.unknownClass target)

/-- The declaration of the nearest class that has one: no class on the way to it
declares the name, whatever the declaration is like. -/
def Nearest (registry : Registry σ ω) (start : NativeClass σ ω) (name : String)
    (found : StaticProperty σ ω) : Prop :=
  ∃ n, registry.ancestor? n start = some found.declaring ∧
    found.declaring.property? name = some found.property ∧
    ∀ m < n, ∀ cls, registry.ancestor? m start = some cls →
      ∀ property ∈ cls.properties, property.name ≠ name

/-- Who may use a declaration: everybody, the declaring class alone, or the
classes above and below it as well. -/
def Permits (registry : Registry σ ω) (found : StaticProperty σ ω) (scope : Option String) : Prop :=
  match found.property.visibility with
  | .everywhere => True
  | .ownClass => registry.MadeFrom scope found.declaring
  | .hierarchy => ∃ cls, registry.MadeFrom scope cls ∧
      (registry.Inherits cls found.declaring ∨ registry.Inherits found.declaring cls)

/-- Why a declaration is not used. That it is not static counts before its
visibility. -/
inductive Refuses (registry : Registry σ ω) (found : StaticProperty σ ω) (scope : Option String) :
    PropertyError → Prop
  | notStatic : found.property.isStatic = false →
      registry.Refuses found scope (.notStatic found.declaring.name.text found.property.name)
  | privateAccess : found.property.isStatic = true → found.property.visibility = .ownClass →
      ¬ registry.Permits found scope →
      registry.Refuses found scope (.privateAccess found.declaring.name.text found.property.name)
  | protectedAccess : found.property.isStatic = true → found.property.visibility = .hierarchy →
      ¬ registry.Permits found scope →
      registry.Refuses found scope (.protectedAccess found.declaring.name.text found.property.name)

/-- How an access ends, said without the order in which things are looked up. A
declaration that is found and refused is not passed over for one higher up. -/
inductive Resolves (registry : Registry σ ω) (target property : String) (scope : Option String) :
    Except PropertyError (StaticProperty σ ω) → Prop
  | lost {error : PropertyError} : registry.StartFails target property scope error →
      registry.Resolves target property scope (.error error)
  | undeclared {start : NativeClass σ ω} : registry.StartsAt target scope start →
      (∀ cls, registry.Inherits start cls → ∀ other ∈ cls.properties, other.name ≠ property) →
      registry.Resolves target property scope (.error (.unknownProperty start.name.text property))
  | refused {start : NativeClass σ ω} {found : StaticProperty σ ω} {error : PropertyError} :
      registry.StartsAt target scope start → registry.Nearest start property found →
      registry.Refuses found scope error →
      registry.Resolves target property scope (.error error)
  | reached {start : NativeClass σ ω} {found : StaticProperty σ ω} :
      registry.StartsAt target scope start → registry.Nearest start property found →
      found.property.isStatic = true → registry.Permits found scope →
      registry.Resolves target property scope (.ok found)

section Built

variable {registry : Registry σ ω} {target property : String} {scope : Option String}

/-- In a registry that was built by installations a look-up finds a class
exactly when it is installed under that name; there is no second one. -/
theorem Built.get?_eq_some_iff (h : registry.Built) {name : String} {cls : NativeClass σ ω} :
    registry.get? name = some cls ↔ registry.Names name cls :=
  h.distinct.ofIdentity?_eq_some_iff

private theorem Built.get?_eq_none_iff (h : registry.Built) {name : String} :
    registry.get? name = none ↔ ∀ cls, ¬ registry.Names name cls := by
  rw [Option.eq_none_iff_forall_ne_some]
  exact forall_congr' fun cls => not_congr h.get?_eq_some_iff

/-- The scope is looked up as any name is, so an access from a class that is not
installed is an access from nowhere. -/
theorem Built.scope_eq_some_iff (h : registry.Built) {cls : NativeClass σ ω} :
    scope.bind registry.get? = some cls ↔ registry.MadeFrom scope cls := by
  rw [Option.bind_eq_some_iff]
  exact exists_congr fun name => and_congr_right fun _ => h.get?_eq_some_iff

private theorem not_sameName_self_parent {text : String} (hself : Text.SameName text "self") :
    ¬ Text.SameName text "parent" := fun hparent =>
  absurd (hself.symm.trans hparent) (by decide)

private theorem ofText_eq_self (h : Text.SameName target "self") :
    StaticTarget.ofText target = .self := if_pos h

private theorem ofText_eq_parent (h : Text.SameName target "parent") :
    StaticTarget.ofText target = .parent := by
  have hself : ¬ Text.SameName target "self" := fun hself => not_sameName_self_parent hself h
  rw [StaticTarget.ofText, if_neg hself, if_pos h]

private theorem ofText_eq_named (hself : ¬ Text.SameName target "self")
    (hparent : ¬ Text.SameName target "parent") :
    StaticTarget.ofText target = .named target := by
  rw [StaticTarget.ofText, if_neg hself, if_neg hparent]

private theorem target_cases (target : String) :
    Text.SameName target "self" ∨ Text.SameName target "parent" ∨
      (¬ Text.SameName target "self" ∧ ¬ Text.SameName target "parent") := by
  by_cases hself : Text.SameName target "self"
  · exact .inl hself
  · by_cases hparent : Text.SameName target "parent"
    · exact .inr (.inl hparent)
    · exact .inr (.inr ⟨hself, hparent⟩)

/-- The look-up of a target succeeds exactly where the search may start. The
case of the keywords does not matter. -/
theorem Built.startsAt_iff (h : registry.Built) {cls : NativeClass σ ω} :
    registry.targetClass (StaticTarget.ofText target) property scope = .ok cls ↔
      registry.StartsAt target scope cls := by
  rw [targetClass_eq_ok_iff]
  obtain hself | hparent | ⟨hself, hparent⟩ := target_cases target
  · rw [ofText_eq_self hself]
    refine h.scope_eq_some_iff.trans ⟨.self hself, fun hstart => ?_⟩
    cases hstart with
    | self _ hmade => exact hmade
    | parent hparent => exact absurd hparent (not_sameName_self_parent hself)
    | named hnot => exact absurd hself hnot
  · rw [ofText_eq_parent hparent]
    constructor
    · rintro ⟨child, hchild, habove⟩
      obtain ⟨name, hname, hmem, hsame⟩ := h.parentOf?_eq_some_iff.1 habove
      exact .parent hparent (h.scope_eq_some_iff.1 hchild) hname hmem hsame
    · intro hstart
      cases hstart with
      | self hself => exact absurd hparent (not_sameName_self_parent hself)
      | parent _ hmade hname hmem hsame =>
        exact ⟨_, h.scope_eq_some_iff.2 hmade, h.parentOf?_eq_some_iff.2 ⟨_, hname, hmem, hsame⟩⟩
      | named _ hnot => exact absurd hparent hnot
  · rw [ofText_eq_named hself hparent]
    refine h.get?_eq_some_iff.trans ⟨.named hself hparent, fun hstart => ?_⟩
    cases hstart with
    | self hself' => exact absurd hself' hself
    | parent hparent' => exact absurd hparent' hparent
    | named _ _ hnames => exact hnames

/-- A keyword fails over its scope in two ways: there is none, or no class has
that name. The message has the scope as it was written. -/
theorem Built.scopeClass_eq_error_iff (h : registry.Built) {keyword : String}
    {error : PropertyError} :
    registry.scopeClass scope keyword = .error error ↔
      (scope = none ∧ error = .noClassScope keyword) ∨
        ∃ name, scope = some name ∧ (∀ cls, ¬ registry.Names name cls) ∧
          error = .unknownClass name := by
  cases scope with
  | none => simp [scopeClass, eq_comm]
  | some name =>
    cases hfound : registry.get? name with
    | none => simp [scopeClass, hfound, h.get?_eq_none_iff.1 hfound, eq_comm]
    | some cls =>
      have hnames := h.get?_eq_some_iff.1 hfound
      simp only [scopeClass, hfound, reduceCtorEq, Option.some.injEq, false_and, false_or,
        false_iff]
      rintro ⟨_, rfl, hnone, -⟩
      exact hnone cls hnames

private theorem targetClass_parent_eq_error_iff {error : PropertyError} :
    registry.targetClass .parent property scope = .error error ↔
      registry.scopeClass scope "parent" = .error error ∨
        ∃ cls, registry.scopeClass scope "parent" = .ok cls ∧ registry.parentOf? cls = none ∧
          error = .noParentClass cls.name.text property := by
  cases hscope : registry.scopeClass scope "parent" with
  | error cause => simp [targetClass, hscope, bind, Except.bind]
  | ok cls =>
    cases hparent : registry.parentOf? cls <;>
      simp [targetClass, hscope, hparent, bind, Except.bind, eq_comm]

/-- The look-up of a target fails exactly as the rules say, with the class or
the property named in each error. -/
theorem Built.startFails_iff (h : registry.Built) {error : PropertyError} :
    registry.targetClass (StaticTarget.ofText target) property scope = .error error ↔
      registry.StartFails target property scope error := by
  obtain hself | hparent | ⟨hself, hparent⟩ := target_cases target
  · have hnot := not_sameName_self_parent hself
    rw [ofText_eq_self hself]
    refine h.scopeClass_eq_error_iff.trans ⟨?_, fun hfails => ?_⟩
    · rintro (⟨rfl, rfl⟩ | ⟨name, rfl, hnone, rfl⟩)
      · exact .noScope (.inl rfl) hself
      · exact .unknownScope (.inl hself) hnone
    · cases hfails with
      | noScope hkeyword hsame =>
        obtain rfl | rfl := hkeyword
        · exact .inl ⟨rfl, rfl⟩
        · exact absurd hsame hnot
      | unknownScope _ hnone => exact .inr ⟨_, rfl, hnone, rfl⟩
      | noParent hparent => exact absurd hparent hnot
      | unknownClass hself' => exact absurd hself hself'
  · have hnot : ¬ Text.SameName target "self" := fun hself =>
      not_sameName_self_parent hself hparent
    rw [ofText_eq_parent hparent, targetClass_parent_eq_error_iff, h.scopeClass_eq_error_iff]
    constructor
    · rintro ((⟨rfl, rfl⟩ | ⟨name, rfl, hnone, rfl⟩) | ⟨cls, hscope, hnone, rfl⟩)
      · exact .noScope (.inr rfl) hparent
      · exact .unknownScope (.inr hparent) hnone
      · have hmade := h.scope_eq_some_iff.1 (scopeClass_eq_ok_iff.1 hscope)
        exact .noParent hparent hmade ((h.parentOf?_eq_none_iff hmade.mem).1 hnone)
    · intro hfails
      cases hfails with
      | noScope hkeyword hsame =>
        obtain rfl | rfl := hkeyword
        · exact absurd hsame hnot
        · exact .inl (.inl ⟨rfl, rfl⟩)
      | unknownScope _ hnone => exact .inl (.inr ⟨_, rfl, hnone, rfl⟩)
      | noParent _ hmade hnone =>
        exact .inr ⟨_, scopeClass_eq_ok_iff.2 (h.scope_eq_some_iff.2 hmade),
          (h.parentOf?_eq_none_iff hmade.mem).2 hnone, rfl⟩
      | unknownClass _ hparent' => exact absurd hparent hparent'
  · rw [ofText_eq_named hself hparent]
    constructor
    · intro herror
      cases hfound : registry.get? target with
      | some cls => simp [targetClass, hfound] at herror
      | none =>
        simp only [targetClass, hfound, Except.error.injEq] at herror
        exact herror ▸ .unknownClass hself hparent (h.get?_eq_none_iff.1 hfound)
    · intro hfails
      cases hfails with
      | noScope hkeyword hsame =>
        obtain rfl | rfl := hkeyword
        · exact absurd hsame hself
        · exact absurd hsame hparent
      | unknownScope hkeyword => exact absurd hkeyword (not_or.2 ⟨hself, hparent⟩)
      | noParent hparent' => exact absurd hparent' hparent
      | unknownClass _ _ hnone =>
        simp only [targetClass, h.get?_eq_none_iff.2 hnone]

private theorem StartsAt.mem {cls : NativeClass σ ω} (h : registry.StartsAt target scope cls) :
    cls ∈ registry.classes := by
  cases h with
  | self _ hmade => exact hmade.mem
  | parent _ _ _ hmem => exact hmem
  | named _ _ hnames => exact hnames.1

end Built

private theorem property?_eq_none_iff {cls : NativeClass σ ω} {name : String} :
    cls.property? name = none ↔ ∀ property ∈ cls.properties, property.name ≠ name := by
  simp [NativeClass.property?]

/-- The search of a chain stops at the first class that declares the name. The
chain is any list of classes here, with repetitions or without. -/
theorem declaredIn?_eq_some_iff {name : String} {chain : List (NativeClass σ ω)}
    {found : StaticProperty σ ω} :
    declaredIn? name chain = some found ↔
      ∃ n : Nat, chain[n]? = some found.declaring ∧
        found.declaring.property? name = some found.property ∧
        ∀ m < n, ∀ cls : NativeClass σ ω, chain[m]? = some cls → cls.property? name = none := by
  induction chain with
  | nil => simp [declaredIn?]
  | cons cls above ih =>
    cases hproperty : cls.property? name with
    | some property =>
      simp only [declaredIn?, hproperty, Option.some.injEq]
      constructor
      · rintro rfl
        exact ⟨0, rfl, hproperty, fun m hm => absurd hm (Nat.not_lt_zero m)⟩
      · rintro ⟨n, hn, hfound, hbefore⟩
        cases n with
        | zero =>
          obtain ⟨declaring, _⟩ := found
          cases hn
          rw [hproperty] at hfound
          cases hfound
          rfl
        | succ n =>
          have hnone := hbefore 0 (Nat.succ_pos n) cls rfl
          rw [hproperty] at hnone
          cases hnone
    | none =>
      simp only [declaredIn?, hproperty, ih]
      constructor
      · rintro ⟨n, hn, hfound, hbefore⟩
        refine ⟨n + 1, hn, hfound, fun m hm other hother => ?_⟩
        cases m with
        | zero => exact Option.some.inj hother ▸ hproperty
        | succ m => exact hbefore m (Nat.lt_of_succ_lt_succ hm) other hother
      · rintro ⟨n, hn, hfound, hbefore⟩
        cases n with
        | zero =>
          rw [Option.some.inj hn, hfound] at hproperty
          cases hproperty
        | succ n =>
          exact ⟨n, hn, hfound, fun m hm other hother =>
            hbefore (m + 1) (Nat.succ_lt_succ hm) other hother⟩

private theorem declaredIn?_eq_none_iff {name : String} {chain : List (NativeClass σ ω)} :
    declaredIn? name chain = none ↔ ∀ cls ∈ chain, cls.property? name = none := by
  induction chain with
  | nil => simp [declaredIn?]
  | cons cls above ih =>
    cases hproperty : cls.property? name <;> simp [declaredIn?, hproperty, ih]

section Built

variable {registry : Registry σ ω} {name : String} {start : NativeClass σ ω}
  {found : StaticProperty σ ω} {scope : Option String}

/-- The search finds the nearest declaration above an installed class. The
number of parent steps to it is what orders the candidates. -/
theorem Built.nearest_iff (h : registry.Built) (hstart : start ∈ registry.classes) :
    declaredIn? name (registry.lineage start.identity) = some found ↔
      registry.Nearest start name found := by
  simp only [declaredIn?_eq_some_iff, h.getElem?_lineage hstart, property?_eq_none_iff, Nearest]

/-- The search finds nothing exactly when no class that the start inherits from
declares the name, the start itself among them. -/
theorem Built.undeclared_iff (h : registry.Built) (hstart : start ∈ registry.classes) :
    declaredIn? name (registry.lineage start.identity) = none ↔
      ∀ cls, registry.Inherits start cls → ∀ property ∈ cls.properties, property.name ≠ name := by
  simp only [declaredIn?_eq_none_iff, h.mem_lineage_iff hstart, property?_eq_none_iff]

private theorem Nearest.declaring_mem (h : registry.Built) (hstart : start ∈ registry.classes)
    (hnearest : registry.Nearest start name found) : found.declaring ∈ registry.classes := by
  obtain ⟨n, hn, -⟩ := hnearest
  exact Inherits.mem h ⟨n, hn⟩ hstart

/-- The check lets an access pass exactly when the property is static and its
visibility permits the scope. Inheritance counts in both directions for the
hierarchy. -/
theorem Built.permits_iff (h : registry.Built) (hdeclaring : found.declaring ∈ registry.classes) :
    registry.checkAccess found (scope.bind registry.get?) = .ok () ↔
      found.property.isStatic = true ∧ registry.Permits found scope := by
  rw [checkAccess_eq_ok_iff, Permits]
  refine and_congr_right fun _ => ?_
  cases found.property.visibility with
  | everywhere => rfl
  | ownClass =>
    constructor
    · rintro ⟨cls, hscope, hsame⟩
      have hmade := h.scope_eq_some_iff.1 hscope
      have hinstalled := h.ofIdentity?_of_mem hmade.mem
      rw [hsame, h.ofIdentity?_of_mem hdeclaring, Option.some_inj] at hinstalled
      exact hinstalled ▸ hmade
    · intro hmade
      exact ⟨found.declaring, h.scope_eq_some_iff.2 hmade, rfl⟩
  | hierarchy =>
    refine exists_congr fun cls => (and_congr_left' h.scope_eq_some_iff).trans ?_
    refine and_congr_right fun hmade => ?_
    rw [h.isSubclass_iff hmade.mem hdeclaring, h.isSubclass_iff hdeclaring hmade.mem]

private theorem guarded_of_ne_ok {allowed : Bool} {error : PropertyError}
    (h : (if allowed then Except.ok () else .error error) ≠ Except.ok ()) :
    (if allowed then Except.ok () else .error error) = Except.error error := by
  cases allowed
  · rfl
  · exact absurd rfl h

/-- The check refuses an access exactly as the rules say, with the
declaring class in the message and not the class that was asked for. -/
theorem Built.refuses_iff (h : registry.Built) (hdeclaring : found.declaring ∈ registry.classes)
    {error : PropertyError} :
    registry.checkAccess found (scope.bind registry.get?) = .error error ↔
      registry.Refuses found scope error := by
  have hpermits : registry.checkAccess found (scope.bind registry.get?) = .ok () ↔
      found.property.isStatic = true ∧ registry.Permits found scope := h.permits_iff hdeclaring
  cases hstatic : found.property.isStatic with
  | false =>
    have haccess : registry.checkAccess found (scope.bind registry.get?) =
        .error (.notStatic found.declaring.name.text found.property.name) := by
      simp [checkAccess, hstatic]
    rw [haccess]
    constructor
    · rintro ⟨⟩
      exact .notStatic hstatic
    · intro hrefuses
      cases hrefuses <;> simp_all
  | true =>
    simp only [hstatic, true_and] at hpermits
    by_cases hallowed : registry.Permits found scope
    · rw [hpermits.2 hallowed]
      simp only [reduceCtorEq, false_iff]
      intro hrefuses
      cases hrefuses <;> simp_all
    · have hnot := mt hpermits.1 hallowed
      simp only [checkAccess, hstatic] at hnot ⊢
      cases hvisibility : found.property.visibility with
      | everywhere => simp [Permits, hvisibility] at hallowed
      | ownClass | hierarchy =>
        simp only [hvisibility] at hnot ⊢
        rw [Bool.not_true, if_neg Bool.false_ne_true] at hnot ⊢
        rw [guarded_of_ne_ok hnot]
        constructor
        · rintro ⟨⟩
          first
          | exact .privateAccess hstatic hvisibility hallowed
          | exact .protectedAccess hstatic hvisibility hallowed
        · intro hrefuses
          cases hrefuses <;> simp_all

end Built

section Ends

variable {registry : Registry σ ω} {target property : String} {scope : Option String}
  {start : NativeClass σ ω} {found : StaticProperty σ ω} {error : PropertyError}

private theorem resolve_of_lost
    (h : registry.targetClass (StaticTarget.ofText target) property scope = .error error) :
    registry.resolve target property scope = .error error := by
  simp [resolve, h, bind, Except.bind]

private theorem resolve_of_undeclared
    (h : registry.targetClass (StaticTarget.ofText target) property scope = .ok start)
    (hnone : declaredIn? property (registry.lineage start.identity) = none) :
    registry.resolve target property scope =
      .error (.unknownProperty start.name.text property) := by
  simp [resolve, h, hnone, bind, Except.bind, throw, throwThe, MonadExceptOf.throw]

private theorem resolve_of_refused
    (h : registry.targetClass (StaticTarget.ofText target) property scope = .ok start)
    (hfound : declaredIn? property (registry.lineage start.identity) = some found)
    (haccess : registry.checkAccess found (scope.bind registry.get?) = .error error) :
    registry.resolve target property scope = .error error := by
  simp [resolve, h, hfound, haccess, bind, Except.bind]

/-- In a registry that was built by installations an access ends in one way
only, the one that the rules allow. This covers each error with its texts as
well as the declaration that is reached. -/
theorem resolve_eq_iff (h : registry.Built)
    {outcome : Except PropertyError (StaticProperty σ ω)} :
    registry.resolve target property scope = outcome ↔
      registry.Resolves target property scope outcome := by
  constructor
  · rintro rfl
    cases htarget : registry.targetClass (StaticTarget.ofText target) property scope with
    | error error =>
      rw [resolve_of_lost htarget]
      exact .lost (h.startFails_iff.1 htarget)
    | ok start =>
      have hstart := h.startsAt_iff.1 htarget
      cases hfound : declaredIn? property (registry.lineage start.identity) with
      | none =>
        rw [resolve_of_undeclared htarget hfound]
        exact .undeclared hstart ((h.undeclared_iff hstart.mem).1 hfound)
      | some found =>
        have hnearest := (h.nearest_iff hstart.mem).1 hfound
        have hdeclaring := hnearest.declaring_mem h hstart.mem
        cases haccess : registry.checkAccess found (scope.bind registry.get?) with
        | error error =>
          rw [resolve_of_refused htarget hfound haccess]
          exact .refused hstart hnearest ((h.refuses_iff hdeclaring).1 haccess)
        | ok _ =>
          rw [resolve_eq_ok_iff.2 ⟨start, htarget, hfound, haccess⟩]
          obtain ⟨hstatic, hpermits⟩ := (h.permits_iff hdeclaring).1 haccess
          exact .reached hstart hnearest hstatic hpermits
  · intro hresolves
    cases hresolves with
    | lost hfails => exact resolve_of_lost (h.startFails_iff.2 hfails)
    | undeclared hstart hnone =>
      exact resolve_of_undeclared (h.startsAt_iff.2 hstart) ((h.undeclared_iff hstart.mem).2 hnone)
    | refused hstart hnearest hrefuses =>
      have hdeclaring := hnearest.declaring_mem h hstart.mem
      exact resolve_of_refused (h.startsAt_iff.2 hstart) ((h.nearest_iff hstart.mem).2 hnearest)
        ((h.refuses_iff hdeclaring).2 hrefuses)
    | reached hstart hnearest hstatic hpermits =>
      have hdeclaring := hnearest.declaring_mem h hstart.mem
      exact resolve_eq_ok_iff.2 ⟨_, h.startsAt_iff.2 hstart, (h.nearest_iff hstart.mem).2 hnearest,
        (h.permits_iff hdeclaring).2 ⟨hstatic, hpermits⟩⟩

end Ends

/-- A class with a property for everybody. -/
def vault : NativeClass Sample Unit where
  name := .global "Vault"
  parent := none
  capabilities := .empty
  methods := []
  properties := [⟨"key", .everywhere, true, .int 1⟩]
  distinct := List.nodup_nil

/-- A property for a class, its ancestors and its descendants. -/
def code : Property := ⟨"code", .hierarchy, true, .int 2⟩

/-- A class that hides its parent's property behind one of its own. -/
def safe : NativeClass Sample Unit :=
  { vault with
    name := .global "Safe"
    parent := some vault.name
    properties := [⟨"key", .ownClass, true, .int 3⟩, code] }

/-- A registry with the parent and its child. -/
def bank : Registry Sample Unit := ⟨[safe, vault], false⟩

/-- Two installations lead to this registry, the parent's before the child's. -/
theorem built_bank : bank.Built := by
  have hvault : (⟨[vault], false⟩ : Registry Sample Unit).Built :=
    (Built.empty false).of_isSome (by decide +kernel)
  exact hvault.of_isSome (by decide +kernel)

/-- The nearest declaration counts, also where the parent's could be used. A
parent reaches what its child keeps for the family, but does not inherit it. -/
theorem resolve_eq_iff_bank :
    bank.Built ∧
    bank.resolve "Safe" "key" (some "Vault") = .error (.privateAccess "Safe" "key") ∧
    bank.resolve "safe" "code" (some "\\VAULT") = .ok ⟨safe, code⟩ ∧
    bank.resolve "PARENT" "code" (some "Safe") = .error (.unknownProperty "Vault" "code") := by
  have hsafe : ∀ {name}, safe.identity = Identity.ofClass (dropLeadingSeparator name) →
      bank.Names name safe := fun h => ⟨List.mem_cons_self, h⟩
  have hvault : bank.MadeFrom (some "\\VAULT") vault :=
    ⟨_, rfl, List.mem_cons_of_mem _ List.mem_cons_self, by decide +kernel⟩
  have habove : bank.parentOf? safe = some vault :=
    built_bank.parentOf?_eq_some_iff.2
      ⟨vault.name, rfl, List.mem_cons_of_mem _ List.mem_cons_self, rfl⟩
  have hnearest : ∀ {name : String} {property : Property}, safe.property? name = some property →
      bank.Nearest safe name ⟨safe, property⟩ :=
    fun h => ⟨0, rfl, h, fun m hm => absurd hm (Nat.not_lt_zero m)⟩
  refine ⟨built_bank, (resolve_eq_iff built_bank).2 ?_, (resolve_eq_iff built_bank).2 ?_,
    (resolve_eq_iff built_bank).2 ?_⟩
  · refine .refused (.named (by decide) (by decide) (hsafe (by decide +kernel))) (hnearest rfl)
      (.privateAccess rfl rfl ?_)
    rintro ⟨_, ⟨⟩, -, hsame⟩
    revert hsame
    decide +kernel
  · exact .reached (.named (by decide) (by decide) (hsafe (by decide +kernel))) (hnearest rfl) rfl
      ⟨vault, hvault, .inr ⟨1, by rw [ancestor?, habove]; rfl⟩⟩
  · have hmade : bank.MadeFrom (some "Safe") safe := ⟨_, rfl, hsafe (by decide +kernel)⟩
    refine .undeclared (.parent (by decide) hmade rfl hvault.mem rfl) ?_
    rintro cls ⟨n, hn⟩
    cases n with
    | zero =>
      cases hn
      decide
    | succ n => cases hn

end NativeBridge.Registry
