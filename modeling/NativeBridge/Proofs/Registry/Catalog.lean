import Mathlib.Tactic.Common
import NativeBridge.Proofs.Registry.Ancestry

namespace NativeBridge

/-- Installed classes by identity, and beside them the identities in the order
of installation. It is written to step by step, and a step that fails would
leave what was written before it. -/
structure Catalog (σ ω : Type) where
  classes : Std.HashMap Identity (NativeClass σ ω)
  order : List Identity
  eager : Bool

namespace Catalog

variable {σ ω : Type}

/-- A catalog before anything is installed. -/
def empty (eager : Bool) : Catalog σ ω := ⟨∅, [], eager⟩

/-- Installs a class: looks for reasons to refuse it, then writes it to the
table, then to the order. All checks come before the first write. -/
def install (cls : NativeClass σ ω) :
    ExceptT RegistrationError (StateM (Catalog σ ω)) (NativeClass σ ω) := do
  let catalog ← get
  if cls.identity ∈ catalog.classes then
    throw (.duplicateClass cls.name.text)
  if let some parent := cls.parent then
    if parent.identity ∉ catalog.classes then
      throw (.unknownParent cls.name.text parent.text)
  if catalog.eager then
    if let some gap := cls.gaps.head? then
      throw (.contractViolation cls.name.text gap.capability.hostName gap.missing)
  modify fun catalog => { catalog with classes := catalog.classes.insert cls.identity cls }
  modify fun catalog => { catalog with order := catalog.order ++ [cls.identity] }
  return cls

/-- The answer of an attempt to install a class, and the catalog after it. -/
def attempt (catalog : Catalog σ ω) (cls : NativeClass σ ω) :
    Except RegistrationError (NativeClass σ ω) × Catalog σ ω :=
  (install cls).run.run catalog

/-- The installed classes in the order of their installation. -/
def toList (catalog : Catalog σ ω) : List (NativeClass σ ω) :=
  catalog.order.filterMap fun id => catalog.classes[id]?

/-- The catalog with a class behind all others. -/
def add (catalog : Catalog σ ω) (cls : NativeClass σ ω) : Catalog σ ω :=
  { catalog with
    classes := catalog.classes.insert cls.identity cls
    order := catalog.order ++ [cls.identity] }

/-- A class that is added is found under its own identity, and every other
identity finds what it found before. -/
theorem classes_add (catalog : Catalog σ ω) (cls : NativeClass σ ω) :
    (catalog.add cls).classes = catalog.classes.insert cls.identity cls := rfl

private theorem order_add (catalog : Catalog σ ω) (cls : NativeClass σ ω) :
    (catalog.add cls).order = catalog.order ++ [cls.identity] := rfl

/-- Why a class is refused. A reason that is found earlier hides the later
ones. -/
inductive Refuses (catalog : Catalog σ ω) (cls : NativeClass σ ω) : RegistrationError → Prop
  | duplicate : cls.identity ∈ catalog.classes →
      Refuses catalog cls (.duplicateClass cls.name.text)
  | unknownParent (parent : ClassName) : cls.identity ∉ catalog.classes →
      cls.parent = some parent → parent.identity ∉ catalog.classes →
      Refuses catalog cls (.unknownParent cls.name.text parent.text)
  | gap (gap : ContractGap) : cls.identity ∉ catalog.classes →
      (∀ parent, cls.parent = some parent → parent.identity ∈ catalog.classes) →
      catalog.eager = true → cls.gaps.head? = some gap →
      Refuses catalog cls
        (.contractViolation cls.name.text gap.capability.hostName gap.missing)

/-- There is no reason to refuse a class. -/
structure Accepts (catalog : Catalog σ ω) (cls : NativeClass σ ω) : Prop where
  unused : cls.identity ∉ catalog.classes
  parent_mem : ∀ parent, cls.parent = some parent → parent.identity ∈ catalog.classes
  gaps_eq_nil : catalog.eager = true → cls.gaps = []

variable {catalog : Catalog σ ω} {cls : NativeClass σ ω}

/-- A class is accepted or there is a reason to refuse it. The reasons are told
apart without looking at what an attempt does. -/
theorem accepts_or_refuses (catalog : Catalog σ ω) (cls : NativeClass σ ω) :
    catalog.Accepts cls ∨ ∃ error, catalog.Refuses cls error := by
  by_cases hunused : cls.identity ∈ catalog.classes
  · exact .inr ⟨_, .duplicate hunused⟩
  by_cases hparent : ∀ parent, cls.parent = some parent → parent.identity ∈ catalog.classes
  · by_cases hgaps : catalog.eager = true → cls.gaps = []
    · exact .inl ⟨hunused, hparent, hgaps⟩
    · obtain ⟨heager, hgaps⟩ := Classical.not_imp.1 hgaps
      obtain ⟨gap, rest, hgap⟩ := List.exists_cons_of_ne_nil hgaps
      exact .inr ⟨_, .gap gap hunused hparent heager (by rw [hgap, List.head?_cons])⟩
  · obtain ⟨parent, hparent⟩ := not_forall.1 hparent
    obtain ⟨hname, hunknown⟩ := Classical.not_imp.1 hparent
    exact .inr ⟨_, .unknownParent parent hunused hname hunknown⟩

private theorem Accepts.not_refuses (h : catalog.Accepts cls) {error : RegistrationError} :
    ¬ catalog.Refuses cls error := by
  rintro (hused | ⟨parent, -, hname, hunknown⟩ | ⟨gap, -, -, heager, hgap⟩)
  · exact h.unused hused
  · exact hunknown (h.parent_mem parent hname)
  · rw [h.gaps_eq_nil heager] at hgap
    cases hgap

private theorem run_get_bind {ε s β : Type} (f : s → ExceptT ε (StateM s) β) (state : s) :
    (get >>= f).run.run state = (f state).run.run state := rfl

private theorem attempt_of_parent_mem (hunused : cls.identity ∉ catalog.classes)
    (hparent : ∀ parent, cls.parent = some parent → parent.identity ∈ catalog.classes) :
    catalog.attempt cls =
      match if catalog.eager then cls.gaps.head? else none with
      | some gap => (.error (.contractViolation cls.name.text gap.capability.hostName
          gap.missing), catalog)
      | none => (.ok cls, catalog.add cls) := by
  rw [attempt, install, run_get_bind, if_neg hunused]
  cases hname : cls.parent with
  | none =>
    cases catalog.eager with
    | false => rfl
    | true => cases cls.gaps.head? <;> rfl
  | some parent =>
    dsimp only
    rw [if_neg (not_not_intro (hparent parent hname))]
    cases catalog.eager with
    | false => rfl
    | true => cases cls.gaps.head? <;> rfl

/-- An attempt at a class that there is a reason to refuse ends with that reason
and leaves the whole catalog as it was. -/
theorem attempt_of_refuses {error : RegistrationError} (h : catalog.Refuses cls error) :
    catalog.attempt cls = (.error error, catalog) := by
  obtain hused | ⟨parent, hunused, hname, hunknown⟩ | ⟨gap, hunused, hparent, heager, hgap⟩ := h
  · rw [attempt, install, run_get_bind, if_pos hused]
    rfl
  · rw [attempt, install, run_get_bind, if_neg hunused, hname]
    dsimp only
    rw [if_pos hunknown]
    rfl
  · rw [attempt_of_parent_mem hunused hparent, heager, if_pos rfl, hgap]

/-- An attempt at an accepted class answers with it and writes it to the table
and to the order. -/
theorem attempt_of_accepts (h : catalog.Accepts cls) :
    catalog.attempt cls = (.ok cls, catalog.add cls) := by
  rw [attempt_of_parent_mem h.unused h.parent_mem]
  cases heager : catalog.eager with
  | false => rfl
  | true =>
    rw [h.gaps_eq_nil heager]
    rfl

/-- How an attempt ends. A class is installed or refused for the first reason
there is, and a class that is refused changes nothing. -/
structure Settles (catalog : Catalog σ ω) (cls : NativeClass σ ω) : Prop where
  error_iff : ∀ error, (catalog.attempt cls).1 = .error error ↔ catalog.Refuses cls error
  ok_iff : ∀ installed, (catalog.attempt cls).1 = .ok installed ↔
    catalog.Accepts cls ∧ installed = cls
  unchanged : ∀ error, (catalog.attempt cls).1 = .error error → (catalog.attempt cls).2 = catalog
  added : ∀ installed, (catalog.attempt cls).1 = .ok installed →
    (catalog.attempt cls).2 = catalog.add cls

/-- Each attempt settles as described, for any catalog, also one that no
installations lead to. -/
theorem settles (catalog : Catalog σ ω) (cls : NativeClass σ ω) : catalog.Settles cls := by
  obtain haccepts | ⟨error, hrefuses⟩ := accepts_or_refuses catalog cls
  · have hattempt := attempt_of_accepts haccepts
    constructor <;> simp [hattempt, haccepts, haccepts.not_refuses, eq_comm]
  · have hattempt := attempt_of_refuses hrefuses
    have hnot : ¬ catalog.Accepts cls := fun haccepts => haccepts.not_refuses hrefuses
    refine ⟨fun other => ?_, ?_, ?_, ?_⟩
    · rw [hattempt, Except.error.injEq]
      constructor
      · rintro rfl
        exact hrefuses
      · intro hother
        have hsame := hattempt.symm.trans (attempt_of_refuses hother)
        cases hsame
        rfl
    all_goals simp [hattempt, hnot]

/-- A catalog has the classes of a registry, in the order of their installation.
It then answers and refuses as the registry does. -/
structure Lists (catalog : Catalog σ ω) (registry : Registry σ ω) : Prop where
  getElem?_eq : ∀ id, catalog.classes[id]? = registry.ofIdentity? id
  size_eq : catalog.classes.size = registry.size
  order_eq : catalog.order = registry.toList.map NativeClass.identity
  eager_eq : catalog.eager = registry.eager

namespace Lists

variable {registry : Registry σ ω}

/-- The table holds an identity exactly when the registry finds it. -/
theorem mem_iff (h : catalog.Lists registry) {id : Identity} :
    id ∈ catalog.classes ↔ (registry.ofIdentity? id).isSome = true := by
  rw [Std.HashMap.mem_iff_isSome_getElem?, h.getElem?_eq]

private theorem ofIdentity?_eq_none_iff (h : catalog.Lists registry) {id : Identity} :
    registry.ofIdentity? id = none ↔ id ∉ catalog.classes := by
  rw [h.mem_iff, Option.isSome_iff_ne_none, ne_eq, Decidable.not_not]

private theorem parent_installed (h : catalog.Lists registry)
    (hparent : ∀ parent, cls.parent = some parent → parent.identity ∈ catalog.classes) :
    ∀ parent, cls.parent = some parent → registry.ofIdentity? parent.identity ≠ none := by
  intro parent hname
  rw [ne_eq, h.ofIdentity?_eq_none_iff, Decidable.not_not]
  exact hparent parent hname

/-- A reason to refuse a class in a catalog is the error of the registry with
the same classes, with the same texts. -/
theorem install_of_refuses (h : catalog.Lists registry) {error : RegistrationError}
    (hrefuses : catalog.Refuses cls error) : registry.install cls = .error error := by
  obtain hused | ⟨parent, hunused, hname, hunknown⟩ | ⟨gap, hunused, hparent, heager, hgap⟩ :=
    hrefuses
  · rw [Registry.install, if_pos (h.mem_iff.1 hused)]
    rfl
  · rw [Registry.install, if_neg (mt h.mem_iff.2 hunused), hname]
    dsimp only
    rw [h.ofIdentity?_eq_none_iff.2 hunknown]
    rfl
  · rw [Registry.install_of_unused (h.ofIdentity?_eq_none_iff.2 hunused)
      (h.parent_installed hparent), ← h.eager_eq, if_pos heager, hgap]

/-- What a catalog accepts the registry with the same classes installs. -/
theorem install_of_accepts (h : catalog.Lists registry) (haccepts : catalog.Accepts cls) :
    registry.install cls = .ok { registry with classes := cls :: registry.classes } := by
  refine Registry.install_of_gaps_eq_nil (h.ofIdentity?_eq_none_iff.2 haccepts.unused)
    (h.parent_installed haccepts.parent_mem) ?_
  rw [← h.eager_eq]
  exact haccepts.gaps_eq_nil

/-- The registry refuses a class for the reason that the catalog refuses it for,
and for no other. -/
theorem install_eq_error_iff (h : catalog.Lists registry) {error : RegistrationError} :
    registry.install cls = .error error ↔ catalog.Refuses cls error := by
  constructor
  · intro herror
    obtain haccepts | ⟨other, hrefuses⟩ := accepts_or_refuses catalog cls
    · rw [h.install_of_accepts haccepts] at herror
      cases herror
    · rw [h.install_of_refuses hrefuses] at herror
      cases herror
      exact hrefuses
  · exact h.install_of_refuses

/-- Adding a class of an unused identity keeps catalog and registry alike,
although the one puts it behind all others and the other in front. -/
theorem add (h : catalog.Lists registry) (hunused : cls.identity ∉ catalog.classes) :
    (catalog.add cls).Lists { registry with classes := cls :: registry.classes } where
  getElem?_eq id := by
    simp only [classes_add, Std.HashMap.getElem?_insert, h.getElem?_eq,
      Registry.ofIdentity?_cons, beq_iff_eq]
  size_eq := by
    rw [classes_add, Std.HashMap.size_insert, if_neg hunused, h.size_eq, Registry.size,
      Registry.size, List.length_cons]
  order_eq := by
    rw [order_add, h.order_eq, Registry.toList, Registry.toList, List.reverse_cons,
      List.map_append, List.map_singleton]
  eager_eq := h.eager_eq

end Lists

end Catalog

end NativeBridge
