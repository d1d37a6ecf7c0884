import Mathlib.Logic.Basic
import NativeBridge.Proofs.Registry.Growth

namespace NativeBridge.Registry

variable {σ ω : Type}

/-- The registries that installations lead to from an empty one. In these
every class has the parent it names, since each installation has checked that
the parent is there. -/
inductive Built : Registry σ ω → Prop
  | empty (eager : Bool) : (empty eager).Built
  | install {registry after : Registry σ ω} {cls : NativeClass σ ω} :
      registry.Built → registry.install cls = .ok after → after.Built

/-- The class itself, its parent, its parent's parent and so on, by the number
of steps. -/
def ancestor? (registry : Registry σ ω) : Nat → NativeClass σ ω → Option (NativeClass σ ω)
  | 0, cls => some cls
  | n + 1, cls => (registry.parentOf? cls).bind (registry.ancestor? n)

/-- Some number of steps from parent to parent, perhaps none, lead from a class
to an ancestor. -/
def Inherits (registry : Registry σ ω) (cls ancestor : NativeClass σ ω) : Prop :=
  ∃ n, registry.ancestor? n cls = some ancestor

/-- Installations only ever lead to registries of distinct identities, since
none of them replaces a class. -/
theorem Built.distinct {registry : Registry σ ω} (h : registry.Built) : registry.Distinct := by
  induction h with
  | empty eager => exact distinct_empty eager
  | install _ hinstall ih => exact ih.install hinstall

/-- In a registry that was built every installed class is found under its own
identity. -/
theorem Built.ofIdentity?_of_mem {registry : Registry σ ω} (h : registry.Built)
    {cls : NativeClass σ ω} (hmem : cls ∈ registry.classes) :
    registry.ofIdentity? cls.identity = some cls :=
  h.distinct.ofIdentity?_eq_some_iff.2 ⟨hmem, rfl⟩

/-- A class that a built registry installs stands in front of a registry that is
built again. Used to build concrete registries by evaluation. -/
theorem Built.of_isSome {registry : Registry σ ω} (h : registry.Built) {cls : NativeClass σ ω}
    (hinstall : (registry.install cls).toOption.isSome = true) :
    (⟨cls :: registry.classes, registry.eager⟩ : Registry σ ω).Built := by
  cases hafter : registry.install cls with
  | error error =>
    rw [hafter] at hinstall
    cases hinstall
  | ok after =>
    obtain ⟨-, rfl⟩ := install_eq_ok hafter
    exact h.install hafter

/-- A class that was installed with a parent had that parent installed before
it. The check is on the identity of the name, not on its spelling. -/
theorem parent_of_install {registry after : Registry σ ω} {cls : NativeClass σ ω}
    {name : ClassName} (h : registry.install cls = .ok after) (hname : cls.parent = some name) :
    ∃ parent, registry.ofIdentity? name.identity = some parent := by
  have hunused := (install_eq_ok h).1
  cases hparent : registry.ofIdentity? name.identity with
  | some parent => exact ⟨parent, rfl⟩
  | none => simp [install, hunused, hname, hparent, throw, throwThe, MonadExceptOf.throw, bind,
      Except.bind] at h

private theorem mem_classes_install {registry after : Registry σ ω} {cls other : NativeClass σ ω}
    (h : registry.install cls = .ok after) :
    other ∈ after.classes ↔ other = cls ∨ other ∈ registry.classes := by
  obtain ⟨-, rfl⟩ := install_eq_ok h
  exact List.mem_cons

/-- A class has the parent it names. A name alone would not do: it is because of
the check at its installation that following it leads to a class. -/
theorem Built.parentOf?_isSome {registry : Registry σ ω} (h : registry.Built)
    {cls : NativeClass σ ω} (hmem : cls ∈ registry.classes) {name : ClassName}
    (hname : cls.parent = some name) : ∃ parent, registry.parentOf? cls = some parent := by
  induction h with
  | empty eager => cases hmem
  | install _ hinstall ih =>
    have hgrows := Grows.of_install hinstall
    obtain rfl | hmem := (mem_classes_install hinstall).1 hmem
    · obtain ⟨parent, hparent⟩ := parent_of_install hinstall hname
      refine ⟨parent, ?_⟩
      rw [parentOf?, hname]
      exact hgrows.keeps hparent
    · obtain ⟨parent, hparent⟩ := ih hmem
      exact ⟨parent, hgrows.parentOf? hparent⟩

/-- Following a class to its parent fails only where it names none, so the end
of a line of ancestors is a class without a parent. -/
theorem Built.parentOf?_eq_none_iff {registry : Registry σ ω} (h : registry.Built)
    {cls : NativeClass σ ω} (hmem : cls ∈ registry.classes) :
    registry.parentOf? cls = none ↔ cls.parent = none := by
  cases hname : cls.parent with
  | none => simp [parentOf?, hname]
  | some name =>
    obtain ⟨parent, hparent⟩ := h.parentOf?_isSome hmem hname
    simp [hparent]

/-- The parent of a class is the installed class that has the identity of the
name of its parent. The class itself need not be installed. -/
theorem Built.parentOf?_eq_some_iff {registry : Registry σ ω} (h : registry.Built)
    {cls parent : NativeClass σ ω} :
    registry.parentOf? cls = some parent ↔
      ∃ name, cls.parent = some name ∧ parent ∈ registry.classes ∧
        parent.identity = name.identity := by
  rw [parentOf?, Option.bind_eq_some_iff]
  simp only [h.distinct.ofIdentity?_eq_some_iff]

/-- Parents are installed classes, whatever class one starts from. -/
theorem Built.mem_of_parentOf? {registry : Registry σ ω} (h : registry.Built)
    {cls parent : NativeClass σ ω} (hparent : registry.parentOf? cls = some parent) :
    parent ∈ registry.classes := by
  obtain ⟨name, -, hmem, -⟩ := h.parentOf?_eq_some_iff.1 hparent
  exact hmem

private theorem lineage_install {registry after : Registry σ ω} {cls : NativeClass σ ω}
    (h : registry.install cls = .ok after) :
    after.lineage cls.identity =
      cls :: cls.parent.elim [] fun name => registry.lineage name.identity := by
  obtain ⟨-, rfl⟩ := install_eq_ok h
  rw [lineage, lineageIn, if_pos rfl]
  cases cls.parent <;> rfl

/-- The line of a class is the class and the line of its parent. The line is
found by one walk through the list; this is the law of following parents. -/
theorem Built.lineage_eq {registry : Registry σ ω} (h : registry.Built) {cls : NativeClass σ ω}
    (hmem : cls ∈ registry.classes) :
    registry.lineage cls.identity =
      cls :: (registry.parentOf? cls).elim [] fun parent => registry.lineage parent.identity := by
  induction h with
  | empty eager => cases hmem
  | @install registry after newest hbuilt hinstall ih =>
    have hgrows := Grows.of_install hinstall
    obtain rfl | hmem := (mem_classes_install hinstall).1 hmem
    · rw [lineage_install hinstall]
      cases hname : cls.parent with
      | none =>
        rw [parentOf?, hname]
        rfl
      | some name =>
        obtain ⟨parent, hparent⟩ := parent_of_install hinstall hname
        have habove : after.parentOf? cls = some parent := by
          rw [parentOf?, hname]
          exact hgrows.keeps hparent
        rw [habove, Option.elim_some, Option.elim_some, identity_of_ofIdentity? hparent,
          hgrows.lineage hparent]
    · rw [hgrows.lineage (hbuilt.ofIdentity?_of_mem hmem), ih hmem]
      cases hparent : registry.parentOf? cls with
      | none =>
        rw [parentOf?, (hbuilt.parentOf?_eq_none_iff hmem).1 hparent]
        rfl
      | some parent =>
        have hinstalled := hbuilt.ofIdentity?_of_mem (hbuilt.mem_of_parentOf? hparent)
        rw [hgrows.parentOf? hparent, Option.elim_some, Option.elim_some,
          hgrows.lineage hinstalled]

/-- The line of a class lists its ancestors by the number of steps, and it ends
where the steps do. -/
theorem Built.getElem?_lineage {registry : Registry σ ω} (h : registry.Built)
    {cls : NativeClass σ ω} (hmem : cls ∈ registry.classes) (n : Nat) :
    (registry.lineage cls.identity)[n]? = registry.ancestor? n cls := by
  induction n generalizing cls with
  | zero =>
    rw [h.lineage_eq hmem]
    rfl
  | succ n ih =>
    rw [h.lineage_eq hmem, List.getElem?_cons_succ, ancestor?]
    cases hparent : registry.parentOf? cls with
    | none => rfl
    | some parent => exact ih (h.mem_of_parentOf? hparent)

/-- The line of a class holds exactly the classes it inherits from, itself
included. -/
theorem Built.mem_lineage_iff {registry : Registry σ ω} (h : registry.Built)
    {cls ancestor : NativeClass σ ω} (hmem : cls ∈ registry.classes) :
    ancestor ∈ registry.lineage cls.identity ↔ registry.Inherits cls ancestor := by
  simp only [List.mem_iff_getElem?, h.getElem?_lineage hmem, Inherits]

private theorem Inherits.refl (registry : Registry σ ω) (cls : NativeClass σ ω) :
    registry.Inherits cls cls := ⟨0, rfl⟩

/-- What an installed class inherits from is installed. -/
theorem Inherits.mem {registry : Registry σ ω} (hbuilt : registry.Built)
    {cls ancestor : NativeClass σ ω} (h : registry.Inherits cls ancestor)
    (hmem : cls ∈ registry.classes) : ancestor ∈ registry.classes := by
  obtain ⟨n, hn⟩ := h
  induction n generalizing cls with
  | zero => exact Option.some.inj hn ▸ hmem
  | succ n ih =>
    obtain ⟨parent, hparent, habove⟩ := Option.bind_eq_some_iff.1 hn
    exact ih (hbuilt.mem_of_parentOf? hparent) habove

/-- Following identities and following parents answer alike on installed
classes. -/
theorem Built.isSubclass_iff {registry : Registry σ ω} (h : registry.Built)
    {cls ancestor : NativeClass σ ω} (hmem : cls ∈ registry.classes)
    (hancestor : ancestor ∈ registry.classes) :
    registry.IsSubclass cls ancestor.identity ↔ registry.Inherits cls ancestor := by
  have hsame : ∀ {other : NativeClass σ ω}, other ∈ registry.classes →
      other.identity = ancestor.identity → other = ancestor := by
    intro other hother heq
    have hfound := h.ofIdentity?_of_mem hother
    rw [heq, h.ofIdentity?_of_mem hancestor, Option.some_inj] at hfound
    exact hfound.symm
  constructor
  · rintro (hself | ⟨other, hother, heq⟩)
    · exact hsame hmem hself ▸ .refl registry cls
    · have hinherits := (h.mem_lineage_iff hmem).1 hother
      exact hsame (hinherits.mem h hmem) heq ▸ hinherits
  · intro hinherits
    exact .inr ⟨ancestor, (h.mem_lineage_iff hmem).2 hinherits, rfl⟩

end NativeBridge.Registry
