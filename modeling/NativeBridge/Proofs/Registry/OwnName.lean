import NativeBridge.Proofs.Class.Names
import NativeBridge.Proofs.Registry.Installations

namespace NativeBridge

variable {σ ω : Type}

/-- A class has the name it was registered under: the namespaces of the path,
and the simple name as it was given, also with backslashes in it. -/
theorem NativeClass.name_of_register {simple path : String} {table : MethodTable σ ω}
    {cls : NativeClass σ ω} (h : register simple path table = .ok cls) :
    cls.name = .inside path simple := by
  unfold register at h
  split at h
  · cases h
  · cases h
    rfl

namespace Registry

/-- Attempts to install classes, failed ones among them, only let a registry
grow. What was found before is found after them. -/
theorem grows_afterAttempts (registry : Registry σ ω) (attempts : List (NativeClass σ ω)) :
    registry.Grows (registry.afterAttempts attempts) := by
  induction attempts generalizing registry with
  | nil => exact .refl registry
  | cons cls rest ih =>
    refine Grows.trans ?_ (ih ((registry.install cls).toOption.getD registry))
    cases hinstall : registry.install cls with
    | ok after => exact .of_install hinstall
    | error error => exact .refl registry

private theorem ofIdentity?_install {registry after : Registry σ ω} {cls : NativeClass σ ω}
    (h : registry.install cls = .ok after) : after.ofIdentity? cls.identity = some cls := by
  obtain ⟨-, rfl⟩ := install_eq_ok h
  rw [ofIdentity?_cons, if_pos rfl]

/-- A class is found by its own name, whatever else one tries to install. -/
def FoundByOwnName (registry : Registry σ ω) (cls : NativeClass σ ω) : Prop :=
  ∀ attempts, (registry.afterAttempts attempts).get? cls.name.text = some cls

/-- Every class that gives the name of this one as its parent has this one as
its parent, whatever else one tries to install, and with an unused name and no
gaps it is installed. -/
structure ParentByOwnName (registry : Registry σ ω) (cls : NativeClass σ ω) : Prop where
  parentOf?_eq : ∀ attempts (child : NativeClass σ ω),
    (registry.afterAttempts attempts).parentOf? (child.withParent cls.name.text) = some cls
  install_eq : ∀ attempts (child : NativeClass σ ω),
    (registry.afterAttempts attempts).ofIdentity? child.identity = none → child.gaps = [] →
    ∃ after, (registry.afterAttempts attempts).install (child.withParent cls.name.text) =
        .ok after ∧ after.parentOf? (child.withParent cls.name.text) = some cls

variable {registry : Registry σ ω} {cls : NativeClass σ ω}

/-- A class is found by its own name exactly when dropping a leading backslash
leaves its identity alone. What is installed later has no part in it. -/
theorem foundByOwnName_iff (hfound : registry.ofIdentity? cls.identity = some cls) :
    registry.FoundByOwnName cls ↔
      Identity.ofClass (dropLeadingSeparator cls.name.text) = cls.identity := by
  constructor
  · intro h
    exact (identity_of_ofIdentity? (h [])).symm
  · intro h attempts
    rw [get?, h]
    exact (registry.grows_afterAttempts attempts).keeps hfound

/-- A class is taken as a parent by its own name exactly when reading that
name back leads to its identity. The children may be any classes that give
the name. -/
theorem parentByOwnName_iff (hfound : registry.ofIdentity? cls.identity = some cls) :
    registry.ParentByOwnName cls ↔ (ClassName.ofText cls.name.text).identity = cls.identity := by
  constructor
  · intro h
    exact (identity_of_ofIdentity? (h.parentOf?_eq [] cls)).symm
  · intro h
    have hparent : ∀ attempts, (registry.afterAttempts attempts).ofIdentity?
        (ClassName.ofText cls.name.text).identity = some cls := by
      intro attempts
      rw [h]
      exact (registry.grows_afterAttempts attempts).keeps hfound
    refine ⟨fun attempts child => hparent attempts, fun attempts child hunused hgaps => ?_⟩
    have hinstalled : ∀ parent, (child.withParent cls.name.text).parent = some parent →
        (registry.afterAttempts attempts).ofIdentity? parent.identity ≠ none := by
      rintro parent ⟨⟩
      rw [hparent attempts]
      exact Option.some_ne_none cls
    obtain ⟨after, hinstall⟩ : ∃ after, (registry.afterAttempts attempts).install
        (child.withParent cls.name.text) = .ok after :=
      ⟨_, install_of_gaps_eq_nil hunused hinstalled fun _ => hgaps⟩
    exact ⟨after, hinstall, (Grows.of_install hinstall).parentOf? (hparent attempts)⟩

/-- A class is found by its own name unless it is outside all namespaces and its
simple name begins with a backslash. It is taken as a parent by its own name
unless its simple name has an empty part, where the whole name may be empty.
Only digests that collide make up for it. -/
theorem found_by_own_name_iff {path simple : String} {table : MethodTable σ ω}
    {first : NativeClass σ ω} {after : Registry σ ω}
    (hfirst : NativeClass.register simple path table = .ok first) (hname : cls.name = first.name)
    (hinstall : registry.install cls = .ok after) :
    (after.FoundByOwnName cls ↔
      (ClassName.segments path ≠ [] ∨ simple.toList.head? ≠ some ClassName.separator) ∨
        Digest.Collide (Text.foldCase (dropLeadingSeparator cls.name.text))
          (Text.foldCase cls.name.text)) ∧
    (after.ParentByOwnName cls ↔ ClassName.ReadsBack path simple ∨
      Digest.Collide (Text.foldCase (ClassName.ofText cls.name.text).text)
        (Text.foldCase cls.name.text)) := by
  have hfound := ofIdentity?_install hinstall
  have hinside : cls.name = ClassName.inside path simple := by
    rw [hname]
    exact NativeClass.name_of_register hfirst
  constructor
  · rw [foundByOwnName_iff hfound, NativeClass.identity, ClassName.identity,
      Identity.ofClass_eq_iff, ClassName.sameName_dropLeadingSeparator_iff, hinside,
      ClassName.head?_text_inside_iff]
  · rw [parentByOwnName_iff hfound, NativeClass.identity, ClassName.identity, ClassName.identity,
      Identity.ofClass_eq_iff, hinside, ClassName.sameName_text_ofText_inside_iff]

/-- A class without methods, outside all namespaces. -/
def bareClass (simple : String) : NativeClass Sample Unit where
  name := .global simple
  parent := none
  capabilities := .empty
  methods := []
  properties := []
  distinct := List.nodup_nil

/-- A class with a plain name. -/
def clip : NativeClass Sample Unit := bareClass "Clip"

/-- A class whose simple name begins with a backslash. -/
def rootedClip : NativeClass Sample Unit := bareClass "\\Clip"

/-- A class for which the others are named as its parent. -/
def cut : NativeClass Sample Unit := bareClass "Cut"

/-- A registry with one class. It refuses classes with gaps. -/
def single (cls : NativeClass Sample Unit) : Registry Sample Unit := ⟨[cls], true⟩

/-- A path of backslashes alone is no path. A class outside all namespaces is
found by its plain name, and taken as a parent by it. -/
theorem found_by_own_name_clip :
    NativeClass.register "Clip" "\\" [] = .ok clip ∧
    (empty true).install clip = .ok (single clip) ∧
    (single clip).FoundByOwnName clip ∧ (single clip).ParentByOwnName clip := by
  have hfirst : NativeClass.register "Clip" "\\" [] = .ok clip := rfl
  have hinstall : (empty true).install clip = .ok (single clip) := rfl
  obtain ⟨hfound, hparent⟩ := found_by_own_name_iff hfirst rfl hinstall
  have hhead : "Clip".toList.head? ≠ some ClassName.separator := by decide
  have hplain : ClassName.NoEmptyPart "Clip" := by decide
  exact ⟨hfirst, hinstall, hfound.2 (.inl (.inr hhead)), hparent.2 (.inl (.inl hplain))⟩

/-- With a backslash in front a class is installed, but it is neither found by
its own name nor taken as a parent by it. -/
theorem not_found_by_own_name_rootedClip :
    NativeClass.register "\\Clip" "" [] = .ok rootedClip ∧
    (empty true).install rootedClip = .ok (single rootedClip) ∧
    (single rootedClip).get? rootedClip.name.text = none ∧
    (single rootedClip).ofIdentity? cut.identity = none ∧ cut.gaps = [] ∧
    (single rootedClip).install (cut.withParent rootedClip.name.text) =
      .error (.unknownParent "Cut" "Clip") ∧
    ¬ (single rootedClip).FoundByOwnName rootedClip ∧
    ¬ (single rootedClip).ParentByOwnName rootedClip := by
  have hget : (single rootedClip).get? rootedClip.name.text = none := rfl
  have hrefused : (single rootedClip).install (cut.withParent rootedClip.name.text) =
      .error (.unknownParent "Cut" "Clip") := rfl
  refine ⟨rfl, rfl, hget, rfl, rfl, hrefused, fun hfound => ?_, fun hparent => ?_⟩
  · have hsome := hfound []
    rw [afterAttempts, List.foldl_nil, hget] at hsome
    cases hsome
  · obtain ⟨after, hok, -⟩ := hparent.install_eq [] cut rfl rfl
    rw [afterAttempts, List.foldl_nil, hrefused] at hok
    cases hok

end Registry

end NativeBridge
