import Mathlib.Data.List.Nodup
import NativeBridge.Proofs.Registry.Catalog

namespace NativeBridge

variable {σ ω : Type}

namespace Registry

/-- The registry after attempts to install classes. -/
def afterAttempts (registry : Registry σ ω) (attempts : List (NativeClass σ ω)) : Registry σ ω :=
  attempts.foldl (fun registry cls => (registry.install cls).toOption.getD registry) registry

private theorem Built.attempt {registry : Registry σ ω} (h : registry.Built)
    (cls : NativeClass σ ω) : ((registry.install cls).toOption.getD registry).Built := by
  cases hinstall : registry.install cls with
  | ok after => exact h.install hinstall
  | error error => exact h

private theorem Built.afterAttempts {registry : Registry σ ω} (h : registry.Built)
    (attempts : List (NativeClass σ ω)) : (registry.afterAttempts attempts).Built := by
  induction attempts generalizing registry with
  | nil => exact h
  | cons cls rest ih => exact ih (h.attempt cls)

private theorem mem_toList {registry : Registry σ ω} {cls : NativeClass σ ω} :
    cls ∈ registry.toList ↔ cls ∈ registry.classes := List.mem_reverse

private theorem toList_install {registry after : Registry σ ω} {cls : NativeClass σ ω}
    (h : registry.install cls = .ok after) : after.toList = registry.toList ++ [cls] := by
  obtain ⟨-, rfl⟩ := install_eq_ok h
  exact List.reverse_cons

/-- The parent of a class was installed before it. No check looks for cycles:
a class that could close one is refused, for its parent is not there yet or
its name is in use. -/
theorem Built.parent_earlier {registry : Registry σ ω} (h : registry.Built) {position : Nat}
    {cls : NativeClass σ ω} (hcls : registry.toList[position]? = some cls) {name : ClassName}
    (hname : cls.parent = some name) :
    ∃ earlier < position,
      (registry.toList.map NativeClass.identity)[earlier]? = some name.identity := by
  induction h generalizing position with
  | empty eager => cases hcls
  | @install registry after newest hbuilt hinstall ih =>
    rw [toList_install hinstall] at hcls ⊢
    rw [List.map_append]
    -- What was found at a position before is still there.
    have hold : ∀ earlier : Nat, (registry.toList.map NativeClass.identity)[earlier]? =
        some name.identity → (registry.toList.map NativeClass.identity ++
          [newest].map NativeClass.identity)[earlier]? = some name.identity := by
      intro earlier hearlier
      rwa [List.getElem?_append_left (List.getElem?_eq_some_iff.1 hearlier).1]
    obtain hlt | hge := Nat.lt_or_ge position registry.toList.length
    · rw [List.getElem?_append_left hlt] at hcls
      obtain ⟨earlier, hearlier, hfound⟩ := ih hcls
      exact ⟨earlier, hearlier, hold earlier hfound⟩
    · rw [List.getElem?_append_right hge, List.getElem?_singleton] at hcls
      split at hcls
      · cases hcls
        obtain ⟨parent, hparent⟩ := parent_of_install hinstall hname
        have hmem := (hbuilt.distinct.ofIdentity?_eq_some_iff.1 hparent).1
        obtain ⟨earlier, hearlier⟩ := List.mem_iff_getElem?.1 (mem_toList.2 hmem)
        have hlt := (List.getElem?_eq_some_iff.1 hearlier).1
        refine ⟨earlier, by omega, hold earlier ?_⟩
        rw [List.getElem?_map, hearlier, Option.map_some, identity_of_ofIdentity? hparent]
      · cases hcls

end Registry

namespace Catalog

/-- The catalog after attempts to install classes. -/
def afterAttempts (catalog : Catalog σ ω) (attempts : List (NativeClass σ ω)) : Catalog σ ω :=
  attempts.foldl (fun catalog cls => (catalog.attempt cls).2) catalog

variable {catalog : Catalog σ ω} {registry : Registry σ ω}

private theorem lists_empty (eager : Bool) :
    (empty eager : Catalog σ ω).Lists (Registry.empty eager) where
  getElem?_eq _ := Std.HashMap.getElem?_empty
  size_eq := Std.HashMap.size_empty
  order_eq := rfl
  eager_eq := rfl

/-- An attempt does the same to a catalog and a registry, whether the class is
installed or refused. -/
theorem Lists.attempt (h : catalog.Lists registry) (cls : NativeClass σ ω) :
    (catalog.attempt cls).2.Lists ((registry.install cls).toOption.getD registry) := by
  obtain haccepts | ⟨error, hrefuses⟩ := accepts_or_refuses catalog cls
  · rw [attempt_of_accepts haccepts, h.install_of_accepts haccepts]
    exact h.add haccepts.unused
  · rw [attempt_of_refuses hrefuses, h.install_of_refuses hrefuses]
    exact h

private theorem Lists.afterAttempts (h : catalog.Lists registry)
    (attempts : List (NativeClass σ ω)) :
    (catalog.afterAttempts attempts).Lists (registry.afterAttempts attempts) := by
  induction attempts generalizing catalog registry with
  | nil => exact h
  | cons cls rest ih => exact ih (h.attempt cls)

/-- The class of an identity names a parent, and this is the identity of that
name. -/
def HasParent (catalog : Catalog σ ω) (id parentId : Identity) : Prop :=
  ∃ (cls : NativeClass σ ω) (parent : ClassName), catalog.classes[id]? = some cls ∧
    cls.parent = some parent ∧ parent.identity = parentId

/-- The order lists every installed class once, parents before children, and
nothing inherits from itself. -/
structure WellKept (catalog : Catalog σ ω) : Prop where
  order_nodup : catalog.order.Nodup
  mem_order_iff : ∀ id, id ∈ catalog.order ↔ id ∈ catalog.classes
  length_order : catalog.order.length = catalog.classes.size
  identity_eq : ∀ (id : Identity) (cls : NativeClass σ ω), catalog.classes[id]? = some cls →
    cls.identity = id
  map_identity_toList : catalog.toList.map NativeClass.identity = catalog.order
  mem_toList_iff : ∀ cls : NativeClass σ ω, cls ∈ catalog.toList ↔
    catalog.classes[cls.identity]? = some cls
  parent_earlier : ∀ (position : Nat) (cls : NativeClass σ ω) (parent : ClassName),
    catalog.toList[position]? = some cls → cls.parent = some parent →
    ∃ earlier < position, catalog.order[earlier]? = some parent.identity
  acyclic : ∀ id, ¬ Relation.TransGen catalog.HasParent id id

/-- One identity stands in front of another in the order. -/
def StandsBefore (catalog : Catalog σ ω) (first second : Identity) : Prop :=
  ∃ earlier position : Nat, earlier < position ∧ catalog.order[earlier]? = some first ∧
    catalog.order[position]? = some second

private theorem Lists.toList_eq (h : catalog.Lists registry) (hbuilt : registry.Built) :
    catalog.toList = registry.toList := by
  have hfound : ∀ cls ∈ registry.toList,
      ((fun id => catalog.classes[id]?) ∘ NativeClass.identity) cls = some cls := by
    intro cls hcls
    rw [Function.comp_apply, h.getElem?_eq]
    exact hbuilt.ofIdentity?_of_mem (Registry.mem_toList.1 hcls)
  rw [toList, h.order_eq, List.filterMap_map, List.filterMap_congr hfound, List.filterMap_some]

private theorem StandsBefore.irrefl (hnodup : catalog.order.Nodup) {id : Identity} :
    ¬ catalog.StandsBefore id id := by
  rintro ⟨earlier, position, hlt, hearlier, hposition⟩
  obtain ⟨hbound, -⟩ := List.getElem?_eq_some_iff.1 hearlier
  have hsame := (List.getElem?_inj hbound hnodup).1 (hearlier.trans hposition.symm)
  omega

private theorem StandsBefore.trans (hnodup : catalog.order.Nodup) {first second third : Identity}
    (h : catalog.StandsBefore first second) (h' : catalog.StandsBefore second third) :
    catalog.StandsBefore first third := by
  obtain ⟨earlier, middle, hlt, hearlier, hmiddle⟩ := h
  obtain ⟨middle', position, hlt', hmiddle', hposition⟩ := h'
  obtain ⟨hbound, -⟩ := List.getElem?_eq_some_iff.1 hmiddle
  have hsame := (List.getElem?_inj hbound hnodup).1 (hmiddle.trans hmiddle'.symm)
  exact ⟨earlier, position, by omega, hearlier, hposition⟩

/-- What something inherits from stands before it, over any number of steps.
Only the single step has to be checked. -/
theorem standsBefore_of_transGen (hnodup : catalog.order.Nodup)
    (hparent : ∀ id parentId, catalog.HasParent id parentId → catalog.StandsBefore parentId id)
    {id ancestor : Identity} (h : Relation.TransGen catalog.HasParent id ancestor) :
    catalog.StandsBefore ancestor id := by
  induction h with
  | single hstep => exact hparent _ _ hstep
  | tail _ hstep ih => exact (hparent _ _ hstep).trans hnodup ih

/-- A catalog that has the classes of a built registry is well kept. All that is
said of its table and its order follows from the list of the registry. -/
theorem Lists.wellKept (h : catalog.Lists registry) (hbuilt : registry.Built) :
    catalog.WellKept := by
  have htoList := h.toList_eq hbuilt
  have hnodup : catalog.order.Nodup := by
    rw [h.order_eq, Registry.toList, List.map_reverse, List.nodup_reverse]
    exact hbuilt.distinct
  have hmem : ∀ id, id ∈ catalog.order ↔ id ∈ catalog.classes := by
    intro id
    rw [h.mem_iff, h.order_eq, Option.isSome_iff_ne_none, ne_eq, Registry.ofIdentity?_eq_none_iff,
      Decidable.not_not, Registry.toList, List.map_reverse, List.mem_reverse]
  have hearlier : ∀ (position : Nat) (cls : NativeClass σ ω) (parent : ClassName),
      catalog.toList[position]? = some cls → cls.parent = some parent →
      ∃ earlier < position, catalog.order[earlier]? = some parent.identity := by
    intro position cls parent hcls hname
    rw [htoList] at hcls
    rw [h.order_eq]
    exact hbuilt.parent_earlier hcls hname
  have hparent : ∀ id parentId, catalog.HasParent id parentId →
      catalog.StandsBefore parentId id := by
    rintro id parentId ⟨cls, parent, hcls, hname, rfl⟩
    rw [h.getElem?_eq, hbuilt.distinct.ofIdentity?_eq_some_iff] at hcls
    obtain ⟨position, hposition⟩ := List.mem_iff_getElem?.1 (Registry.mem_toList.2 hcls.1)
    obtain ⟨earlier, hlt, hfound⟩ := hearlier position cls parent (htoList ▸ hposition) hname
    refine ⟨earlier, position, hlt, hfound, ?_⟩
    rw [h.order_eq, List.getElem?_map, hposition, Option.map_some, hcls.2]
  exact {
    order_nodup := hnodup
    mem_order_iff := hmem
    length_order := by
      rw [h.order_eq, h.size_eq, List.length_map, Registry.toList, List.length_reverse,
        Registry.size]
    identity_eq := by
      intro id cls hcls
      rw [h.getElem?_eq] at hcls
      exact Registry.identity_of_ofIdentity? hcls
    map_identity_toList := by rw [htoList, h.order_eq]
    mem_toList_iff := by
      intro cls
      rw [htoList, h.getElem?_eq, hbuilt.distinct.ofIdentity?_eq_some_iff, Registry.mem_toList]
      exact (and_iff_left rfl).symm
    parent_earlier := hearlier
    acyclic := by
      intro id hcycle
      exact StandsBefore.irrefl hnodup (standsBefore_of_transGen hnodup hparent hcycle) }

/-- Every class of a catalog is in another one, under the same identity and in
the same order. -/
structure Extends (earlier later : Catalog σ ω) : Prop where
  kept : ∀ (id : Identity) (cls : NativeClass σ ω), earlier.classes[id]? = some cls →
    later.classes[id]? = some cls
  order_prefix : earlier.order <+: later.order

private theorem extends_attempt (catalog : Catalog σ ω) (cls : NativeClass σ ω) :
    catalog.Extends (catalog.attempt cls).2 := by
  obtain haccepts | ⟨error, hrefuses⟩ := accepts_or_refuses catalog cls
  · rw [attempt_of_accepts haccepts]
    refine ⟨fun id other hother => ?_, List.prefix_append ..⟩
    have hmem : id ∈ catalog.classes :=
      Std.HashMap.mem_iff_isSome_getElem?.2 (by rw [hother, Option.isSome_some])
    have hne : ¬ (cls.identity == id) = true := by
      rw [beq_iff_eq]
      rintro rfl
      exact haccepts.unused hmem
    rw [classes_add, Std.HashMap.getElem?_insert, if_neg hne, hother]
  · rw [attempt_of_refuses hrefuses]
    exact ⟨fun _ _ hother => hother, List.prefix_rfl⟩

/-- No number of attempts, failed ones among them, takes a class out of a
catalog, replaces it or moves it in the order. -/
theorem extends_afterAttempts (catalog : Catalog σ ω) (attempts : List (NativeClass σ ω)) :
    catalog.Extends (catalog.afterAttempts attempts) := by
  induction attempts generalizing catalog with
  | nil => exact ⟨fun _ _ hother => hother, List.prefix_rfl⟩
  | cons cls rest ih =>
    have hfirst := catalog.extends_attempt cls
    have hrest := ih (catalog.attempt cls).2
    refine ⟨fun id other hother => ?_, hfirst.order_prefix.trans hrest.order_prefix⟩
    exact hrest.kept id other (hfirst.kept id other hother)

/-- Attempts to install classes leave a catalog in which the order of
installation tells everything and nothing inherits from itself. Another attempt
installs its class behind all others or is refused and changes nothing, and no
number of them takes anything away. The registry that the same classes are
installed in has the same classes in the same order and refuses the same. -/
theorem installs_in_order (eager : Bool) (attempts : List (NativeClass σ ω)) :
    ((empty eager).afterAttempts attempts).WellKept ∧
    (∀ cls, ((empty eager).afterAttempts attempts).Settles cls) ∧
    (∀ more, ((empty eager).afterAttempts attempts).Extends
      ((empty eager).afterAttempts (attempts ++ more))) ∧
    ((empty eager).afterAttempts attempts).Lists
      ((Registry.empty eager).afterAttempts attempts) ∧
    (∀ cls error, ((Registry.empty eager).afterAttempts attempts).install cls = .error error ↔
      ((empty eager).afterAttempts attempts).Refuses cls error) := by
  have hlists := (lists_empty (σ := σ) (ω := ω) eager).afterAttempts attempts
  have hbuilt := (Registry.Built.empty (σ := σ) (ω := ω) eager).afterAttempts attempts
  have hextends : ∀ more, ((empty eager).afterAttempts attempts).Extends
      ((empty eager).afterAttempts (attempts ++ more)) := by
    intro more
    have happend : (empty eager : Catalog σ ω).afterAttempts (attempts ++ more) =
        ((empty eager).afterAttempts attempts).afterAttempts more := List.foldl_append
    rw [happend]
    exact extends_afterAttempts _ more
  exact ⟨hlists.wellKept hbuilt, settles _, hextends, hlists,
    fun cls error => hlists.install_eq_error_iff⟩

end Catalog

end NativeBridge
