import Mathlib.Logic.Relation
import NativeBridge.Proofs.Registry.OwnName
import NativeBridge.Proofs.Static.Access

namespace NativeBridge

variable {α β γ : Type}

/-- Goes from place to place until one of them passes the test. Answers with the
places it has been to and with what was found, or not at all when it has not
come to an end after so many rounds. It does not remember where it has been. -/
def climb (next : α → Option α) (test : α → Option β) :
    Nat → Option α → Option (List α × Option β)
  | 0, _ => none
  | _ + 1, none => some ([], none)
  | rounds + 1, some place =>
    match test place with
    | some found => some ([place], some found)
    | none => do
      let (visited, found) ← climb next test rounds (next place)
      return (place :: visited, found)

/-- The places from a start on, up to one that has no next place. There is one
only if following the steps comes to an end. -/
inductive Line (next : α → Option α) : Option α → List α → Prop
  | top : Line next none []
  | step {place : α} {above : List α} : Line next (next place) above →
      Line next (some place) (place :: above)

namespace Line

variable {next : α → Option α} {test : α → Option β} {start : Option α} {places : List α}

private theorem unique (h : Line next start places) {others : List α}
    (h' : Line next start others) : places = others := by
  induction h generalizing others with
  | top =>
    cases h'
    rfl
  | step _ ih =>
    cases h' with
    | step h' => rw [ih h']

/-- A search in a line comes to an end and goes to no place behind the first
that passes the test. One round more than there are places is enough; more
rounds change nothing. -/
theorem climb_eq (h : Line next start places) (test : α → Option β) :
    ∃ visited, visited <+: places ∧ ∀ rounds, places.length < rounds →
      climb next test rounds start = some (visited, places.findSome? test) := by
  induction h with
  | top =>
    refine ⟨[], List.prefix_rfl, fun rounds hrounds => ?_⟩
    obtain ⟨rounds, rfl⟩ := Nat.exists_eq_add_one_of_ne_zero (Nat.ne_of_gt hrounds)
    rfl
  | @step place above _ ih =>
    obtain ⟨visited, hvisited, hclimb⟩ := ih
    rw [List.findSome?_cons, List.length_cons]
    cases htest : test place with
    | some found =>
      refine ⟨[place], ⟨above, rfl⟩, fun rounds hrounds => ?_⟩
      obtain ⟨rounds, rfl⟩ := Nat.exists_eq_add_one_of_ne_zero (Nat.ne_zero_of_lt hrounds)
      rw [climb, htest]
    | none =>
      refine ⟨place :: visited, List.prefix_cons_inj place |>.2 hvisited, fun rounds hrounds => ?_⟩
      obtain ⟨rounds, rfl⟩ := Nat.exists_eq_add_one_of_ne_zero (Nat.ne_zero_of_lt hrounds)
      rw [climb, htest, hclimb rounds (Nat.lt_of_succ_lt_succ hrounds)]
      rfl

/-- From each place in a line the rest of it leads on. -/
theorem of_mem (h : Line next start places) {place : α} (hmem : place ∈ places) :
    ∃ above, (place :: above) <:+ places ∧ Line next (some place) (place :: above) := by
  induction h with
  | top => cases hmem
  | @step first above hline ih =>
    obtain rfl | hmem := List.mem_cons.1 hmem
    · exact ⟨above, List.suffix_rfl, hline.step⟩
    · obtain ⟨rest, hsuffix, hrest⟩ := ih hmem
      exact ⟨rest, hsuffix.trans (List.suffix_cons first above), hrest⟩

/-- The places in a line are those that steps lead to, so what lies above a
place can be said without counting rounds. -/
theorem mem_iff {place : α} (h : Line next (some place) places) {other : α} :
    other ∈ places ↔ Relation.ReflTransGen (fun a b => next a = some b) place other := by
  constructor
  · intro hmem
    generalize hstart : some place = start at h
    induction h generalizing place with
    | top => cases hmem
    | @step first above hline ih =>
      cases hstart
      obtain rfl | hmem := List.mem_cons.1 hmem
      · exact .refl
      · cases hnext : next first with
        | none =>
          rw [hnext] at hline
          cases hline
          cases hmem
        | some parent => exact .head hnext (ih hmem hnext.symm)
  · intro hsteps
    induction hsteps with
    | refl =>
      cases h
      exact List.mem_cons_self
    | tail _ hstep ih =>
      obtain ⟨above, hsuffix, hline⟩ := h.of_mem ih
      cases hline with
      | step hline =>
        rw [hstep] at hline
        cases hline
        exact hsuffix.subset (List.mem_cons_of_mem _ List.mem_cons_self)

/-- Two places that lead to each other are the same. A line has an end, so it
cannot come back to where it has been. -/
theorem antisymm {place other : α} (h : Line next (some place) places)
    (hother : other ∈ places) {others : List α} (h' : Line next (some other) others)
    (hplace : place ∈ others) : place = other := by
  obtain ⟨above, hsuffix, hline⟩ := h.of_mem hother
  obtain ⟨below, hsuffix', hline'⟩ := h'.of_mem hplace
  rw [← h'.unique hline] at hsuffix
  rw [← h.unique hline'] at hsuffix'
  rw [hsuffix.eq_of_length (Nat.le_antisymm hsuffix.length_le hsuffix'.length_le)] at h'
  cases h
  cases h'
  rfl

/-- A line is carried over place by place, as long as steps and the map commute
at the places in it. -/
theorem map {next' : γ → Option γ} {f : α → γ} (h : Line next start places)
    (hnext : ∀ place ∈ places, next' (f place) = (next place).map f) :
    Line next' (start.map f) (places.map f) := by
  induction h with
  | top => exact .top
  | @step place above _ ih =>
    obtain ⟨hplace, habove⟩ := List.forall_mem_cons.1 hnext
    refine .step ?_
    rw [hplace]
    exact ih habove

end Line

/-- A search that finds nothing but always a next place never comes to an end,
whatever the number of rounds. -/
theorem climb_eq_none {next : α → Option α} {test : α → Option β} {Stays : α → Prop}
    (hstays : ∀ place, Stays place →
      test place = none ∧ ∃ above, next place = some above ∧ Stays above)
    (rounds : Nat) {start : α} (h : Stays start) : climb next test rounds (some start) = none := by
  induction rounds generalizing start with
  | zero => rfl
  | succ rounds ih =>
    obtain ⟨htest, above, habove, hhigher⟩ := hstays start h
    rw [climb, htest, habove, ih hhigher]
    rfl

namespace Registry

variable {σ ω : Type} {registry : Registry σ ω}

/-- The identity of the parent that the class of an identity names. -/
def parentIdentity? (registry : Registry σ ω) (id : Identity) : Option Identity :=
  (registry.ofIdentity? id).bind fun cls => cls.parent.map ClassName.identity

/-- Looks for an ancestor among the identities of a class, its parent, its
parent's parent and so on. Answers with the identities that were compared and
whether the ancestor is one of them. -/
def searchAncestor (registry : Registry σ ω) (rounds : Nat) (cls : NativeClass σ ω)
    (ancestor : Identity) : Option (List Identity × Bool) :=
  (climb registry.parentIdentity? (fun id => if id = ancestor then some () else none) rounds
    (some cls.identity)).map fun (visited, found) => (visited, found.isSome)

/-- Looks for a declaration in a class, its parent, its parent's parent and so
on. Answers with the classes that were looked at and the declaration. -/
def searchDeclaration (registry : Registry σ ω) (rounds : Nat) (cls : NativeClass σ ω)
    (property : String) :
    Option (List (NativeClass σ ω) × Option (StaticProperty σ ω)) :=
  climb registry.parentOf? (fun cls => (cls.property? property).map (StaticProperty.mk cls)) rounds
    (some cls)

/-- From a class that names itself as its parent no number of rounds leads to
any other ancestor. No installation leads to such a registry, so the searches
below need that theirs was built. -/
theorem searchAncestor_eq_none {cls : NativeClass σ ω} {ancestor : Identity}
    (hself : registry.parentIdentity? cls.identity = some cls.identity)
    (hne : cls.identity ≠ ancestor) (rounds : Nat) :
    registry.searchAncestor rounds cls ancestor = none := by
  have hstays : ∀ id, id = cls.identity →
      (if id = ancestor then some () else none) = none ∧
        ∃ above, registry.parentIdentity? id = some above ∧ above = cls.identity := by
    rintro id rfl
    exact ⟨if_neg hne, _, hself, rfl⟩
  rw [searchAncestor, climb_eq_none hstays rounds rfl]
  rfl

private theorem declaredIn?_eq_findSome? (property : String) (classes : List (NativeClass σ ω)) :
    declaredIn? property classes =
      classes.findSome? fun cls => (cls.property? property).map (StaticProperty.mk cls) := by
  induction classes with
  | nil => rfl
  | cons cls ancestors ih =>
    rw [declaredIn?, List.findSome?_cons]
    cases cls.property? property with
    | none => exact ih
    | some found => rfl

private theorem lineageIn_sublist (id : Identity) (classes : List (NativeClass σ ω)) :
    (lineageIn id classes).Sublist classes := by
  induction classes generalizing id with
  | nil => exact .refl []
  | cons cls older ih =>
    rw [lineageIn]
    split
    · refine .cons_cons cls ?_
      cases cls.parent with
      | none => exact List.nil_sublist older
      | some name => exact ih name.identity
    · exact (ih id).cons cls

/-- No identity comes twice above a class, so a search goes to no class
twice. -/
theorem Built.nodup_identities_lineage (h : registry.Built) (id : Identity) :
    ((registry.lineage id).map NativeClass.identity).Nodup :=
  h.distinct.sublist ((lineageIn_sublist id registry.classes).map NativeClass.identity)

private theorem lineageIn_eq_nil {id : Identity} {classes : List (NativeClass σ ω)}
    (h : id ∉ classes.map NativeClass.identity) : lineageIn id classes = [] := by
  induction classes with
  | nil => rfl
  | cons cls older ih =>
    rw [List.map_cons, List.mem_cons, not_or] at h
    rw [lineageIn, if_neg (Ne.symm h.1), ih h.2]

/-- The line that one walk through the installed classes finds is the line that
following parents leads along. -/
theorem Built.line_lineage (h : registry.Built) {cls : NativeClass σ ω}
    (hmem : cls ∈ registry.classes) :
    Line registry.parentOf? (some cls) (registry.lineage cls.identity) := by
  generalize hlength : (registry.lineage cls.identity).length = length
  induction length generalizing cls with
  | zero =>
    rw [h.lineage_eq hmem] at hlength
    cases hlength
  | succ length ih =>
    rw [h.lineage_eq hmem] at hlength ⊢
    refine .step ?_
    cases hparent : registry.parentOf? cls with
    | none => exact .top
    | some parent =>
      rw [hparent] at hlength
      exact ih (h.mem_of_parentOf? hparent) (Nat.succ.inj hlength)

private theorem Built.parentIdentity?_eq (h : registry.Built) {cls : NativeClass σ ω}
    (hmem : cls ∈ registry.classes) :
    registry.parentIdentity? cls.identity =
      (registry.parentOf? cls).map NativeClass.identity := by
  rw [parentIdentity?, h.ofIdentity?_of_mem hmem, Option.bind_some]
  cases hname : cls.parent with
  | none =>
    rw [(h.parentOf?_eq_none_iff hmem).2 hname]
    rfl
  | some name =>
    obtain ⟨parent, hparent⟩ := h.parentOf?_isSome hmem hname
    obtain ⟨other, hother, -, hidentity⟩ := h.parentOf?_eq_some_iff.1 hparent
    rw [hname] at hother
    cases hother
    rw [hparent, Option.map_some, Option.map_some, hidentity]

/-- The identities of a class and its ancestors are a line as well. The search
for an ancestor follows identities and not classes. -/
theorem Built.line_identities (h : registry.Built) {cls : NativeClass σ ω}
    (hmem : cls ∈ registry.classes) :
    Line registry.parentIdentity? (some cls.identity)
      ((registry.lineage cls.identity).map NativeClass.identity) := by
  refine (h.line_lineage hmem).map fun other hother => h.parentIdentity?_eq ?_
  exact ((h.mem_lineage_iff hmem).1 hother).mem h hmem

private theorem length_lineage_le (registry : Registry σ ω) (id : Identity) :
    (registry.lineage id).length ≤ registry.classes.length :=
  (lineageIn_sublist id registry.classes).length_le

/-- From each class on, installed or not, the classes are a line without
repetition. One that is not installed comes on top of what is. -/
theorem Built.exists_line_classes (h : registry.Built) (cls : NativeClass σ ω) :
    ∃ places, Line registry.parentOf? (some cls) places ∧ places.Nodup ∧
      places.length ≤ registry.classes.length + 1 ∧
      (cls ∈ registry.classes → places = registry.lineage cls.identity) := by
  have hnodup : ∀ id, (registry.lineage id).Nodup :=
    fun id => (h.nodup_identities_lineage id).of_map _
  by_cases hmem : cls ∈ registry.classes
  · exact ⟨registry.lineage cls.identity, h.line_lineage hmem, hnodup _,
      Nat.le_succ_of_le (registry.length_lineage_le _), fun _ => rfl⟩
  · cases hparent : registry.parentOf? cls with
    | none =>
      exact ⟨[cls], .step (hparent ▸ .top), List.nodup_singleton cls, Nat.le_add_left _ _,
        fun h => absurd h hmem⟩
    | some parent =>
      have hline := h.line_lineage (h.mem_of_parentOf? hparent)
      refine ⟨cls :: registry.lineage parent.identity, .step (hparent ▸ hline), ?_,
        Nat.succ_le_succ (registry.length_lineage_le _), fun h => absurd h hmem⟩
      refine List.nodup_cons.2 ⟨fun habove => hmem ?_, hnodup _⟩
      exact (lineageIn_sublist _ registry.classes).mem habove

/-- From each identity on, of an installed class or not, the identities are a
line. An identity that no class has stands alone in it. -/
theorem Built.exists_line_identities (h : registry.Built) (id : Identity) :
    ∃ places, Line registry.parentIdentity? (some id) places ∧ places.Nodup ∧
      places.length ≤ registry.classes.length + 1 ∧
      ∀ other, other ∈ places ↔ id = other ∨ ∃ c ∈ registry.lineage id, c.identity = other := by
  cases hfound : registry.ofIdentity? id with
  | none =>
    have hnil : registry.lineage id = [] := lineageIn_eq_nil (ofIdentity?_eq_none_iff.1 hfound)
    have htop : registry.parentIdentity? id = none := by rw [parentIdentity?, hfound]; rfl
    refine ⟨[id], .step (htop ▸ .top), List.nodup_singleton id, Nat.le_add_left _ _,
      fun other => ?_⟩
    simp [hnil, eq_comm]
  | some cls =>
    obtain ⟨hmem, rfl⟩ := h.distinct.ofIdentity?_eq_some_iff.1 hfound
    refine ⟨_, h.line_identities hmem, h.nodup_identities_lineage _, ?_, fun other => ?_⟩
    · rw [List.length_map]
      exact Nat.le_succ_of_le (registry.length_lineage_le _)
    rw [List.mem_map]
    refine ⟨.inr, ?_⟩
    rintro (rfl | habove)
    · refine ⟨cls, ?_, rfl⟩
      rw [h.lineage_eq hmem]
      exact List.mem_cons_self
    · exact habove

/-- The search for an ancestor ends with the answer that the line of the class
gives, after at most one round for each installed class and two more. -/
theorem Built.searchAncestor_eq (h : registry.Built) (cls : NativeClass σ ω)
    (ancestor : Identity) :
    ∃ visited, visited.Nodup ∧ ∀ rounds, registry.classes.length + 1 < rounds →
      registry.searchAncestor rounds cls ancestor =
        some (visited, decide (registry.IsSubclass cls ancestor)) := by
  obtain ⟨places, hline, hnodup, hlength, hmem⟩ := h.exists_line_identities cls.identity
  obtain ⟨visited, hvisited, hclimb⟩ :=
    hline.climb_eq fun id => if id = ancestor then some () else none
  refine ⟨visited, hnodup.sublist hvisited.sublist, fun rounds hrounds => ?_⟩
  have hfound : (places.findSome? fun id => if id = ancestor then some () else none).isSome =
      decide (registry.IsSubclass cls ancestor) := by
    rw [Bool.eq_iff_iff, decide_eq_true_eq, List.findSome?_isSome_iff, IsSubclass, ← hmem]
    simp
  rw [searchAncestor, hclimb rounds (Nat.lt_of_le_of_lt hlength hrounds), ← hfound]
  rfl

/-- The search for a declaration ends, for an installed class with the nearest
one in its line. -/
theorem Built.searchDeclaration_eq (h : registry.Built) (cls : NativeClass σ ω)
    (property : String) :
    ∃ visited found, visited.Nodup ∧
      (∀ rounds, registry.classes.length + 1 < rounds →
        registry.searchDeclaration rounds cls property = some (visited, found)) ∧
      (cls ∈ registry.classes →
        found = declaredIn? property (registry.lineage cls.identity)) := by
  obtain ⟨places, hline, hnodup, hlength, hplaces⟩ := h.exists_line_classes cls
  obtain ⟨visited, hvisited, hclimb⟩ :=
    hline.climb_eq fun cls => (cls.property? property).map (StaticProperty.mk cls)
  refine ⟨visited, _, hnodup.sublist hvisited.sublist, fun rounds hrounds =>
    hclimb rounds (Nat.lt_of_le_of_lt hlength hrounds), fun hmem => ?_⟩
  rw [declaredIn?_eq_findSome?, hplaces hmem]

private theorem Built.isSubclass_iff_mem (h : registry.Built) {cls : NativeClass σ ω}
    (hmem : cls ∈ registry.classes) {ancestor : Identity} :
    registry.IsSubclass cls ancestor ↔
      ancestor ∈ (registry.lineage cls.identity).map NativeClass.identity := by
  obtain ⟨places, hline, -, -, hplaces⟩ := h.exists_line_identities cls.identity
  rw [← hline.unique (h.line_identities hmem), hplaces, IsSubclass]

/-- Being a subclass is being some steps away, perhaps none. The ancestor need
not be installed. -/
theorem Built.isSubclass_iff_reflTransGen (h : registry.Built) {cls : NativeClass σ ω}
    (hmem : cls ∈ registry.classes) {ancestor : Identity} :
    registry.IsSubclass cls ancestor ↔
      Relation.ReflTransGen (fun id parent => registry.parentIdentity? id = some parent)
        cls.identity ancestor := by
  rw [h.isSubclass_iff_mem hmem, (h.line_identities hmem).mem_iff]

/-- An installed class inherits from itself, from what its ancestors inherit
from, and from no descendant. Nothing but the order of installation rules out
the last. -/
theorem Built.isPartialOrder_isSubclass (h : registry.Built) :
    IsPartialOrder {cls // cls ∈ registry.classes}
      fun cls ancestor => registry.IsSubclass cls.1 ancestor.1.identity where
  refl cls := .inl rfl
  trans first second third hfirst hsecond := by
    rw [h.isSubclass_iff_reflTransGen first.2] at hfirst ⊢
    rw [h.isSubclass_iff_reflTransGen second.2] at hsecond
    exact hfirst.trans hsecond
  antisymm first second hfirst hsecond := by
    rw [h.isSubclass_iff_mem first.2] at hfirst
    rw [h.isSubclass_iff_mem second.2] at hsecond
    have hsame := (h.line_identities first.2).antisymm hfirst (h.line_identities second.2) hsecond
    have hfound := h.ofIdentity?_of_mem first.2
    rw [hsame, h.ofIdentity?_of_mem second.2, Option.some_inj] at hfound
    exact Subtype.ext hfound.symm

/-- Following parents in a registry that was built. Each search comes to an end
and goes to no class twice, wherever it starts: the one for an ancestor with the
answer that the class is the ancestor's subclass or not, the one for a
declaration with the nearest one. A subclass is what some steps to parents,
perhaps none, lead from; being a subclass is an order on the installed classes;
and it stays as it is whatever else one tries to install. -/
theorem ancestry_ordered (h : registry.Built) :
    (∀ cls ancestor, ∃ visited, visited.Nodup ∧
      ∀ rounds, registry.classes.length + 1 < rounds →
        registry.searchAncestor rounds cls ancestor =
          some (visited, decide (registry.IsSubclass cls ancestor))) ∧
    (∀ cls property, ∃ visited found, visited.Nodup ∧
      (∀ rounds, registry.classes.length + 1 < rounds →
        registry.searchDeclaration rounds cls property = some (visited, found)) ∧
      (cls ∈ registry.classes →
        found = declaredIn? property (registry.lineage cls.identity))) ∧
    (∀ cls ∈ registry.classes, ∀ ancestor, registry.IsSubclass cls ancestor ↔
      Relation.ReflTransGen (fun id parent => registry.parentIdentity? id = some parent)
        cls.identity ancestor) ∧
    IsPartialOrder {cls // cls ∈ registry.classes}
      (fun cls ancestor => registry.IsSubclass cls.1 ancestor.1.identity) ∧
    (∀ attempts, ∀ cls ∈ registry.classes, ∀ ancestor,
      (registry.afterAttempts attempts).IsSubclass cls ancestor ↔
        registry.IsSubclass cls ancestor) := by
  refine ⟨h.searchAncestor_eq, h.searchDeclaration_eq, ?_, h.isPartialOrder_isSubclass, ?_⟩
  · intro cls hcls ancestor
    exact h.isSubclass_iff_reflTransGen hcls
  · intro attempts cls hcls ancestor
    exact (registry.grows_afterAttempts attempts).isSubclass_iff (h.ofIdentity?_of_mem hcls)

/-- A safe is a vault and a vault is no safe, also when one tries to install a
vault that is one. The search for it ends all the same. -/
theorem ancestry_ordered_bank :
    bank.Built ∧ safe ∈ bank.classes ∧ vault ∈ bank.classes ∧
    Relation.ReflTransGen (fun id parent => bank.parentIdentity? id = some parent)
      safe.identity vault.identity ∧
    (∃ visited, visited.Nodup ∧
      bank.searchAncestor 4 vault safe.identity = some (visited, false)) ∧
    ¬ (bank.afterAttempts [vault.withParent "Safe"]).IsSubclass vault safe.identity := by
  have hsafe : safe ∈ bank.classes := List.mem_cons_self
  have hvault : vault ∈ bank.classes := List.mem_cons_of_mem _ List.mem_cons_self
  have hup : bank.IsSubclass safe vault.identity := by decide +kernel
  have hdown : ¬ bank.IsSubclass vault safe.identity := by decide +kernel
  obtain ⟨hsearch, -, hsteps, -, hstays⟩ := ancestry_ordered built_bank
  refine ⟨built_bank, hsafe, hvault, (hsteps safe hsafe _).1 hup, ?_, ?_⟩
  · obtain ⟨visited, hnodup, hfound⟩ := hsearch vault safe.identity
    rw [decide_eq_false hdown] at hfound
    exact ⟨visited, hnodup, hfound 4 (by decide)⟩
  · rw [hstays [vault.withParent "Safe"] vault hvault]
    exact hdown

end Registry

end NativeBridge
