import NativeBridge.Proofs.Heap.History
import NativeBridge.Sample.State

namespace NativeBridge.Heap

variable {σ : Type} {heap after : Heap σ} {handle : Handle}

/-- What a handle finds it has found before: the same state of the same class. -/
def FoundBefore (heap after : Heap σ) (handle : Handle) : Prop :=
  ∀ object, after.object? handle = some object →
    ∃ old, heap.object? handle = some old ∧ old.state = object.state ∧ old.classId = object.classId

private theorem FoundBefore.trans {middle : Heap σ} (first : heap.FoundBefore middle handle)
    (second : middle.FoundBefore after handle) : heap.FoundBefore after handle := by
  intro object hobject
  obtain ⟨middling, hmiddle, hstate, hclass⟩ := second object hobject
  obtain ⟨old, hold, hstate', hclass'⟩ := first middling hmiddle
  exact ⟨old, hold, hstate'.trans hstate, hclass'.trans hclass⟩

private theorem ShrinksTo.foundBefore (h : heap.ShrinksTo after) (handle : Handle) :
    heap.FoundBefore after handle := by
  intro object hobject
  obtain ⟨count, _, hold⟩ := h handle object hobject
  exact ⟨{ object with refCount := count }, hold, rfl, rfl⟩

private theorem foundBefore_addRef (heap : Heap σ) (other handle : Handle) :
    heap.FoundBefore (heap.addRef other).2 handle := by
  intro object hobject
  unfold addRef at hobject
  split at hobject
  · rename_i old hold
    rw [object?_putObject hold] at hobject
    split at hobject
    · rename_i heq
      cases hobject
      exact ⟨old, (object?_congr heq).trans hold, rfl, rfl⟩
    · exact ⟨object, hobject, rfl, rfl⟩
  · exact ⟨object, hobject, rfl, rfl⟩

variable [NativeState σ]

private theorem shrinksTo_release (heap : Heap σ) (handle : Handle) :
    heap.ShrinksTo (heap.release handle).2 := by
  cases hobject : heap.object? handle with
  | none =>
    rw [release_stale hobject]
    exact .refl heap
  | some object =>
    have hlower := shrinksTo_putObject hobject (Nat.sub_le object.refCount 1)
    by_cases hlast : object.refCount ≤ 1
    · rw [release_last hobject hlast]
      exact hlower.trans (shrinksTo_cascade _ _)
    · rw [release_shared hobject (by omega)]
      exact hlower

private theorem shrinksTo_free (heap : Heap σ) (handle : Handle) :
    heap.ShrinksTo (heap.free handle) := by
  unfold free
  split
  · exact shrinksTo_cascade _ _
  · exact .refl heap

/-- An allocation hands out a new tenancy, so the handles of old ones find what
they found. -/
theorem Fills.foundBefore {object : Object σ} {placed : Handle}
    (h : heap.Fills placed object after) (hbegun : heap.HasBegun handle.tenancy) :
    heap.FoundBefore after handle := by
  intro found hfound
  have hne : handle.tenancy ≠ placed.tenancy := fun heq => h.not_hasBegun (heq ▸ hbegun)
  rw [h.object?_eq, if_neg hne] at hfound
  exact ⟨found, hfound, rfl, rfl⟩

/-- An operation shows nothing new to a handle that was handed out before. This
is the step of the run below. -/
theorem WithinLimits.foundBefore_perform {operation : Operation σ} {earlier : List (Operation σ)}
    (h : WithinLimits (operation :: earlier)) (hissued : handle.tenancy ∈ issued earlier) :
    (Heap.after earlier).FoundBefore ((Heap.after earlier).perform operation) handle := by
  cases operation with
  | place classId owning state =>
    have hfills := fills_place h.tail.sound.tidy h.hasRoom classId owning state
    exact hfills.foundBefore (h.tail.reached.hasBegun _ hissued)
  | addRef other => exact foundBefore_addRef _ other handle
  | release other => exact (shrinksTo_release _ other).foundBefore handle
  | free other => exact (shrinksTo_free _ other).foundBefore handle

private theorem issued_subset_append (later earlier : List (Operation σ)) :
    issued earlier ⊆ issued (later ++ earlier) := by
  induction later with
  | nil => exact List.Subset.refl _
  | cons operation later ih =>
    cases operation with
    | place classId owning state => exact List.Subset.trans ih (List.subset_cons_self _ _)
    | addRef handle => exact ih
    | release handle => exact ih
    | free handle => exact ih

/-- A handle that was handed out finds nothing new, however long the heap is
used. -/
theorem WithinLimits.foundBefore {later earlier : List (Operation σ)}
    (h : WithinLimits (later ++ earlier)) (hissued : handle.tenancy ∈ issued earlier) :
    (Heap.after earlier).FoundBefore (Heap.after (later ++ earlier)) handle := by
  induction later with
  | nil => exact fun object hobject => ⟨object, hobject, rfl, rfl⟩
  | cons operation later ih =>
    have hissued' := issued_subset_append later earlier hissued
    exact (ih h.tail).trans (h.foundBefore_perform hissued')

/-- A handle finds nothing, and no operation through it changes the heap. -/
structure FindsNothing (heap : Heap σ) (handle : Handle) : Prop where
  contains : heap.contains handle = false
  get : ∀ {α : Type} (kind : StateKind σ α), heap.get? kind handle = none
  set : ∀ {α : Type} (kind : StateKind σ α) (a : α), heap.set kind handle a = heap
  classOf : heap.classOf? handle = none
  refCount : heap.refCount? handle = none
  addRef : heap.addRef handle = (false, heap)
  release : heap.release handle = (false, heap)
  free : heap.free handle = heap

private theorem findsNothing_of_object? (h : heap.object? handle = none) :
    heap.FindsNothing handle where
  contains := by simp [Heap.contains, h]
  get := fun kind => by simp [get?, h]
  set := fun kind a => by simp [Heap.set, h]
  classOf := by simp [classOf?, h]
  refCount := by simp [refCount?, h]
  addRef := addRef_stale h
  release := release_stale h
  free := free_stale h

/-- A handle that found nothing finds nothing later, and nothing can be done
through it. -/
theorem FoundBefore.findsNothing (h : heap.FoundBefore after handle)
    (hgone : heap.contains handle = false) : after.FindsNothing handle := by
  apply findsNothing_of_object?
  by_contra hfound
  obtain ⟨object, hobject⟩ := Option.ne_none_iff_exists'.1 hfound
  obtain ⟨old, hold, _⟩ := h object hobject
  rw [contains_iff.2 ⟨old, hold⟩] at hgone
  cases hgone

omit [NativeState σ] in
/-- A handle that still finds something finds the state and the class it found
before. -/
theorem FoundBefore.finds (h : heap.FoundBefore after handle) {stored : Object σ}
    (hstored : heap.object? handle = some stored) (hlive : after.contains handle = true) :
    (∀ {α : Type} (kind : StateKind σ α), after.get? kind handle = kind.read stored.state) ∧
      after.classOf? handle = some stored.classId := by
  obtain ⟨object, hobject⟩ := contains_iff.1 hlive
  obtain ⟨old, hold, hstate, hclass⟩ := h object hobject
  rw [hstored] at hold
  cases hold
  refine ⟨fun kind => ?_, ?_⟩
  · rw [get?, hobject, Option.bind_some, hstate]
  · rw [classOf?, hobject, Option.map_some, hclass]

/-- What a handle finds once it is handed out, however the heap was used before
and is used later. No earlier allocation handed out its tenancy. While it finds
something it is the state that was stored, under its class. Once it finds
nothing, neither it nor any handle of its tenancy finds anything again. -/
theorem handle_outlived (before between later : List (Operation σ)) (classId : Identity)
    (owning : Bool) (state : State σ)
    (h : WithinLimits (later ++ (between ++ .place classId owning state :: before))) :
    let handle := ((Heap.after before).place classId owning state).1
    let now := Heap.after (between ++ .place classId owning state :: before)
    handle.tenancy ∉ issued before ∧
    (Heap.after (.place classId owning state :: before)).contains handle = true ∧
    (now.contains handle = true →
      (∀ {α : Type} (kind : StateKind σ α), now.get? kind handle = kind.read state) ∧
      now.classOf? handle = some classId) ∧
    (now.contains handle = false → ∀ other, other.tenancy = handle.tenancy →
      (Heap.after (later ++ (between ++ .place classId owning state :: before))).FindsNothing
        other) := by
  intro handle now
  have hnow := h.of_append
  have hplaced := hnow.of_append
  have hfills := fills_place hplaced.tail.sound.tidy hplaced.hasRoom classId owning state
  have hfresh : (Heap.after (.place classId owning state :: before)).object? handle =
      some (Object.fresh classId owning state) := by
    rw [Heap.after, perform, hfills.object?_eq, if_pos rfl]
  have hissued : handle.tenancy ∈ issued (.place classId owning state :: before) :=
    List.mem_cons_self
  refine ⟨?_, contains_iff.2 ⟨_, hfresh⟩, ?_, ?_⟩
  · intro hmem
    exact hfills.not_hasBegun (hplaced.tail.reached.hasBegun _ hmem)
  · intro hlive
    exact (hnow.foundBefore hissued).finds hfresh hlive
  · intro hgone other htenancy
    have hissued' : other.tenancy ∈ issued (between ++ .place classId owning state :: before) :=
      htenancy ▸ issued_subset_append between _ hissued
    have hgone' : now.contains other = false := by
      rwa [Heap.contains, object?_congr htenancy]
    exact (h.foundBefore hissued').findsNothing hgone'

def counterHandle : Handle := ⟨0, 1, SampleType.counter.type⟩

/-- A text goes and leaves its slot to the next allocation. -/
def textGone : List (Operation Sample) :=
  [.release ⟨0, 0, SampleType.text.type⟩, .place Identity.empty false (.native (.text "old"))]

/-- A counter takes the slot of the text, and a unit takes it after the
counter. -/
def slotReused : List (Operation Sample) :=
  [.place Identity.empty false (.native .unit), .free counterHandle, .addRef counterHandle,
    .place ⟨7⟩ false (.native (.counter 5))] ++ textGone

private theorem withinLimits_slotReused : WithinLimits slotReused where
  slots := by decide +kernel
  vacations := fun i => Nat.lt_of_le_of_lt (vacations_le_length i slotReused) (by decide)

/-- The counter is found under the second tenancy of the slot as long as it
is there. Under the third one is the unit, and the counter's handle finds
nothing. -/
theorem handle_outlived_slotReused :
    WithinLimits slotReused ∧ counterHandle.tenancy ∉ issued textGone ∧
    (Heap.after (slotReused.drop 2)).get? SampleType.counterKind counterHandle = some 5 ∧
    (Heap.after slotReused).isOccupiedAt 0 = true ∧
    (Heap.after slotReused).FindsNothing counterHandle := by
  have hcounter : ((Heap.after textGone).place ⟨7⟩ false (.native (.counter 5))).1 =
      counterHandle := by decide +kernel
  obtain ⟨hnew, _, hlive, _⟩ := handle_outlived textGone [.addRef counterHandle]
    [.place Identity.empty false (.native .unit), .free counterHandle] ⟨7⟩ false
    (.native (.counter 5)) withinLimits_slotReused
  obtain ⟨_, _, _, hstale⟩ := handle_outlived textGone
    [.free counterHandle, .addRef counterHandle] [.place Identity.empty false (.native .unit)] ⟨7⟩
    false (.native (.counter 5)) withinLimits_slotReused
  rw [hcounter] at hnew hlive hstale
  refine ⟨withinLimits_slotReused, hnew, ?_, by decide +kernel, ?_⟩
  · exact (hlive (by decide +kernel)).1 SampleType.counterKind
  · exact hstale (by decide +kernel) counterHandle rfl

end NativeBridge.Heap
