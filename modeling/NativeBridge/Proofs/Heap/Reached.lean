import NativeBridge.Proofs.Heap.Release

namespace NativeBridge.Heap

variable {σ : Type} {heap after : Heap σ}

/-- Each slot either kept its object or lost it and took the next generation. -/
def Vacates (heap after : Heap σ) : Prop :=
  ∀ (i : Nat) (slot : Slot σ), heap.slots[i]? = some slot → ∃ slot', after.slots[i]? = some slot' ∧
    ((slot'.generation = slot.generation ∧ slot'.object.isSome = slot.object.isSome) ∨
      (slot'.generation = slot.generation + 1 ∧ slot.object.isSome = true ∧ slot'.object = none))

theorem Vacates.refl (heap : Heap σ) : heap.Vacates heap :=
  fun _ slot hslot => ⟨slot, hslot, Or.inl ⟨rfl, rfl⟩⟩

private theorem Vacates.trans {middle : Heap σ} (first : heap.Vacates middle)
    (second : middle.Vacates after) : heap.Vacates after := by
  intro i slot hslot
  obtain ⟨slot', hslot', hfirst⟩ := first i slot hslot
  obtain ⟨slot'', hslot'', hsecond⟩ := second i slot' hslot'
  refine ⟨slot'', hslot'', ?_⟩
  rcases hfirst with ⟨hgen, hsome⟩ | ⟨hgen, hsome, hnone⟩
  · rw [hgen, hsome] at hsecond
    exact hsecond
  · rcases hsecond with ⟨hgen', hsome'⟩ | ⟨_, hsome', _⟩
    · refine Or.inr ⟨hgen'.trans hgen, hsome, ?_⟩
      simpa [hnone] using hsome'
    · simp [hnone] at hsome'

/-- An object that changes in place vacates no slot. -/
theorem vacates_putObject {handle : Handle} {old : Object σ}
    (h : heap.object? handle = some old) (object : Object σ) :
    heap.Vacates (heap.putObject handle.index object) := by
  intro i slot hslot
  rw [getElem?_slots_putObject]
  split
  · rename_i hi
    obtain ⟨slot', hslot', _, hsome⟩ := object?_eq_some_iff.1 h
    rw [hi, hslot] at hslot'
    cases hslot'
    exact ⟨{ slot with object := some object }, by simp [hslot], Or.inl ⟨rfl, by simp [hsome]⟩⟩
  · exact ⟨slot, hslot, Or.inl ⟨rfl, rfl⟩⟩

private theorem vacates_surrender (handles : List Handle) (pending : List UInt32) (heap : Heap σ) :
    heap.Vacates (surrender handles pending heap).2 := by
  induction handles, pending, heap using surrender.induct with
  | case1 pending heap => exact .refl heap
  | case2 handle rest pending heap object hobject hpos ih =>
    simp only [surrender, hobject, hpos, ↓reduceIte]
    exact (vacates_putObject hobject _).trans ih
  | case3 handle rest pending heap object hobject hzero ih =>
    simpa only [surrender, hobject, hzero, ↓reduceIte] using ih
  | case4 handle rest pending heap hstale ih =>
    simpa only [surrender, hstale] using ih

/-- No generation has wrapped around. -/
def GenerationsGrow (heap after : Heap σ) : Prop :=
  ∀ (i : Nat) (slot slot' : Slot σ), heap.slots[i]? = some slot → after.slots[i]? = some slot' →
    slot.generation ≤ slot'.generation

/-- A tenancy that is over or is that of a live object. -/
def HasBegun (heap : Heap σ) (tenancy : Tenancy) : Prop :=
  ∃ slot, heap.slots[tenancy.index.toNat]? = some slot ∧
    (tenancy.generation < slot.generation ∨
      (tenancy.generation = slot.generation ∧ slot.object.isSome = true))

/-- A tenancy that has begun stays begun when slots are vacated, as long as no
generation wraps around. Wrapping would bring it back into the future. -/
theorem HasBegun.vacate {tenancy : Tenancy} (h : heap.HasBegun tenancy)
    (hvacates : heap.Vacates after) (hgrow : heap.GenerationsGrow after) :
    after.HasBegun tenancy := by
  obtain ⟨slot, hslot, hbegun⟩ := h
  obtain ⟨slot', hslot', hchange⟩ := hvacates _ slot hslot
  have hle := hgrow _ slot slot' hslot hslot'
  refine ⟨slot', hslot', ?_⟩
  rcases hbegun with hlt | ⟨heq, hsome⟩
  · exact Or.inl (UInt32.lt_of_lt_of_le hlt hle)
  · rcases hchange with ⟨hgen, hsame⟩ | ⟨hgen, _, _⟩
    · exact Or.inr ⟨heq.trans hgen.symm, hsame.trans hsome⟩
    · have hne : slot.generation ≠ slot'.generation := by
        rw [hgen]
        simp
      exact Or.inl (heq ▸ UInt32.lt_of_le_of_ne hle hne)

private theorem HasBegun.putObject {tenancy : Tenancy} (h : heap.HasBegun tenancy) {handle : Handle}
    {old : Object σ} (hold : heap.object? handle = some old) (object : Object σ) :
    (heap.putObject handle.index object).HasBegun tenancy := by
  refine h.vacate (vacates_putObject hold object) ?_
  intro i slot slot' hslot hslot'
  rw [getElem?_slots_putObject, hslot] at hslot'
  split at hslot' <;> cases hslot' <;> exact UInt32.le_refl _

variable [NativeState σ]

private theorem vacates_evict {index : UInt32} (h : heap.IsOccupied index) :
    heap.Vacates (heap.evict index).2 := by
  intro i slot hslot
  rw [getElem?_slots_evict]
  split
  · rename_i hi
    obtain ⟨handle, hindex, hlive⟩ := h
    obtain ⟨object, hobject⟩ := contains_iff.1 hlive
    obtain ⟨slot', hslot', _, hsome⟩ := object?_eq_some_iff.1 hobject
    rw [hindex, hi, hslot] at hslot'
    cases hslot'
    exact ⟨⟨slot.generation + 1, none⟩, by simp [hslot], Or.inr ⟨rfl, by simp [hsome], rfl⟩⟩
  · exact ⟨slot, hslot, Or.inl ⟨rfl, rfl⟩⟩

/-- A cascade vacates slots and fills none, so no slot is vacated twice in
one. -/
theorem TidyUpTo.vacates_cascade {pending : List UInt32} (h : TidyUpTo pending heap) :
    heap.Vacates (Heap.cascade pending heap) := by
  refine cascade_induction
    (motive := fun pending middle => TidyUpTo pending middle ∧ heap.Vacates middle)
    ?_ (fun _ hend => hend.2) pending heap ⟨h, .refl heap⟩
  rintro index rest middle ⟨htidy, hvacates⟩
  have hoccupied := htidy.pending_occupied index List.mem_cons_self
  exact ⟨htidy.emptySlot,
    hvacates.trans ((vacates_evict hoccupied).trans (vacates_surrender _ _ _))⟩

private theorem Tidy.vacates_cascade_live (h : heap.Tidy) {handle : Handle} {object : Object σ}
    (hobject : heap.object? handle = some object) :
    heap.Vacates (Heap.cascade [handle.index] heap) := by
  have hput := TidyUpTo.putObject h hobject (h.refCount_pos hobject) { object with refCount := 0 }
  rw [← cascade_putObject_refCount hobject 0]
  exact (vacates_putObject hobject _).trans hput.vacates_cascade

/-- Giving up a reference vacates slots and fills none, also where other objects
go by it. -/
theorem Tidy.vacates_release (h : heap.Tidy) (handle : Handle) :
    heap.Vacates (heap.release handle).2 := by
  cases hobject : heap.object? handle with
  | none =>
    rw [release_stale hobject]
    exact .refl heap
  | some object =>
    by_cases hlast : object.refCount ≤ 1
    · rw [release_last hobject hlast, cascade_putObject_refCount hobject]
      exact h.vacates_cascade_live hobject
    · rw [release_shared hobject (by omega)]
      exact vacates_putObject hobject _

/-- Freeing vacates slots and fills none, whatever goes along with the
object. -/
theorem Tidy.vacates_free (h : heap.Tidy) (handle : Handle) :
    heap.Vacates (heap.free handle) := by
  cases hobject : heap.object? handle with
  | none =>
    rw [free_stale hobject]
    exact .refl heap
  | some object =>
    rw [free_live hobject]
    exact h.vacates_cascade_live hobject

private theorem Fills.hasBegun {handle : Handle} {object : Object σ}
    (h : heap.Fills handle object after) {tenancy : Tenancy} (hbegun : heap.HasBegun tenancy) :
    after.HasBegun tenancy := by
  obtain ⟨slot, hslot, hgen⟩ := hbegun
  by_cases hindex : handle.index = tenancy.index
  · refine ⟨⟨handle.generation, some object⟩, by simp [h.slots, hindex], ?_⟩
    obtain ⟨empty, hempty, hnone, hsame⟩ | ⟨hsize, _⟩ := h.before
    · rw [hindex, hslot] at hempty
      cases hempty
      simp only [hnone, Option.isSome_none, Bool.false_eq_true, and_false, or_false] at hgen
      exact Or.inl (hsame ▸ hgen)
    · have hlt := (Array.getElem?_eq_some_iff.1 hslot).1
      rw [hsize, hindex] at hlt
      exact absurd hlt (Nat.lt_irrefl _)
  · have hne : handle.index.toNat ≠ tenancy.index.toNat :=
      fun heq => hindex (UInt32.toNat_inj.1 heq)
    exact ⟨slot, by simp [h.slots, hne, hslot], hgen⟩

private theorem Fills.hasBegun_self {handle : Handle} {object : Object σ}
    (h : heap.Fills handle object after) : after.HasBegun handle.tenancy := by
  refine ⟨⟨handle.generation, some object⟩, ?_, Or.inr ⟨rfl, rfl⟩⟩
  simp [h.slots, Handle.tenancy]

/-- An allocation hands out a tenancy that has not begun, whether it uses a slot
again or adds one. -/
theorem Fills.not_hasBegun {handle : Handle} {object : Object σ}
    (h : heap.Fills handle object after) : ¬ heap.HasBegun handle.tenancy := by
  rintro ⟨slot, hslot, hbegun⟩
  obtain ⟨empty, hempty, hnone, hsame⟩ | ⟨hsize, _⟩ := h.before
  · rw [show handle.tenancy.index = handle.index from rfl, hempty] at hslot
    cases hslot
    simp [Handle.tenancy, hsame, hnone] at hbegun
  · have hlt := (Array.getElem?_eq_some_iff.1 hslot).1
    rw [hsize] at hlt
    exact Nat.lt_irrefl _ hlt

/-- The heaps that operations lead to from the empty one, with the tenancies
handed out on the way, the last one first. Handles may be stale or forged; a
state may be changed in place. -/
inductive Reached : Heap σ → List Tenancy → Prop
  | empty : Reached Heap.empty []
  | place {heap : Heap σ} {issued : List Tenancy} (classId : Identity) (owning : Bool)
      (state : State σ) : heap.Reached issued → heap.HasRoom →
      (heap.place classId owning state).2.Reached
        ((heap.place classId owning state).1.tenancy :: issued)
  | addRef {heap : Heap σ} {issued : List Tenancy} (handle : Handle) :
      heap.Reached issued → (heap.addRef handle).2.Reached issued
  | release {heap : Heap σ} {issued : List Tenancy} (handle : Handle) : heap.Reached issued →
      heap.GenerationsGrow (heap.release handle).2 → (heap.release handle).2.Reached issued
  | free {heap : Heap σ} {issued : List Tenancy} (handle : Handle) : heap.Reached issued →
      heap.GenerationsGrow (heap.free handle) → (heap.free handle).Reached issued
  | set {heap : Heap σ} {issued : List Tenancy} {α : Type} (kind : StateKind σ α)
      (handle : Handle) (a : α) : heap.Reached issued → (heap.set kind handle a).Reached issued

/-- Every heap that is reached is sound. Room for allocations is part of being
reached, so there is a number for each slot. -/
theorem Reached.sound {issued : List Tenancy} (h : heap.Reached issued) : heap.Sound := by
  induction h with
  | empty => exact sound_empty
  | place classId owning state _ hroom ih =>
    exact (fills_place ih.tidy hroom classId owning state).sound ih Nat.one_pos
  | addRef handle _ ih => exact ih.addRef handle
  | release handle _ _ ih => exact ih.release handle
  | free handle _ _ ih => exact ih.free handle
  | set kind handle a _ ih => exact ih.set kind handle a

/-- The heaps that operations lead to from the empty one, however many slots
there are and however often one is vacated. -/
inductive Made : Heap σ → Prop
  | empty : Made Heap.empty
  | place {heap : Heap σ} (classId : Identity) (owning : Bool) (state : State σ) :
      heap.Made → (heap.place classId owning state).2.Made
  | addRef {heap : Heap σ} (handle : Handle) : heap.Made → (heap.addRef handle).2.Made
  | release {heap : Heap σ} (handle : Handle) : heap.Made → (heap.release handle).2.Made
  | free {heap : Heap σ} (handle : Handle) : heap.Made → (heap.free handle).Made
  | set {heap : Heap σ} {α : Type} (kind : StateKind σ α) (handle : Handle) (a : α) :
      heap.Made → (heap.set kind handle a).Made

/-- Every heap that is made is tidy. Running out of numbers or of generations
does not disturb its lists and counts. -/
theorem Made.tidy (h : heap.Made) : heap.Tidy := by
  induction h with
  | empty => exact sound_empty.tidy
  | place classId owning state _ ih => exact ih.place classId owning state
  | addRef handle _ ih => exact ih.addRef handle
  | release handle _ ih => exact ih.release handle
  | free handle _ ih => exact ih.free handle
  | set kind handle a _ ih => exact ih.set kind handle a

/-- Whatever was handed out has begun, so it is not handed out again. By
induction on the operations, none of which takes a tenancy back. -/
theorem Reached.hasBegun {issued : List Tenancy} (h : heap.Reached issued) :
    ∀ tenancy ∈ issued, heap.HasBegun tenancy := by
  induction h with
  | empty =>
    intro tenancy hmem
    cases hmem
  | @place heap issued classId owning state hreached hroom ih =>
    have hfills := fills_place hreached.sound.tidy hroom classId owning state
    intro tenancy hmem
    rcases List.mem_cons.1 hmem with heq | hmem
    · exact heq ▸ hfills.hasBegun_self
    · exact hfills.hasBegun (ih tenancy hmem)
  | @addRef heap issued handle _ ih =>
    intro tenancy hmem
    cases hobject : heap.object? handle with
    | none => simpa only [addRef_stale hobject] using ih tenancy hmem
    | some object =>
      simp only [Heap.addRef, hobject]
      exact (ih tenancy hmem).putObject hobject _
  | release handle hreached hgrow ih =>
    exact fun tenancy hmem => (ih tenancy hmem).vacate (hreached.sound.tidy.vacates_release handle) hgrow
  | free handle hreached hgrow ih =>
    exact fun tenancy hmem => (ih tenancy hmem).vacate (hreached.sound.tidy.vacates_free handle) hgrow
  | @set heap issued α kind handle a _ ih =>
    intro tenancy hmem
    unfold Heap.set
    split
    · rename_i object hobject
      split
      · exact (ih tenancy hmem).putObject hobject _
      · exact ih tenancy hmem
    · exact ih tenancy hmem

end NativeBridge.Heap
