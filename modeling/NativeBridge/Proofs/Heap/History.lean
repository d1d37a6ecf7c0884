import NativeBridge.Proofs.Heap.Reached

namespace NativeBridge.Heap

variable {σ : Type}

/-- An operation on a heap. Allocations differ in the class they name and in
whether the state owns the handles in it. Handles may be stale or forged. -/
inductive Operation (σ : Type) where
  | place (classId : Identity) (owning : Bool) (state : State σ)
  | addRef (handle : Handle)
  | release (handle : Handle)
  | free (handle : Handle)

/-- The generation of a slot; one that is still to come starts with the
first. -/
def generationAt (heap : Heap σ) (i : Nat) : UInt32 :=
  (heap.slots[i]?.map Slot.generation).getD 0

def isOccupiedAt (heap : Heap σ) (i : Nat) : Bool :=
  heap.slots[i]?.any fun slot => slot.object.isSome

/-- A slot had an object and has none any more. -/
def Vacated (heap after : Heap σ) (i : Nat) : Prop :=
  heap.isOccupiedAt i = true ∧ after.isOccupiedAt i = false

instance (heap after : Heap σ) (i : Nat) : Decidable (heap.Vacated after i) :=
  inferInstanceAs (Decidable (_ ∧ _))

variable [NativeState σ]

def perform (heap : Heap σ) : Operation σ → Heap σ
  | .place classId owning state => (heap.place classId owning state).2
  | .addRef handle => (heap.addRef handle).2
  | .release handle => (heap.release handle).2
  | .free handle => heap.free handle

/-- The heap that operations make of the empty one. The last one is listed
first. -/
def after : List (Operation σ) → Heap σ
  | [] => Heap.empty
  | operation :: earlier => (after earlier).perform operation

/-- The tenancies that were handed out by the allocations among the
operations. -/
def issued : List (Operation σ) → List Tenancy
  | [] => []
  | .place classId owning state :: earlier =>
    ((after earlier).place classId owning state).1.tenancy :: issued earlier
  | _ :: earlier => issued earlier

/-- How often a slot was vacated. No operation fills a slot that it has vacated,
so none vacates a slot twice. -/
def vacations (i : Nat) : List (Operation σ) → Nat
  | [] => 0
  | operation :: earlier =>
    vacations i earlier +
      if (after earlier).Vacated ((after earlier).perform operation) i then 1 else 0

/-- There are numbers for all slots and generations for all their tenancies. -/
structure WithinLimits (operations : List (Operation σ)) : Prop where
  slots : (after operations).slots.size < UInt32.size
  vacations : ∀ i, vacations i operations < UInt32.size

/-- A slot is vacated at most once by each operation, so short histories are
within the limit of generations. -/
theorem vacations_le_length (i : Nat) (operations : List (Operation σ)) :
    vacations i operations ≤ operations.length := by
  induction operations with
  | nil => exact Nat.le_refl 0
  | cons operation earlier ih =>
    rw [vacations, List.length_cons]
    split <;> omega

private theorem size_slots_le_place (heap : Heap σ) (classId : Identity) (owning : Bool)
    (state : State σ) : heap.slots.size ≤ (heap.place classId owning state).2.slots.size := by
  cases hvacant : heap.vacant with
  | nil => simp [place, hvacant]
  | cons index vacant => simp [place, hvacant, size_slots_putObject]

private theorem size_slots_le_perform (heap : Heap σ) (operation : Operation σ) :
    heap.slots.size ≤ (heap.perform operation).slots.size := by
  cases operation with
  | place classId owning state => exact heap.size_slots_le_place classId owning state
  | addRef handle => exact Nat.le_of_eq (heap.size_slots_addRef handle).symm
  | release handle => exact Nat.le_of_eq (heap.size_slots_release handle).symm
  | free handle => exact Nat.le_of_eq (heap.size_slots_free handle).symm

/-- What is within the limits was within them one operation earlier. -/
theorem WithinLimits.tail {operation : Operation σ} {earlier : List (Operation σ)}
    (h : WithinLimits (operation :: earlier)) : WithinLimits earlier where
  slots := Nat.lt_of_le_of_lt (size_slots_le_perform _ operation) h.slots
  vacations := fun i => Nat.lt_of_le_of_lt (Nat.le_add_right _ _) (h.vacations i)

/-- What is within the limits was within them at every earlier time. Slots are
never taken away, and vacations only add up. -/
theorem WithinLimits.of_append {later earlier : List (Operation σ)}
    (h : WithinLimits (later ++ earlier)) : WithinLimits earlier := by
  induction later with
  | nil => exact h
  | cons operation later ih => exact ih h.tail

/-- Within the limits there is room for the next allocation, be it in a vacant
slot or in a new one. -/
theorem WithinLimits.hasRoom {operation : Operation σ} {earlier : List (Operation σ)}
    (h : WithinLimits (operation :: earlier)) : (after earlier).HasRoom :=
  fun _ => h.tail.slots

/-- Within the limits every heap is sound, because it is tidy and has a number
for each slot. -/
theorem WithinLimits.sound {operations : List (Operation σ)} (h : WithinLimits operations) :
    (after operations).Sound := by
  induction operations with
  | nil => exact sound_empty
  | cons operation earlier ih =>
    have hsound := ih h.tail
    cases operation with
    | place classId owning state =>
      exact (fills_place hsound.tidy h.hasRoom classId owning state).sound hsound Nat.one_pos
    | addRef handle => exact hsound.addRef handle
    | release handle => exact hsound.release handle
    | free handle => exact hsound.free handle

omit [NativeState σ] in
private theorem Vacates.generationAt_eq {heap after : Heap σ} (h : heap.Vacates after)
    (hsize : after.slots.size = heap.slots.size) (i : Nat) :
    after.generationAt i = heap.generationAt i + if heap.Vacated after i then 1 else 0 := by
  cases hslot : heap.slots[i]? with
  | none =>
    have hslot' : after.slots[i]? = none := by
      rw [Array.getElem?_eq_none_iff] at hslot ⊢
      omega
    simp [generationAt, Vacated, isOccupiedAt, hslot, hslot']
  | some slot =>
    obtain ⟨slot', hslot', ⟨hgen, hsome⟩ | ⟨hgen, hsome, hnone⟩⟩ := h i slot hslot
    · have hkept : ¬ heap.Vacated after i := by
        rintro ⟨hbefore, hafter⟩
        simp only [isOccupiedAt, hslot, hslot', Option.any_some, hsome] at hbefore hafter
        rw [hbefore] at hafter
        cases hafter
      simp [generationAt, hslot, hslot', hgen, hkept]
    · have hvacated : heap.Vacated after i := by
        simp [Vacated, isOccupiedAt, hslot, hslot', hsome, hnone]
      simp [generationAt, hslot, hslot', hgen, hvacated]

private theorem Fills.generationAt_eq {heap after : Heap σ} {handle : Handle} {object : Object σ}
    (h : heap.Fills handle object after) (i : Nat) :
    after.generationAt i = heap.generationAt i + if heap.Vacated after i then 1 else 0 := by
  by_cases hi : handle.index.toNat = i
  · have hempty : heap.isOccupiedAt i = false ∧ heap.generationAt i = handle.generation := by
      obtain ⟨slot, hslot, hnone, hgen⟩ | ⟨hsize, hgen⟩ := h.before
      · rw [hi] at hslot
        simp [isOccupiedAt, generationAt, hslot, hnone, hgen]
      · have hslot : heap.slots[i]? = none := Array.getElem?_eq_none (by omega)
        simp [isOccupiedAt, generationAt, hslot, hgen]
    have hkept : ¬ heap.Vacated after i := by simp [Vacated, hempty.1]
    rw [hempty.2, if_neg hkept]
    simp [generationAt, h.slots, hi]
  · have hslot : after.slots[i]? = heap.slots[i]? := by rw [h.slots, if_neg hi]
    have hkept : ¬ heap.Vacated after i := by simp [Vacated, isOccupiedAt, hslot]
    simp [hkept, generationAt, hslot]

omit [NativeState σ] in
private theorem vacates_addRef (heap : Heap σ) (handle : Handle) :
    heap.Vacates (heap.addRef handle).2 := by
  unfold addRef
  split
  · rename_i object hobject
    exact vacates_putObject hobject _
  · exact .refl heap

/-- A slot takes the next generation when it is vacated, and only then. This is
the step of the count below. -/
theorem Sound.generationAt_perform {heap : Heap σ} (hsound : heap.Sound) (hroom : heap.HasRoom)
    (operation : Operation σ) (i : Nat) :
    (heap.perform operation).generationAt i =
      heap.generationAt i + if heap.Vacated (heap.perform operation) i then 1 else 0 := by
  cases operation with
  | place classId owning state =>
    exact (fills_place hsound.tidy hroom classId owning state).generationAt_eq i
  | addRef handle =>
    exact (heap.vacates_addRef handle).generationAt_eq (heap.size_slots_addRef handle) i
  | release handle =>
    exact (hsound.tidy.vacates_release handle).generationAt_eq (heap.size_slots_release handle) i
  | free handle =>
    exact (hsound.tidy.vacates_free handle).generationAt_eq (heap.size_slots_free handle) i

/-- The generation of a slot is the number of times it was vacated, read as a
word. -/
theorem WithinLimits.generationAt_eq {operations : List (Operation σ)}
    (h : WithinLimits operations) (i : Nat) :
    (after operations).generationAt i = UInt32.ofNat (Heap.vacations i operations) := by
  induction operations with
  | nil => simp [after, Heap.empty, generationAt, Heap.vacations]
  | cons operation earlier ih =>
    rw [after, h.tail.sound.generationAt_perform h.hasRoom, ih h.tail, Heap.vacations,
      UInt32.ofNat_add]
    split <;> rfl

private theorem WithinLimits.toNat_generationAt {operations : List (Operation σ)}
    (h : WithinLimits operations) (i : Nat) :
    ((after operations).generationAt i).toNat = Heap.vacations i operations := by
  rw [h.generationAt_eq]
  exact UInt32.toNat_ofNat_of_lt' (h.vacations i)

/-- Within the limits no generation wraps around, because each says how often
its slot was vacated. -/
theorem WithinLimits.generationsGrow {operation : Operation σ} {earlier : List (Operation σ)}
    (h : WithinLimits (operation :: earlier)) :
    (after earlier).GenerationsGrow ((after earlier).perform operation) := by
  intro i slot slot' hslot hslot'
  have hbefore := h.tail.toNat_generationAt i
  have hafter := h.toNat_generationAt i
  simp only [after, generationAt, hslot, hslot', Option.map_some, Option.getD_some,
    Heap.vacations] at hbefore hafter
  rw [UInt32.le_iff_toNat_le]
  omega

/-- Within the limits a heap is one that `Reached` speaks about. The limits are
told of the whole history, and not operation by operation. -/
theorem WithinLimits.reached {operations : List (Operation σ)} (h : WithinLimits operations) :
    (after operations).Reached (issued operations) := by
  induction operations with
  | nil => exact .empty
  | cons operation earlier ih =>
    have hreached := ih h.tail
    cases operation with
    | place classId owning state => exact hreached.place classId owning state h.hasRoom
    | addRef handle => exact hreached.addRef handle
    | release handle => exact hreached.release handle h.generationsGrow
    | free handle => exact hreached.free handle h.generationsGrow

end NativeBridge.Heap
