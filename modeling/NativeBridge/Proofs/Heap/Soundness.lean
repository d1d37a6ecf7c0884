import NativeBridge.Proofs.Heap.Cascade

namespace NativeBridge.Heap

variable {σ : Type} {heap : Heap σ} {pending : List UInt32}

/-- A slot without an object. -/
def IsVacant (heap : Heap σ) (index : UInt32) : Prop :=
  ∃ slot, heap.slots[index.toNat]? = some slot ∧ slot.object = none

/-- A slot with an object. -/
def IsOccupied (heap : Heap σ) (index : UInt32) : Prop :=
  ∃ handle : Handle, handle.index = index ∧ heap.contains handle = true

/-- The lists and counts of the heap are right save for the objects of the
pending slots, which have no reference left. There may be more slots than
numbers for them. -/
structure TidyUpTo (pending : List UInt32) (heap : Heap σ) : Prop where
  vacant_nodup : heap.vacant.Nodup
  mem_vacant_iff : ∀ index, index ∈ heap.vacant ↔ heap.IsVacant index
  liveCount_eq : heap.liveCount = heap.slots.countP fun slot => slot.object.isSome
  pending_nodup : pending.Nodup
  pending_occupied : ∀ index ∈ pending, heap.IsOccupied index
  refCount_eq_zero_iff : ∀ handle object, heap.object? handle = some object →
    (object.refCount = 0 ↔ handle.index ∈ pending)

/-- The heap is sound save for the objects of the pending slots, which have no
reference left. -/
structure SoundUpTo (pending : List UInt32) (heap : Heap σ) : Prop where
  size_le : heap.slots.size ≤ UInt32.size
  vacant_nodup : heap.vacant.Nodup
  mem_vacant_iff : ∀ index, index ∈ heap.vacant ↔ heap.IsVacant index
  liveCount_eq : heap.liveCount = heap.slots.countP fun slot => slot.object.isSome
  pending_nodup : pending.Nodup
  pending_occupied : ∀ index ∈ pending, heap.IsOccupied index
  refCount_eq_zero_iff : ∀ handle object, heap.object? handle = some object →
    (object.refCount = 0 ↔ handle.index ∈ pending)

private theorem SoundUpTo.tidy (h : SoundUpTo pending heap) : TidyUpTo pending heap where
  vacant_nodup := h.vacant_nodup
  mem_vacant_iff := h.mem_vacant_iff
  liveCount_eq := h.liveCount_eq
  pending_nodup := h.pending_nodup
  pending_occupied := h.pending_occupied
  refCount_eq_zero_iff := h.refCount_eq_zero_iff

/-- A tidy heap is sound while there is a number for each slot. The number of
slots is all that tells the two apart. -/
theorem TidyUpTo.sound (h : TidyUpTo pending heap) (hsize : heap.slots.size ≤ UInt32.size) :
    SoundUpTo pending heap where
  size_le := hsize
  vacant_nodup := h.vacant_nodup
  mem_vacant_iff := h.mem_vacant_iff
  liveCount_eq := h.liveCount_eq
  pending_nodup := h.pending_nodup
  pending_occupied := h.pending_occupied
  refCount_eq_zero_iff := h.refCount_eq_zero_iff

/-- The order in which slots wait does not matter. -/
theorem TidyUpTo.perm {other : List UInt32} (h : TidyUpTo pending heap)
    (hperm : pending.Perm other) : TidyUpTo other heap where
  vacant_nodup := h.vacant_nodup
  mem_vacant_iff := h.mem_vacant_iff
  liveCount_eq := h.liveCount_eq
  pending_nodup := hperm.nodup_iff.1 h.pending_nodup
  pending_occupied := fun index hmem => h.pending_occupied index (hperm.mem_iff.2 hmem)
  refCount_eq_zero_iff := fun handle object hobject => by
    rw [h.refCount_eq_zero_iff handle object hobject, hperm.mem_iff]

/-- A heap with an object counts at least one, so the count can be taken down
without underflow. -/
theorem TidyUpTo.liveCount_pos (h : TidyUpTo pending heap) {handle : Handle} {object : Object σ}
    (hobject : heap.object? handle = some object) : 0 < heap.liveCount := by
  obtain ⟨slot, hslot, _, hsome⟩ := object?_eq_some_iff.1 hobject
  rw [h.liveCount_eq, Array.countP_pos_iff]
  exact ⟨slot, Array.mem_of_getElem? hslot, by simp [hsome]⟩

/-- Tidiness between operations: nothing waits to go. -/
def Tidy (heap : Heap σ) : Prop := TidyUpTo [] heap

/-- Soundness between operations: nothing waits to go. -/
def Sound (heap : Heap σ) : Prop := SoundUpTo [] heap

theorem Sound.tidy (h : heap.Sound) : heap.Tidy := SoundUpTo.tidy h

/-- Between operations every object has a reference left, also in a heap with
more slots than numbers. -/
theorem Tidy.refCount_pos (h : heap.Tidy) {handle : Handle} {object : Object σ}
    (hobject : heap.object? handle = some object) : 0 < object.refCount := by
  have := h.refCount_eq_zero_iff handle object hobject
  simp only [List.not_mem_nil, iff_false] at this
  omega

theorem Sound.refCount_pos (h : heap.Sound) {handle : Handle} {object : Object σ}
    (hobject : heap.object? handle = some object) : 0 < object.refCount :=
  h.tidy.refCount_pos hobject

/-- The heap that everything starts from is sound. -/
theorem sound_empty : (Heap.empty : Heap σ).Sound := by
  constructor <;> simp [Heap.empty, IsVacant, Heap.object?]

private theorem isOccupied_of_object? {handle : Handle} {object : Object σ}
    (h : heap.object? handle = some object) : heap.IsOccupied handle.index :=
  ⟨handle, rfl, contains_iff.2 ⟨object, h⟩⟩

private theorem not_isVacant_of_object? {handle : Handle} {object : Object σ}
    (h : heap.object? handle = some object) : ¬ heap.IsVacant handle.index := by
  rintro ⟨slot, hslot, hnone⟩
  obtain ⟨slot', hslot', _, hsome⟩ := object?_eq_some_iff.1 h
  rw [hslot] at hslot'
  cases hslot'
  rw [hnone] at hsome
  cases hsome

private theorem isVacant_putObject {handle : Handle} {old : Object σ}
    (h : heap.object? handle = some old) (object : Object σ) (index : UInt32) :
    (heap.putObject handle.index object).IsVacant index ↔ heap.IsVacant index := by
  by_cases hindex : index = handle.index
  · subst hindex
    have hold := not_isVacant_of_object? h
    have hput : (heap.putObject handle.index object).object? handle = some object := by
      simp [object?_putObject h]
    have hnew := not_isVacant_of_object? hput
    simp [hold, hnew]
  · have hne : handle.index.toNat ≠ index.toNat :=
      fun heq => hindex (UInt32.toNat_inj.1 heq).symm
    simp [IsVacant, getElem?_slots_putObject, hne]

private theorem isOccupied_putObject {handle : Handle} {old : Object σ}
    (h : heap.object? handle = some old) (object : Object σ) {index : UInt32}
    (hoccupied : heap.IsOccupied index) :
    (heap.putObject handle.index object).IsOccupied index := by
  obtain ⟨other, hindex, hlive⟩ := hoccupied
  refine ⟨other, hindex, ?_⟩
  obtain ⟨found, hfound⟩ := contains_iff.1 hlive
  rw [contains, object?_putObject h]
  split <;> simp [hfound]

private theorem countP_slots_putObject {handle : Handle} {old : Object σ}
    (h : heap.object? handle = some old) (object : Object σ) :
    ((heap.putObject handle.index object).slots.countP fun slot => slot.object.isSome) =
      heap.slots.countP fun slot => slot.object.isSome := by
  obtain ⟨slot, hslot, _, hobject⟩ := object?_eq_some_iff.1 h
  obtain ⟨hlt, hget⟩ := Array.getElem?_eq_some_iff.1 hslot
  have hpos : 0 < heap.slots.countP fun slot => slot.object.isSome := by
    apply Array.countP_pos_iff.2
    exact ⟨slot, hget ▸ Array.getElem_mem hlt, by simp [hobject]⟩
  simp only [putObject, hslot, Array.setIfInBounds, hlt, ↓reduceDIte, Array.countP_set, hget,
    hobject, Option.isSome_some, ↓reduceIte]
  omega

/-- A live object changes in place. Whether it waits to go hangs on its new
count. -/
theorem TidyUpTo.putObject (h : TidyUpTo pending heap) {handle : Handle} {old : Object σ}
    (hold : heap.object? handle = some old) (hpos : 0 < old.refCount) (object : Object σ) :
    TidyUpTo (if object.refCount = 0 then handle.index :: pending else pending)
      (heap.putObject handle.index object) := by
  have hnew : handle.index ∉ pending := by
    rw [← h.refCount_eq_zero_iff handle old hold]
    omega
  have hput := object?_putObject hold object
  constructor
  · rw [vacant_putObject]
    exact h.vacant_nodup
  · intro index
    rw [vacant_putObject, isVacant_putObject hold]
    exact h.mem_vacant_iff index
  · rw [liveCount_putObject, countP_slots_putObject hold]
    exact h.liveCount_eq
  · split
    · exact List.nodup_cons.2 ⟨hnew, h.pending_nodup⟩
    · exact h.pending_nodup
  · intro index hmem
    have hself : heap.IsOccupied handle.index := isOccupied_of_object? hold
    apply isOccupied_putObject hold
    split at hmem
    · rcases List.mem_cons.1 hmem with heq | hmem
      · exact heq ▸ hself
      · exact h.pending_occupied index hmem
    · exact h.pending_occupied index hmem
  · intro other found hfound
    rw [hput] at hfound
    split at hfound
    · rename_i heq
      cases hfound
      have hindex := (Handle.tenancy_eq_iff.1 heq).1
      by_cases hzero : object.refCount = 0 <;> simp [hzero, hindex, hnew]
    · rename_i hne
      have hindex : other.index ≠ handle.index := fun hindex =>
        hne (tenancy_eq_of_object? hfound hold hindex)
      rw [h.refCount_eq_zero_iff other found hfound]
      split <;> simp [hindex]

/-- An object that changes in place leaves a tidy heap tidy as long as its count
does not drop to zero. -/
theorem Tidy.putObject (htidy : heap.Tidy) {handle : Handle} {old : Object σ}
    (hold : heap.object? handle = some old) {object : Object σ} (hpos : 0 < object.refCount) :
    (heap.putObject handle.index object).Tidy := by
  have hput := TidyUpTo.putObject htidy hold (htidy.refCount_pos hold) object
  rw [if_neg (Nat.ne_of_gt hpos)] at hput
  exact hput

/-- An object that changes in place leaves a sound heap sound as long as its
count does not drop to zero. -/
theorem Sound.putObject (hsound : heap.Sound) {handle : Handle} {old : Object σ}
    (hold : heap.object? handle = some old) {object : Object σ} (hpos : 0 < object.refCount) :
    (heap.putObject handle.index object).Sound := by
  refine (hsound.tidy.putObject hold hpos).sound ?_
  rw [size_slots_putObject]
  exact hsound.size_le

/-- A live object loses a reference. With its last one it joins those that wait
to go. -/
theorem TidyUpTo.lower (h : TidyUpTo pending heap) {handle : Handle} {object : Object σ}
    (hobject : heap.object? handle = some object) (hpos : 0 < object.refCount) :
    TidyUpTo (if object.refCount = 1 then handle.index :: pending else pending)
      (heap.putObject handle.index { object with refCount := object.refCount - 1 }) := by
  have hput := h.putObject hobject hpos { object with refCount := object.refCount - 1 }
  have hlast : object.refCount - 1 = 0 ↔ object.refCount = 1 := by omega
  simpa only [hlast] using hput

/-- References given up in turn keep the heap tidy save for what waits. Each
object joins those that wait at most once. -/
theorem TidyUpTo.surrender (handles : List Handle) (h : TidyUpTo pending heap) :
    TidyUpTo (surrender handles pending heap).1 (surrender handles pending heap).2 := by
  induction handles, pending, heap using surrender.induct with
  | case1 pending heap => exact h
  | case2 handle rest pending heap object hobject hpos ih =>
    simp only [Heap.surrender, hobject, hpos, ↓reduceIte]
    exact ih (h.lower hobject hpos)
  | case3 handle rest pending heap object hobject hzero ih =>
    simpa only [Heap.surrender, hobject, hzero, ↓reduceIte] using ih h
  | case4 handle rest pending heap hstale ih =>
    simpa only [Heap.surrender, hstale] using ih h

variable [NativeState σ]

private theorem isVacant_evict {index : UInt32} (h : heap.IsOccupied index) (other : UInt32) :
    (heap.evict index).2.IsVacant other ↔ other = index ∨ heap.IsVacant other := by
  by_cases hother : other = index
  · subst hother
    obtain ⟨handle, hindex, hlive⟩ := h
    obtain ⟨object, hobject⟩ := contains_iff.1 hlive
    obtain ⟨slot, hslot, _⟩ := object?_eq_some_iff.1 hobject
    rw [hindex] at hslot
    simp [IsVacant, getElem?_slots_evict, hslot]
  · have hne : index.toNat ≠ other.toNat := fun heq => hother (UInt32.toNat_inj.1 heq).symm
    simp [IsVacant, getElem?_slots_evict, hne, hother]

private theorem TidyUpTo.evict {index : UInt32} {rest : List UInt32}
    (h : TidyUpTo (index :: rest) heap) : TidyUpTo rest (heap.evict index).2 := by
  have hoccupied := h.pending_occupied index List.mem_cons_self
  have hvacant := isVacant_evict hoccupied
  obtain ⟨handle, hindex, hlive⟩ := hoccupied
  obtain ⟨object, hobject⟩ := contains_iff.1 hlive
  obtain ⟨slot, hslot, _, hsome⟩ := object?_eq_some_iff.1 hobject
  rw [hindex] at hslot
  obtain ⟨hlt, hget⟩ := Array.getElem?_eq_some_iff.1 hslot
  obtain ⟨hnew, hrest⟩ := List.nodup_cons.1 h.pending_nodup
  have hlist : (heap.evict index).2.vacant = index :: heap.vacant := by
    simp [Heap.evict, hslot]
  have hne : ∀ other ∈ rest, other ≠ index := fun other hmem heq => hnew (heq ▸ hmem)
  constructor
  · rw [hlist]
    refine List.nodup_cons.2 ⟨fun hmem => ?_, h.vacant_nodup⟩
    rw [h.mem_vacant_iff, ← hindex] at hmem
    exact not_isVacant_of_object? hobject hmem
  · intro other
    rw [hlist, hvacant, List.mem_cons, h.mem_vacant_iff]
  · simp [Heap.evict, Array.setIfInBounds, hlt, Array.countP_set, hget, hsome, h.liveCount_eq]
  · exact hrest
  · intro other hmem
    obtain ⟨found, hfound, hlive'⟩ := h.pending_occupied other (List.mem_cons_of_mem _ hmem)
    refine ⟨found, hfound, ?_⟩
    rw [contains, object?_evict, if_neg (hfound ▸ hne other hmem)]
    exact hlive'
  · intro other found hfound
    rw [object?_evict] at hfound
    split at hfound
    · cases hfound
    · rename_i hother
      rw [h.refCount_eq_zero_iff other found hfound]
      simp [hother]

/-- A round of a cascade keeps the heap tidy save for what waits. The slot it
empties is listed as vacant and waits no more. -/
theorem TidyUpTo.emptySlot {index : UInt32} {rest : List UInt32}
    (h : TidyUpTo (index :: rest) heap) :
    TidyUpTo (emptySlot index rest heap).1 (emptySlot index rest heap).2 :=
  h.evict.surrender _

/-- A cascade that starts from a heap that is tidy save for what waits ends with
a tidy one. -/
theorem TidyUpTo.cascade (h : TidyUpTo pending heap) : (cascade pending heap).Tidy :=
  cascade_induction (motive := fun pending middle => TidyUpTo pending middle)
    (fun _ _ _ hmiddle => hmiddle.emptySlot) (fun _ hmiddle => hmiddle) pending heap h

end NativeBridge.Heap
