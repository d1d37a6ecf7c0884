import NativeBridge.Proofs.Heap.Reached

namespace NativeBridge.Heap

variable {σ : Type} [NativeState σ] {start heap : Heap σ} {extra : List Handle}

/-- A heap that differs from an earlier one by the extra references. Some may be
to objects that were not there before. -/
structure Adds (start : Heap σ) (extra : List Handle) (heap : Heap σ) : Prop where
  sound : heap.Sound
  live : ∀ handle ∈ extra, heap.contains handle = true
  kept : ∀ handle object, start.object? handle = some object →
    heap.object? handle =
      some { object with refCount := object.refCount + tally extra handle.tenancy }
  added : ∀ handle object, heap.object? handle = some object → start.object? handle = none →
    object.refCount = tally extra handle.tenancy ∧ object.owned = []

private theorem Adds.refl (h : heap.Sound) : heap.Adds [] heap := by
  refine ⟨h, ?_, ?_, ?_⟩
  · intro handle hmem
    cases hmem
  · intro handle object hobject
    simpa using hobject
  · intro handle object hobject hnone
    rw [hobject] at hnone
    cases hnone

/-- The order in which references were added does not matter, so any of them may
be given up first. -/
theorem Adds.perm {other : List Handle} (h : start.Adds extra heap) (hperm : extra.Perm other) :
    start.Adds other heap := by
  refine ⟨h.sound, fun handle hmem => h.live handle (hperm.mem_iff.2 hmem), ?_, ?_⟩
  · rw [← tally_perm hperm]
    exact h.kept
  · rw [← tally_perm hperm]
    exact h.added

/-- Without extra references nothing has changed: every handle finds the object
it found before, under the same count. -/
theorem Adds.object?_eq (h : start.Adds [] heap) (handle : Handle) :
    heap.object? handle = start.object? handle := by
  cases hstart : start.object? handle with
  | some object => simpa using h.kept handle object hstart
  | none =>
    cases hheap : heap.object? handle with
    | none => rfl
    | some object =>
      have hzero := (h.added handle object hheap hstart).1
      have hpos := h.sound.refCount_pos hheap
      simp only [tally_nil, Pi.zero_apply] at hzero
      omega

/-- A live object that gets one more reference, be it an old object or a new
one. -/
theorem Adds.raise {handle : Handle} {object : Object σ} (h : start.Adds extra heap)
    (hobject : heap.object? handle = some object) :
    start.Adds (handle :: extra)
      (heap.putObject handle.index { object with refCount := object.refCount + 1 }) := by
  have hput := object?_putObject hobject { object with refCount := object.refCount + 1 }
  refine ⟨h.sound.putObject hobject (Nat.succ_pos _), ?_, ?_, ?_⟩
  · intro other hmem
    rw [contains, hput]
    split
    · rfl
    · rename_i hne
      rcases List.mem_cons.1 hmem with heq | hmem
      · exact absurd (congrArg Handle.tenancy heq) hne
      · exact h.live other hmem
  · intro other found hfound
    rw [hput, tally_cons, Pi.add_apply, tally_singleton]
    split
    · rename_i heq
      have hkept := h.kept other found hfound
      rw [object?_congr heq, hobject] at hkept
      cases hkept
      rfl
    · exact h.kept other found hfound
  · intro other found hfound hnone
    rw [hput] at hfound
    rw [tally_cons, Pi.add_apply, tally_singleton]
    split at hfound
    · rename_i heq
      cases hfound
      have hadded := h.added handle object hobject ((object?_congr heq).symm.trans hnone)
      simp only [heq, ↓reduceIte, hadded.1, Object.owned] at hadded ⊢
      exact ⟨trivial, hadded.2⟩
    · rename_i hne
      simpa [hne] using h.added other found hfound hnone

private theorem Adds.fill {handle : Handle} {object : Object σ} {after : Heap σ}
    (h : start.Adds extra heap) (hfills : heap.Fills handle object after)
    (hone : object.refCount = 1) (hleaf : object.owned = []) :
    start.Adds (handle :: extra) after := by
  have hstale : heap.object? handle = none := hfills.object?_eq_none rfl
  have hnew : tally extra handle.tenancy = 0 := by
    rw [tally_eq_zero_iff]
    intro other hmem heq
    have hlive := h.live other hmem
    rw [contains, object?_congr heq, hstale] at hlive
    cases hlive
  have hbefore : start.object? handle = none := by
    cases hstart : start.object? handle with
    | none => rfl
    | some found =>
      rw [h.kept handle found hstart] at hstale
      cases hstale
  refine ⟨hfills.sound h.sound (by omega), ?_, ?_, ?_⟩
  · intro other hmem
    rw [contains, hfills.object?_eq]
    split
    · rfl
    · rename_i hne
      rcases List.mem_cons.1 hmem with heq | hmem
      · exact absurd (congrArg Handle.tenancy heq) hne
      · exact h.live other hmem
  · intro other found hfound
    rw [hfills.object?_eq, tally_cons, Pi.add_apply, tally_singleton]
    split
    · rename_i heq
      rw [object?_congr heq, hbefore] at hfound
      cases hfound
    · exact h.kept other found hfound
  · intro other found hfound hnone
    rw [hfills.object?_eq] at hfound
    rw [tally_cons, Pi.add_apply, tally_singleton]
    split at hfound
    · rename_i heq
      cases hfound
      simp [heq, hnew, hone, hleaf]
    · rename_i hne
      simpa [hne] using h.added other found hfound hnone

/-- An object that holds nothing takes nothing along when it goes. Only the
handles of its own slot find something else afterwards. -/
theorem object?_release_leaf {handle : Handle} {object : Object σ}
    (hobject : heap.object? handle = some object) (hlast : object.refCount ≤ 1)
    (hleaf : object.owned = []) (other : Handle) :
    (heap.release handle).2.object? other =
      if other.index = handle.index then none else heap.object? other := by
  obtain ⟨slot, hslot, _, hsome⟩ := object?_eq_some_iff.1 hobject
  have hnothing : (heap.evict handle.index).1 = [] := by
    simp [evict, hslot, hsome, hleaf]
  rw [release_last hobject hlast, cascade_putObject_refCount hobject, cascade_cons, emptySlot,
    hnothing, surrender, cascade_nil]
  exact object?_evict heap handle.index other

private theorem Adds.release_last {handle : Handle} {object : Object σ} (hstart : start.Sound)
    (h : start.Adds (handle :: extra) heap) (hobject : heap.object? handle = some object)
    (hlast : object.refCount ≤ 1) : start.Adds extra (heap.release handle).2 := by
  have hbefore : start.object? handle = none := by
    cases hfound : start.object? handle with
    | none => rfl
    | some found =>
      have hpos := hstart.refCount_pos hfound
      rw [h.kept handle found hfound, tally_cons_self] at hobject
      cases hobject
      simp only at hlast
      omega
  obtain ⟨hcount, hleaf⟩ := h.added handle object hobject hbefore
  have hgone : tally extra handle.tenancy = 0 := by
    rw [tally_cons_self] at hcount
    omega
  have hrelease := object?_release_leaf hobject hlast hleaf
  refine ⟨h.sound.release handle, ?_, ?_, ?_⟩
  · intro other hmem
    have hlive := h.live other (List.mem_cons_of_mem _ hmem)
    obtain ⟨found, hfound⟩ := contains_iff.1 hlive
    have hindex : other.index ≠ handle.index := fun hindex =>
      tally_eq_zero_iff.1 hgone other hmem (tenancy_eq_of_object? hfound hobject hindex)
    rw [contains, hrelease, if_neg hindex]
    exact hlive
  · intro other found hfound
    have hkept := h.kept other found hfound
    have hindex : other.index ≠ handle.index := by
      intro hindex
      rw [object?_congr (tenancy_eq_of_object? hkept hobject hindex), hbefore] at hfound
      cases hfound
    rw [hrelease, if_neg hindex, hkept,
      tally_cons_of_ne fun heq => hindex (Handle.tenancy_eq_iff.1 heq).1]
  · intro other found hfound hnone
    rw [hrelease] at hfound
    split at hfound
    · cases hfound
    · rename_i hindex
      rw [← tally_cons_of_ne fun heq => hindex (Handle.tenancy_eq_iff.1 heq).1]
      exact h.added other found hfound hnone

private theorem Adds.release_shared {handle : Handle} {object : Object σ}
    (h : start.Adds (handle :: extra) heap) (hobject : heap.object? handle = some object)
    (hshared : 1 < object.refCount) : start.Adds extra (heap.release handle).2 := by
  rw [Heap.release_shared hobject hshared]
  have hput := object?_putObject hobject { object with refCount := object.refCount - 1 }
  refine ⟨h.sound.putObject hobject (Nat.sub_pos_of_lt hshared), ?_, ?_, ?_⟩
  · intro other hmem
    have hlive := h.live other (List.mem_cons_of_mem _ hmem)
    rw [contains, hput]
    split
    · rfl
    · exact hlive
  · intro other found hfound
    have hkept := h.kept other found hfound
    rw [hput]
    split
    · rename_i heq
      rw [object?_congr heq, hobject, heq, tally_cons_self] at hkept
      cases hkept
      simp only [heq, Option.some.injEq, Object.mk.injEq, true_and]
      omega
    · rename_i hne
      rw [hkept, tally_cons_of_ne hne]
  · intro other found hfound hnone
    rw [hput] at hfound
    split at hfound
    · rename_i heq
      cases hfound
      obtain ⟨hcount, hleaf⟩ :=
        h.added handle object hobject ((object?_congr heq).symm.trans hnone)
      rw [tally_cons_self] at hcount
      refine ⟨?_, hleaf⟩
      simp only [heq, hcount]
      omega
    · rename_i hne
      rw [← tally_cons_of_ne hne]
      exact h.added other found hfound hnone

/-- One added reference is given up again. If it was to a new object and its
last one, the object goes and nothing with it. -/
theorem Adds.release {handle : Handle} (hstart : start.Sound)
    (h : start.Adds (handle :: extra) heap) : start.Adds extra (heap.release handle).2 := by
  obtain ⟨object, hobject⟩ := contains_iff.1 (h.live handle List.mem_cons_self)
  by_cases hlast : object.refCount ≤ 1
  · exact h.release_last hstart hobject hlast
  · exact h.release_shared hobject (by omega)

/-- Added references are given up in whatever order; once all of them are, the
heap is what it was. -/
theorem Adds.releaseAll {handles : List Handle} (hstart : start.Sound)
    (h : start.Adds (handles ++ extra) heap) : start.Adds extra (heap.releaseAll handles) := by
  induction handles generalizing heap with
  | nil => exact h
  | cons handle rest ih => exact ih (h.release hstart)

/-- A heap after states that hold nothing were stored, with their handles, the
newest first. -/
inductive StoresFree (start : Heap σ) : List Handle → Heap σ → Prop
  | nil : start.StoresFree [] start
  | store {handles : List Handle} {heap : Heap σ} (classId : Identity) (owning : Bool)
      (state : State σ) : start.StoresFree handles heap → heap.HasRoom →
    (Object.fresh classId owning state).owned = [] →
    start.StoresFree ((heap.place classId owning state).1 :: handles)
      (heap.place classId owning state).2

/-- Each state that was stored adds one reference, the one to itself. No older
object is referred to by it. -/
theorem StoresFree.adds {handles : List Handle} (hstart : start.Sound)
    (h : start.StoresFree handles heap) : start.Adds handles heap := by
  induction h with
  | nil => exact .refl hstart
  | store classId owning state _ hroom hleaf ih =>
    exact ih.fill (fills_place ih.sound.tidy hroom classId owning state) rfl hleaf

private theorem countP_eq_of_any_eq {α β : Type} {p : α → Bool} {q : β → Bool} {first : List α}
    {second : List β} (h : ∀ i : Nat, first[i]?.any p = second[i]?.any q) :
    first.countP p = second.countP q := by
  induction first generalizing second with
  | nil =>
    symm
    rw [List.countP_nil, List.countP_eq_zero]
    intro b hmem
    obtain ⟨i, hlt, hget⟩ := List.getElem_of_mem hmem
    have hi := h i
    simp only [List.getElem?_nil, Option.any_none, List.getElem?_eq_getElem hlt, hget,
      Option.any_some] at hi
    simp [← hi]
  | cons a rest ih =>
    have hhead := h 0
    have htail : rest.countP p = second.tail.countP q := by
      apply ih
      intro i
      have hi := h (i + 1)
      rw [List.getElem?_cons_succ] at hi
      rw [hi, List.getElem?_tail]
    cases second with
    | nil =>
      simp only [List.getElem?_cons_zero, List.getElem?_nil, Option.any_some,
        Option.any_none] at hhead
      simpa [List.countP_cons, hhead] using htail
    | cons b others =>
      simp only [List.getElem?_cons_zero, Option.any_some] at hhead
      simp only [List.countP_cons, hhead, htail, List.tail_cons]

private theorem any_isSome_slots_iff {i : Nat} (hi : i < UInt32.size) :
    (heap.slots[i]?.any fun slot => slot.object.isSome) = true ↔
      ∃ handle : Handle, handle.index.toNat = i ∧ heap.contains handle = true := by
  constructor
  · intro h
    obtain ⟨slot, hslot, hsome⟩ := (Option.any_eq_true _ _).1 h
    obtain ⟨object, hobject⟩ := Option.isSome_iff_exists.1 hsome
    have hindex : i.toUInt32.toNat = i := UInt32.toNat_ofNat_of_lt' hi
    refine ⟨⟨i.toUInt32, slot.generation, NativeState.arrayType σ⟩, hindex, ?_⟩
    refine contains_iff.2 ⟨object, object?_eq_some_iff.2 ⟨slot, ?_, rfl, hobject⟩⟩
    rw [hindex]
    exact hslot
  · rintro ⟨handle, rfl, hlive⟩
    obtain ⟨object, hobject⟩ := contains_iff.1 hlive
    obtain ⟨slot, hslot, _, hsome⟩ := object?_eq_some_iff.1 hobject
    simp [hslot, hsome]

/-- Sound heaps with the same live objects count the same number of them. The
generations of vacant slots may differ. -/
theorem Sound.liveCount_eq_of_object?_eq (hstart : start.Sound) (hheap : heap.Sound)
    (h : ∀ handle, heap.object? handle = start.object? handle) :
    heap.liveCount = start.liveCount := by
  rw [hheap.liveCount_eq, hstart.liveCount_eq, ← Array.countP_toList, ← Array.countP_toList]
  apply countP_eq_of_any_eq
  intro i
  simp only [Array.getElem?_toList]
  by_cases hi : i < UInt32.size
  · rw [Bool.eq_iff_iff, any_isSome_slots_iff hi, any_isSome_slots_iff hi]
    simp only [contains, h]
  · have hle := hheap.size_le
    have hle' := hstart.size_le
    simp [Array.getElem?_eq_none (show heap.slots.size ≤ i by omega),
      Array.getElem?_eq_none (show start.slots.size ≤ i by omega)]

/-- Without extra references as many objects are counted as before. -/
theorem Adds.liveCount_eq (h : start.Adds [] heap) (hstart : start.Sound) :
    heap.liveCount = start.liveCount :=
  hstart.liveCount_eq_of_object?_eq h.sound h.object?_eq

end NativeBridge.Heap
