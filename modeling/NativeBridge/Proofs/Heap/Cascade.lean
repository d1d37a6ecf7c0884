import NativeBridge.Proofs.Heap.Owners

namespace NativeBridge.Heap

variable {σ : Type} {heap : Heap σ}

/-- Objects have gone and counts have gone down, but nothing else has
changed. -/
def ShrinksTo (heap after : Heap σ) : Prop :=
  ∀ handle object, after.object? handle = some object →
    ∃ count, object.refCount ≤ count ∧
      heap.object? handle = some { object with refCount := count }

theorem ShrinksTo.refl (heap : Heap σ) : heap.ShrinksTo heap :=
  fun _ object h => ⟨object.refCount, Nat.le_refl _, h⟩

theorem ShrinksTo.trans {middle after : Heap σ} (first : heap.ShrinksTo middle)
    (second : middle.ShrinksTo after) : heap.ShrinksTo after := by
  intro handle object h
  obtain ⟨count, hle, hmiddle⟩ := second handle object h
  obtain ⟨count', hle', hheap⟩ := first handle _ hmiddle
  exact ⟨count', Nat.le_trans hle hle', hheap⟩

private theorem ShrinksTo.contains {after : Heap σ} (h : heap.ShrinksTo after) {handle : Handle}
    (hlive : after.contains handle = true) : heap.contains handle = true := by
  obtain ⟨object, hobject⟩ := contains_iff.1 hlive
  obtain ⟨_, _, hheap⟩ := h handle object hobject
  exact contains_iff.2 ⟨_, hheap⟩

/-- A heap shrinks when the count of a live object goes down in place. -/
theorem shrinksTo_putObject {handle : Handle} {object : Object σ} {count : Nat}
    (h : heap.object? handle = some object) (hle : count ≤ object.refCount) :
    heap.ShrinksTo (heap.putObject handle.index { object with refCount := count }) := by
  intro other found hfound
  rw [object?_putObject h] at hfound
  split at hfound
  · rename_i heq
    cases hfound
    exact ⟨object.refCount, hle, (object?_congr heq).trans h⟩
  · exact ⟨found.refCount, Nat.le_refl _, hfound⟩

private theorem shrinksTo_surrender (handles : List Handle) (pending : List UInt32)
    (heap : Heap σ) : heap.ShrinksTo (surrender handles pending heap).2 := by
  induction handles, pending, heap using surrender.induct with
  | case1 pending heap => exact .refl heap
  | case2 handle rest pending heap object hobject hpos ih =>
    simp only [surrender, hobject, hpos, ↓reduceIte]
    exact (shrinksTo_putObject hobject (Nat.sub_le _ _)).trans ih
  | case3 handle rest pending heap object hobject hzero ih =>
    simpa only [surrender, hobject, hzero, ↓reduceIte] using ih
  | case4 handle rest pending heap hstale ih =>
    simpa only [surrender, hstale] using ih

/-- Giving references up does not make an object go by itself. It only joins
those that wait to go. -/
theorem contains_surrender (handles : List Handle) (pending : List UInt32) (heap : Heap σ)
    (other : Handle) :
    (surrender handles pending heap).2.contains other = heap.contains other := by
  induction handles, pending, heap using surrender.induct with
  | case1 pending heap => rfl
  | case2 handle rest pending heap object hobject hpos ih =>
    simp only [surrender, hobject, hpos, ↓reduceIte]
    rw [ih, Heap.contains, object?_putObject hobject]
    split
    · rename_i heq
      simp [Heap.contains, object?_congr heq, hobject]
    · rfl
  | case3 handle rest pending heap object hobject hzero ih =>
    simpa only [surrender, hobject, hzero, ↓reduceIte] using ih
  | case4 handle rest pending heap hstale ih =>
    simpa only [surrender, hstale] using ih

/-- Objects that wait to go have lost all their references. -/
def Doomed (pending : List UInt32) (heap : Heap σ) : Prop :=
  ∀ handle object, heap.object? handle = some object → handle.index ∈ pending →
    object.refCount = 0

private theorem Doomed.shrink {pending : List UInt32} {after : Heap σ} (h : Doomed pending heap)
    (hshrinks : heap.ShrinksTo after) : Doomed pending after := by
  intro handle object hobject hmem
  obtain ⟨count, hle, hheap⟩ := hshrinks handle object hobject
  have hzero := h handle _ hheap hmem
  simp only at hzero
  omega

private theorem Doomed.surrender {handles : List Handle} {pending : List UInt32}
    (h : Doomed pending heap) :
    Doomed (surrender handles pending heap).1 (surrender handles pending heap).2 := by
  induction handles, pending, heap using surrender.induct with
  | case1 pending heap => exact h
  | case2 handle rest pending heap object hobject hpos ih =>
    simp only [Heap.surrender, hobject, hpos, ↓reduceIte]
    apply ih
    have hlower := h.shrink (shrinksTo_putObject hobject (Nat.sub_le _ 1))
    by_cases hlast : object.refCount = 1
    · simp only [hlast, ↓reduceIte] at hlower ⊢
      intro other found hfound hmem
      rcases List.mem_cons.1 hmem with hindex | hmem
      · have hself : (heap.putObject handle.index
            { object with refCount := 1 - 1 }).object? handle =
              some { object with refCount := 0 } := by
          rw [object?_putObject hobject]
          simp
        rw [object?_congr (tenancy_eq_of_object? hfound hself hindex), hself] at hfound
        cases hfound
        rfl
      · exact hlower other found hfound hmem
    · simpa only [hlast, ↓reduceIte] using hlower
  | case3 handle rest pending heap object hobject hzero ih =>
    simpa only [Heap.surrender, hobject, hzero, ↓reduceIte] using ih h
  | case4 handle rest pending heap hstale ih =>
    simpa only [Heap.surrender, hstale] using ih h

section

variable [NativeState σ] {owners : Tenancy → Nat}

private theorem shrinksTo_evict (heap : Heap σ) (index : UInt32) :
    heap.ShrinksTo (heap.evict index).2 := by
  intro handle object h
  rw [object?_evict] at h
  split at h
  · cases h
  · exact ⟨object.refCount, Nat.le_refl _, h⟩

/-- One round of a cascade: a slot is emptied and the references of its object
are given up. -/
def emptySlot (index : UInt32) (rest : List UInt32) (heap : Heap σ) : List UInt32 × Heap σ :=
  surrender (heap.evict index).1 rest (heap.evict index).2

/-- A cascade goes round by round. The references that a round gives up may add
to what waits. -/
theorem cascade_cons (index : UInt32) (rest : List UInt32) (heap : Heap σ) :
    cascade (index :: rest) heap =
      cascade (emptySlot index rest heap).1 (emptySlot index rest heap).2 := by
  rw [cascade]
  rfl

theorem cascade_nil (heap : Heap σ) : cascade [] heap = heap := by
  rw [cascade]

private theorem shrinksTo_emptySlot (index : UInt32) (rest : List UInt32) (heap : Heap σ) :
    heap.ShrinksTo (emptySlot index rest heap).2 :=
  (shrinksTo_evict heap index).trans (shrinksTo_surrender _ _ _)

private theorem contains_emptySlot (index : UInt32) (rest : List UInt32) (heap : Heap σ)
    (other : Handle) :
    (emptySlot index rest heap).2.contains other =
      (decide (other.index ≠ index) && heap.contains other) := by
  unfold emptySlot
  rw [contains_surrender, contains, object?_evict]
  by_cases h : other.index = index <;> simp [h, contains]

/-- What holds of a heap and carries over from round to round holds at the end.
What is known of cascades below goes by this. -/
theorem cascade_induction {motive : List UInt32 → Heap σ → Prop} {result : Heap σ → Prop}
    (round : ∀ index rest heap, motive (index :: rest) heap →
      motive (emptySlot index rest heap).1 (emptySlot index rest heap).2)
    (finish : ∀ heap, motive [] heap → result heap) (pending : List UInt32) (heap : Heap σ)
    (start : motive pending heap) : result (cascade pending heap) := by
  induction pending, heap using cascade.induct with
  | case1 heap =>
    rw [cascade_nil]
    exact finish heap start
  | case2 heap index rest evicted next ih =>
    rw [cascade_cons]
    exact ih (round index rest heap start)

/-- A cascade only takes objects and counts away, however long it goes on. What
is found after it was found before it. -/
theorem shrinksTo_cascade (pending : List UInt32) (heap : Heap σ) :
    heap.ShrinksTo (cascade pending heap) :=
  cascade_induction (motive := fun _ middle => heap.ShrinksTo middle)
    (fun index rest middle h => h.trans (shrinksTo_emptySlot index rest middle))
    (fun _ h => h) pending heap (.refl heap)

/-- Handles that are given up move from the owners outside of the heap to
nobody. The handles still to be given up count as such owners, which makes
balance an invariant of the whole cascade. -/
theorem BalancedFor.surrender {handles : List Handle} (pending : List UInt32)
    (h : heap.BalancedFor (owners + tally handles)) :
    (surrender handles pending heap).2.BalancedFor owners := by
  induction handles, pending, heap using surrender.induct with
  | case1 pending heap => simpa only [Heap.surrender, tally_nil, add_zero] using h
  | case2 handle rest pending heap object hobject hpos ih =>
    rw [tally_cons, ← add_assoc] at h
    simp only [Heap.surrender, hobject, hpos, ↓reduceIte]
    exact ih (h.lower hobject)
  | case3 handle rest pending heap object hobject hzero ih =>
    -- a live object whose handle is still to be given up has a reference left
    have hcount := h handle object hobject
    simp only [Pi.add_apply, tally_cons handle rest, tally_singleton, ↓reduceIte] at hcount
    omega
  | case4 handle rest pending heap hstale ih =>
    rw [tally_cons, ← add_assoc] at h
    simp only [Heap.surrender, hstale]
    exact ih (h.drop_stale hstale)

private theorem BalancedOff.emptySlot {index : UInt32} (rest : List UInt32)
    (h : BalancedOff index heap owners) :
    (emptySlot index rest heap).2.BalancedFor owners :=
  h.evict.surrender rest

/-- A cascade ends balanced even if the object it starts from was not. That
object goes in the first round. -/
theorem BalancedOff.cascade {index : UInt32} (rest : List UInt32)
    (h : BalancedOff index heap owners) :
    (cascade (index :: rest) heap).BalancedFor owners := by
  rw [cascade_cons]
  exact cascade_induction (motive := fun _ middle => middle.BalancedFor owners)
    (fun index rest middle hmiddle => (hmiddle.off index).emptySlot rest) (fun _ h => h) _ _
    (h.emptySlot rest)

private theorem held_surrender (handles : List Handle) (pending : List UInt32) (heap : Heap σ) :
    (Heap.surrender handles pending heap).2.held = heap.held := by
  induction handles, pending, heap using surrender.induct with
  | case1 pending heap => rfl
  | case2 handle rest pending heap object hobject hpos ih =>
    simp only [Heap.surrender, hobject, hpos, ↓reduceIte]
    exact ih.trans (held_putObject_refCount hobject _)
  | case3 handle rest pending heap object hobject hzero ih =>
    simpa only [Heap.surrender, hobject, hzero, ↓reduceIte] using ih
  | case4 handle rest pending heap hstale ih =>
    simpa only [Heap.surrender, hstale] using ih

private theorem held_emptySlot_le (index : UInt32) (rest : List UInt32) (heap : Heap σ)
    (tenancy : Tenancy) :
    (Heap.emptySlot index rest heap).2.held tenancy ≤ heap.held tenancy := by
  have h := congrFun (held_evict heap index) tenancy
  rw [Heap.emptySlot, held_surrender]
  simp only [Pi.add_apply] at h
  omega

private theorem held_cascade_le (pending : List UInt32) (heap : Heap σ) (tenancy : Tenancy) :
    (Heap.cascade pending heap).held tenancy ≤ heap.held tenancy :=
  cascade_induction (motive := fun _ middle => middle.held tenancy ≤ heap.held tenancy)
    (fun index rest middle h => Nat.le_trans (held_emptySlot_le index rest middle tenancy) h)
    (fun _ h => h) pending heap (Nat.le_refl _)

private theorem Doomed.emptySlot {index : UInt32} {rest : List UInt32} (h : Doomed rest heap) :
    Doomed (emptySlot index rest heap).1 (emptySlot index rest heap).2 :=
  (h.shrink (shrinksTo_evict heap index)).surrender

/-- What goes in a cascade that started elsewhere had no owner, neither outside
of the heap nor among what is left in it. -/
theorem unowned_of_cascade {pending : List UInt32} (hbalanced : heap.BalancedFor owners)
    (hdoomed : Doomed pending heap) {handle : Handle} (hlive : heap.contains handle = true)
    (hgone : (Heap.cascade pending heap).contains handle = false) :
    owners handle.tenancy = 0 ∧ (Heap.cascade pending heap).held handle.tenancy = 0 := by
  induction pending, heap using cascade.induct with
  | case1 heap =>
    rw [cascade_nil, hlive] at hgone
    cases hgone
  | case2 heap index rest evicted next ih =>
    obtain ⟨object, hobject⟩ := contains_iff.1 hlive
    by_cases hindex : handle.index = index
    · have hcount := hbalanced handle object hobject
      have hzero := hdoomed handle object hobject (by simp [hindex])
      have hle := held_cascade_le (index :: rest) heap handle.tenancy
      omega
    · have hrest : Doomed rest heap := fun other found hfound hmem =>
        hdoomed other found hfound (List.mem_cons_of_mem _ hmem)
      rw [cascade_cons] at hgone ⊢
      refine ih ((hbalanced.off index).emptySlot rest) hrest.emptySlot ?_ hgone
      change (Heap.emptySlot index rest heap).2.contains handle = true
      rw [contains_emptySlot]
      simp [hindex, hlive]

/-- A cascade that starts from one object spares whatever still has an owner.
Nothing is said of the object itself, which may go with its owners left. -/
theorem unowned_of_cascade_from {index : UInt32} (hbalanced : BalancedOff index heap owners)
    {handle : Handle} (hlive : heap.contains handle = true) (hne : handle.index ≠ index)
    (hgone : (Heap.cascade [index] heap).contains handle = false) :
    owners handle.tenancy = 0 ∧ (Heap.cascade [index] heap).held handle.tenancy = 0 := by
  have hdoomed : Doomed [] heap := fun _ _ _ hmem => by cases hmem
  rw [cascade_cons] at hgone ⊢
  refine unowned_of_cascade (hbalanced.emptySlot []) hdoomed.emptySlot ?_ hgone
  rw [contains_emptySlot]
  simp [hne, hlive]

/-- The object that a cascade starts from is gone at its end, and its slot is
not filled again on the way. -/
theorem contains_cascade_self (index : UInt32) (rest : List UInt32) (heap : Heap σ)
    {handle : Handle} (h : handle.index = index) :
    (Heap.cascade (index :: rest) heap).contains handle = false := by
  have hempty : (Heap.emptySlot index rest heap).2.contains handle = false := by
    rw [contains_emptySlot]
    simp [h]
  rw [cascade_cons]
  by_contra hlive
  rw [(shrinksTo_cascade _ _).contains (by simpa using hlive)] at hempty
  cases hempty

end

end NativeBridge.Heap
