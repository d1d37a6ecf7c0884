import Mathlib.Algebra.Order.BigOperators.Group.Finset
import Mathlib.Order.Bounds.Basic
import NativeBridge.Proofs.Heap.Shedding
import NativeBridge.Sample.State

namespace NativeBridge.Heap

variable {σ : Type} [NativeState σ]

/-- The handles that the object of a tenancy holds references to. -/
def ownedAt (heap : Heap σ) (tenancy : Tenancy) : List Handle :=
  (heap.occupant? tenancy).elim [] Object.owned

/-- How many references to an object the members of a set hold. -/
def heldBy (heap : Heap σ) (members : Finset Tenancy) : Tenancy → Nat :=
  ∑ member ∈ members, tally (heap.ownedAt member)

/-- A set of live objects with every object that has no more references than are
spent from outside and held by the members. -/
structure Absorbs (heap : Heap σ) (spent : Tenancy → Nat) (members : Finset Tenancy) : Prop where
  live : ∀ tenancy ∈ members, (heap.occupant? tenancy).isSome = true
  absorbs : ∀ handle object, heap.object? handle = some object →
    object.refCount ≤ spent handle.tenancy + heap.heldBy members handle.tenancy →
      handle.tenancy ∈ members

/-- A set of live objects with the root and every object that has no more
references than the members hold. -/
structure ClosedFrom (heap : Heap σ) (root : Tenancy) (members : Finset Tenancy) : Prop where
  live : ∀ tenancy ∈ members, (heap.occupant? tenancy).isSome = true
  root_mem : root ∈ members
  absorbs : ∀ handle object, heap.object? handle = some object →
    object.refCount ≤ heap.heldBy members handle.tenancy → handle.tenancy ∈ members

/-- Rounds of a cascade that take the slots to be emptied in any order, with the
slots that are left to be emptied after so many of them. -/
inductive Rounds : Nat → List UInt32 → Heap σ → List UInt32 → Heap σ → Prop
  | stop (pending : List UInt32) (heap : Heap σ) : Rounds 0 pending heap pending heap
  | round {n : Nat} {pending left : List UInt32} {heap after : Heap σ} (index : UInt32) :
      index ∈ pending →
      Rounds n (emptySlot index (pending.erase index) heap).1
        (emptySlot index (pending.erase index) heap).2 left after →
      Rounds (n + 1) pending heap left after

variable {heap start middle after : Heap σ} {spent : Tenancy → Nat} {gone members : Finset Tenancy}
  {pending left : List UInt32} {root : Handle} {object : Object σ}

private theorem heldBy_empty (heap : Heap σ) : heap.heldBy ∅ = 0 := rfl

private theorem heldBy_insert {tenancy : Tenancy} (h : tenancy ∉ members) :
    heap.heldBy (insert tenancy members) = heap.heldBy members + tally (heap.ownedAt tenancy) := by
  rw [heldBy, Finset.sum_insert h, add_comm]
  rfl

private theorem heldBy_mono (heap : Heap σ) {others : Finset Tenancy} (h : members ⊆ others)
    (tenancy : Tenancy) : heap.heldBy members tenancy ≤ heap.heldBy others tenancy := by
  simp only [heldBy, Finset.sum_apply]
  exact Finset.sum_le_sum_of_subset h

private theorem Absorbs.of_spent_le {more : Tenancy → Nat} (h : heap.Absorbs more members)
    (hle : ∀ tenancy, spent tenancy ≤ more tenancy) : heap.Absorbs spent members where
  live := h.live
  absorbs := fun handle object hobject hcount => by
    refine h.absorbs handle object hobject ?_
    have := hle handle.tenancy
    omega

/-- To free an object is to give up all its references from outside. So what
goes by freeing is a case of what goes by giving references up. -/
theorem absorbs_iff_closedFrom (hroot : heap.object? root = some object) :
    heap.Absorbs (object.refCount • tally [root]) members ↔
      heap.ClosedFrom root.tenancy members := by
  constructor
  · intro h
    refine ⟨h.live, h.absorbs root object hroot ?_, fun handle found hfound hcount => ?_⟩
    · simp [tally_singleton]
    · exact h.absorbs handle found hfound (Nat.le_trans hcount (Nat.le_add_left _ _))
  · intro h
    refine ⟨h.live, fun handle found hfound hcount => ?_⟩
    by_cases heq : handle.tenancy = root.tenancy
    · exact heq ▸ h.root_mem
    · refine h.absorbs handle found hfound ?_
      simpa [tally_singleton, heq] using hcount

/-- A cascade that is under way: the objects gone so far have given up what they
held, and no set that absorbs what was spent can do without them. -/
structure Progress (start : Heap σ) (spent : Tenancy → Nat) (gone : Finset Tenancy)
    (pending : List UInt32) (heap : Heap σ) : Prop where
  tidy : TidyUpTo pending heap
  sheds : start.Sheds gone (spent + start.heldBy gone) heap
  needed : ∀ members, start.Absorbs spent members → gone ⊆ members

/-- Before anything is given up nothing is gone, and nothing waits. -/
theorem Tidy.progress (h : heap.Tidy) : heap.Progress 0 ∅ [] heap where
  tidy := h
  sheds := .refl heap
  needed := fun _ _ => Finset.empty_subset _

private theorem Progress.perm {other : List UInt32} (h : start.Progress spent gone pending heap)
    (hperm : pending.Perm other) : start.Progress spent gone other heap :=
  ⟨h.tidy.perm hperm, h.sheds, h.needed⟩

/-- More references are given up from outside. Nothing goes by that alone;
objects only join those that wait. -/
theorem Progress.surrender (h : start.Progress spent gone pending heap) (handles : List Handle) :
    start.Progress (spent + tally handles) gone (surrender handles pending heap).1
      (surrender handles pending heap).2 where
  tidy := h.tidy.surrender handles
  sheds := by
    rw [add_right_comm]
    exact h.sheds.surrender pending
  needed := fun members habsorbs =>
    h.needed members (habsorbs.of_spent_le fun _ => Nat.le_add_right _ _)

private theorem Tidy.progress_root (h : heap.Tidy) (hroot : heap.object? root = some object) :
    heap.Progress (object.refCount • tally [root]) ∅ [root.index]
      (heap.putObject root.index { object with refCount := 0 }) where
  tidy := TidyUpTo.putObject h hroot (h.refCount_pos hroot) { object with refCount := 0 }
  sheds := by
    have hlower := (Sheds.refl heap).lower hroot object.refCount
    rw [Nat.sub_self, zero_add] at hlower
    rw [heldBy_empty, add_zero]
    exact hlower
  needed := fun _ _ => Finset.empty_subset _

/-- One round empties the slot of an object that every absorbing set has. A slot
waits only once the references already given up are enough for that. -/
theorem Progress.round {index : UInt32} {rest : List UInt32}
    (h : start.Progress spent gone (index :: rest) heap) :
    ∃ tenancy ∉ gone, tenancy.index = index ∧
      start.Progress spent (insert tenancy gone) (emptySlot index rest heap).1
        (emptySlot index rest heap).2 := by
  obtain ⟨handle, rfl, hlive⟩ := h.tidy.pending_occupied index List.mem_cons_self
  obtain ⟨object, hobject⟩ := contains_iff.1 hlive
  obtain ⟨hleft, before, hbefore, heq⟩ := h.sheds.object?_eq_some_iff.1 hobject
  have howned : (heap.evict handle.index).1 = start.ownedAt handle.tenancy := by
    obtain ⟨slot, hslot, _, hsome⟩ := object?_eq_some_iff.1 hobject
    simp [evict, hslot, hsome, ownedAt, hbefore, heq, Object.owned]
  refine ⟨handle.tenancy, hleft, rfl, h.tidy.emptySlot, ?_, fun members habsorbs => ?_⟩
  · rw [heldBy_insert hleft, ← add_assoc, ← howned]
    exact (h.sheds.evict hobject (h.tidy.liveCount_pos hobject)).surrender rest
  · have hgone := h.needed members habsorbs
    refine Finset.insert_subset (habsorbs.absorbs handle before hbefore ?_) hgone
    -- the object waits, so the references given up so far are all it had
    have hzero := (h.tidy.refCount_eq_zero_iff handle object hobject).2 List.mem_cons_self
    have hheld := heldBy_mono start hgone handle.tenancy
    rw [heq, Pi.add_apply] at hzero
    simp only at hzero
    omega

/-- Once nothing waits, those that are gone are the least absorbing set: every
other object still has a reference that was not given up. -/
theorem Progress.isLeast (h : start.Progress spent gone [] heap) :
    IsLeast {members | start.Absorbs spent members} gone := by
  refine ⟨⟨h.sheds.live, fun handle object hobject hcount => ?_⟩, h.needed⟩
  by_contra hleft
  have hafter := h.sheds.object?_eq_some_iff.2 ⟨hleft, object, hobject, rfl⟩
  have hpos := Tidy.refCount_pos h.tidy hafter
  simp only [Pi.add_apply] at hpos
  omega

/-- Rounds keep a cascade under way, whichever slots they take, and each takes
one object along. -/
theorem Progress.rounds {n : Nat} (hrounds : Rounds n pending heap left after)
    (h : start.Progress spent gone pending heap) :
    ∃ gone', gone'.card = gone.card + n ∧ start.Progress spent gone' left after := by
  induction hrounds generalizing gone with
  | stop pending heap => exact ⟨gone, rfl, h⟩
  | round index hmem _ ih =>
    obtain ⟨tenancy, hnew, -, hnext⟩ := (h.perm (List.perm_cons_erase hmem)).round
    obtain ⟨gone', hcard, hend⟩ := ih hnext
    refine ⟨gone', ?_, hend⟩
    rw [hcard, Finset.card_insert_of_notMem hnew]
    omega

private theorem exists_rounds_cascade (pending : List UInt32) (heap : Heap σ) :
    ∃ n, Rounds n pending heap [] (cascade pending heap) := by
  induction pending, heap using cascade.induct with
  | case1 heap =>
    rw [cascade_nil]
    exact ⟨0, .stop [] heap⟩
  | case2 heap index rest evicted next ih =>
    obtain ⟨n, hrounds⟩ := ih
    refine ⟨n + 1, .round index List.mem_cons_self ?_⟩
    rw [List.erase_cons_head, cascade_cons]
    exact hrounds

/-- A cascade comes to an end with nothing waiting, whatever it starts from. -/
theorem Progress.cascade (h : start.Progress spent gone pending heap) :
    ∃ gone', start.Progress spent gone' [] (cascade pending heap) := by
  obtain ⟨n, hrounds⟩ := exists_rounds_cascade pending heap
  obtain ⟨gone', -, hend⟩ := h.rounds hrounds
  exact ⟨gone', hend⟩

/-- However a cascade went on, it did not take more rounds than there are
objects to go, and it came to an end with these gone. -/
theorem Progress.settles {n : Nat} {final : Finset Tenancy}
    (h : start.Progress spent gone pending heap)
    (hleast : IsLeast {members | start.Absorbs spent members} final)
    (hrounds : Rounds n pending heap left after) :
    gone.card + n ≤ final.card ∧
      (left = [] → gone.card + n = final.card ∧
        start.Sheds final (spent + start.heldBy final) after) := by
  obtain ⟨gone', hcard, hend⟩ := h.rounds hrounds
  refine ⟨hcard ▸ Finset.card_le_card (hend.needed final hleast.1), ?_⟩
  rintro rfl
  obtain rfl := hend.isLeast.unique hleast
  exact ⟨hcard.symm, hend.sheds⟩

private theorem emptySlot_putObject_refCount (hroot : heap.object? root = some object) (count : Nat)
    (rest : List UInt32) :
    emptySlot root.index rest (heap.putObject root.index { object with refCount := count }) =
      emptySlot root.index rest heap := by
  simp only [emptySlot, evict_putObject_refCount hroot]

private theorem Rounds.from_one {n : Nat} {index : UInt32} (h : Rounds n [index] heap left after) :
    (n = 0 ∧ left = [index]) ∨ ∃ m, n = m + 1 ∧
      Rounds m (emptySlot index [] heap).1 (emptySlot index [] heap).2 left after := by
  cases h with
  | stop => exact Or.inl ⟨rfl, rfl⟩
  | @round m _ _ _ _ other hmem hrounds =>
    obtain rfl := List.mem_singleton.1 hmem
    rw [List.erase_cons_head] at hrounds
    exact Or.inr ⟨m, rfl, hrounds⟩

/-- Freeing a live object of a heap that operations lead to, or giving up its
last reference, takes along the least set with the object and every one that has
no more references than the members hold. Their slots take the next generation
and are listed as vacant once; who is left has lost the references the members
held and has others. Rounds that take the slots in another order come to the
same end. An object that has more than one reference only loses one. -/
theorem departures_least (hmade : heap.Made) (hroot : heap.object? root = some object) :
    ∃ gone : Finset Tenancy,
      IsLeast {members | heap.ClosedFrom root.tenancy members} gone ∧
      heap.Sheds gone (heap.heldBy gone) (heap.free root) ∧
      (heap.free root).vacant.Nodup ∧
      (∀ handle survivor, heap.object? handle = some survivor → handle.tenancy ∉ gone →
        heap.heldBy gone handle.tenancy < survivor.refCount) ∧
      (object.refCount = 1 → heap.release root = (true, heap.free root)) ∧
      (1 < object.refCount → heap.release root =
        (false, heap.putObject root.index { object with refCount := object.refCount - 1 })) ∧
      ∀ begun, begun = heap ∨ begun =
          heap.putObject root.index { object with refCount := object.refCount - 1 } →
        ∀ n left after, Rounds n [root.index] begun left after →
          n ≤ gone.card ∧
            (left = [] → n = gone.card ∧ heap.Sheds gone (heap.heldBy gone) after) := by
  have htidy := hmade.tidy
  have hbegin := htidy.progress_root hroot
  obtain ⟨gone, hend⟩ := hbegin.cascade
  have hleast := hend.isLeast
  simp only [absorbs_iff_closedFrom hroot] at hleast
  have hmem := hleast.1.root_mem
  -- the root is gone, so it does not matter how many references to it were given up
  have hsheds : ∀ {after}, heap.Sheds gone (object.refCount • tally [root] + heap.heldBy gone)
      after → heap.Sheds gone (heap.heldBy gone) after := by
    intro after h
    refine h.congr fun handle found _ hleft => ?_
    have hne : handle.tenancy ≠ root.tenancy := fun heq => hleft (heq ▸ hmem)
    simp [tally_singleton, hne]
  have hfree : heap.free root =
      cascade [root.index] (heap.putObject root.index { object with refCount := 0 }) := by
    rw [free_live hroot, cascade_putObject_refCount hroot]
  refine ⟨gone, hleast, ?_, ?_, ?_, ?_, ?_, ?_⟩
  · rw [hfree]
    exact hsheds hend.sheds
  · rw [hfree]
    exact hend.tidy.vacant_nodup
  · intro handle survivor hsurvivor hleft
    by_contra hcount
    exact hleft (hleast.1.absorbs handle survivor hsurvivor (Nat.le_of_not_lt hcount))
  · intro hone
    rw [release_last hroot (Nat.le_of_eq hone), cascade_putObject_refCount hroot, free_live hroot]
  · exact release_shared hroot
  · intro begun hbegun n left after hrounds
    have hfirst : emptySlot root.index [] begun = emptySlot root.index [] heap := by
      rcases hbegun with rfl | rfl
      · rfl
      · exact emptySlot_putObject_refCount hroot _ []
    rcases hrounds.from_one with ⟨rfl, rfl⟩ | ⟨m, rfl, hrest⟩
    · exact ⟨Nat.zero_le _, by simp⟩
    · obtain ⟨tenancy, hnew, -, hnext⟩ := hbegin.round
      rw [emptySlot_putObject_refCount hroot, ← hfirst] at hnext
      have hsettles := hnext.settles hend.isLeast hrest
      rw [Finset.card_insert_of_notMem hnew, Finset.card_empty, zero_add, add_comm 1 m]
        at hsettles
      exact ⟨hsettles.1, fun hleft => ⟨(hsettles.2 hleft).1, hsheds (hsettles.2 hleft).2⟩⟩

def ringLeaf : Handle := ⟨0, 0, NativeState.arrayType Sample⟩

def ringFirst : Handle := ⟨1, 0, NativeState.arrayType Sample⟩

def ringSecond : Handle := ⟨2, 0, NativeState.arrayType Sample⟩

def ringItems : OrderedArray :=
  ((OrderedArray.empty.push (.array ringLeaf)).push (.array ringLeaf)).push (.array ringSecond)

/-- Two arrays that hold each other and have no other owner. The first one holds
a third array twice, which has an owner outside of the heap as well. -/
def ringHeap : Heap Sample :=
  let leaf := Heap.empty.allocate (.array .empty)
  let first := leaf.2.allocate (.array .empty)
  let second := first.2.allocate (.array (OrderedArray.empty.push (.array ringFirst)))
  ((second.2.addRef ringLeaf).2.addRef ringLeaf).2.set (StateKind.array Sample) ringFirst ringItems

/-- Allocations and one change in place make this heap, so it is one that the
theorems speak about. -/
theorem made_ringHeap : ringHeap.Made := by
  have hleaf : (Heap.empty.allocate (.array .empty) : Handle × Heap Sample).2.Made :=
    Made.empty.place Identity.empty false (.array .empty)
  have hfirst := hleaf.place Identity.empty false (.array .empty)
  have hsecond := hfirst.place Identity.empty false
    (.array (OrderedArray.empty.push (.array ringFirst)))
  exact ((hsecond.addRef ringLeaf).addRef ringLeaf).set (StateKind.array Sample) ringFirst ringItems

/-- The ring goes as a whole, and the array it holds keeps its owner outside.
That array was held twice and loses both references. -/
theorem departures_least_ringHeap :
    ringHeap.Made ∧ ringHeap.object? ringFirst =
      some ⟨.array ringItems, Identity.empty, true, 1⟩ ∧
    ∃ gone : Finset Tenancy,
      IsLeast {members | ringHeap.ClosedFrom ringFirst.tenancy members} gone ∧ gone.card = 2 ∧
      ringHeap.Sheds gone (ringHeap.heldBy gone) (ringHeap.free ringFirst) ∧
      ringHeap.release ringFirst = (true, ringHeap.free ringFirst) ∧
      (ringHeap.free ringFirst).refCount? ringLeaf = some 1 := by
  have hroot : ringHeap.object? ringFirst =
      some ⟨.array ringItems, Identity.empty, true, 1⟩ := rfl
  obtain ⟨gone, hleast, hsheds, -, -, hrelease, -⟩ := departures_least made_ringHeap hroot
  have hbefore : ringHeap.liveCount = 3 := by decide
  have hafter : (ringHeap.free ringFirst).liveCount = 1 := by decide +kernel
  have hcard := hsheds.liveCount
  exact ⟨made_ringHeap, hroot, gone, hleast, by omega, hsheds, hrelease rfl, by decide +kernel⟩

end NativeBridge.Heap
