import Mathlib.Data.List.Nodup
import NativeBridge.Proofs.Heap.Cells
import NativeBridge.Proofs.Heap.History
import NativeBridge.Sample.State

namespace NativeBridge

variable {σ : Type}

/-- An operation on a heap, or a change in place of the state a handle refers
to. -/
inductive Use (σ : Type) : Type 1 where
  | perform (operation : Heap.Operation σ)
  | change {α : Type} (kind : StateKind σ α) (handle : Handle) (a : α)

/-- The lists and numbers of cells fit the states in them. -/
structure Cells.WellKept (cells : Cells σ) : Prop where
  vacant_nodup : cells.vacant.Nodup
  mem_vacant_iff : ∀ i : Nat, i ∈ cells.vacant.map UInt32.toNat ↔
    ∃ cell, cells.slots[i]? = some cell ∧ cell.state = none
  live_eq : cells.live = cells.slots.countP fun cell => cell.state.isSome
  size_eq : cells.slots.size = cells.live + cells.vacant.length
  refCount_pos : ∀ (i : Nat) (cell : Cell σ), cells.slots[i]? = some cell →
    cell.state.isSome = true → 1 ≤ cell.refCount
  unused : ∀ (i : Nat) (cell : Cell σ), cells.slots[i]? = some cell → cell.state = none →
    cell.refCount = 0 ∧ cell.refs = none

/-- The outcome without its answer. -/
def Outcome.forget {β : Type} (outcome : Outcome β σ) : Outcome Unit σ :=
  outcome.map (Except.map fun after => ((), after.2))

section

variable [NativeState σ]

def Heap.use (heap : Heap σ) : Use σ → Heap σ
  | .perform operation => heap.perform operation
  | .change kind handle a => heap.set kind handle a

/-- The heap that uses make of the empty one. The last one is listed first. -/
def Heap.afterUses : List (Use σ) → Heap σ
  | [] => Heap.empty
  | use :: earlier => (afterUses earlier).use use

def Cells.use (cells : Cells σ) : Use σ → Outcome Unit σ
  | .perform (.place classId owning state) =>
    Outcome.forget (some (cells.insert classId owning state))
  | .perform (.addRef handle) => some (.ok ((), (cells.addRef handle).2))
  | .perform (.release handle) => Outcome.forget (cells.release handle)
  | .perform (.free handle) => cells.free handle
  | .change kind handle a => some (.ok ((), cells.set kind handle a))

/-- The cells that uses make of none, the last one listed first. After a fault
nothing is done any more. -/
def Cells.afterUses : List (Use σ) → Outcome Unit σ
  | [] => some (.ok ((), Cells.empty))
  | use :: earlier =>
    match afterUses earlier with
    | some (.ok ((), cells)) => cells.use use
    | stopped => stopped

private theorem Outcome.Agrees.forget {β : Type} {outcome : Outcome β σ} {expected : β × Heap σ}
    (h : outcome.Agrees expected) : outcome.forget.Agrees ((), expected.2) := by
  obtain ⟨cells, rfl, hheap, hclean⟩ := h
  exact ⟨cells, rfl, hheap, hclean⟩

private theorem Heap.made_afterUses (uses : List (Use σ)) : (Heap.afterUses uses).Made := by
  induction uses with
  | nil => exact .empty
  | cons use earlier ih =>
    cases use with
    | perform operation =>
      cases operation with
      | place classId owning state => exact ih.place classId owning state
      | addRef handle => exact ih.addRef handle
      | release handle => exact ih.release handle
      | free handle => exact ih.free handle
    | change kind handle a => exact ih.set kind handle a

/-- One use does to clean cells what it does to the heap, without a fault. This
is the step of the run below. -/
theorem Cells.Clean.use {cells : Cells σ} (h : cells.Clean) (htidy : cells.heap.Tidy)
    (use : Use σ) : Outcome.Agrees (cells.use use) ((), cells.heap.use use) := by
  cases use with
  | perform operation =>
    cases operation with
    | place classId owning state =>
      have hvacant : ∀ index ∈ cells.vacant, cells.heap.IsVacant index :=
        fun index hmem => (htidy.mem_vacant_iff index).1 hmem
      exact (h.insert hvacant classId owning state).forget
    | addRef handle => exact ⟨_, rfl, (h.addRef handle).2⟩
    | release handle => exact (h.release htidy handle).forget
    | free handle => exact h.free htidy handle
  | change kind handle a => exact ⟨_, rfl, h.set kind handle a⟩

/-- The heap, laid out, does as the heap does, whatever handles it is used
with. -/
theorem Cells.afterUses_agrees (uses : List (Use σ)) :
    Outcome.Agrees (Cells.afterUses uses) ((), Heap.afterUses uses) := by
  induction uses with
  | nil =>
    refine ⟨Cells.empty, rfl, congrArg (Heap.mk · [] 0) Array.map_empty, ?_⟩
    rintro i cell ⟨⟩
  | cons use earlier ih =>
    obtain ⟨cells, hafter, hheap, hclean⟩ := ih
    dsimp only at hafter hheap
    have htidy : cells.heap.Tidy := hheap ▸ (Heap.made_afterUses earlier).tidy
    rw [Cells.afterUses, hafter, Heap.afterUses, ← hheap]
    exact hclean.use htidy use

end

namespace Cells

variable {cells : Cells σ}

private theorem isSome_object? (cell : Cell σ) : cell.object?.isSome = cell.state.isSome :=
  Option.isSome_map

private theorem isVacant_heap_iff {index : UInt32} : cells.heap.IsVacant index ↔
    ∃ cell, cells.slots[index.toNat]? = some cell ∧ cell.state = none := by
  constructor
  · rintro ⟨slot, hslot, hnone⟩
    rw [getElem?_slots_heap, Option.map_eq_some_iff] at hslot
    obtain ⟨cell, hcell, rfl⟩ := hslot
    exact ⟨cell, hcell, Option.map_eq_none_iff.1 hnone⟩
  · rintro ⟨cell, hcell, hnone⟩
    exact ⟨cell.slot, by rw [getElem?_slots_heap, hcell, Option.map_some],
      Option.map_eq_none_iff.2 hnone⟩

/-- The positions on the list of vacant cells are those of the cells without a
state, so there are as many of them. -/
theorem length_vacant (hnodup : cells.vacant.Nodup)
    (hmem : ∀ i : Nat, i ∈ cells.vacant.map UInt32.toNat ↔
      ∃ cell, cells.slots[i]? = some cell ∧ cell.state = none) :
    cells.vacant.length = cells.slots.countP fun cell => cell.state.isNone := by
  have hpositions : (cells.vacant.map UInt32.toNat).Perm
      (cells.slots.toList.findIdxs fun cell => cell.state.isNone) := by
    refine (List.perm_ext_iff_of_nodup ?_ List.nodup_findIdxs).2 fun i => ?_
    · exact hnodup.map fun _ _ => UInt32.toNat_inj.1
    · rw [hmem, List.mem_findIdxs_iff_exists_getElem_pos]
      simp [Array.getElem?_eq_some_iff, Option.isNone_iff_eq_none]
  have hlength := hpositions.length_eq
  rwa [List.length_map, List.length_findIdxs, Array.countP_toList] at hlength

private theorem exists_index (hsize : cells.slots.size ≤ UInt32.size) {i : Nat} {cell : Cell σ}
    (hcell : cells.slots[i]? = some cell) : ∃ index : UInt32, index.toNat = i := by
  have hlt := (Array.getElem?_eq_some_iff.1 hcell).1
  exact ⟨UInt32.ofNat i, UInt32.toNat_ofNat_of_lt' (Nat.lt_of_lt_of_le hlt hsize)⟩

/-- Clean cells of a tidy heap are well kept while each of them has a number.
Beyond that a vacant cell could not be listed. -/
theorem Clean.wellKept [NativeState σ] (hclean : cells.Clean) (htidy : cells.heap.Tidy)
    (hsize : cells.slots.size ≤ UInt32.size) : cells.WellKept := by
  have hlive : cells.live = cells.slots.countP fun cell => cell.state.isSome := by
    have hcount := htidy.liveCount_eq
    simp only [heap, Array.countP_map] at hcount
    simpa only [Function.comp_def, Cell.slot, isSome_object?] using hcount
  have hmem : ∀ i : Nat, i ∈ cells.vacant.map UInt32.toNat ↔
      ∃ cell, cells.slots[i]? = some cell ∧ cell.state = none := by
    intro i
    rw [List.mem_map]
    constructor
    · rintro ⟨index, hvacant, rfl⟩
      exact isVacant_heap_iff.1 ((htidy.mem_vacant_iff index).1 hvacant)
    · rintro ⟨cell, hcell, hnone⟩
      obtain ⟨index, rfl⟩ := exists_index hsize hcell
      exact ⟨index, (htidy.mem_vacant_iff index).2 (isVacant_heap_iff.2 ⟨cell, hcell, hnone⟩), rfl⟩
  refine ⟨htidy.vacant_nodup, hmem, hlive, ?_, ?_, ?_⟩
  · have hsplit : cells.slots.size = (cells.slots.countP fun cell => cell.state.isSome) +
        cells.slots.countP fun cell => decide ¬ cell.state.isSome = true :=
      Array.size_eq_countP_add_countP
    rw [hsplit, hlive, length_vacant htidy.vacant_nodup hmem]
    simp only [Bool.not_eq_true, Option.isSome_eq_false_iff, Bool.decide_eq_true]
  · intro i cell hcell hstate
    obtain ⟨index, rfl⟩ := exists_index hsize hcell
    have hfound : cells.cell? ⟨index, cell.generation, ⟨""⟩⟩ = some cell :=
      cell?_eq_some_iff.2 ⟨hcell, rfl, hstate⟩
    obtain ⟨state, -, hobject⟩ := exists_object? hfound
    exact htidy.refCount_pos hobject
  · intro i cell hcell hnone
    exact ⟨(hclean i cell hcell).refCount_eq_zero hnone, (hclean i cell hcell).refs_eq_none hnone⟩

/-- However the heap is used, with whatever handles, each use ends and no
position is looked up that is not there, nor does the number of live objects
fall below zero. While each cell has a number, the list of vacant cells and the
counts are right after each use. -/
theorem well_kept_after_uses [NativeState σ] (uses : List (Use σ)) :
    ∃ cells : Cells σ, Cells.afterUses uses = some (.ok ((), cells)) ∧
      cells.heap = Heap.afterUses uses ∧
      (cells.slots.size ≤ UInt32.size → cells.WellKept) := by
  obtain ⟨cells, hafter, hheap, hclean⟩ := afterUses_agrees uses
  have htidy : cells.heap.Tidy := hheap ▸ (Heap.made_afterUses uses).tidy
  exact ⟨cells, hafter, hheap, hclean.wellKept htidy⟩

/-- A holder is freed, and the text in it goes as well. The text's cell is used
again, for a unit. The holder was not what it is taken for, the text's handle is
stale, and there never was a cell for the last handle. -/
def holderFreed : List (Use Sample) :=
  [.perform (.release ⟨9, 0, SampleType.unit.type⟩),
    .perform (.addRef ⟨0, 0, SampleType.text.type⟩),
    .perform (.place Identity.empty false (.native .unit)),
    .perform (.free ⟨1, 0, SampleType.holder.type⟩),
    .change SampleType.counterKind ⟨1, 0, SampleType.counter.type⟩ 5,
    .perform (.place ⟨7⟩ true (.native (.holder [⟨0, 0, SampleType.text.type⟩]))),
    .perform (.place Identity.empty false (.native (.text "old")))]

/-- One cell is in use after that and the other one is on the list, whatever the
stale and forged handles were used for. -/
theorem well_kept_after_uses_holderFreed :
    ∃ cells : Cells Sample, Cells.afterUses holderFreed = some (.ok ((), cells)) ∧
      cells.slots.size = 2 ∧ cells.vacant = [1] ∧ cells.live = 1 ∧ cells.WellKept := by
  obtain ⟨cells, hafter, hheap, hkept⟩ := well_kept_after_uses holderFreed
  have hsize : cells.slots.size = 2 := by
    rw [← size_slots_heap, hheap]
    decide +kernel
  have hvacant : cells.heap.vacant = [1] := by
    rw [hheap]
    decide +kernel
  have hlive : cells.heap.liveCount = 1 := by
    rw [hheap]
    decide +kernel
  exact ⟨cells, hafter, hsize, hvacant, hlive, hkept (by rw [hsize]; decide)⟩

end Cells

end NativeBridge
