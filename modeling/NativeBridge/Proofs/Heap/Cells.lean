import NativeBridge.Proofs.Heap.Release

namespace NativeBridge

/-- A slot as it is laid out, with a field for each of its parts. -/
structure Cell (σ : Type) where
  generation : UInt32
  state : Option (State σ)
  /-- Reads the handles that the state holds references to, if it holds any. -/
  refs : Option (State σ → List Handle)
  refCount : Nat
  classId : Identity

/-- The heap as it is laid out. -/
structure Cells (σ : Type) where
  slots : Array (Cell σ)
  vacant : List UInt32
  live : Nat

/-- What breaks a program off: a position without a cell, or a number below
zero. -/
inductive Fault where
  | outOfBounds
  | underflow
deriving DecidableEq, Repr

/-- An answer with the cells after it, or a fault, or neither if it has not come
to an end. -/
abbrev Outcome (β σ : Type) := Option (Except Fault (β × Cells σ))

variable {σ β : Type}

namespace Cell

/-- A state put into a cell under one reference. An array always owns what is in
it. -/
def fill [NativeState σ] (cell : Cell σ) (classId : Identity) (owning : Bool) (state : State σ) :
    Cell σ :=
  { cell with
    state := some state
    refs := if owning || state.isArray then some State.handles else none
    refCount := 1
    classId }

/-- A cell with its state taken away, under its next generation. -/
def clear (cell : Cell σ) : Cell σ :=
  { cell with state := none, refs := none, refCount := 0, generation := cell.generation + 1 }

/-- The handles that the state in a cell holds references to. -/
def handles (cell : Cell σ) : List Handle :=
  match cell.state, cell.refs with
  | some state, some refs => refs state
  | _, _ => []

end Cell

namespace Cells

def empty : Cells σ := ⟨#[], [], 0⟩

/-- The cell at a position that has to be there. -/
def cellAt (cells : Cells σ) (index : UInt32) : Except Fault (Cell σ) :=
  match cells.slots[index.toNat]? with
  | some cell => .ok cell
  | none => .error .outOfBounds

/-- The cell that a handle refers to, if it is still there. -/
def cell? (cells : Cells σ) (handle : Handle) : Option (Cell σ) :=
  cells.slots[handle.index.toNat]?.filter fun cell =>
    cell.generation = handle.generation && cell.state.isSome

def put (cells : Cells σ) (index : UInt32) (cell : Cell σ) : Cells σ :=
  { cells with slots := cells.slots.setIfInBounds index.toNat cell }

/-- A cell that was never used. -/
def unused : Cell σ := ⟨0, none, none, 0, Identity.empty⟩

/-- Stores a state in the cell vacated last or in a new one. Answers which
one. -/
def store [NativeState σ] (cells : Cells σ) (classId : Identity) (owning : Bool)
    (state : State σ) : Except Fault (UInt32 × Cells σ) :=
  match cells.vacant with
  | index :: vacant => do
    let cell ← cells.cellAt index
    return (index, { cells.put index (cell.fill classId owning state) with vacant })
  | [] =>
    return (cells.slots.size.toUInt32,
      { cells with slots := cells.slots.push (unused.fill classId owning state) })

def insert [NativeState σ] (cells : Cells σ) (classId : Identity) (owning : Bool)
    (state : State σ) : Except Fault (Handle × Cells σ) := do
  let (index, cells) ← cells.store classId owning state
  let cell ← cells.cellAt index
  return (⟨index, cell.generation, state.type⟩, { cells with live := cells.live + 1 })

/-- Replaces the state a handle refers to by one of the same kind. -/
def set {α : Type} (cells : Cells σ) (kind : StateKind σ α) (handle : Handle) (a : α) : Cells σ :=
  match cells.cell? handle with
  | some cell =>
    match cell.state.bind kind.read with
    | some _ => cells.put handle.index { cell with state := some (kind.write a) }
    | none => cells
  | none => cells

def addRef (cells : Cells σ) (handle : Handle) : Bool × Cells σ :=
  match cells.cell? handle with
  | some cell =>
    (true, cells.put handle.index
      { cell with refCount := min (cell.refCount + 1) Heap.maxCount })
  | none => (false, cells)

/-- Empties a cell; answers the handles its state held references to. -/
def takeOut (cells : Cells σ) (index : UInt32) : Except Fault (List Handle × Cells σ) := do
  let cell ← cells.cellAt index
  if cells.live = 0 then throw .underflow
  return (cell.handles,
    { cells.put index cell.clear with
      vacant := index :: cells.vacant, live := cells.live - 1 })

/-- Gives up one reference to each of the handles, in order. A cell whose count
comes to zero is put on the list of those to be emptied. -/
def surrender : List Handle → List UInt32 → Cells σ → List UInt32 × Cells σ
  | [], pending, cells => (pending, cells)
  | handle :: rest, pending, cells =>
    match cells.cell? handle with
    | some cell =>
      if 0 < cell.refCount then
        surrender rest (if cell.refCount = 1 then handle.index :: pending else pending)
          (cells.put handle.index { cell with refCount := cell.refCount - 1 })
      else surrender rest pending cells
    | none => surrender rest pending cells

/-- Empties the listed cells, and every cell whose count comes to zero by that,
unless it has not come to an end after so many rounds. -/
def vacate : Nat → List UInt32 → Cells σ → Outcome Unit σ
  | 0, _, _ => none
  | _ + 1, [], cells => some (.ok ((), cells))
  | rounds + 1, index :: rest, cells =>
    match cells.takeOut index with
    | .error fault => some (.error fault)
    | .ok (handles, cells) =>
      vacate rounds (surrender handles rest cells).1 (surrender handles rest cells).2

/-- Gives up a reference. Answers whether the object went with it. -/
def release (cells : Cells σ) (handle : Handle) : Outcome Bool σ :=
  match cells.cell? handle with
  | some cell =>
    let cells := cells.put handle.index { cell with refCount := cell.refCount - 1 }
    if 0 < cell.refCount - 1 then some (.ok (false, cells))
    else (vacate (cells.live + 1) [handle.index] cells).map
      (Except.map fun after => (true, after.2))
  | none => some (.ok (false, cells))

def free (cells : Cells σ) (handle : Handle) : Outcome Unit σ :=
  if (cells.cell? handle).isSome then vacate (cells.live + 1) [handle.index] cells
  else some (.ok ((), cells))

end Cells

/-- The object in a cell with a state. -/
def Cell.object? (cell : Cell σ) : Option (Object σ) :=
  cell.state.map fun state => ⟨state, cell.classId, cell.refs.isSome, cell.refCount⟩

def Cell.slot (cell : Cell σ) : Slot σ := ⟨cell.generation, cell.object?⟩

def Cells.heap (cells : Cells σ) : Heap σ :=
  ⟨cells.slots.map Cell.slot, cells.vacant, cells.live⟩

/-- Handles are read the way of the state's type. Without a state they are not
read at all, and there is no count. -/
structure Cell.Clean [NativeState σ] (cell : Cell σ) : Prop where
  refs_eq : ∀ refs, cell.refs = some refs → refs = State.handles
  refs_eq_none : cell.state = none → cell.refs = none
  refCount_eq_zero : cell.state = none → cell.refCount = 0

def Cells.Clean [NativeState σ] (cells : Cells σ) : Prop :=
  ∀ (i : Nat) (cell : Cell σ), cells.slots[i]? = some cell → cell.Clean

/-- It ends without a fault, with the answer of the heap and in clean cells that
show the heap after it. -/
def Outcome.Agrees [NativeState σ] (outcome : Outcome β σ) (expected : β × Heap σ) : Prop :=
  ∃ cells : Cells σ, outcome = some (.ok (expected.1, cells)) ∧ cells.heap = expected.2 ∧ cells.Clean

namespace Cells

variable {cells : Cells σ} {handle : Handle} {cell : Cell σ}

theorem size_slots_heap (cells : Cells σ) : cells.heap.slots.size = cells.slots.size :=
  Array.size_map

/-- The heap that cells show has at each position the slot that the cell there
shows. -/
theorem getElem?_slots_heap (cells : Cells σ) (i : Nat) :
    cells.heap.slots[i]? = cells.slots[i]?.map Cell.slot :=
  Array.getElem?_map

private theorem cellAt_eq {index : UInt32} (hcell : cells.slots[index.toNat]? = some cell) :
    cells.cellAt index = .ok cell := by
  rw [cellAt, hcell]

/-- A handle refers to a cell of its generation with a state in it. The type
that the handle carries along plays no part. -/
theorem cell?_eq_some_iff : cells.cell? handle = some cell ↔
    cells.slots[handle.index.toNat]? = some cell ∧ cell.generation = handle.generation ∧
      cell.state.isSome = true := by
  simp [cell?, Option.filter_eq_some_iff]

/-- A handle refers to a cell when it refers to an object, and to what is in the
cell. -/
theorem object?_heap (cells : Cells σ) (handle : Handle) :
    cells.heap.object? handle = (cells.cell? handle).bind Cell.object? := by
  rw [Heap.object?, getElem?_slots_heap, cell?]
  cases cells.slots[handle.index.toNat]? with
  | none => rfl
  | some cell =>
    by_cases hgen : cell.generation = handle.generation
    · cases hstate : cell.state <;> simp [Cell.slot, Cell.object?, hgen, hstate, Option.filter]
    · simp [Cell.slot, hgen, Option.filter]

/-- A cell that a handle refers to shows an object, with the class, the count
and the ownership that are in the cell. -/
theorem exists_object? (h : cells.cell? handle = some cell) :
    ∃ state, cell.state = some state ∧
      cells.heap.object? handle = some ⟨state, cell.classId, cell.refs.isSome, cell.refCount⟩ := by
  obtain ⟨state, hstate⟩ := Option.isSome_iff_exists.1 (cell?_eq_some_iff.1 h).2.2
  refine ⟨state, hstate, ?_⟩
  rw [object?_heap, h, Option.bind_some, Cell.object?, hstate, Option.map_some]

private theorem object?_heap_of_none (h : cells.cell? handle = none) :
    cells.heap.object? handle = none := by
  rw [object?_heap, h, Option.bind_none]

private theorem heap_put {index : UInt32} {old : Cell σ}
    (hold : cells.slots[index.toNat]? = some old) {object : Object σ}
    (hobject : cell.object? = some object) (hgen : cell.generation = old.generation) :
    (cells.put index cell).heap = cells.heap.putObject index object := by
  have hslot : cells.heap.slots[index.toNat]? = some old.slot := by
    rw [getElem?_slots_heap, hold, Option.map_some]
  rw [Heap.putObject, hslot]
  simp only [put, heap, Array.map_setIfInBounds, Cell.slot, hgen, hobject]

private theorem live_surrender (handles : List Handle) (pending : List UInt32) (cells : Cells σ) :
    (surrender handles pending cells).2.live = cells.live := by
  induction handles generalizing pending cells with
  | nil => rfl
  | cons handle rest ih =>
    rw [surrender]
    split
    · split
      · rw [ih]
        rfl
      · exact ih pending cells
    · exact ih pending cells

variable [NativeState σ]

private theorem Clean.put (h : cells.Clean) {index : UInt32} (hcell : cell.Clean) :
    (cells.put index cell).Clean := by
  intro i other hother
  rw [Cells.put, Array.getElem?_setIfInBounds] at hother
  split at hother
  · split at hother
    · cases hother
      exact hcell
    · cases hother
  · exact h i other hother

private theorem Clean.of_cell? (h : cells.Clean) (hcell : cells.cell? handle = some cell) :
    cell.Clean :=
  h _ cell (cell?_eq_some_iff.1 hcell).1

/-- Changes of the state and of the count keep a cell clean as long as there is
a state, and they show in its object. -/
theorem Clean.change (h : cells.Clean) (hcell : cells.cell? handle = some cell) (state : State σ)
    (count : Nat) :
    (cells.put handle.index { cell with state := some state, refCount := count }).Clean ∧
    (cells.put handle.index { cell with state := some state, refCount := count }).heap =
      cells.heap.putObject handle.index ⟨state, cell.classId, cell.refs.isSome, count⟩ := by
  constructor
  · refine h.put ⟨(h.of_cell? hcell).refs_eq, ?_, ?_⟩
    · rintro ⟨⟩
    · rintro ⟨⟩
  · refine heap_put (cell?_eq_some_iff.1 hcell).1 ?_ ?_ <;> rfl

/-- A cell with a new count shows its object with that count. The state and the
ownership stay as they were. -/
theorem Clean.recount (h : cells.Clean) (hcell : cells.cell? handle = some cell) (count : Nat) :
    ∃ object, cells.heap.object? handle = some object ∧ object.refCount = cell.refCount ∧
      (cells.put handle.index { cell with refCount := count }).Clean ∧
      (cells.put handle.index { cell with refCount := count }).heap =
        cells.heap.putObject handle.index { object with refCount := count } := by
  obtain ⟨state, hstate, hobject⟩ := exists_object? hcell
  obtain ⟨hclean, hheap⟩ := h.change hcell state count
  rw [← hstate] at hclean hheap
  exact ⟨_, hobject, rfl, hclean, hheap⟩

/-- Taking a reference does to clean cells what it does to the heap, and they
stay clean. -/
theorem Clean.addRef (h : cells.Clean) (handle : Handle) :
    (cells.addRef handle).1 = (cells.heap.addRef handle).1 ∧
    (cells.addRef handle).2.heap = (cells.heap.addRef handle).2 ∧
    (cells.addRef handle).2.Clean := by
  cases hcell : cells.cell? handle with
  | none =>
    rw [Heap.addRef_stale (object?_heap_of_none hcell), Cells.addRef, hcell]
    exact ⟨rfl, rfl, h⟩
  | some cell =>
    obtain ⟨object, hobject, hcount, hclean, hheap⟩ :=
      h.recount hcell (min (cell.refCount + 1) Heap.maxCount)
    rw [Heap.addRef, hobject, Cells.addRef, hcell]
    dsimp only
    rw [hcount]
    exact ⟨rfl, hheap, hclean⟩

/-- Changing a state in place does to clean cells what it does to the heap, and
they stay clean. -/
theorem Clean.set {α : Type} (h : cells.Clean) (kind : StateKind σ α) (handle : Handle) (a : α) :
    (cells.set kind handle a).heap = cells.heap.set kind handle a ∧
    (cells.set kind handle a).Clean := by
  cases hcell : cells.cell? handle with
  | none =>
    rw [Heap.set, object?_heap_of_none hcell, Cells.set, hcell]
    exact ⟨rfl, h⟩
  | some cell =>
    obtain ⟨state, hstate, hobject⟩ := exists_object? hcell
    rw [Heap.set, hobject, Cells.set, hcell]
    simp only [hstate, Option.bind_some]
    cases kind.read state with
    | none => exact ⟨rfl, h⟩
    | some _ => exact (h.change hcell (kind.write a) cell.refCount).symm

private theorem clean_fill (cell : Cell σ) (classId : Identity) (owning : Bool)
    (state : State σ) : (cell.fill classId owning state).Clean := by
  refine ⟨fun refs hrefs => ?_, ?_, ?_⟩
  · rw [Cell.fill] at hrefs
    split at hrefs
    · cases hrefs
      rfl
    · cases hrefs
  · rintro ⟨⟩
  · rintro ⟨⟩

private theorem object?_fill (cell : Cell σ) (classId : Identity) (owning : Bool)
    (state : State σ) :
    (cell.fill classId owning state).object? = some (Object.fresh classId owning state) := by
  rw [Cell.fill, Cell.object?, Option.map_some, Object.fresh]
  cases owning || state.isArray <;> rfl

private theorem Clean.push (h : cells.Clean) (hcell : cell.Clean) (vacant : List UInt32)
    (live : Nat) : Clean ⟨cells.slots.push cell, vacant, live⟩ := by
  intro i other hother
  rw [Array.getElem?_push] at hother
  split at hother
  · cases hother
    exact hcell
  · exact h i other hother

/-- A state was stored in a cell that is there, the way the heap places it. -/
structure Stores (cells : Cells σ) (classId : Identity) (owning : Bool) (state : State σ)
    (index : UInt32) (cell : Cell σ) (placed : Cells σ) : Prop where
  store_eq : cells.store classId owning state = .ok (index, placed)
  found : placed.slots[index.toNat]? = some cell
  clean : placed.Clean
  place_eq : cells.heap.place classId owning state =
    (⟨index, (placed.heap.slots[index.toNat]?.map Slot.generation).getD 0, state.type⟩,
      { placed.heap with liveCount := placed.live + 1 })

private theorem Clean.stores_added (h : cells.Clean) (hvacant : cells.vacant = [])
    (classId : Identity) (owning : Bool) (state : State σ) :
    ∃ index cell placed, cells.Stores classId owning state index cell placed := by
  let placed : Cells σ := ⟨cells.slots.push (unused.fill classId owning state), [], cells.live⟩
  have hheap : placed.heap =
      ⟨cells.heap.slots.push ⟨0, some (Object.fresh classId owning state)⟩, [], cells.live⟩ := by
    simp only [placed, heap, Array.map_push, Cell.slot, object?_fill]
    rfl
  -- without a number left for the new cell, its number is that of an earlier one
  have hlt : cells.slots.size.toUInt32.toNat < placed.slots.size := by
    rw [Array.size_push]
    exact Nat.lt_succ_of_le (Nat.mod_le _ _)
  refine ⟨cells.slots.size.toUInt32, _, placed, ?_, Array.getElem?_eq_getElem hlt,
    h.push (clean_fill unused classId owning state) [] cells.live, ?_⟩
  · rw [Cells.store, hvacant]
    rfl
  · rw [hheap, Heap.place, show cells.heap.vacant = [] from hvacant, size_slots_heap]
    rfl

private theorem Clean.stores_reused (h : cells.Clean) {index : UInt32} {vacant : List UInt32}
    (hvacant : cells.vacant = index :: vacant) (hcell : cells.slots[index.toNat]? = some cell)
    (classId : Identity) (owning : Bool) (state : State σ) :
    ∃ cell placed, cells.Stores classId owning state index cell placed := by
  let placed : Cells σ := { cells.put index (cell.fill classId owning state) with vacant }
  have hput : (cells.put index (cell.fill classId owning state)).heap =
      cells.heap.putObject index (Object.fresh classId owning state) :=
    heap_put hcell (object?_fill cell classId owning state) rfl
  have hheap : placed.heap =
      { cells.heap.putObject index (Object.fresh classId owning state) with vacant } := by
    rw [← hput]
    rfl
  refine ⟨cell.fill classId owning state, placed, ?_, ?_,
    h.put (clean_fill cell classId owning state), ?_⟩
  · rw [Cells.store, hvacant]
    dsimp only
    rw [cellAt_eq hcell]
    rfl
  · exact Array.getElem?_setIfInBounds_self_of_lt (Array.getElem?_eq_some_iff.1 hcell).1
  · rw [hheap, Heap.place, show cells.heap.vacant = index :: vacant from hvacant]
    rfl

/-- The list of vacant cells names no position without a cell, so there is
one to store in. An insertion does not fault and places the state as the heap
does. -/
theorem Clean.insert (h : cells.Clean)
    (hvacant : ∀ index ∈ cells.vacant, cells.heap.IsVacant index) (classId : Identity)
    (owning : Bool) (state : State σ) :
    Outcome.Agrees (some (cells.insert classId owning state))
      (cells.heap.place classId owning state) := by
  obtain ⟨index, cell, placed, hstores⟩ :
      ∃ index cell placed, cells.Stores classId owning state index cell placed := by
    cases hlist : cells.vacant with
    | nil => exact h.stores_added hlist classId owning state
    | cons index vacant =>
      obtain ⟨slot, hslot, -⟩ := hvacant index (by rw [hlist]; exact List.mem_cons_self)
      rw [getElem?_slots_heap, Option.map_eq_some_iff] at hslot
      obtain ⟨cell, hcell, -⟩ := hslot
      exact ⟨index, h.stores_reused hlist hcell classId owning state⟩
  have hinsert : cells.insert classId owning state =
      .ok (⟨index, cell.generation, state.type⟩, { placed with live := placed.live + 1 }) := by
    rw [Cells.insert, hstores.store_eq]
    change (placed.cellAt index >>= _) = _
    rw [cellAt_eq hstores.found]
    rfl
  rw [hinsert, hstores.place_eq, getElem?_slots_heap, hstores.found]
  exact ⟨_, rfl, rfl, hstores.clean⟩

private theorem clean_clear (cell : Cell σ) : cell.clear.Clean where
  refs_eq := by rintro refs ⟨⟩
  refs_eq_none _ := rfl
  refCount_eq_zero _ := rfl

private theorem handles_eq (hcell : cell.Clean) :
    cell.handles = cell.object?.elim [] Object.owned := by
  cases hstate : cell.state with
  | none => simp [Cell.handles, Cell.object?, hstate]
  | some state =>
    cases hrefs : cell.refs with
    | none => simp [Cell.handles, Cell.object?, hstate, hrefs, Object.owned]
    | some refs =>
      rw [Cell.handles, hstate, hrefs, hcell.refs_eq refs hrefs]
      simp [Cell.object?, hstate, hrefs, Object.owned]

/-- Something lives in a cell that is emptied, so the number of live objects
does not fall below zero. -/
theorem Clean.takeOut (h : cells.Clean) {index : UInt32}
    (hcell : cells.slots[index.toNat]? = some cell) (hlive : 0 < cells.live) :
    ∃ after : Cells σ, cells.takeOut index = .ok ((cells.heap.evict index).1, after) ∧
      after.live = cells.live - 1 ∧ after.heap = (cells.heap.evict index).2 ∧ after.Clean := by
  have hslot : cells.heap.slots[index.toNat]? = some cell.slot := by
    rw [getElem?_slots_heap, hcell, Option.map_some]
  have htake : cells.takeOut index = .ok (cell.handles,
      { cells.put index cell.clear with
        vacant := index :: cells.vacant, live := cells.live - 1 }) := by
    rw [Cells.takeOut, cellAt_eq hcell]
    exact if_neg (Nat.ne_of_gt hlive)
  rw [Heap.evict, hslot, htake, handles_eq (h _ cell hcell)]
  refine ⟨_, rfl, rfl, ?_, h.put (clean_clear cell)⟩
  simp only [heap, Cells.put, Array.map_setIfInBounds]
  rfl

private theorem Clean.surrender (h : cells.Clean) (handles : List Handle) (pending : List UInt32) :
    (surrender handles pending cells).1 = (Heap.surrender handles pending cells.heap).1 ∧
    (surrender handles pending cells).2.heap = (Heap.surrender handles pending cells.heap).2 ∧
    (surrender handles pending cells).2.Clean := by
  induction handles generalizing pending cells with
  | nil => exact ⟨rfl, rfl, h⟩
  | cons handle rest ih =>
    rw [Cells.surrender, Heap.surrender]
    cases hcell : cells.cell? handle with
    | none =>
      rw [object?_heap_of_none hcell]
      exact ih h pending
    | some cell =>
      obtain ⟨object, hobject, hcount, hclean, hheap⟩ := h.recount hcell (cell.refCount - 1)
      rw [hobject]
      dsimp only
      rw [hcount, ← hheap]
      split
      · exact ih hclean _
      · exact ih h pending

/-- One round: a cell is emptied and the references of what was in it are given
up. The number of live objects goes down by one, which bounds the rounds. -/
theorem Clean.emptySlot (h : cells.Clean) {index : UInt32}
    (hcell : cells.slots[index.toNat]? = some cell) (hlive : 0 < cells.live)
    (rest : List UInt32) : ∃ (handles : List Handle) (after : Cells σ),
      cells.takeOut index = .ok (handles, after) ∧
      (Cells.surrender handles rest after).2.live = cells.live - 1 ∧
      (Cells.surrender handles rest after).1 = (Heap.emptySlot index rest cells.heap).1 ∧
      (Cells.surrender handles rest after).2.heap = (Heap.emptySlot index rest cells.heap).2 ∧
      (Cells.surrender handles rest after).2.Clean := by
  obtain ⟨after, htake, hless, hafter, hclean⟩ := h.takeOut hcell hlive
  refine ⟨_, after, htake, ?_, ?_⟩
  · rw [live_surrender, hless]
  · rw [Heap.emptySlot, ← hafter]
    exact hclean.surrender _ rest

/-- Emptying cells comes to an end, since each round takes an object off the
live ones. Nothing in the loop itself puts an end to it. -/
theorem Clean.vacate (h : cells.Clean) {rounds : Nat} (hrounds : cells.live < rounds)
    {pending : List UInt32} (htidy : Heap.TidyUpTo pending cells.heap) :
    Outcome.Agrees (Cells.vacate rounds pending cells) ((), Heap.cascade pending cells.heap) := by
  induction rounds generalizing cells pending with
  | zero => exact absurd hrounds (Nat.not_lt_zero _)
  | succ rounds ih =>
    cases pending with
    | nil =>
      rw [Heap.cascade_nil, Cells.vacate]
      exact ⟨cells, rfl, rfl, h⟩
    | cons index rest =>
      obtain ⟨handle, rfl, hlive⟩ := htidy.pending_occupied index List.mem_cons_self
      obtain ⟨object, hobject⟩ := Heap.contains_iff.1 hlive
      have hpos : 0 < cells.live := htidy.liveCount_pos hobject
      obtain ⟨cell, hcell, -⟩ := Option.bind_eq_some_iff.1 (object?_heap cells handle ▸ hobject)
      obtain ⟨handles, after, htake, hless, hpending, hheap, hclean⟩ :=
        h.emptySlot (cell?_eq_some_iff.1 hcell).1 hpos rest
      have hround := htidy.emptySlot
      rw [← hpending, ← hheap] at hround
      rw [Cells.vacate, htake, Heap.cascade_cons, ← hpending, ← hheap]
      exact ih hclean (by omega) hround

/-- The count of the cell that is emptied first plays no part, so it may have
references left. -/
theorem Clean.vacate_live (h : cells.Clean) (htidy : cells.heap.Tidy)
    (hcell : cells.cell? handle = some cell) :
    Outcome.Agrees (Cells.vacate (cells.live + 1) [handle.index] cells)
      ((), Heap.cascade [handle.index] cells.heap) := by
  obtain ⟨state, -, hobject⟩ := exists_object? hcell
  have hput := Heap.TidyUpTo.putObject htidy hobject (htidy.refCount_pos hobject)
    ⟨state, cell.classId, cell.refs.isSome, 0⟩
  have hround := Heap.TidyUpTo.emptySlot hput
  rw [Heap.emptySlot, Heap.evict_putObject_refCount hobject 0] at hround
  have hpos : 0 < cells.live := htidy.liveCount_pos hobject
  obtain ⟨handles, after, htake, hless, hpending, hheap, hclean⟩ :=
    h.emptySlot (cell?_eq_some_iff.1 hcell).1 hpos []
  rw [← Heap.emptySlot, ← hpending, ← hheap] at hround
  rw [Cells.vacate, htake, Heap.cascade_cons, ← hpending, ← hheap]
  exact hclean.vacate (by omega) hround

/-- Giving up a reference ends, without a fault, and does what it does to the
heap, also where other objects go by it. -/
theorem Clean.release (h : cells.Clean) (htidy : cells.heap.Tidy) (handle : Handle) :
    Outcome.Agrees (cells.release handle) (cells.heap.release handle) := by
  cases hcell : cells.cell? handle with
  | none =>
    rw [Heap.release_stale (object?_heap_of_none hcell), Cells.release, hcell]
    exact ⟨cells, rfl, rfl, h⟩
  | some cell =>
    obtain ⟨object, hobject, hcount, hclean, hheap⟩ := h.recount hcell (cell.refCount - 1)
    have hpos := htidy.refCount_pos hobject
    rw [Cells.release, hcell]
    dsimp only
    rw [← hcount] at hclean hheap ⊢
    by_cases hlast : object.refCount = 1
    · have hlower := Heap.TidyUpTo.lower htidy hobject hpos
      rw [if_pos hlast, ← hheap] at hlower
      obtain ⟨after, hvacate, hafter, hclean⟩ := hclean.vacate (Nat.lt_succ_self _) hlower
      rw [Heap.release_last hobject (Nat.le_of_eq hlast), if_neg (by omega), hvacate, ← hheap]
      exact ⟨after, rfl, hafter, hclean⟩
    · have hshared : 1 < object.refCount := by omega
      rw [Heap.release_shared hobject hshared, if_pos (Nat.sub_pos_of_lt hshared)]
      exact ⟨_, rfl, hheap, hclean⟩

/-- Freeing ends, without a fault, and does what it does to the heap, whatever
the count of the object says. -/
theorem Clean.free (h : cells.Clean) (htidy : cells.heap.Tidy) (handle : Handle) :
    Outcome.Agrees (cells.free handle) ((), cells.heap.free handle) := by
  cases hcell : cells.cell? handle with
  | none =>
    rw [Heap.free_stale (object?_heap_of_none hcell), Cells.free, hcell]
    exact ⟨cells, rfl, rfl, h⟩
  | some cell =>
    obtain ⟨state, -, hobject⟩ := exists_object? hcell
    rw [Heap.free_live hobject, Cells.free, hcell]
    exact h.vacate_live htidy hcell

end Cells

end NativeBridge
