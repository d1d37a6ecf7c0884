import Mathlib.Logic.Basic
import NativeBridge.Class

namespace NativeBridge

/-- Whether the methods of a base are among those that a capability takes. Only
the iterator is ever extended, so there are no chains. -/
def Capability.Extends (c base : Capability) : Prop :=
  base = iterator ∧ (c = outerIterator ∨ c = recursiveIterator ∨ c = seekableIterator)

instance (c base : Capability) : Decidable (c.Extends base) :=
  inferInstanceAs (Decidable (_ ∧ _))

/-- What a capability extends extends nothing, so one round closes a set of
capabilities. -/
theorem Capability.Extends.not_extends {c base : Capability} (h : c.Extends base)
    (below : Capability) : ¬ base.Extends below := by
  obtain ⟨rfl, _⟩ := h
  rintro ⟨_, h⟩
  simp at h

private theorem Capability.mem_all (c : Capability) : c ∈ all := by
  cases c <;> decide

/-- The canonical order is the order of the identifiers, so the first of some
capabilities is the one with the least identifier. -/
theorem Capability.pairwise_all : all.Pairwise fun c d => c.id < d.id := by decide

namespace CapabilitySet

private theorem toBitVec_bits_singleton (c : Capability) :
    (singleton c).bits.toBitVec = BitVec.twoPow 8 c.id.toNat := by
  cases c <;> rfl

/-- A capability is in a set when its bit is set. What the operations on words
do is read off the bits through this. -/
theorem has_eq_getLsbD (set : CapabilitySet) (c : Capability) :
    set.has c = set.bits.toBitVec.getLsbD c.id.toNat := by
  have hbit : (0#8 : BitVec 8) ≠ BitVec.twoPow 8 c.id.toNat := by cases c <;> decide
  rw [Bool.eq_iff_iff, has, beq_iff_eq, ← UInt8.toBitVec_inj, UInt8.toBitVec_and,
    toBitVec_bits_singleton, BitVec.and_twoPow]
  cases set.bits.toBitVec.getLsbD c.id.toNat with
  | false => simpa using hbit
  | true => simp

/-- A union has what either of the two sets has. Sets are words, so this is a
fact about their bits. -/
theorem has_union (a b : CapabilitySet) (c : Capability) :
    (a.union b).has c = (a.has c || b.has c) := by
  simp [has_eq_getLsbD, union]

theorem has_empty (c : Capability) : empty.has c = false := by
  cases c <;> rfl

/-- A set of one capability has that one and no other: no two of them share a
bit. -/
theorem has_singleton_iff {c d : Capability} : (singleton c).has d = true ↔ d = c := by
  cases c <;> cases d <;> decide

/-- A set lists what it has, also where the word has bits of no capability. -/
theorem mem_toList_iff {set : CapabilitySet} {c : Capability} :
    c ∈ set.toList ↔ set.has c = true := by
  simp [toList, Capability.mem_all]

/-- A set is listed in canonical order, each capability once. So sets that have
the same capabilities are listed alike. -/
theorem pairwise_toList (set : CapabilitySet) : set.toList.Pairwise fun c d => c.id < d.id :=
  Capability.pairwise_all.filter _

/-- A union over a list has what one of its sets has. -/
theorem has_unionOf_iff {capabilities : List Capability} {f : Capability → CapabilitySet}
    {c : Capability} :
    (unionOf capabilities f).has c = true ↔ ∃ d ∈ capabilities, (f d).has c = true := by
  -- The fold starts with some set in place of the empty one.
  have hfold : ∀ start : CapabilitySet,
      (capabilities.foldl (fun set d => set.union (f d)) start).has c = true ↔
        start.has c = true ∨ ∃ d ∈ capabilities, (f d).has c = true := by
    induction capabilities with
    | nil => simp
    | cons first rest ih => simp [ih, has_union, or_assoc]
  rw [unionOf, hfold, has_empty]
  simp

/-- A capability implies itself and what it extends. What it extends extends
nothing further, so one step is all. -/
theorem has_implied_iff {c d : Capability} :
    d.implied.has c = true ↔ c = d ∨ d.Extends c := by
  cases c <;> cases d <;> decide

/-- A set is closed by what its capabilities imply. No second round would add
anything. -/
theorem has_closure_iff {set : CapabilitySet} {c : Capability} :
    set.closure.has c = true ↔ ∃ d, set.has d = true ∧ (c = d ∨ d.Extends c) := by
  simp only [closure, has_unionOf_iff, mem_toList_iff, has_implied_iff]

end CapabilitySet

end NativeBridge
