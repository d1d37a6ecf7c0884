import NativeBridge.Proofs.Heap.Additions
import NativeBridge.Scope

namespace NativeBridge

namespace Scope

private theorem replace_perm {handle newest : Handle} {older : List Handle} (h : handle ∈ older) :
    (newest :: older).Perm (handle :: older.replace handle newest) := by
  induction older with
  | nil => cases h
  | cons first rest ih =>
    by_cases heq : first = handle
    · subst heq
      simpa using List.Perm.swap first newest rest
    · have hmem : handle ∈ rest := by
        rcases List.mem_cons.1 h with hfirst | hmem
        · exact absurd hfirst.symm heq
        · exact hmem
      have hreplace : (first :: rest).replace handle newest =
          first :: rest.replace handle newest := by
        have hne : (handle == first) = false := by simpa using Ne.symm heq
        rw [List.replace_cons, hne]
      rw [hreplace]
      exact (List.Perm.swap first newest rest).trans
        (((ih hmem).cons first).trans (List.Perm.swap handle first _))

private theorem strike_perm {handle : Handle} {tracked rest : List Handle}
    (h : strike handle tracked = some rest) : tracked.Perm (handle :: rest) := by
  cases tracked with
  | nil => cases h
  | cons newest older =>
    simp only [strike] at h
    split at h
    · rename_i heq
      cases h
      rw [heq]
    · split at h
      · rename_i hmem
        cases h
        exact replace_perm hmem
      · cases h

private theorem strike_eq_none_iff {handle : Handle} {tracked : List Handle} :
    strike handle tracked = none ↔ handle ∉ tracked := by
  cases tracked with
  | nil => simp [strike]
  | cons newest older =>
    simp only [strike]
    split
    · rename_i heq
      simp [heq]
    · rename_i hne
      split <;> rename_i hmem <;> simp [hmem, Ne.symm hne]

/-- Either an entry for the value's handle comes off the list, or there was
none. Of several entries for it one comes off, and the order of the others may
change. -/
theorem handOff_cases (scope : Scope) (value : Value) :
    (∃ handle rest, value.handle? = some handle ∧ scope.tracked.Perm (handle :: rest) ∧
      scope.handOff value = (true, { scope with tracked := rest })) ∨
    ((∀ handle, value.handle? = some handle → handle ∉ scope.tracked) ∧
      scope.handOff value = (false, scope)) := by
  unfold handOff
  cases hvalue : value.handle? with
  | none =>
    refine Or.inr ⟨?_, rfl⟩
    intro handle h
    cases h
  | some handle =>
    cases hstrike : strike handle scope.tracked with
    | none =>
      refine Or.inr ⟨?_, by simp [hstrike]⟩
      intro other hother
      cases hother
      exact strike_eq_none_iff.1 hstrike
    | some rest =>
      exact Or.inl ⟨handle, rest, rfl, strike_perm hstrike, by simp [hstrike]⟩

end Scope

namespace Heap

variable {σ : Type} [NativeState σ] {heap start : Heap σ} {owners : Tenancy → Nat}
  {extra : List Handle}

/-- A closed scope owns nothing any more. The ledger has no part in it, so this
holds whether the scopes are in order or not. -/
theorem BalancedFor.close {scope : Scope} (h : heap.BalancedFor (owners + tally scope.tracked))
    (ledger : Ledger) : (scope.close ledger heap).2.2.BalancedFor owners := by
  rw [← tally_perm scope.tracked.reverse_perm] at h
  exact h.releaseAll

/-- A scope that tracks new objects without content takes them back when it is
closed. What others track of the new objects stays. -/
theorem Adds.close {scope : Scope} (hstart : start.Sound)
    (h : start.Adds (scope.tracked ++ extra) heap) (ledger : Ledger) :
    start.Adds extra (scope.close ledger heap).2.2 :=
  (h.perm (scope.tracked.reverse_perm.symm.append_right extra)).releaseAll hstart

end Heap

end NativeBridge
