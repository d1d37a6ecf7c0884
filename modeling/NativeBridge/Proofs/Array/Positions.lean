import NativeBridge.Proofs.Array.Appending

namespace NativeBridge.OrderedArray

/-- The position of a key among the entries. -/
def position? (a : OrderedArray) (key : Key) : Option Nat :=
  a.entries.findIdx? fun entry => decide (entry.1 = key)

/-- Writes a value over the one at its key, or behind all entries; answers the
value it displaces. -/
def swapIn (a : OrderedArray) (key : Key) (value : Value) : Option Value × OrderedArray :=
  match a.position? key with
  | some i =>
    (a.entries[i]?.map Prod.snd,
      ⟨a.entries.modify i fun entry => (entry.1, value), nextAfter a.nextIndex key⟩)
  | none => (none, ⟨a.entries ++ [(key, value)], nextAfter a.nextIndex key⟩)

/-- Takes the entry of a key out; answers its value. -/
def takeOut (a : OrderedArray) (key : Key) : Option Value × OrderedArray :=
  match a.position? key with
  | some i => (a.entries[i]?.map Prod.snd, { a with entries := a.entries.eraseIdx i })
  | none => (none, a)

variable {entries : List (Key × Value)} {key : Key} {i : Nat}

private theorem findIdx?_eq_none_iff_find? :
    entries.findIdx? (fun entry => decide (entry.1 = key)) = none ↔
      Assoc.find? key entries = none := by
  rw [List.findIdx?_eq_none_iff, Assoc.find?_eq_none_iff, List.mem_map]
  simp only [decide_eq_false_iff_not, not_exists, not_and]

/-- The position found is that of the entry that a look-up finds, and writing
and removing go by it. No assumption on repeated keys is needed, since each of
them takes the first. -/
theorem at_findIdx? (h : entries.findIdx? (fun entry => decide (entry.1 = key)) = some i) :
    entries[i]?.map Prod.snd = Assoc.find? key entries ∧
      (∀ value, entries.modify i (fun entry => (entry.1, value)) = Assoc.put key value entries) ∧
      entries.eraseIdx i = Assoc.erase key entries := by
  induction entries generalizing i with
  | nil => cases h
  | cons entry rest ih =>
    obtain ⟨k, v⟩ := entry
    rw [List.findIdx?_cons] at h
    by_cases hk : k = key
    · rw [if_pos (by simpa using hk), Option.some_inj] at h
      subst h
      refine ⟨?_, fun value => ?_, ?_⟩
      · simp [Assoc.find?, hk]
      · simp [Assoc.put, hk]
      · simp [Assoc.erase, hk]
    · rw [if_neg (by simpa using hk), Option.map_eq_some_iff] at h
      obtain ⟨j, hj, rfl⟩ := h
      obtain ⟨hfind, hput, herase⟩ := ih hj
      refine ⟨?_, fun value => ?_, ?_⟩
      · rw [List.getElem?_cons_succ, hfind, Assoc.find?, if_neg hk]
      · rw [List.modify_succ_cons, hput value, Assoc.put, if_neg hk]
      · rw [List.eraseIdx_cons_succ, herase, Assoc.erase, if_neg hk]

private theorem erase_of_find?_eq_none (h : Assoc.find? key entries = none) :
    Assoc.erase key entries = entries := by
  induction entries with
  | nil => rfl
  | cons entry rest ih =>
    obtain ⟨k, v⟩ := entry
    by_cases hk : k = key
    · simp [Assoc.find?, hk] at h
    · rw [Assoc.find?, if_neg hk] at h
      rw [Assoc.erase, if_neg hk, ih h]

/-- Writing at a position is writing at the key, and it hands back what a
look-up would have found there. -/
theorem swapIn_eq (a : OrderedArray) (key : Key) (value : Value) :
    a.swapIn key value = (a.get? key, a.insert key value) := by
  unfold swapIn
  cases hposition : a.position? key with
  | none =>
    have hnone := findIdx?_eq_none_iff_find?.1 hposition
    simp only [get?, insert, hnone, Assoc.put_of_find?_eq_none hnone]
  | some i =>
    obtain ⟨hfind, hput, -⟩ := at_findIdx? hposition
    simp only [get?, insert, hfind, hput value]

/-- Removing at a position is removing the key, and it hands back the value that
the key had. -/
theorem takeOut_eq (a : OrderedArray) (key : Key) :
    a.takeOut key = (a.get? key, a.remove key) := by
  unfold takeOut
  cases hposition : a.position? key with
  | none =>
    have hnone := findIdx?_eq_none_iff_find?.1 hposition
    simp only [get?, remove, hnone, erase_of_find?_eq_none hnone]
  | some i =>
    obtain ⟨hfind, -, herase⟩ := at_findIdx? hposition
    simp only [get?, remove, hfind, herase]

/-- An entry stands at the position of its key when no key occurs twice, so each
key that is listed leads back to its own entry. -/
theorem position?_of_getElem? {a : OrderedArray} (hkeys : a.keys.Nodup) {key : Key} {value : Value}
    {i : Nat} (h : a.entries[i]? = some (key, value)) : a.position? key = some i := by
  obtain ⟨hi, hentry⟩ := List.getElem?_eq_some_iff.1 h
  rw [position?, List.findIdx?_eq_some_iff_getElem]
  refine ⟨hi, by simp [hentry], fun j hj hsame => ?_⟩
  have hne := List.pairwise_iff_getElem.1 hkeys j i
  simp only [keys, List.length_map, List.getElem_map] at hne
  rw [decide_eq_true_eq] at hsame
  exact hne (by omega) hi hj (by rw [hsame, hentry])

end NativeBridge.OrderedArray
