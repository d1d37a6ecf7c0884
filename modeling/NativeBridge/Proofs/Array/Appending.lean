import NativeBridge.OrderedArray

namespace NativeBridge.OrderedArray

/-- A change made to an array. -/
inductive Edit where
  | insert (key : Key) (value : Value)
  | push (value : Value)
  | remove (key : Key)

def edit (a : OrderedArray) : Edit → OrderedArray
  | .insert key value => a.insert key value
  | .push value => a.push value
  | .remove key => a.remove key

/-- The array that a history of changes makes of the empty one. -/
def made (edits : List Edit) : OrderedArray := edits.foldl edit empty

/-- The keys in use, in order. -/
def keys (a : OrderedArray) : List Key := a.entries.map Prod.fst

private theorem contains_eq_true_iff {a : OrderedArray} {key : Key} :
    a.contains key = true ↔ key ∈ a.keys := by
  rw [contains, get?, Option.isSome_iff_ne_none, ne_eq, Assoc.find?_eq_none_iff, keys,
    Decidable.not_not]

private theorem contains_insert_iff {a : OrderedArray} {key other : Key} {value : Value} :
    (a.insert key value).contains other = true ↔ key = other ∨ a.contains other = true := by
  rw [contains, get?_insert, contains]
  by_cases h : key = other <;> simp [h]

private theorem contains_of_contains_remove {a : OrderedArray} {key other : Key}
    (h : (a.remove key).contains other = true) : a.contains other = true := by
  rw [contains_eq_true_iff] at h ⊢
  exact (Assoc.erase_sublist key a.entries).map Prod.fst |>.subset h

private theorem lt_succ_or (n : Int64) : n < succ n ∨ succ n = Int64.maxValue := by
  unfold succ
  split
  · next h => exact .inr h
  · exact .inl (by grind)

private theorem nextAfter_int (next n : Int64) :
    nextAfter next (.int n) = if next ≤ n then succ n else next := rfl

private theorem le_nextAfter (next : Int64) (key : Key) : next ≤ nextAfter next key := by
  cases key with
  | string s => exact Int64.le_refl next
  | int n =>
    rw [nextAfter_int]
    split
    · next h =>
      rcases lt_succ_or n with hlt | hmax
      · exact Int64.le_trans h (Int64.le_of_lt hlt)
      · exact hmax ▸ Int64.le_maxValue next
    · exact Int64.le_refl next

private theorem lt_nextAfter_or (next n : Int64) :
    n < nextAfter next (.int n) ∨ nextAfter next (.int n) = Int64.maxValue := by
  rw [nextAfter_int]
  split
  · exact lt_succ_or n
  · next h => exact .inl (Int64.not_le.1 h)

/-- Every integer key in use lies below the next one, unless there is none
left. -/
def KeysBelow (a : OrderedArray) : Prop :=
  ∀ n, a.contains (.int n) = true → n < a.nextIndex ∨ a.nextIndex = Int64.maxValue

private theorem keysBelow_empty : empty.KeysBelow := by
  intro n h
  cases h

private theorem KeysBelow.insert {a : OrderedArray} (h : a.KeysBelow) (key : Key) (value : Value) :
    (a.insert key value).KeysBelow := by
  intro n hn
  change n < nextAfter a.nextIndex key ∨ nextAfter a.nextIndex key = Int64.maxValue
  have hle := le_nextAfter a.nextIndex key
  obtain rfl | hold := contains_insert_iff.1 hn
  · exact lt_nextAfter_or a.nextIndex n
  · rcases h n hold with hlt | hmax
    · exact .inl (Int64.lt_of_lt_of_le hlt hle)
    · exact .inr (Int64.le_antisymm (Int64.le_maxValue _) (hmax ▸ hle))

/-- A change keeps every integer key below the next one. Removing a key does not
take the next one back. -/
theorem KeysBelow.edit {a : OrderedArray} (h : a.KeysBelow) (change : Edit) :
    (a.edit change).KeysBelow := by
  cases change with
  | insert key value => exact h.insert key value
  | push value => exact h.insert a.nextKey value
  | remove key => exact fun n hn => h n (contains_of_contains_remove hn)

/-- In every array that a history makes the integer keys lie below the next one,
which is what appending relies on. -/
theorem keysBelow_made (edits : List Edit) : (made edits).KeysBelow := by
  -- The changes start from any array whose keys lie below its next one.
  have hfold : ∀ a : OrderedArray, a.KeysBelow → (edits.foldl OrderedArray.edit a).KeysBelow := by
    induction edits with
    | nil => exact fun a h => h
    | cons change rest ih => exact fun a h => ih (a.edit change) (h.edit change)
  exact hfold empty keysBelow_empty

/-- The next key is in use exactly when the largest integer is. Until then the
next one has never been used. -/
theorem KeysBelow.contains_nextKey_iff {a : OrderedArray} (h : a.KeysBelow) :
    a.contains a.nextKey = true ↔ a.contains (.int Int64.maxValue) = true := by
  constructor
  · intro hused
    rcases h a.nextIndex hused with hlt | hmax
    · exact absurd hlt Int64.lt_irrefl
    · rwa [nextKey, hmax] at hused
  · intro hlast
    rcases h Int64.maxValue hlast with hlt | hmax
    · exact absurd (Int64.le_maxValue a.nextIndex) (Int64.not_le.2 hlt)
    · rwa [nextKey, hmax]

/-- The value is written at a key that was not in use, after all entries there
were. -/
structure Appends (a : OrderedArray) (value : Value) : Prop where
  unused : a.contains a.nextKey = false
  entries_eq : (a.push value).entries = a.entries ++ [(a.nextKey, value)]
  size_eq : (a.push value).size = a.size + 1
  /-- No reference to an object is lost. -/
  handles_eq : (a.push value).handles = a.handles ++ value.handle?.toList

/-- The value takes the place of another one, at the largest integer. -/
structure Overwrites (a : OrderedArray) (value : Value) : Prop where
  nextKey_eq : a.nextKey = .int Int64.maxValue
  used : ∃ old, a.get? a.nextKey = some old
  keys_eq : (a.push value).keys = a.keys
  get?_eq : (a.push value).get? a.nextKey = some value

private theorem appends_of_unused {a : OrderedArray} (h : a.contains a.nextKey = false)
    (value : Value) : a.Appends value := by
  have hnone : Assoc.find? a.nextKey a.entries = none := by
    simpa [contains, get?] using h
  have hentries : (a.push value).entries = a.entries ++ [(a.nextKey, value)] :=
    Assoc.put_of_find?_eq_none hnone
  refine ⟨h, hentries, ?_, ?_⟩
  · rw [size, hentries, List.length_append, List.length_singleton, size]
  · rw [handles, hentries, List.filterMap_append, handles]
    cases hhandle : value.handle? <;> simp [hhandle]

private theorem KeysBelow.overwrites {a : OrderedArray} (h : a.KeysBelow)
    (hused : a.contains a.nextKey = true) (value : Value) : a.Overwrites value := by
  obtain ⟨old, hold⟩ := Option.isSome_iff_exists.1 hused
  refine ⟨?_, ⟨old, hold⟩, Assoc.map_fst_put_of_find?_eq_some hold, ?_⟩
  · rcases h a.nextIndex hused with hlt | hmax
    · exact absurd hlt Int64.lt_irrefl
    · rw [nextKey, hmax]
  · rw [push, get?_insert, if_pos rfl]

/-- Whatever was done to an array, it appends as long as the largest integer is
not one of its keys, and overwrites the value there when it is. -/
theorem push_appends_iff (edits : List Edit) (value : Value) :
    ((made edits).Appends value ↔
      (made edits).contains (.int Int64.maxValue) = false) ∧
    ((made edits).Overwrites value ↔
      (made edits).contains (.int Int64.maxValue) = true) := by
  have hbelow := keysBelow_made edits
  have hiff := hbelow.contains_nextKey_iff
  refine ⟨⟨fun h => ?_, fun h => ?_⟩, ⟨fun h => ?_, fun h => ?_⟩⟩
  · rw [← Bool.not_eq_true, ← hiff, h.unused]
    exact Bool.false_ne_true
  · refine appends_of_unused ?_ value
    rw [← Bool.not_eq_true, hiff, h]
    exact Bool.false_ne_true
  · exact hiff.1 (Option.isSome_iff_exists.2 h.used)
  · exact hbelow.overwrites (hiff.2 h) value

/-- An array with a value at the largest integer. -/
def filledToTheEnd : OrderedArray := made [.insert (.int Int64.maxValue) (.int 1)]

/-- A value appended there is stored in place of the other one, and nothing of
the old value is left in the array. -/
theorem not_appends_filledToTheEnd :
    filledToTheEnd.get? (.int Int64.maxValue) = some (.int 1) ∧
    filledToTheEnd.nextKey = .int Int64.maxValue ∧
    (filledToTheEnd.push (.int 2)).entries = [(.int Int64.maxValue, .int 2)] ∧
    ¬ filledToTheEnd.Appends (.int 2) := by
  refine ⟨rfl, rfl, rfl, fun h => ?_⟩
  cases h.size_eq

end NativeBridge.OrderedArray
