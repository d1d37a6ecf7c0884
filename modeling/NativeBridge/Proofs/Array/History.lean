import Mathlib.Data.List.Induction
import NativeBridge.Proofs.Array.Positions

namespace NativeBridge.OrderedArray

/-- The key at which an array takes a change. A value is appended at the next
integer key. -/
def Edit.key (a : OrderedArray) : Edit → Key
  | .insert key _ => key
  | .push _ => a.nextKey
  | .remove key => key

/-- What a change leaves at its key: a value, or nothing. -/
def Edit.leaves : Edit → Option Value
  | .insert _ value => some value
  | .push value => some value
  | .remove _ => none

/-- The change of a history at some time was made at a key, and this is what it
left there. -/
def ChangedAt (edits : List Edit) (time : Nat) (key : Key) (left : Option Value) : Prop :=
  ∃ change, edits[time]? = some change ∧ change.key (made (edits.take time)) = key ∧
    change.leaves = left

/-- A value was written at a key, and neither was another one since nor was the
key removed. -/
def WrittenLast (edits : List Edit) (key : Key) (value : Value) : Prop :=
  ∃ time, ChangedAt edits time key (some value) ∧
    ∀ later left, time < later → ¬ ChangedAt edits later key left

/-- A key that was not there was written at some time, and was not removed
since. -/
structure Arrived (edits : List Edit) (key : Key) (time : Nat) : Prop where
  written : ∃ value, ChangedAt edits time key (some value)
  absent : ∀ value, ¬ WrittenLast (edits.take time) key value
  kept : ∀ later, time < later → ¬ ChangedAt edits later key none

/-- What an array holds and in which order, told by its history. -/
structure Chronicles (edits : List Edit) (a : OrderedArray) : Prop where
  keys_nodup : a.keys.Nodup
  get?_eq_some_iff : ∀ key value, a.get? key = some value ↔ WrittenLast edits key value
  mem_entries_iff : ∀ key value, (key, value) ∈ a.entries ↔ WrittenLast edits key value
  mem_keys_iff : ∀ key, key ∈ a.keys ↔ ∃ time, Arrived edits key time
  arrived_once : ∀ key time other, Arrived edits key time → Arrived edits key other → time = other
  keys_by_arrival : a.keys.Pairwise fun earlier later =>
    ∀ time other, Arrived edits earlier time → Arrived edits later other → time < other

/-- A change shows at its own key and nowhere else. A key in use keeps its
place, and a new one stands behind all others. -/
structure ChangesOneKey (a : OrderedArray) (change : Edit) : Prop where
  get?_eq : ∀ key, (a.edit change).get? key =
    if change.key a = key then change.leaves else a.get? key
  keys_of_write : change.leaves ≠ none → (a.edit change).keys =
    if change.key a ∈ a.keys then a.keys else a.keys ++ [change.key a]
  keys_of_remove : change.leaves = none → (a.edit change).keys = a.keys.erase (change.key a)
  others_eq : (a.edit change).entries.filter (fun entry => entry.1 ≠ change.key a) =
    a.entries.filter fun entry => entry.1 ≠ change.key a

private theorem get?_eq_none_iff {a : OrderedArray} {key : Key} :
    a.get? key = none ↔ key ∉ a.keys :=
  Assoc.find?_eq_none_iff

private theorem mem_keys_iff_get? {a : OrderedArray} {key : Key} :
    key ∈ a.keys ↔ ∃ value, a.get? key = some value := by
  rw [← Option.isSome_iff_exists, Option.isSome_iff_ne_none, ne_eq, get?_eq_none_iff,
    Decidable.not_not]

/-- Writing at a key in use leaves the keys and their order alone. A new key
comes behind all others. -/
theorem keys_insert (a : OrderedArray) (key : Key) (value : Value) :
    (a.insert key value).keys = if key ∈ a.keys then a.keys else a.keys ++ [key] := by
  split
  · next hmem =>
    obtain ⟨old, hold⟩ := mem_keys_iff_get?.1 hmem
    exact Assoc.map_fst_put_of_find?_eq_some hold
  · next hmem =>
    rw [keys, insert, Assoc.put_of_find?_eq_none (get?_eq_none_iff.2 hmem), List.map_append]
    rfl

private theorem keys_remove (a : OrderedArray) (key : Key) :
    (a.remove key).keys = a.keys.erase key := by
  have herase : ∀ entries : List (Key × Value),
      (Assoc.erase key entries).map Prod.fst = (entries.map Prod.fst).erase key := by
    intro entries
    induction entries with
    | nil => rfl
    | cons entry rest ih =>
      obtain ⟨k, v⟩ := entry
      by_cases hk : k = key
      · simp [Assoc.erase, hk]
      · rw [Assoc.erase, if_neg hk, List.map_cons, List.map_cons, ih,
          List.erase_cons_tail (by simpa using hk)]
  exact herase a.entries

private theorem get?_remove {a : OrderedArray} (h : a.keys.Nodup) (key other : Key) :
    (a.remove key).get? other = if key = other then none else a.get? other :=
  Assoc.find?_erase other h

private theorem filter_put (key : Key) (value : Value) (entries : List (Key × Value)) :
    (Assoc.put key value entries).filter (fun entry => entry.1 ≠ key) =
      entries.filter fun entry => entry.1 ≠ key := by
  induction entries with
  | nil => simp [Assoc.put]
  | cons entry rest ih =>
    obtain ⟨k, v⟩ := entry
    by_cases hk : k = key
    · simp [Assoc.put, hk]
    · rw [Assoc.put, if_neg hk, List.filter_cons, List.filter_cons, ih]

private theorem filter_erase (key : Key) (entries : List (Key × Value)) :
    (Assoc.erase key entries).filter (fun entry => entry.1 ≠ key) =
      entries.filter fun entry => entry.1 ≠ key := by
  induction entries with
  | nil => rfl
  | cons entry rest ih =>
    obtain ⟨k, v⟩ := entry
    by_cases hk : k = key
    · simp [Assoc.erase, hk]
    · rw [Assoc.erase, if_neg hk, List.filter_cons, List.filter_cons, ih]

private theorem changesOneKey_insert (a : OrderedArray) (key : Key) (value : Value) :
    a.ChangesOneKey (.insert key value) where
  get?_eq other := get?_insert a key other value
  keys_of_write _ := keys_insert a key value
  keys_of_remove h := by cases h
  others_eq := filter_put key value a.entries

/-- Each change shows at its own key alone, an appended value at the next
integer. Removing needs that no key occurs twice, or the second one would come
to light. -/
theorem changesOneKey {a : OrderedArray} (h : a.keys.Nodup) (change : Edit) :
    a.ChangesOneKey change := by
  cases change with
  | insert key value => exact changesOneKey_insert a key value
  | push value =>
    have hpush := changesOneKey_insert a a.nextKey value
    exact ⟨hpush.get?_eq, hpush.keys_of_write, hpush.keys_of_remove, hpush.others_eq⟩
  | remove key =>
    exact {
      get?_eq := get?_remove h key
      keys_of_write := fun hne => absurd rfl hne
      keys_of_remove := fun _ => keys_remove a key
      others_eq := filter_erase key a.entries }

private theorem keys_nodup_edit {a : OrderedArray} (h : a.keys.Nodup) (change : Edit) :
    (a.edit change).keys.Nodup := by
  have hchange := changesOneKey h change
  by_cases hleaves : change.leaves = none
  · rw [hchange.keys_of_remove hleaves]
    exact h.erase _
  · rw [hchange.keys_of_write hleaves]
    split
    · exact h
    · next hnew =>
      rw [List.nodup_append]
      refine ⟨h, List.pairwise_singleton .., fun key hkey other hother => ?_⟩
      rw [List.mem_singleton] at hother
      rintro rfl
      exact hnew (hother ▸ hkey)

variable {edits : List Edit} {change : Edit} {key : Key} {value : Value}

/-- A history with one change more makes the array with that change made to
it. -/
theorem made_concat (edits : List Edit) (change : Edit) :
    made (edits ++ [change]) = (made edits).edit change := by
  rw [made, List.foldl_append]
  rfl

/-- No history makes an array with a key that occurs twice. Looking up and
removing by key rely on it. -/
theorem keys_nodup_made (edits : List Edit) : (made edits).keys.Nodup := by
  induction edits using List.reverseRecOn with
  | nil => exact List.nodup_nil
  | append_singleton edits change ih =>
    rw [made_concat]
    exact keys_nodup_edit ih change

private theorem ChangedAt.lt {time : Nat} {left : Option Value}
    (h : ChangedAt edits time key left) : time < edits.length := by
  obtain ⟨change, hchange, -⟩ := h
  exact (List.getElem?_eq_some_iff.1 hchange).1

/-- A change more is the last one, and it leaves the earlier ones as they are.
What is said of histories below goes by induction from the last change. -/
theorem changedAt_concat {time : Nat} {left : Option Value} :
    ChangedAt (edits ++ [change]) time key left ↔ ChangedAt edits time key left ∨
      time = edits.length ∧ change.key (made edits) = key ∧ change.leaves = left := by
  obtain hlt | rfl | hgt := Nat.lt_trichotomy time edits.length
  · rw [ChangedAt, List.getElem?_append_left hlt, List.take_append_of_le_length (by omega)]
    have hne : time ≠ edits.length := by omega
    simp [ChangedAt, hne]
  · have hnone : ¬ ChangedAt edits edits.length key left := fun h => by
      have := h.lt
      omega
    rw [ChangedAt, List.getElem?_concat_length, List.take_append_of_le_length (Nat.le_refl _),
      List.take_length]
    simp [hnone]
  · have hnone : ∀ longer : List Edit, longer.length ≤ time → ¬ ChangedAt longer time key left :=
      fun longer hle h => by
        have := h.lt
        omega
    have hlength : (edits ++ [change]).length = edits.length + 1 := List.length_append
    have hne : time ≠ edits.length := by omega
    simp [hnone edits (by omega), hnone (edits ++ [change]) (by omega), hne]

/-- What was written last at a key is decided by the new change if it is made
there, and otherwise by the older ones. -/
theorem writtenLast_concat :
    WrittenLast (edits ++ [change]) key value ↔
      if change.key (made edits) = key then change.leaves = some value
      else WrittenLast edits key value := by
  split
  · next hkey =>
    constructor
    · rintro ⟨time, hwritten, hlast⟩
      obtain hbefore | ⟨-, -, hleaves⟩ := changedAt_concat.1 hwritten
      · have hchanged := changedAt_concat.2 (.inr ⟨rfl, hkey, rfl⟩)
        exact absurd hchanged (hlast edits.length _ hbefore.lt)
      · exact hleaves
    · intro hleaves
      refine ⟨edits.length, changedAt_concat.2 (.inr ⟨rfl, hkey, hleaves⟩), ?_⟩
      intro later left hlater hchanged
      have hlt := hchanged.lt
      rw [List.length_append, List.length_singleton] at hlt
      omega
  · next hkey =>
    constructor
    · rintro ⟨time, hwritten, hlast⟩
      obtain hbefore | ⟨-, hsame, -⟩ := changedAt_concat.1 hwritten
      · refine ⟨time, hbefore, fun later left hlater hchanged => ?_⟩
        exact hlast later left hlater (changedAt_concat.2 (.inl hchanged))
      · exact absurd hsame hkey
    · rintro ⟨time, hwritten, hlast⟩
      refine ⟨time, changedAt_concat.2 (.inl hwritten), fun later left hlater hchanged => ?_⟩
      obtain hbefore | ⟨-, hsame, -⟩ := changedAt_concat.1 hchanged
      · exact hlast later left hlater hbefore
      · exact hkey hsame

/-- A look-up finds the value that was written last at the key and was not
removed since. -/
theorem get?_made_eq_some_iff (edits : List Edit) (key : Key) (value : Value) :
    (made edits).get? key = some value ↔ WrittenLast edits key value := by
  induction edits using List.reverseRecOn with
  | nil =>
    constructor
    · intro h
      cases h
    · rintro ⟨time, hwritten, -⟩
      exact absurd hwritten.lt (Nat.not_lt_zero time)
  | append_singleton edits change ih =>
    have hchange := changesOneKey (keys_nodup_made edits) change
    rw [made_concat, hchange.get?_eq, writtenLast_concat]
    split
    · exact Iff.rfl
    · exact ih

/-- An entry is found by its key when no key occurs twice. In general a look-up
finds only the first entry of a key. -/
theorem mem_entries_iff_get? {a : OrderedArray} (h : a.keys.Nodup) :
    (key, value) ∈ a.entries ↔ a.get? key = some value := by
  have hfind : ∀ entries : List (Key × Value), (entries.map Prod.fst).Nodup →
      ((key, value) ∈ entries ↔ Assoc.find? key entries = some value) := by
    intro entries hnodup
    induction entries with
    | nil => simp [Assoc.find?]
    | cons entry rest ih =>
      obtain ⟨k, v⟩ := entry
      rw [List.map_cons, List.nodup_cons] at hnodup
      rw [List.mem_cons, Assoc.find?, Prod.mk.injEq]
      by_cases hk : k = key
      · subst hk
        have hnot : (k, value) ∉ rest := fun hmem =>
          hnodup.1 (List.mem_map.2 ⟨(k, value), hmem, rfl⟩)
        simp [hnot, eq_comm]
      · rw [if_neg hk, ← ih hnodup.2]
        simp [Ne.symm hk]
  exact hfind a.entries h

private theorem not_writtenLast_iff (edits : List Edit) (key : Key) :
    (∀ value, ¬ WrittenLast edits key value) ↔ key ∉ (made edits).keys := by
  simp only [← get?_made_eq_some_iff, mem_keys_iff_get?, not_exists]

private theorem Arrived.lt {time : Nat} (h : Arrived edits key time) : time < edits.length := by
  obtain ⟨value, hwritten⟩ := h.written
  exact hwritten.lt

/-- A key that arrived stays arrived when the next change does not remove it.
Writing over its value does not count as a new arrival. -/
theorem Arrived.concat {time : Nat} (h : Arrived edits key time)
    (hkeep : change.key (made edits) = key → change.leaves ≠ none) :
    Arrived (edits ++ [change]) key time := by
  obtain ⟨value, hwritten⟩ := h.written
  refine ⟨⟨value, changedAt_concat.2 (.inl hwritten)⟩, ?_, ?_⟩
  · rw [List.take_append_of_le_length (Nat.le_of_lt h.lt)]
    exact h.absent
  · intro later hlater hchanged
    obtain hbefore | ⟨-, hkey, hleaves⟩ := changedAt_concat.1 hchanged
    · exact h.kept later hlater hbefore
    · exact hkeep hkey hleaves

private theorem arrived_last (hkey : change.key (made edits) = key) (hnew : key ∉ (made edits).keys)
    (hleaves : change.leaves = some value) : Arrived (edits ++ [change]) key edits.length := by
  refine ⟨⟨value, changedAt_concat.2 (.inr ⟨rfl, hkey, hleaves⟩)⟩, ?_, ?_⟩
  · rw [List.take_append_of_le_length (Nat.le_refl _), List.take_length]
    exact (not_writtenLast_iff edits key).2 hnew
  · intro later hlater hchanged
    have hlt := hchanged.lt
    rw [List.length_append, List.length_singleton] at hlt
    omega

/-- From its arrival on a key is in use, at every time up to the end of the
history. -/
theorem Arrived.mem_keys {time : Nat} (h : Arrived edits key time) (more : Nat) :
    key ∈ (made (edits.take (time + 1 + more))).keys := by
  induction more with
  | zero =>
    obtain ⟨value, change, hchange, hkey, hleaves⟩ := h.written
    rw [Nat.add_zero, List.take_add_one, hchange, Option.toList_some, made_concat,
      mem_keys_iff_get?]
    have hone := changesOneKey (keys_nodup_made (edits.take time)) change
    exact ⟨value, by rw [hone.get?_eq, if_pos hkey, hleaves]⟩
  | succ more ih =>
    rw [← Nat.add_assoc, List.take_add_one]
    cases hnext : edits[time + 1 + more]? with
    | none => simpa using ih
    | some change =>
      rw [Option.toList_some, made_concat, mem_keys_iff_get?]
      have hone := changesOneKey (keys_nodup_made (edits.take (time + 1 + more))) change
      rw [hone.get?_eq]
      split
      · next hkey =>
        have hleaves : change.leaves ≠ none := fun hnone =>
          h.kept (time + 1 + more) (by omega) ⟨change, hnext, hkey, hnone⟩
        exact Option.ne_none_iff_exists'.1 hleaves
      · exact mem_keys_iff_get?.1 ih

private theorem Arrived.not_lt {time other : Nat} (h : Arrived edits key time)
    (h' : Arrived edits key other) : ¬ time < other := by
  intro hlt
  have hmem := h.mem_keys (other - (time + 1))
  rw [Nat.add_sub_cancel' (by omega)] at hmem
  exact (not_writtenLast_iff _ key).1 h'.absent hmem

private theorem Arrived.unique {time other : Nat} (h : Arrived edits key time)
    (h' : Arrived edits key other) : time = other := by
  have hle := h.not_lt h'
  have hge := h'.not_lt h
  omega

private theorem exists_arrived_of_mem_keys (h : key ∈ (made edits).keys) :
    ∃ time, Arrived edits key time := by
  induction edits using List.reverseRecOn with
  | nil => cases h
  | append_singleton edits change ih =>
    rw [made_concat, mem_keys_iff_get?] at h
    obtain ⟨value, hvalue⟩ := h
    have hone := changesOneKey (keys_nodup_made edits) change
    rw [hone.get?_eq] at hvalue
    by_cases hmem : key ∈ (made edits).keys
    · obtain ⟨time, htime⟩ := ih hmem
      refine ⟨time, htime.concat fun hkey hnone => ?_⟩
      rw [if_pos hkey, hnone] at hvalue
      cases hvalue
    · by_cases hkey : change.key (made edits) = key
      · rw [if_pos hkey] at hvalue
        exact ⟨edits.length, arrived_last hkey hmem hvalue⟩
      · rw [if_neg hkey] at hvalue
        exact absurd (mem_keys_iff_get?.2 ⟨value, hvalue⟩) hmem

/-- The keys in use are those that arrived and were not removed since. Each has
one time of arrival. -/
theorem mem_keys_made_iff : key ∈ (made edits).keys ↔ ∃ time, Arrived edits key time := by
  constructor
  · exact exists_arrived_of_mem_keys
  · rintro ⟨time, htime⟩
    have hlt := htime.lt
    have hmem := htime.mem_keys (edits.length - (time + 1))
    rwa [Nat.add_sub_cancel' (by omega), List.take_length] at hmem

/-- One key came before another. -/
def CameBefore (edits : List Edit) (earlier later : Key) : Prop :=
  ∃ time other, Arrived edits earlier time ∧ Arrived edits later other ∧ time < other

private theorem CameBefore.concat {earlier later : Key} (h : CameBefore edits earlier later)
    (hearlier : change.key (made edits) = earlier → change.leaves ≠ none)
    (hlater : change.key (made edits) = later → change.leaves ≠ none) :
    CameBefore (edits ++ [change]) earlier later := by
  obtain ⟨time, other, htime, hother, hlt⟩ := h
  exact ⟨time, other, htime.concat hearlier, hother.concat hlater, hlt⟩

/-- The keys of an array stand in the order of their arrival. A key that was
removed and written again counts by its second arrival. -/
theorem pairwise_cameBefore (edits : List Edit) :
    (made edits).keys.Pairwise (CameBefore edits) := by
  induction edits using List.reverseRecOn with
  | nil => exact List.Pairwise.nil
  | append_singleton edits change ih =>
    have hnodup := keys_nodup_made edits
    have hone := changesOneKey hnodup change
    rw [made_concat]
    cases hleaves : change.leaves with
    | none =>
      -- The other keys stay, and none of them is the one that is removed.
      rw [hone.keys_of_remove hleaves]
      refine (ih.sublist List.erase_sublist).imp_of_mem fun hearlier hlater hbefore => ?_
      refine hbefore.concat (fun hkey _ => ?_) (fun hkey _ => ?_)
      · exact hnodup.not_mem_erase (hkey ▸ hearlier)
      · exact hnodup.not_mem_erase (hkey ▸ hlater)
    | some value =>
      have hne : change.leaves ≠ none := by simp [hleaves]
      have hold : (made edits).keys.Pairwise (CameBefore (edits ++ [change])) :=
        ih.imp fun hbefore => hbefore.concat (fun _ => hne) (fun _ => hne)
      rw [hone.keys_of_write hne]
      split
      · exact hold
      · next hnew =>
        rw [List.pairwise_append]
        refine ⟨hold, List.pairwise_singleton .., fun key hkey last hlast => ?_⟩
        rw [List.mem_singleton] at hlast
        subst hlast
        obtain ⟨time, htime⟩ := mem_keys_made_iff.1 hkey
        exact ⟨time, edits.length, htime.concat fun _ => hne, arrived_last rfl hnew hleaves,
          htime.lt⟩

private theorem chronicles_made (edits : List Edit) : Chronicles edits (made edits) where
  keys_nodup := keys_nodup_made edits
  get?_eq_some_iff := get?_made_eq_some_iff edits
  mem_entries_iff key value :=
    (mem_entries_iff_get? (keys_nodup_made edits)).trans (get?_made_eq_some_iff edits key value)
  mem_keys_iff _ := mem_keys_made_iff
  arrived_once _ _ _ h h' := h.unique h'
  keys_by_arrival := by
    refine (pairwise_cameBefore edits).imp ?_
    rintro earlier later ⟨t, u, ht, hu, hlt⟩ time other htime hother
    rwa [htime.unique ht, hother.unique hu]

/-- An array holds what its history tells, in the order in which the keys came.
Each change shows at its own key alone, and writing and removing hand back the
value that the key had. -/
theorem history_kept (edits : List Edit) :
    Chronicles edits (made edits) ∧
    (∀ change, (made edits).ChangesOneKey change) ∧
    (∀ key value, (made edits).swapIn key value =
      ((made edits).get? key, made (edits ++ [.insert key value]))) ∧
    (∀ key, (made edits).takeOut key = ((made edits).get? key, made (edits ++ [.remove key]))) := by
  refine ⟨chronicles_made edits, changesOneKey (keys_nodup_made edits), ?_, ?_⟩
  · intro key value
    rw [swapIn_eq, made_concat]
    rfl
  · intro key
    rw [takeOut_eq, made_concat]
    rfl

end NativeBridge.OrderedArray
