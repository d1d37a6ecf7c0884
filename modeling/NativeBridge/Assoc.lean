/-!
# Association lists in order of insertion

Entries keep the order in which their keys first came. Writing a present key keeps its place;
removing a key and writing it again moves it to the end. One equation tells what a look-up sees
after each operation.
-/

namespace NativeBridge.Assoc

variable {κ ν : Type} [DecidableEq κ]

/-- The value at a key: the one of the first entry with that key. -/
def find? (key : κ) : List (κ × ν) → Option ν
  | [] => none
  | (k, v) :: rest => if k = key then some v else find? key rest

/-- Writes a value at a key, in place when the key is present and at the end
otherwise. -/
def put (key : κ) (value : ν) : List (κ × ν) → List (κ × ν)
  | [] => [(key, value)]
  | (k, v) :: rest => if k = key then (k, value) :: rest else (k, v) :: put key value rest

def erase (key : κ) : List (κ × ν) → List (κ × ν)
  | [] => []
  | (k, v) :: rest => if k = key then rest else (k, v) :: erase key rest

/-- A key finds the value that was put there, and every other key finds what it
found before. -/
theorem find?_put (key other : κ) (value : ν) (entries : List (κ × ν)) :
    find? other (put key value entries) =
      if key = other then some value else find? other entries := by
  induction entries with
  | nil => simp [put, find?]
  | cons entry rest ih =>
    obtain ⟨k, v⟩ := entry
    by_cases hk : k = key <;> by_cases ho : key = other <;> by_cases hko : k = other <;>
      simp_all [put, find?]

/-- A value put at a key in use leaves the keys and their order alone. -/
theorem map_fst_put_of_find?_eq_some {key : κ} {value old : ν} {entries : List (κ × ν)}
    (h : find? key entries = some old) :
    (put key value entries).map Prod.fst = entries.map Prod.fst := by
  induction entries with
  | nil => simp [find?] at h
  | cons entry rest ih =>
    obtain ⟨k, v⟩ := entry
    by_cases hk : k = key <;> simp_all [put, find?]

/-- A value put at a new key comes behind all entries. -/
theorem put_of_find?_eq_none {key : κ} {value : ν} {entries : List (κ × ν)}
    (h : find? key entries = none) : put key value entries = entries ++ [(key, value)] := by
  induction entries with
  | nil => rfl
  | cons entry rest ih =>
    obtain ⟨k, v⟩ := entry
    by_cases hk : k = key <;> simp_all [put, find?]

/-- A key finds nothing exactly when no entry has it. -/
theorem find?_eq_none_iff {key : κ} {entries : List (κ × ν)} :
    find? key entries = none ↔ key ∉ entries.map Prod.fst := by
  induction entries with
  | nil => simp [find?]
  | cons entry rest ih =>
    obtain ⟨k, v⟩ := entry
    by_cases hk : k = key <;> simp_all [find?, eq_comm]

/-- Removing a key takes at most one entry out and keeps the order of the
others. -/
theorem erase_sublist (key : κ) (entries : List (κ × ν)) :
    (erase key entries).Sublist entries := by
  induction entries with
  | nil => exact List.Sublist.refl _
  | cons entry rest ih =>
    obtain ⟨k, v⟩ := entry
    by_cases hk : k = key
    · rw [erase, if_pos hk]
      exact List.sublist_cons_self _ _
    · rw [erase, if_neg hk]
      exact ih.cons_cons _

/-- Removing a key that occurs once hides it and no other key. -/
theorem find?_erase {key : κ} (other : κ) {entries : List (κ × ν)}
    (h : (entries.map Prod.fst).Nodup) :
    find? other (erase key entries) = if key = other then none else find? other entries := by
  induction entries with
  | nil => simp [erase, find?]
  | cons entry rest ih =>
    obtain ⟨k, v⟩ := entry
    simp only [List.map_cons, List.nodup_cons] at h
    by_cases hk : k = key
    · subst hk
      by_cases ho : k = other
      · subst ho
        simpa [erase] using find?_eq_none_iff.2 h.1
      · simp [erase, find?, ho]
    · by_cases ho : k = other
      · subst ho
        simp [erase, find?, hk, Ne.symm hk]
      · simp [erase, find?, hk, ho, ih h.2]

/-- In a list whose entries have their keys in them, and no key twice, looking
for a key finds the entry that has it. -/
theorem find?_key_eq_some_iff {α : Type} {keyOf : α → κ} {entries : List α}
    (h : (entries.map keyOf).Nodup) {key : κ} {entry : α} :
    entries.find? (fun other => decide (keyOf other = key)) = some entry ↔
      entry ∈ entries ∧ keyOf entry = key := by
  induction entries with
  | nil => simp
  | cons first rest ih =>
    simp only [List.map_cons, List.nodup_cons, List.mem_map, not_exists, not_and] at h
    by_cases hfirst : keyOf first = key
    · have hnot : ∀ other ∈ rest, keyOf other ≠ key := fun other hother => hfirst ▸ h.1 other hother
      rw [List.find?_cons_of_pos (by simpa using hfirst), Option.some_inj]
      constructor
      · rintro rfl
        exact ⟨List.mem_cons_self, hfirst⟩
      · rintro ⟨hmem, hkey⟩
        obtain rfl | hmem := List.mem_cons.1 hmem
        · rfl
        · exact absurd hkey (hnot entry hmem)
    · rw [List.find?_cons_of_neg (by simpa using hfirst), ih h.2, List.mem_cons]
      constructor
      · rintro ⟨hmem, hkey⟩
        exact ⟨.inr hmem, hkey⟩
      · rintro ⟨rfl | hmem, hkey⟩
        · exact absurd hkey hfirst
        · exact ⟨hmem, hkey⟩

end NativeBridge.Assoc
