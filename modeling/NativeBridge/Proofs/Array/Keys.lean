import NativeBridge.Proofs.Array.History
import NativeBridge.Proofs.Decimal.Canonical
import NativeBridge.Proofs.Value.IntegerText

namespace NativeBridge

open Decimal

namespace Key

private theorem ofString_intText (n : Int64) : ofString (Value.intText n) = int n := by
  have hread : (Value.intText n).toInt?.bind int64? = some n := by
    rw [Value.intText, (canonical_iff.2 rfl).toInt?_eq, Option.bind_some, int64?_eq_some_iff]
  rw [ofString, hread]
  exact if_pos rfl

private theorem ofString_of_ne_intText {s : String} (h : ∀ n, s ≠ Value.intText n) :
    ofString s = string s := by
  unfold ofString
  split
  · next n _ => exact if_neg (h n).symm
  · rfl

/-- A string is the integer it is the text of, or else it is itself. Texts that
merely read as an integer, with a plus sign or leading zeros, are themselves. -/
theorem ofString_cases (s : String) :
    (∃ n, s = Value.intText n ∧ ofString s = int n) ∨
      (∀ n, s ≠ Value.intText n) ∧ ofString s = string s := by
  by_cases h : ∃ n, s = Value.intText n
  · obtain ⟨n, rfl⟩ := h
    exact .inl ⟨n, rfl, ofString_intText n⟩
  · have hne : ∀ n, s ≠ Value.intText n := not_exists.1 h
    exact .inr ⟨hne, ofString_of_ne_intText hne⟩

/-- No two strings share a key. What is taken for an integer can be read back
from it. -/
theorem ofString_injective {s t : String} (h : ofString s = ofString t) : s = t := by
  obtain ⟨m, hs, hm⟩ | ⟨-, hs⟩ := ofString_cases s <;>
    obtain ⟨n, ht, hn⟩ | ⟨-, ht⟩ := ofString_cases t
  · rw [hm, hn, int.injEq] at h
    rw [hs, ht, h]
  · rw [hm, ht] at h
    cases h
  · rw [hs, hn] at h
    cases h
  · rw [hs, ht, string.injEq] at h
    exact h

/-- A string shares its key with an integer exactly when it is the canonical
text of that integer. -/
theorem ofString_eq_int_iff {s : String} {n : Int64} :
    ofString s = int n ↔ Canonical n.toInt s.toList := by
  rw [canonical_iff, String.toList_inj]
  constructor
  · intro h
    obtain ⟨m, hs, hm⟩ | ⟨-, hs⟩ := ofString_cases s
    · rw [hm, int.injEq] at h
      rw [hs, h, Value.intText]
    · rw [hs] at h
      cases h
  · rintro rfl
    exact ofString_intText n

/-- A key that offsets stand for, turned back into a box, stands for itself.
Keys that no offset stands for are the texts of integers kept as strings. -/
theorem ofValue_toValue {offset : Value} {key : Key} (h : ofValue offset = .ok key) :
    ofValue key.toValue = .ok key := by
  have hstring : ∀ s, ofString s = key → ofValue key.toValue = .ok key := by
    rintro s rfl
    obtain ⟨n, -, hn⟩ | ⟨-, hs⟩ := ofString_cases s
    · rw [hn]
      rfl
    · rw [hs, toValue, ofValue, hs]
  cases offset with
  | int n =>
    cases h
    rfl
  | bool b =>
    cases h
    rfl
  | double x =>
    rw [ofValue] at h
    cases hwhole : (Value.double x).asInt with
    | error error =>
      rw [hwhole] at h
      cases h
    | ok n =>
      rw [hwhole] at h
      cases h
      rfl
  | null =>
    cases h
    exact hstring "" (ofString_of_ne_intText fun n => (Value.intText_ne_empty n).symm)
  | string s =>
    cases h
    exact hstring s rfl
  | undefined => cases h
  | array handle => cases h
  | object handle => cases h

end Key

namespace OrderedArray

/-- A change that writes, if it does, at a key that some offset stands for or
behind all others. -/
def Edit.AtOffset : Edit → Prop
  | .insert key _ => ∃ offset, Key.ofValue offset = .ok key
  | .push _ => True
  | .remove _ => True

private theorem Edit.AtOffset.ofValue_key {change : Edit} (h : change.AtOffset) (a : OrderedArray)
    (hleaves : change.leaves ≠ none) :
    Key.ofValue (change.key a).toValue = .ok (change.key a) := by
  cases change with
  | insert key value =>
    obtain ⟨offset, hoffset⟩ := h
    exact Key.ofValue_toValue hoffset
  | push value => rfl
  | remove key => exact absurd rfl hleaves

/-- Each key in use stands for itself, if the array was written at offsets. Keys
that were removed do not matter. -/
theorem ofValue_of_mem_keys {edits : List Edit} (h : ∀ change ∈ edits, change.AtOffset) :
    ∀ key ∈ (made edits).keys, Key.ofValue key.toValue = .ok key := by
  induction edits using List.reverseRecOn with
  | nil =>
    intro key hkey
    cases hkey
  | append_singleton edits change ih =>
    have hold := ih fun other hother => h other (List.mem_append_left _ hother)
    have hone := changesOneKey (keys_nodup_made edits) change
    intro key hkey
    rw [made_concat] at hkey
    by_cases hleaves : change.leaves = none
    · rw [hone.keys_of_remove hleaves] at hkey
      exact hold key (List.mem_of_mem_erase hkey)
    · rw [hone.keys_of_write hleaves] at hkey
      split at hkey
      · exact hold key hkey
      · obtain hkey | hkey := List.mem_append.1 hkey
        · exact hold key hkey
        · rw [List.mem_singleton] at hkey
          have hchange : change.AtOffset := h change (by simp)
          exact hkey ▸ hchange.ofValue_key (made edits) hleaves

end OrderedArray

/-- No two strings share a key, and a string shares one with an integer exactly
when it is the canonical text of it. A key that an offset stands for stands for
itself. So where an array was written at such keys, the box of each key finds
the entry that has it. -/
theorem Key.offsets_kept_apart :
    (∀ s t : String, ∃ key other, Key.ofValue (.string s) = .ok key ∧
      Key.ofValue (.string t) = .ok other ∧ (key = other ↔ s = t)) ∧
    (∀ (s : String) (n : Int64), Key.ofValue (.string s) = Key.ofValue (.int n) ↔
      Canonical n.toInt s.toList) ∧
    (∀ offset key, Key.ofValue offset = .ok key → Key.ofValue key.toValue = .ok key) ∧
    (∀ edits : List OrderedArray.Edit, (∀ change ∈ edits, change.AtOffset) →
      ∀ position key value,
        (OrderedArray.made edits).entries[position]? = some (key, value) →
        Key.ofValue key.toValue = .ok key ∧
        (OrderedArray.made edits).position? key = some position ∧
        (OrderedArray.made edits).get? key = some value) := by
  refine ⟨fun s t => ?_, fun s n => ?_, fun offset key => Key.ofValue_toValue, ?_⟩
  · refine ⟨Key.ofString s, Key.ofString t, rfl, rfl, Key.ofString_injective, ?_⟩
    rintro rfl
    rfl
  · simp only [Key.ofValue, Except.ok.injEq, Key.ofString_eq_int_iff]
  · intro edits hedits position key value hentry
    have hnodup := OrderedArray.keys_nodup_made edits
    have hmem : (key, value) ∈ (OrderedArray.made edits).entries := List.mem_of_getElem? hentry
    refine ⟨?_, OrderedArray.position?_of_getElem? hnodup hentry, ?_⟩
    · exact OrderedArray.ofValue_of_mem_keys hedits key (List.mem_map_of_mem hmem)
    · exact (OrderedArray.mem_entries_iff_get? hnodup).1 hmem

/-- An integer given as its text, a text that only looks like one, and a value
appended. -/
def numbered : List OrderedArray.Edit :=
  [.insert (.int (-7)) (.int 1), .insert (.string "-0") (.int 2), .push (.int 3)]

/-- The text `-0` is no canonical text, so it stays a string, and the array has
its entry in the middle. -/
theorem Key.offsets_kept_apart_numbered :
    (∀ change ∈ numbered, change.AtOffset) ∧
    Key.ofValue (.string "-7") = .ok (.int (-7)) ∧
    Key.ofValue (.string "-0") = .ok (.string "-0") ∧
    (OrderedArray.made numbered).position? (.string "-0") = some 1 ∧
    (OrderedArray.made numbered).get? (.string "-0") = some (.int 2) := by
  obtain ⟨-, -, -, hentries⟩ := Key.offsets_kept_apart
  have hseven : Key.ofValue (.string "-7") = .ok (.int (-7)) := by
    have htext : Value.intText (-7) = "-7" := rfl
    rw [← htext]
    exact congrArg Except.ok (Key.ofString_intText (-7))
  have hzero : Key.ofValue (.string "-0") = .ok (.string "-0") := by
    refine congrArg Except.ok (Key.ofString_of_ne_intText fun n hn => ?_)
    have hcanonical : Canonical n.toInt ['-', '0'] :=
      canonical_iff.2 (congrArg String.toList hn)
    generalize n.toInt = k at hcanonical
    obtain ⟨_, hplain⟩ | ⟨_, _, hne⟩ := hcanonical
    · exact absurd (hplain.isDigit '-' List.mem_cons_self) (by decide)
    · exact hne rfl
  have hnumbered : ∀ change ∈ numbered, change.AtOffset := by
    intro change hchange
    simp only [numbered, List.mem_cons, List.not_mem_nil, or_false] at hchange
    obtain rfl | rfl | rfl := hchange
    · exact ⟨.string "-7", hseven⟩
    · exact ⟨.string "-0", hzero⟩
    · trivial
  obtain ⟨-, hposition, hget⟩ := hentries numbered hnumbered 1 (.string "-0") (.int 2) rfl
  exact ⟨hnumbered, hseven, hzero, hposition, hget⟩

end NativeBridge
