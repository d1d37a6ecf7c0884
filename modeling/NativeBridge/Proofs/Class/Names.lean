import NativeBridge.Proofs.Call.Spelling

namespace NativeBridge

namespace ClassName

/-- What stands between the backslashes of a text, with what is empty. Reading a
name keeps only what is not. -/
def parts (text : String) : List (List Char) := text.toList.splitOn separator

/-- There is no backslash at an end of the text, and no two of them in a row. An
empty text has an empty part. -/
def NoEmptyPart (text : String) : Prop := [] ∉ parts text

instance (text : String) : Decidable (NoEmptyPart text) :=
  inferInstanceAs (Decidable (_ ∉ _))

private theorem intercalate_parts (text : String) :
    [separator].intercalate (parts text) = text.toList :=
  List.intercalate_splitOn separator

/-- No part of a text has a separator in it, so a part is not taken apart
again. -/
theorem separator_not_mem_of_mem_parts {text : List Char} {part : List Char}
    (h : part ∈ text.splitOn separator) : separator ∉ part := by
  induction text generalizing part with
  | nil =>
    rw [List.splitOn_nil, List.mem_singleton] at h
    rw [h]
    exact List.not_mem_nil
  | cons c rest ih =>
    rw [List.splitOn_cons_eq_if_modifyHead] at h
    split at h
    · obtain rfl | h := List.mem_cons.1 h
      · exact List.not_mem_nil
      · exact ih h
    · rename_i hc
      obtain ⟨first, others, hsplit⟩ :=
        List.exists_cons_of_ne_nil (List.splitOn_ne_nil separator rest)
      rw [hsplit] at ih h
      obtain rfl | h := List.mem_cons.1 h
      · intro hmem
        obtain hsame | hmem := List.mem_cons.1 hmem
        · exact hc (by rw [hsame, beq_self_eq_true])
        · exact ih List.mem_cons_self hmem
      · exact ih (List.mem_cons_of_mem _ h)

/-- The segments of a path are the parts of its text that are not empty. -/
theorem mem_segments_iff {text name : String} :
    name ∈ segments text ↔ name.toList ∈ parts text ∧ name.toList ≠ [] := by
  rw [segments, List.mem_map]
  constructor
  · rintro ⟨part, hpart, rfl⟩
    obtain ⟨hmem, hne⟩ := List.mem_filter.1 hpart
    rw [String.toList_ofList]
    exact ⟨hmem, by simpa using hne⟩
  · rintro ⟨hmem, hne⟩
    exact ⟨name.toList, List.mem_filter.2 ⟨hmem, by simpa using hne⟩, String.ofList_toList⟩

/-- The characters of a written name: those of its parts, with one separator
between any two of them. -/
theorem toList_join (names : List String) :
    (join names).toList = [separator].intercalate (names.map String.toList) := by
  simp [join]

private theorem text_ofSegments (names : List String) : (ofSegments names).text = join names := by
  rw [ofSegments]
  cases hlast : names.getLast? with
  | none =>
    rw [List.getLast?_eq_none_iff.1 hlast]
    decide
  | some last => rw [text, List.dropLast_append_getLast? last hlast]

/-- A name that is read back has the parts that are not empty. They stand in
their old order, with one separator between them. -/
theorem toList_text_ofText (text : String) : (ofText text).text.toList =
    [separator].intercalate ((parts text).filter fun part => !part.isEmpty) := by
  rw [ofText, text_ofSegments, toList_join, segments, List.map_map]
  congr 1
  exact (List.map_congr_left fun _ _ => String.toList_ofList).trans (List.map_id _)

private theorem length_intercalate_add_one {parts : List (List Char)} (h : parts ≠ []) :
    ([separator].intercalate parts).length + 1 = (parts.map fun part => part.length + 1).sum := by
  induction parts with
  | nil => exact absurd rfl h
  | cons part rest ih =>
    cases rest with
    | nil => simp
    | cons next rest =>
      have hrest := ih (List.cons_ne_nil next rest)
      rw [List.intercalate_cons_cons, List.map_cons, List.sum_cons, ← hrest]
      simp only [List.length_append, List.length_singleton]
      omega

private theorem sum_length_eq (parts : List (List Char)) :
    (parts.map fun part => part.length + 1).sum =
      ((parts.filter fun part => !part.isEmpty).map fun part => part.length + 1).sum +
        parts.count [] := by
  induction parts with
  | nil => rfl
  | cons part rest ih =>
    cases part with
    | nil =>
      simp [ih]
      omega
    | cons c part =>
      simp [ih]
      omega

private theorem text_ofText_of_noEmptyPart {text : String} (h : NoEmptyPart text) :
    (ofText text).text = text := by
  have hall : ((parts text).filter fun part => !part.isEmpty) = parts text := by
    rw [List.filter_eq_self]
    intro part hpart
    rw [Bool.not_eq_true', List.isEmpty_eq_false_iff]
    rintro rfl
    exact h hpart
  rw [← String.toList_inj, toList_text_ofText, hall, intercalate_parts]

/-- With every empty part a separator goes as well, so a name with one comes
back shorter. Only the empty name has an empty part and nothing to lose. -/
theorem length_text_ofText_lt {text : String} (hne : text ≠ "") (h : ¬ NoEmptyPart text) :
    (ofText text).text.length < text.length := by
  have hempty : 0 < (parts text).count [] := List.count_pos_iff.2 (Decidable.not_not.1 h)
  have hlength : text.length + 1 = ((parts text).map fun part => part.length + 1).sum := by
    rw [parts, ← length_intercalate_add_one (List.splitOn_ne_nil _ _), List.intercalate_splitOn,
      String.length_toList]
  by_cases hnil : ((parts text).filter fun part => !part.isEmpty) = []
  · -- Nothing is left of the text.
    rw [← String.length_toList, toList_text_ofText, hnil, List.intercalate_nil, List.length_nil]
    exact Nat.pos_of_ne_zero fun hzero => hne (String.length_eq_zero_iff.1 hzero)
  · rw [sum_length_eq, ← length_intercalate_add_one hnil, ← toList_text_ofText,
      String.length_toList] at hlength
    omega

private theorem length_eq_of_sameName {first second : String} (h : Text.SameName first second) :
    first.length = second.length := by
  have hlength := congrArg List.length (sameName_iff_toList.1 h)
  rwa [List.length_map, List.length_map, String.length_toList, String.length_toList] at hlength

/-- A name is read back as it is written out when it has no empty part, or when
it is empty. Comparing without regard to case changes nothing, because case
keeps the length. -/
theorem sameName_text_ofText_iff {text : String} :
    Text.SameName (ofText text).text text ↔ text = "" ∨ NoEmptyPart text := by
  constructor
  · intro h
    by_cases hne : text = ""
    · exact .inl hne
    · refine .inr (Decidable.byContradiction fun hempty => ?_)
      have hshorter := length_text_ofText_lt hne hempty
      rw [length_eq_of_sameName h] at hshorter
      exact Nat.lt_irrefl _ hshorter
  · rintro (rfl | h)
    · decide
    · rw [text_ofText_of_noEmptyPart h]
      exact .refl text

/-- A name is looked up as it is written out when it does not begin with a
separator. Dropping one always makes the name shorter. -/
theorem sameName_dropLeadingSeparator_iff {text : String} :
    Text.SameName (Registry.dropLeadingSeparator text) text ↔
      text.toList.head? ≠ some separator := by
  constructor
  · intro h hhead
    have hlength := length_eq_of_sameName h
    obtain ⟨rest, htext⟩ := List.head?_eq_some_iff.1 hhead
    rw [← String.length_toList, toList_dropLeadingSeparator, if_pos hhead, htext, List.tail_cons,
      ← String.length_toList, htext, List.length_cons] at hlength
    omega
  · intro h
    rw [dropLeadingSeparator_of_head? h]
    exact .refl text

private theorem toList_text_inside_of_ne_nil {path : String} (h : segments path ≠ [])
    (simple : String) :
    ∃ c rest, c ≠ separator ∧ (inside path simple).text.toList = c :: rest := by
  obtain ⟨first, others, hsegments⟩ := List.exists_cons_of_ne_nil h
  have hmem : first ∈ segments path := by
    rw [hsegments]
    exact List.mem_cons_self
  obtain ⟨hpart, hne⟩ := mem_segments_iff.1 hmem
  obtain ⟨c, rest, hfirst⟩ := List.exists_cons_of_ne_nil hne
  have hseparator := separator_not_mem_of_mem_parts hpart
  rw [hfirst] at hseparator
  refine ⟨c, rest ++ separator :: (join (others ++ [simple])).toList, ?_, ?_⟩
  · rintro rfl
    exact hseparator List.mem_cons_self
  · rw [toList_text, inside, hsegments, toList_join, List.cons_append, List.map_cons,
      List.intercalate_cons_of_ne_nil (by simp), hfirst]
    simp

private theorem text_inside_of_eq_nil {path : String} (h : segments path = []) (simple : String) :
    (inside path simple).text = simple := by
  rw [← String.toList_inj, toList_text, inside, h]
  simp

/-- A full name begins with a separator only if its simple name does and
no namespace stands before it. The parts of a path are never empty, so
they cannot. -/
theorem head?_text_inside_iff {path simple : String} :
    (inside path simple).text.toList.head? ≠ some separator ↔
      segments path ≠ [] ∨ simple.toList.head? ≠ some separator := by
  by_cases h : segments path = []
  · rw [text_inside_of_eq_nil h, h]
    simp
  · obtain ⟨c, rest, hne, htext⟩ := toList_text_inside_of_ne_nil h simple
    simp [htext, hne, h]

private theorem text_inside_eq_empty_iff {path simple : String} :
    (inside path simple).text = "" ↔ segments path = [] ∧ simple = "" := by
  by_cases h : segments path = []
  · rw [text_inside_of_eq_nil h, and_iff_right h]
  · obtain ⟨c, rest, hne, htext⟩ := toList_text_inside_of_ne_nil h simple
    rw [← String.toList_inj, htext]
    simp [h]

private theorem parts_text (name : ClassName) (h : ∀ part ∈ name.path, separator ∉ part.toList) :
    parts name.text = name.path.map String.toList ++ parts name.simple := by
  obtain ⟨simple, path⟩ := name
  rw [parts, toList_text]
  induction path with
  | nil => rw [List.nil_append, List.map_singleton, List.intercalate_singleton]; rfl
  | cons first others ih =>
    obtain ⟨hfirst, hothers⟩ := List.forall_mem_cons.1 h
    rw [List.cons_append, List.map_cons, List.intercalate_cons_of_ne_nil (by simp),
      List.append_assoc, List.singleton_append,
      List.splitOn_append_cons_self_of_not_mem hfirst, ih hothers]
    rfl

/-- Whether a full name has an empty part is up to its simple name. The parts of
the path are not empty, and none of them has a separator in it. -/
theorem noEmptyPart_text_inside_iff {path simple : String} :
    NoEmptyPart (inside path simple).text ↔ NoEmptyPart simple := by
  have hseparator : ∀ part ∈ (inside path simple).path, separator ∉ part.toList :=
    fun part hpart => separator_not_mem_of_mem_parts (mem_segments_iff.1 hpart).1
  have hpath : [] ∉ (segments path).map String.toList := by
    rw [List.mem_map]
    rintro ⟨part, hpart, hnil⟩
    exact (mem_segments_iff.1 hpart).2 hnil
  rw [NoEmptyPart, parts_text _ hseparator, List.mem_append, NoEmptyPart]
  exact not_congr (or_iff_right hpath)

/-- A simple name inside a path has no empty part, or there is neither a name
nor a path. These are the names that a class is found under as a parent. -/
def ReadsBack (path simple : String) : Prop :=
  NoEmptyPart simple ∨ (segments path = [] ∧ simple = "")

instance (path simple : String) : Decidable (ReadsBack path simple) :=
  inferInstanceAs (Decidable (_ ∨ _))

/-- Written out and read back as a parent's name, a full name is the same up to
case for exactly these simple names. -/
theorem sameName_text_ofText_inside_iff {path simple : String} :
    Text.SameName (ofText (inside path simple).text).text (inside path simple).text ↔
      ReadsBack path simple := by
  rw [sameName_text_ofText_iff, text_inside_eq_empty_iff, noEmptyPart_text_inside_iff, or_comm]
  rfl

end ClassName

end NativeBridge
