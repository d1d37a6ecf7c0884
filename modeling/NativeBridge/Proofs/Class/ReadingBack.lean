import Mathlib.Data.Set.Function
import NativeBridge.Proofs.Class.Names

namespace NativeBridge.ClassName

/-- A text that may stand between separators: it is not empty, and there is no
separator in it. -/
def IsPart (part : String) : Prop := part ≠ "" ∧ separator ∉ part.toList

instance (part : String) : Decidable (IsPart part) := inferInstanceAs (Decidable (_ ∧ _))

/-- The simple name and all the namespaces around it may stand between
separators. A name put together from a path and a simple name need not be of
this kind, for its simple name is taken as it is. -/
structure Plain (name : ClassName) : Prop where
  simple : IsPart name.simple
  path : ∀ part ∈ name.path, IsPart part

/-- What a text is taken apart into may stand between separators: empty parts
are dropped, and no part has a separator in it. -/
theorem isPart_of_mem_segments {text part : String} (h : part ∈ segments text) : IsPart part := by
  obtain ⟨hpart, hne⟩ := mem_segments_iff.1 h
  refine ⟨?_, separator_not_mem_of_mem_parts hpart⟩
  rintro rfl
  exact hne rfl

/-- A separator parts a text in two, so reading what was joined reads the parts
one after the other. -/
theorem segments_append (first second : String) :
    segments (first ++ String.singleton separator ++ second) =
      segments first ++ segments second := by
  simp only [segments, String.toList_append, String.toList_singleton, List.append_assoc,
    List.singleton_append, List.splitOn_append_cons_self, List.filter_append, List.map_append]

private theorem segments_of_isPart {part : String} (h : IsPart part) : segments part = [part] := by
  have hsplit : part.toList.splitOn separator = [part.toList] := by
    have hjoin : List.splitOn separator (List.intercalate [separator] [part.toList]) =
        [part.toList] :=
      List.splitOn_intercalate separator (by simpa using h.2) (List.cons_ne_nil _ _)
    rwa [List.intercalate_singleton] at hjoin
  have hne : (!part.toList.isEmpty) = true := by
    rw [Bool.not_eq_true', List.isEmpty_eq_false_iff]
    exact fun hnil => h.1 (String.toList_inj.1 hnil)
  rw [segments, hsplit, List.filter_cons, if_pos hne, List.filter_nil, List.map_singleton,
    String.ofList_toList]

private theorem join_singleton (part : String) : join [part] = part := by
  rw [← String.toList_inj, toList_join, List.map_singleton, List.intercalate_singleton]

private theorem join_cons {part : String} {others : List String} (h : others ≠ []) :
    join (part :: others) = part ++ String.singleton separator ++ join others := by
  rw [← String.toList_inj]
  simp only [toList_join, String.toList_append, String.toList_singleton, List.map_cons,
    List.intercalate_cons_of_ne_nil (mt List.map_eq_nil_iff.1 h)]

/-- Parts that are joined are found again, in their order. There may be none. -/
theorem segments_join {names : List String} (h : ∀ part ∈ names, IsPart part) :
    segments (join names) = names := by
  induction names with
  | nil => rfl
  | cons part others ih =>
    obtain ⟨hpart, hothers⟩ := List.forall_mem_cons.1 h
    by_cases hnil : others = []
    · rw [hnil, join_singleton, segments_of_isPart hpart]
    · rw [join_cons hnil, segments_append, segments_of_isPart hpart, ih hothers,
        List.singleton_append]

private theorem ofSegments_concat (path : List String) (simple : String) :
    ofSegments (path ++ [simple]) = ⟨simple, path⟩ := by
  rw [ofSegments, List.getLast?_concat, List.dropLast_concat]

/-- A plain name is what is read back from its own text. -/
theorem ofText_text_of_plain {name : ClassName} (h : name.Plain) : ofText name.text = name := by
  have hparts : ∀ part ∈ name.path ++ [name.simple], IsPart part := by
    intro part hpart
    obtain hpath | hsimple := List.mem_append.1 hpart
    · exact h.path part hpath
    · exact List.mem_singleton.1 hsimple ▸ h.simple
  rw [ofText, text, segments_join hparts, ofSegments_concat]

/-- What is read from a text is plain, or it is the empty name where the text
has no parts. -/
theorem ofText_eq_or_plain (text : String) : ofText text = global "" ∨ (ofText text).Plain := by
  rw [ofText, ofSegments]
  cases hlast : (segments text).getLast? with
  | none => exact .inl rfl
  | some simple =>
    have hparts : ∀ part ∈ segments text, IsPart part := fun _ => isPart_of_mem_segments
    refine .inr ⟨hparts simple (List.mem_of_getLast? hlast), fun part hpart => ?_⟩
    exact hparts part (List.dropLast_subset _ hpart)

/-- The names that are read back from their own texts are the plain ones and the
empty one, and no others. -/
theorem ofText_text_iff {name : ClassName} :
    ofText name.text = name ↔ name.Plain ∨ name = global "" := by
  constructor
  · intro h
    rw [← h]
    exact (ofText_eq_or_plain name.text).symm
  · rintro (h | rfl)
    · exact ofText_text_of_plain h
    · rfl

/-- Behind a path and a separator a simple name is read as it is, unless it has
a separator in it or is empty. An empty one leaves the last namespace of the
path as the simple name, if there is one. -/
theorem ofText_append_iff {path simple : String} :
    ofText (path ++ String.singleton separator ++ simple) = inside path simple ↔
      IsPart simple ∨ (simple = "" ∧ segments path = []) := by
  constructor
  · intro h
    obtain hempty | hplain := ofText_eq_or_plain (path ++ String.singleton separator ++ simple)
    · rw [h] at hempty
      have hsimple : simple = "" := congrArg ClassName.simple hempty
      have hpath : segments path = [] := congrArg ClassName.path hempty
      exact .inr ⟨hsimple, hpath⟩
    · rw [h] at hplain
      exact .inl hplain.simple
  · rintro (h | ⟨rfl, h⟩)
    · rw [ofText, segments_append, segments_of_isPart h, ofSegments_concat]
      rfl
    · rw [ofText, segments_append, inside, h]
      rfl

/-- What is read from a text is read back from its own text, and these are the
plain names and the empty one. No two plain names have the same text. A simple
name inside a path is what is read from the path, a separator and the simple
name, if that is plain. -/
theorem names_read_back :
    (∀ text, ofText (ofText text).text = ofText text) ∧
    (∀ name : ClassName, ofText name.text = name ↔ name.Plain ∨ name = global "") ∧
    Set.InjOn text {name | name.Plain} ∧
    (∀ path simple, ofText (path ++ String.singleton separator ++ simple) = inside path simple ↔
      IsPart simple ∨ (simple = "" ∧ segments path = [])) := by
  refine ⟨fun text => ?_, fun _ => ofText_text_iff, ?_, fun _ _ => ofText_append_iff⟩
  · exact ofText_text_iff.2 (ofText_eq_or_plain text).symm
  · intro name hname other hother htext
    rw [← ofText_text_of_plain hname, htext, ofText_text_of_plain hother]

end NativeBridge.ClassName
