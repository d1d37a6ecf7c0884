import NativeBridge.Proofs.Call.Spelling
import NativeBridge.Proofs.Class.Generated
import NativeBridge.Proofs.Registry.OwnName

namespace NativeBridge

variable {σ ω : Type}

/-- The methods of a class, and their positions by their folded names. It is
filled one method after the other, until one has a name that is taken. -/
structure MethodIndex (σ ω : Type) where
  entries : Array (Method σ ω)
  positions : Std.HashMap String Nat
  bounded : ∀ (key : String) (i : Nat), positions[key]? = some i → i < entries.size

namespace MethodIndex

/-- The index before any method has been entered. -/
def empty : MethodIndex σ ω where
  entries := #[]
  positions := ∅
  bounded := by simp

/-- Takes in one more method, unless its name is taken. -/
def enter (owner : Identity) (index : MethodIndex σ ω) (method : Method σ ω) :
    Except (Method σ ω) (MethodIndex σ ω) :=
  if Text.foldCase method.name ∈ index.positions then .error method
  else .ok {
    entries := index.entries.push { method with id := Identity.ofMethod owner method.name }
    positions := index.positions.insert (Text.foldCase method.name) index.entries.size
    bounded := by
      intro key i hposition
      rw [Std.HashMap.getElem?_insert] at hposition
      rw [Array.size_push]
      split at hposition
      · cases hposition
        exact Nat.lt_succ_self _
      · exact Nat.lt_succ_of_lt (index.bounded key i hposition) }

/-- The index of a table, or the method that it is refused for. -/
def build (owner : Identity) (table : MethodTable σ ω) : Except (Method σ ω) (MethodIndex σ ω) :=
  table.foldlM (enter owner) empty

/-- The method of a name. The case of ASCII letters does not matter. -/
def find? (index : MethodIndex σ ω) (name : String) : Option (Method σ ω) :=
  match h : index.positions[Text.foldCase name]? with
  | some i =>
    have hlt := index.bounded _ i h
    some index.entries[i]
  | none => none

/-- The index has the methods of a table, each under its folded name. -/
structure Lists (index : MethodIndex σ ω) (methods : MethodTable σ ω) : Prop where
  entries_eq : index.entries.toList = methods
  position_iff : ∀ (key : String) (i : Nat), index.positions[key]? = some i ↔
    ∃ method, index.entries[i]? = some method ∧ Text.foldCase method.name = key

private theorem lists_empty : (empty : MethodIndex σ ω).Lists [] where
  entries_eq := rfl
  position_iff := by simp [empty]

namespace Lists

variable {index : MethodIndex σ ω} {methods : MethodTable σ ω}

private theorem mem_positions_iff (h : index.Lists methods) {key : String} :
    key ∈ index.positions ↔ ∃ method ∈ methods, Text.foldCase method.name = key := by
  rw [Std.HashMap.mem_iff_isSome_getElem?, Option.isSome_iff_exists, ← h.entries_eq]
  constructor
  · rintro ⟨i, hi⟩
    obtain ⟨method, hmethod, hkey⟩ := (h.position_iff key i).1 hi
    exact ⟨method, Array.mem_toList_iff.2 (Array.mem_of_getElem? hmethod), hkey⟩
  · rintro ⟨method, hmem, hkey⟩
    obtain ⟨i, hi⟩ := Array.mem_iff_getElem?.1 (Array.mem_toList_iff.1 hmem)
    exact ⟨i, (h.position_iff key i).2 ⟨method, hi, hkey⟩⟩

/-- A name is kept with one position, so no two methods have it. Filling an
index is what tells the names of a table apart. -/
theorem distinct (h : index.Lists methods) : methods.Distinct := by
  rw [MethodTable.Distinct, List.nodup_iff_getElem?_ne_getElem?]
  intro i j hij hj hsame
  rw [← h.entries_eq, List.getElem?_map, List.getElem?_map, Array.getElem?_toList,
    Array.getElem?_toList] at hsame
  rw [← h.entries_eq, List.length_map, Array.length_toList] at hj
  rw [Array.getElem?_eq_getElem hj, Option.map_some, Option.map_eq_some_iff] at hsame
  obtain ⟨first, hfirst, hname⟩ := hsame
  have hat := (h.position_iff _ i).2 ⟨first, hfirst, hname⟩
  have hat' := (h.position_iff _ j).2 ⟨_, Array.getElem?_eq_getElem hj, rfl⟩
  rw [hat, Option.some_inj] at hat'
  exact Nat.ne_of_lt hij hat'

/-- Looking a name up in the index and looking for it in the table comes to the
same, found or not. -/
theorem find?_eq (h : index.Lists methods) (name : String) :
    index.find? name = methods.find? name := by
  rw [MethodIndex.find?]
  split
  · rename_i i hposition
    have hlt := index.bounded _ i hposition
    obtain ⟨method, hmethod, hname⟩ := (h.position_iff _ i).1 hposition
    rw [Array.getElem?_eq_getElem hlt, Option.some_inj] at hmethod
    have hmem : method ∈ methods := by
      rw [← h.entries_eq, Array.mem_toList_iff, ← hmethod]
      exact Array.getElem_mem hlt
    dsimp only
    rw [hmethod]
    exact (h.distinct.find?_eq_some_iff.2 ⟨hmem, hname⟩).symm
  · rename_i hnone
    refine (MethodTable.find?_eq_none_iff.2 fun method hmem hname => ?_).symm
    have hkept := h.mem_positions_iff.2 ⟨method, hmem, hname⟩
    rw [Std.HashMap.mem_iff_isSome_getElem?, hnone] at hkept
    cases hkept

/-- A method is entered behind the others as long as none of them has its name.
The identity it gets is that of its own spelling in the class. -/
theorem enter (h : index.Lists methods) (owner : Identity) {method : Method σ ω}
    (hnew : Text.foldCase method.name ∉ index.positions) :
    ∃ after, index.enter owner method = .ok after ∧
      (∀ key, key ∈ after.positions ↔ Text.foldCase method.name = key ∨ key ∈ index.positions) ∧
      after.Lists (methods ++ [{ method with id := Identity.ofMethod owner method.name }]) := by
  refine ⟨_, if_neg hnew, fun key => by simp, ?_, fun key i => ?_⟩
  · rw [Array.toList_push, h.entries_eq]
  · rw [Std.HashMap.getElem?_insert, Array.getElem?_push]
    by_cases hkey : Text.foldCase method.name = key
    · subst hkey
      rw [if_pos (beq_self_eq_true _)]
      by_cases hi : i = index.entries.size
      · simp [hi]
      · have hnone : index.positions[Text.foldCase method.name]? = none :=
          Std.HashMap.getElem?_eq_none hnew
        rw [if_neg hi, ← h.position_iff, hnone]
        simp [Ne.symm hi]
    · rw [if_neg (by simpa using hkey)]
      by_cases hi : i = index.entries.size
      · have hlt := index.bounded key i
        subst hi
        simpa [hkey] using hlt
      · rw [if_neg hi]
        exact h.position_iff key i

/-- Entering the methods of a table one after the other. `seen` are the names
that are taken; the index and the search for repetitions stop at the same
method. -/
theorem foldlM (h : index.Lists methods) (owner : Identity) {seen : List String}
    (hseen : ∀ key, key ∈ seen ↔ key ∈ index.positions) (table : MethodTable σ ω) :
    match MethodTable.firstRepeat? seen table with
    | some method => table.foldlM (MethodIndex.enter owner) index = .error method
    | none => ∃ after, table.foldlM (MethodIndex.enter owner) index = .ok after ∧
        after.Lists (methods ++ NativeClass.ownMethods owner table) := by
  induction table generalizing index methods seen with
  | nil => exact ⟨index, rfl, by rwa [NativeClass.ownMethods, List.map_nil, List.append_nil]⟩
  | cons method rest ih =>
    rw [MethodTable.firstRepeat?, List.foldlM_cons]
    by_cases hmem : Text.foldCase method.name ∈ index.positions
    · rw [if_pos ((hseen _).2 hmem), MethodIndex.enter, if_pos hmem]
      rfl
    · obtain ⟨next, henter, htaken, hnext⟩ := h.enter owner hmem
      have hseen' : ∀ key, key ∈ Text.foldCase method.name :: seen ↔ key ∈ next.positions := by
        intro key
        rw [List.mem_cons, hseen, htaken, eq_comm]
      have hall := ih hnext hseen'
      rw [List.append_assoc] at hall
      rw [if_neg (mt (hseen _).1 hmem), henter]
      exact hall

end Lists

/-- Building an index fails for the first method whose name an earlier one has,
and for no other reason. -/
theorem build_cases (owner : Identity) (table : MethodTable σ ω) :
    match MethodTable.firstRepeat? [] table with
    | some method => build owner table = .error method
    | none => ∃ index, build owner table = .ok index ∧
        index.Lists (NativeClass.ownMethods owner table) :=
  lists_empty.foldlM owner (by simp [empty]) table

end MethodIndex

namespace MethodTable

variable {table : MethodTable σ ω}

/-- Two methods of a table have names that are equal save for the case of ASCII
letters. -/
def RepeatsName (table : MethodTable σ ω) : Prop :=
  ∃ (i j : Nat) (first second : Method σ ω), i < j ∧ table[i]? = some first ∧
    table[j]? = some second ∧ EqualIgnoringCase first.name second.name

/-- The first method in the order of the table whose name an earlier one has. -/
def IsFirstRepeat (table : MethodTable σ ω) (method : Method σ ω) : Prop :=
  ∃ earlier later, table = earlier ++ method :: later ∧ ¬ RepeatsName earlier ∧
    ∃ other ∈ earlier, EqualIgnoringCase other.name method.name

private theorem repeatsName_iff : table.RepeatsName ↔ ¬ table.Distinct := by
  rw [Distinct, List.nodup_iff_getElem?_ne_getElem?, List.length_map]
  constructor
  · rintro ⟨i, j, first, second, hij, hfirst, hsecond, hsame⟩ hdistinct
    refine hdistinct i j hij (List.getElem?_eq_some_iff.1 hsecond).1 ?_
    rw [List.getElem?_map, List.getElem?_map, hfirst, hsecond]
    exact congrArg some (sameName_iff.2 hsame)
  · intro hrepeat
    obtain ⟨i, j, hij, hj, hsame⟩ : ∃ i j, i < j ∧ j < table.length ∧
        (table.map fun method => Text.foldCase method.name)[i]? =
          (table.map fun method => Text.foldCase method.name)[j]? := by
      by_contra hnone
      exact hrepeat fun i j hij hj hsame => hnone ⟨i, j, hij, hj, hsame⟩
    rw [List.getElem?_map, List.getElem?_map, List.getElem?_eq_getElem hj, Option.map_some,
      Option.map_eq_some_iff] at hsame
    obtain ⟨first, hfirst, hname⟩ := hsame
    exact ⟨i, j, first, table[j], hij, hfirst, List.getElem?_eq_getElem hj, sameName_iff.1 hname⟩

private theorem Distinct.position_unique (h : table.Distinct) {i j : Nat}
    {first second : Method σ ω} (hfirst : table[i]? = some first)
    (hsecond : table[j]? = some second)
    (hsame : Text.SameName first.name second.name) : i = j := by
  obtain hlt | heq | hlt := Nat.lt_trichotomy i j
  · exact absurd h (repeatsName_iff.1 ⟨i, j, first, second, hlt, hfirst, hsecond,
      sameName_iff.1 hsame⟩)
  · exact heq
  · exact absurd h (repeatsName_iff.1 ⟨j, i, second, first, hlt, hsecond, hfirst,
      sameName_iff.1 hsame.symm⟩)

/-- What is left of a table is what does not have the name, in any spelling. -/
theorem mem_without_iff {name : String} {method : Method σ ω} :
    method ∈ table.without name ↔ method ∈ table ∧ ¬ EqualIgnoringCase method.name name := by
  rw [without, List.mem_filter, ← sameName_iff]
  simp

/-- A table is passed up to the method that repeats a name, of an earlier method
or one that was taken before. -/
theorem firstRepeat?_eq_some_iff {seen : List String} {method : Method σ ω} :
    firstRepeat? seen table = some method ↔
      ∃ earlier later, table = earlier ++ method :: later ∧ firstRepeat? seen earlier = none ∧
        (Text.foldCase method.name ∈ seen ∨
          ∃ other ∈ earlier, Text.SameName other.name method.name) := by
  induction table generalizing seen with
  | nil => simp [firstRepeat?]
  | cons first rest ih =>
    rw [firstRepeat?]
    constructor
    · intro hrepeat
      split at hrepeat
      · rename_i hmem
        cases hrepeat
        exact ⟨[], rest, rfl, rfl, .inl hmem⟩
      · rename_i hnew
        obtain ⟨earlier, later, rfl, hnone, hsame⟩ := ih.1 hrepeat
        refine ⟨first :: earlier, later, rfl, ?_, ?_⟩
        · rw [firstRepeat?, if_neg hnew, hnone]
        · obtain hmem | ⟨other, hmem, hsame⟩ := hsame
          · obtain hfirst | hmem := List.mem_cons.1 hmem
            · exact .inr ⟨first, List.mem_cons_self, hfirst.symm⟩
            · exact .inl hmem
          · exact .inr ⟨other, List.mem_cons_of_mem _ hmem, hsame⟩
    · rintro ⟨earlier, later, htable, hnone, hsame⟩
      cases earlier with
      | nil =>
        cases htable
        obtain hmem | ⟨other, hmem, -⟩ := hsame
        · exact if_pos hmem
        · cases hmem
      | cons other earlier =>
        cases htable
        rw [firstRepeat?] at hnone
        split at hnone
        · cases hnone
        · rename_i hnew
          rw [if_neg hnew]
          refine ih.2 ⟨earlier, later, rfl, hnone, ?_⟩
          obtain hmem | ⟨other, hmem, hsame⟩ := hsame
          · exact .inl (List.mem_cons_of_mem _ hmem)
          · obtain rfl | hmem := List.mem_cons.1 hmem
            · exact .inl (hsame ▸ List.mem_cons_self)
            · exact .inr ⟨other, hmem, hsame⟩

/-- The method that a table is refused for is the first one whose name an
earlier one has, said without the names that are taken. -/
theorem firstRepeat?_nil_eq_some_iff {method : Method σ ω} :
    firstRepeat? [] table = some method ↔ table.IsFirstRepeat method := by
  rw [firstRepeat?_eq_some_iff]
  constructor
  · rintro ⟨earlier, later, htable, hnone, hmem | ⟨other, hmem, hsame⟩⟩
    · cases hmem
    · refine ⟨earlier, later, htable, ?_, other, hmem, sameName_iff.1 hsame⟩
      rw [repeatsName_iff, not_not]
      exact firstRepeat?_nil_eq_none_iff.1 hnone
  · rintro ⟨earlier, later, htable, hnone, other, hmem, hsame⟩
    refine ⟨earlier, later, htable, ?_, .inr ⟨other, hmem, sameName_iff.2 hsame⟩⟩
    rw [repeatsName_iff, not_not] at hnone
    exact firstRepeat?_nil_eq_none_iff.2 hnone

/-- Only the case of ASCII letters is folded. -/
example : (firstRepeat? [] (["é", "seek", "É", "Seek"].map fun name =>
    (.declare name [] .none (pure ()) : Method Sample Unit))).map Method.name = some "Seek" := by
  decide +kernel

end MethodTable

namespace NativeClass

/-- A name finds the one method of the table that has it, under its identity in
the class. -/
structure FindsByName (cls : NativeClass σ ω) (table : MethodTable σ ω) : Prop where
  found_iff : ∀ name, (cls.method? name).isSome = true ↔
    ∃ method ∈ table, EqualIgnoringCase method.name name
  found : ∀ name entry, cls.method? name = some entry → ∃ (i : Nat) (method : Method σ ω),
    table[i]? = some method ∧ EqualIgnoringCase method.name name ∧
    entry = { method with id := Identity.ofMethod cls.identity method.name } ∧
    ∀ (j : Nat) (other : Method σ ω), table[j]? = some other →
      EqualIgnoringCase other.name name → j = i

/-- The index finds what looking through the methods of the class finds. -/
def KeptIn (cls : NativeClass σ ω) (index : MethodIndex σ ω) : Prop :=
  index.entries.toList = cls.methods ∧ ∀ name, index.find? name = cls.method? name

variable {simple path : String} {table : MethodTable σ ω} {cls : NativeClass σ ω}

private theorem register_of_firstRepeat? (simple path : String) {method : Method σ ω}
    (h : MethodTable.firstRepeat? [] table = some method) :
    register simple path table =
      .error (.duplicateMethod (ClassName.inside path simple).text method.name) := by
  unfold register
  split
  · rename_i other hother
    rw [h, Option.some_inj] at hother
    rw [hother]
  · rename_i hnone
    rw [h] at hnone
    cases hnone

/-- A table of distinct names is registered, under whatever name and path. -/
theorem exists_register (simple path : String) (h : table.Distinct) :
    ∃ cls, register simple path table = .ok cls := by
  unfold register
  split
  · rename_i method hmethod
    rw [MethodTable.firstRepeat?_nil_eq_none_iff.2 h] at hmethod
    cases hmethod
  · exact ⟨_, rfl⟩

private theorem distinct_of_register (h : register simple path table = .ok cls) :
    table.Distinct := by
  rw [← MethodTable.firstRepeat?_nil_eq_none_iff]
  by_contra hrepeat
  obtain ⟨method, hmethod⟩ := Option.ne_none_iff_exists'.1 hrepeat
  rw [register_of_firstRepeat? simple path hmethod] at h
  cases h

/-- A class finds a method exactly when the table had it under that name, and it
finds it under its identity in the class. -/
theorem method?_eq_some_iff (h : register simple path table = .ok cls) {name : String}
    {entry : Method σ ω} : cls.method? name = some entry ↔
      ∃ method ∈ table, EqualIgnoringCase method.name name ∧
        entry = { method with id := Identity.ofMethod cls.identity method.name } := by
  rw [method?, cls.distinct.find?_eq_some_iff, (assembledOn_of_register h).methods_eq, ownMethods,
    List.mem_map]
  constructor
  · rintro ⟨⟨method, hmem, rfl⟩, hname⟩
    exact ⟨method, hmem, sameName_iff.1 hname, rfl⟩
  · rintro ⟨method, hmem, hname, rfl⟩
    exact ⟨⟨method, hmem, rfl⟩, sameName_iff.2 hname⟩

/-- A registered class finds its methods by name. The positions show that each
name finds one method of the table and no other. -/
theorem findsByName (h : register simple path table = .ok cls) : cls.FindsByName table where
  found_iff name := by
    rw [Option.isSome_iff_exists]
    constructor
    · rintro ⟨entry, hentry⟩
      obtain ⟨method, hmem, hname, -⟩ := (method?_eq_some_iff h).1 hentry
      exact ⟨method, hmem, hname⟩
    · rintro ⟨method, hmem, hname⟩
      exact ⟨_, (method?_eq_some_iff h).2 ⟨method, hmem, hname, rfl⟩⟩
  found name entry hentry := by
    obtain ⟨method, hmem, hname, hown⟩ := (method?_eq_some_iff h).1 hentry
    obtain ⟨i, hi⟩ := List.mem_iff_getElem?.1 hmem
    refine ⟨i, method, hi, hname, hown, fun j other hj hother => ?_⟩
    have hsame := (sameName_iff.2 hother).trans (sameName_iff.2 hname).symm
    exact (distinct_of_register h).position_unique hj hi hsame

/-- Two methods of one name are the only reason to refuse a table. Spellings of
one name count as one. -/
theorem register_refused_iff :
    (∃ error, register simple path table = .error error) ↔ table.RepeatsName := by
  rw [MethodTable.repeatsName_iff]
  constructor
  · rintro ⟨error, herror⟩ hdistinct
    obtain ⟨cls, hcls⟩ := exists_register simple path hdistinct
    rw [herror] at hcls
    cases hcls
  · intro hrepeat
    cases hresult : register simple path table with
    | error error => exact ⟨error, rfl⟩
    | ok cls => exact absurd (distinct_of_register hresult) hrepeat

/-- A class is refused for the method that the index of its table is not built
for, whatever owner the index is built for. -/
theorem exists_isFirstRepeat {error : RegistrationError}
    (h : register simple path table = .error error) (owner : Identity) :
    ∃ method, table.IsFirstRepeat method ∧
      error = .duplicateMethod (ClassName.inside path simple).text method.name ∧
      MethodIndex.build owner table = .error method := by
  have hbuild := MethodIndex.build_cases owner table
  cases hrepeat : MethodTable.firstRepeat? [] table with
  | none =>
    obtain ⟨cls, hcls⟩ := exists_register simple path
      (MethodTable.firstRepeat?_nil_eq_none_iff.1 hrepeat)
    rw [h] at hcls
    cases hcls
  | some method =>
    rw [hrepeat] at hbuild
    rw [register_of_firstRepeat? simple path hrepeat, Except.error.injEq] at h
    exact ⟨method, MethodTable.firstRepeat?_nil_eq_some_iff.1 hrepeat, h.symm, hbuild⟩

/-- A class that is registered has an index, and the index finds what looking
through its methods finds. -/
theorem exists_keptIn (h : register simple path table = .ok cls) :
    ∃ index, MethodIndex.build cls.identity table = .ok index ∧ cls.KeptIn index := by
  have hbuild := MethodIndex.build_cases cls.identity table
  rw [MethodTable.firstRepeat?_nil_eq_none_iff.2 (distinct_of_register h)] at hbuild
  obtain ⟨index, hindex, hlists⟩ := hbuild
  rw [← (assembledOn_of_register h).methods_eq] at hlists
  exact ⟨index, hindex, hlists.entries_eq, hlists.find?_eq⟩

section

variable {removed : String}

private theorem method?_eq_none_of_removed
    (h : register simple path (table.without removed) = .ok cls) {name : String}
    (hname : EqualIgnoringCase name removed) : cls.method? name = none := by
  rw [← Option.not_isSome_iff_eq_none, (findsByName h).found_iff]
  rintro ⟨method, hmem, hsame⟩
  refine (MethodTable.mem_without_iff.1 hmem).2 ?_
  exact sameName_iff.1 ((sameName_iff.2 hsame).trans (sameName_iff.2 hname))

private theorem method?_eq_self_of_kept (h : register simple path (table.without removed) = .ok cls)
    {method : Method σ ω} (hmem : method ∈ table)
    (hkept : ¬ EqualIgnoringCase method.name removed) :
    cls.method? method.name =
      some { method with id := Identity.ofMethod cls.identity method.name } := by
  refine (method?_eq_some_iff h).2 ⟨method, ?_, sameName_iff.1 (.refl _), rfl⟩
  exact MethodTable.mem_without_iff.2 ⟨hmem, hkept⟩

end

/-- What registering a table of methods comes to, and what removing a name from
it does. -/
structure IndexedOnce (simple path : String) (table : MethodTable σ ω) : Prop where
  /-- Two methods of one name are the only reason to refuse a table. -/
  refused_iff : (∃ error, register simple path table = .error error) ↔ table.RepeatsName
  /-- The error names the first method whose name is taken; the index is not built either. -/
  refused : ∀ error, register simple path table = .error error → ∃ method,
    table.IsFirstRepeat method ∧
    error = .duplicateMethod (ClassName.inside path simple).text method.name ∧
    MethodIndex.build (ClassName.inside path simple).identity table = .error method
  registered : ∀ cls, register simple path table = .ok cls →
    cls.identity = (ClassName.inside path simple).identity ∧ cls.FindsByName table ∧
    ∃ index, MethodIndex.build cls.identity table = .ok index ∧ cls.KeptIn index
  /-- Removing a name leaves nothing to refuse the table for. -/
  removable : ∀ cls, register simple path table = .ok cls → ∀ removed,
    ∃ reduced, register simple path (table.without removed) = .ok reduced
  /-- A removed name finds nothing any more; the methods of all other names find themselves. -/
  removed : ∀ removed reduced, register simple path (table.without removed) = .ok reduced →
    (∀ name, EqualIgnoringCase name removed → reduced.method? name = none) ∧
    ∀ method ∈ table, ¬ EqualIgnoringCase method.name removed →
      reduced.method? method.name =
        some { method with id := Identity.ofMethod reduced.identity method.name }

/-- A table is refused at the first name that comes again, in whatever case.
Otherwise each name finds the one method that has it, and goes on doing so when
other names are removed. The index that the class looks names up in agrees with
its table throughout. -/
theorem methods_indexed_once (simple path : String) (table : MethodTable σ ω) :
    IndexedOnce simple path table where
  refused_iff := register_refused_iff
  refused _ herror := exists_isFirstRepeat herror _
  registered _ hcls :=
    ⟨congrArg ClassName.identity (name_of_register hcls), findsByName hcls, exists_keptIn hcls⟩
  removable _ hcls removed :=
    exists_register simple path ((distinct_of_register hcls).withoutAll [removed])
  removed _ _ hreduced :=
    ⟨fun _ hname => method?_eq_none_of_removed hreduced hname,
      fun _ hmem hkept => method?_eq_self_of_kept hreduced hmem hkept⟩

end NativeClass

end NativeBridge
