import NativeBridge.Call.Body
import NativeBridge.Text.Case

/-!
# Methods

A method has a name, declared parameters, flags that say how it is run, and a body. Tables of
methods are built before there is a class; a class then gives each of its methods an identity.
-/

namespace NativeBridge

structure MethodFlags where
  /-- It needs a receiver. -/
  isInstance : Bool
  /-- Its scope is set up to grow. -/
  growsMemory : Bool
  /-- Bad arguments raise an exception; otherwise they are a warning. -/
  exceptionCapable : Bool
deriving DecidableEq, Repr

namespace MethodFlags

def none : MethodFlags := ⟨false, false, false⟩

/-- The flags of a plain instance method. -/
def instanceOnly : MethodFlags := ⟨true, false, false⟩

/-- The flags as bits. -/
def bits (flags : MethodFlags) : Nat :=
  flags.isInstance.toNat + 2 * flags.growsMemory.toNat + 4 * flags.exceptionCapable.toNat

end MethodFlags

/-- A method. Its identity is empty until it belongs to a class. -/
structure Method (σ ω : Type) where
  name : String
  id : Identity
  params : List ParamDecl
  flags : MethodFlags
  body : CallM σ ω Unit

namespace Method

variable {σ ω : Type}

/-- A method that belongs to no class yet. -/
def declare (name : String) (params : List ParamDecl) (flags : MethodFlags)
    (body : CallM σ ω Unit) : Method σ ω :=
  ⟨name, Identity.empty, params, flags, body⟩

/-- The number of parameters the caller has to supply. -/
def requiredCount (method : Method σ ω) : Nat :=
  method.params.countP fun decl => !decl.optional

/-- The largest number of parameters the caller may supply. -/
def maxCount (method : Method σ ω) : Nat := method.params.length

end Method

/-- Methods in the order in which they were declared. -/
abbrev MethodTable (σ ω : Type) := List (Method σ ω)

namespace MethodTable

variable {σ ω : Type}

def empty : MethodTable σ ω := []

/-- Adds a method at the end. -/
def add (table : MethodTable σ ω) (method : Method σ ω) : MethodTable σ ω := table ++ [method]

/-- Removes the methods of a name. -/
def without (table : MethodTable σ ω) (name : String) : MethodTable σ ω :=
  table.filter fun method => !decide (Text.SameName method.name name)

/-- The method of a name. -/
def find? (table : MethodTable σ ω) (name : String) : Option (Method σ ω) :=
  List.find? (fun method => decide (Text.SameName method.name name)) table

/-- No two methods share a name. -/
def Distinct (table : MethodTable σ ω) : Prop :=
  (table.map fun method => Text.foldCase method.name).Nodup

/-- The first method whose name an earlier one has. `seen` holds the folded
names passed so far. -/
def firstRepeat? (seen : List String) : MethodTable σ ω → Option (Method σ ω)
  | [] => none
  | method :: rest =>
    if Text.foldCase method.name ∈ seen then some method
    else firstRepeat? (Text.foldCase method.name :: seen) rest

/-- The search for a repeated name finds none exactly when the names are
distinct and none of them was seen before. -/
theorem firstRepeat?_eq_none_iff {seen : List String} {table : MethodTable σ ω} :
    firstRepeat? seen table = none ↔
      Distinct table ∧ ∀ method ∈ table, Text.foldCase method.name ∉ seen := by
  induction table generalizing seen with
  | nil => simp [firstRepeat?, Distinct]
  | cons first rest ih =>
    by_cases h : Text.foldCase first.name ∈ seen
    · simp [firstRepeat?, h]
    · simp only [firstRepeat?, h, ↓reduceIte, ih, Distinct, List.map_cons, List.nodup_cons,
        List.mem_cons, List.mem_map, not_or, forall_eq_or_imp]
      constructor
      · rintro ⟨hrest, hnew⟩
        refine ⟨⟨?_, hrest⟩, by simp, fun method hm => (hnew method hm).2⟩
        rintro ⟨method, hm, heq⟩
        exact (hnew method hm).1 heq
      · rintro ⟨⟨hfirst, hrest⟩, _, hseen⟩
        exact ⟨hrest, fun method hm => ⟨fun heq => hfirst ⟨method, hm, heq⟩, hseen method hm⟩⟩

/-- A table has no repeated name exactly when its names are distinct. -/
theorem firstRepeat?_nil_eq_none_iff {table : MethodTable σ ω} :
    firstRepeat? [] table = none ↔ Distinct table := by
  simp [firstRepeat?_eq_none_iff]

end MethodTable

end NativeBridge
