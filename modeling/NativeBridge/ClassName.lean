import NativeBridge.Identity

/-!
# Qualified class names

A class has a simple name inside a path of namespaces. Written out, the parts stand in order with
a backslash between them; read back, empty parts are dropped, so a leading or doubled backslash
changes nothing.
-/

namespace NativeBridge

/-- A simple name and the namespaces around it, the outermost first. -/
structure ClassName where
  simple : String
  path : List String
deriving DecidableEq, Repr

namespace ClassName

/-- The character between two parts of a name. -/
def separator : Char := '\\'

/-- The parts between separators, without the empty ones. -/
def segments (text : String) : List String :=
  ((text.toList.splitOn separator).filter fun part => !part.isEmpty).map String.ofList

/-- A name outside every namespace. -/
def global (simple : String) : ClassName := ⟨simple, []⟩

/-- A simple name inside a written path. The simple name is taken as it is,
separators and all. -/
def inside (path simple : String) : ClassName := ⟨simple, segments path⟩

/-- The name with these parts: the last is the simple name. Without parts it is
empty. -/
def ofSegments (parts : List String) : ClassName :=
  match parts.getLast? with
  | none => global ""
  | some simple => ⟨simple, parts.dropLast⟩

def ofText (text : String) : ClassName := ofSegments (segments text)

def IsGlobal (name : ClassName) : Prop := name.path = []

instance (name : ClassName) : Decidable name.IsGlobal :=
  inferInstanceAs (Decidable (name.path = []))

/-- Parts in a row with a separator between them. -/
def join (parts : List String) : String :=
  (String.singleton separator).intercalate parts

def pathText (name : ClassName) : String := join name.path

def text (name : ClassName) : String := join (name.path ++ [name.simple])

/-- The name under which a class is looked up, where the case of ASCII letters
does not matter. -/
def lookupText (name : ClassName) : String := Text.foldCase name.text

/-- The identity of the class with this name. -/
def identity (name : ClassName) : Identity := Identity.ofClass name.text

/-- A name is written as the parts of its path and the simple name, with one
separator between any two of them. -/
theorem toList_text (name : ClassName) :
    name.text.toList = [separator].intercalate ((name.path ++ [name.simple]).map String.toList) := by
  simp [text, join]

end ClassName

end NativeBridge
