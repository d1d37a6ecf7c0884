import NativeBridge.Identity.Digest
import NativeBridge.Text.Case

/-!
# Identities

Classes, methods and static properties are told apart by 64-bit identities computed from names
alone, so the same class has the same identity wherever it is declared. The identity of a member
mixes in the identity of the class that declares it.
-/

namespace NativeBridge

/-- The identity of a class, a method or a static property. -/
structure Identity where
  bits : UInt64
deriving DecidableEq, Repr, Hashable

namespace Identity

/-- No class at all: the class of an array, or of state that is no instance. -/
def empty : Identity := ⟨0⟩

def IsEmpty (identity : Identity) : Prop := identity = empty

instance (identity : Identity) : Decidable identity.IsEmpty :=
  inferInstanceAs (Decidable (identity = empty))

/-- Spreads an owner's bits before a member's digest is added. -/
def separator : UInt64 := 0x4bc94d6bd06053ad

/-- Sets class identities apart from plain digests. -/
def classMark : UInt64 := 0x2fac10b63a6cc57c

/-- Sets the methods of a class apart from its other members. -/
def methodMark : UInt64 := 0x7d3c8b4a92e15f6d

/-- Sets the static properties of a class apart from its other members. -/
def propertyMark : UInt64 := 0x3e9f5d2a8c7b1403

/-- The identity of the class with this name. The case of ASCII letters does not matter. -/
def ofClass (name : String) : Identity :=
  ⟨classMark ^^^ Digest.ofText (Text.foldCase name)⟩

/-- The identity of a member: the owner is mixed with the mark of the member's kind. -/
def ofMember (mark : UInt64) (owner : Identity) (digest : UInt64) : Identity :=
  ⟨(mark ^^^ owner.bits) * separator + digest⟩

/-- The identity of a method. The case of ASCII letters in its name does not matter. -/
def ofMethod (owner : Identity) (name : String) : Identity :=
  ofMember methodMark owner (Digest.ofText (Text.foldCase name))

/-- The identity of a static property. Its name is taken as it is. -/
def ofProperty (owner : Identity) (name : String) : Identity :=
  ofMember propertyMark owner (Digest.ofText name)

/-- The identity as eighteen characters: `0x` and sixteen hexadecimal digits. -/
def text (identity : Identity) : String :=
  let digits := Nat.toDigits 16 identity.bits.toNat
  "0x" ++ String.ofList (List.replicate (16 - digits.length) '0' ++ digits)

end Identity

end NativeBridge
