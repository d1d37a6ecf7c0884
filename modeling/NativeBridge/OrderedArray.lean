import NativeBridge.Assoc
import NativeBridge.OrderedArray.Key

/-!
# Ordered arrays

The host runtime's arrays: values under integer and string keys, listed in the order in which the
keys came. An array remembers the integer key after the largest it ever held and appends there;
past the largest 64-bit integer there is no further key, and the position stays where it is.
-/

namespace NativeBridge

/-- Values under keys, in order, and the next integer key to append at. -/
structure OrderedArray where
  entries : List (Key × Value)
  nextIndex : Int64
deriving Inhabited

namespace OrderedArray

def empty : OrderedArray := ⟨[], 0⟩

def size (a : OrderedArray) : Nat := a.entries.length

def isEmpty (a : OrderedArray) : Bool := a.entries.isEmpty

/-- The value at a key. -/
def get? (a : OrderedArray) (key : Key) : Option Value :=
  Assoc.find? key a.entries

def contains (a : OrderedArray) (key : Key) : Bool :=
  (a.get? key).isSome

/-- The integer after `n`, or `n` itself when there is none. -/
def succ (n : Int64) : Int64 :=
  if n = Int64.maxValue then n else n + 1

/-- The next integer key once `key` is in use. -/
def nextAfter (next : Int64) : Key → Int64
  | .int n => if next ≤ n then succ n else next
  | .string _ => next

/-- Writes a value at a key. A key in use keeps its place. -/
def insert (a : OrderedArray) (key : Key) (value : Value) : OrderedArray where
  entries := Assoc.put key value a.entries
  nextIndex := nextAfter a.nextIndex key

/-- The key at which the next value is appended. -/
def nextKey (a : OrderedArray) : Key := .int a.nextIndex

/-- Appends a value at the next integer key. -/
def push (a : OrderedArray) (value : Value) : OrderedArray :=
  a.insert a.nextKey value

/-- Removes a key. The next integer key stays. -/
def remove (a : OrderedArray) (key : Key) : OrderedArray :=
  { a with entries := Assoc.erase key a.entries }

/-- The handles of the arrays and objects in an array, in order, as often as
they occur. -/
def handles (a : OrderedArray) : List Handle :=
  a.entries.filterMap fun entry => entry.2.handle?

/-- Whether two arrays have equal entries in the same order and would append at
the same key. -/
def same (a b : OrderedArray) : Bool :=
  a.entries.length == b.entries.length && a.nextIndex == b.nextIndex &&
    (a.entries.zip b.entries).all fun (x, y) => x.1 == y.1 && x.2 == y.2

/-- A key finds the value that was inserted there, and every other key finds
what it found before. -/
theorem get?_insert (a : OrderedArray) (key other : Key) (value : Value) :
    (a.insert key value).get? other = if key = other then some value else a.get? other :=
  Assoc.find?_put key other value a.entries

end OrderedArray

end NativeBridge
