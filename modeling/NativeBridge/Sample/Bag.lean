import NativeBridge.Method.Contract

/-!
# Bags

A bag is sample state with every capability: values under keys, a position among them, and an inner
iterator.
-/

namespace NativeBridge

/-- Values under keys, a position among them, and an inner iterator. -/
structure Bag where
  items : OrderedArray
  cursor : Nat
  inner : Value

namespace Bag

/-- A bag at its first entry. -/
def ofItems (items : OrderedArray) (inner : Value) : Bag := ⟨items, 0, inner⟩

/-- The entry at the position, if there is one. -/
def entry? (bag : Bag) : Option (Key × Value) := bag.items.entries[bag.cursor]?

def current (bag : Bag) : Value := (bag.entry?.map Prod.snd).getD .null

/-- The values' handles in order, then the inner iterator's. -/
def handles (bag : Bag) : List Handle := bag.items.handles ++ bag.inner.handle?.toList

instance : Counts Bag where
  count := fun bag => Int64.ofNat bag.items.size

instance : Iterates Bag where
  current := current
  key := fun bag => (bag.entry?.map fun entry => entry.1.toValue).getD .null
  next := fun bag => { bag with cursor := bag.cursor + 1 }
  rewind := fun bag => { bag with cursor := 0 }
  valid := fun bag => decide (bag.cursor < bag.items.size)

instance : WrapsIterator Bag where
  innerIterator := Bag.inner

instance : IteratesChildren Bag where
  children := fun bag => if bag.current.handle?.isSome then bag.current else .null
  hasChildren := fun bag => bag.current.handle?.isSome

instance : Seeks Bag where
  seek := fun position bag =>
    let target := position.toInt
    if target < 0 ∨ (bag.items.size : Int) ≤ target then
      (.error (.other ("seek position " ++ target.repr ++ " is out of range")), bag)
    else (.ok (), { bag with cursor := target.toNat })

instance : ProvidesIterator Bag where
  iterator := Bag.inner

/-- The key that an offset stands for. -/
def keyOf (offset : Value) : Except BodyError Key :=
  (Key.ofValue offset).mapError BodyError.conversion

instance : HasOffsets Bag where
  offsetExists := fun bag offset => (keyOf offset).map bag.items.contains
  offsetGet := fun bag offset => (keyOf offset).map fun key => (bag.items.get? key).getD .null
  offsetSet := fun offset value bag =>
    match offset with
    | .null => (.ok none, { bag with items := bag.items.push value })
    | offset =>
      match keyOf offset with
      | .ok key => (.ok (bag.items.get? key), { bag with items := bag.items.insert key value })
      | .error error => (.error error, bag)
  offsetUnset := fun offset bag =>
    match keyOf offset with
    | .ok key => (.ok (bag.items.get? key), { bag with items := bag.items.remove key })
    | .error error => (.error error, bag)

instance : Serializes Bag where
  serialize := fun bag =>
    if bag.items.isEmpty then none
    else some ("bag:" ++ toString bag.items.size ++ ":" ++ toString bag.cursor)
  unserialize := fun serialized bag =>
    match (Value.string serialized).asInt with
    | .error error => (.error (.conversion error), bag)
    | .ok n =>
      if n < 0 then (.error (.invalidThis "negative cursor"), bag)
      else (.ok (), { bag with cursor := n.toInt.toNat })

instance : FullyCapable Bag where

end Bag

end NativeBridge
