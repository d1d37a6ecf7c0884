import NativeBridge.Script.ArrayStep

/-!
# Steps on the heap

One operation on the heap, and what it answers.
-/

namespace NativeBridge.Script

inductive HeapStep where
  | alloc (state : StateExpr) (name className : Option String) (owning : Bool)
  | addRef (handle : HandleExpr)
  | release (handle : HandleExpr)
  | contains (handle : HandleExpr)
  | free (handle : HandleExpr)
  | refCount (handle : HandleExpr)
  | classOf (handle : HandleExpr)
  | get (handle : HandleExpr) (type : SampleType)
  /-- Adds to a counter in place. -/
  | counterAdd (handle : HandleExpr) (amount : Int64)
  /-- Carries out a step on an array in place. No counts change. -/
  | inArray (handle : HandleExpr) (step : ArrayStep)
  | liveCount
  | inspect

inductive HeapReply where
  | done
  | flag (b : Bool)
  | handle (handle : Handle)
  | count (n : Nat)
  | refCount (n : Option Nat)
  | classId (id : Option Identity)
  | state (state : Option (State Sample))
  | counter (n : Option Int64)
  | inArray (reply : Option ArrayReply)
  | text (s : String)

/-- The state of the given type that a handle refers to. -/
def stateOf? (heap : Heap Sample) (type : SampleType) (handle : Handle) : Option (State Sample) :=
  (heap.get? type.kind handle).map type.kind.write

/-- Carries out a step; answers its reply, the names after it and the heap after it. -/
def HeapStep.run (bindings : Bindings) (heap : Heap Sample) :
    HeapStep → HeapReply × Bindings × Heap Sample
  | alloc state name className owning =>
    let classId := (className.map Identity.ofClass).getD Identity.empty
    let (handle, heap) := heap.place classId owning (state.eval bindings)
    (.handle handle, bindings.bind name handle, heap)
  | addRef handle =>
    let (found, heap) := heap.addRef (handle.eval bindings .unit)
    (.flag found, bindings, heap)
  | release handle =>
    let (freed, heap) := heap.release (handle.eval bindings .unit)
    (.flag freed, bindings, heap)
  | contains handle => (.flag (heap.contains (handle.eval bindings .unit)), bindings, heap)
  | free handle => (.done, bindings, heap.free (handle.eval bindings .unit))
  | refCount handle => (.refCount (heap.refCount? (handle.eval bindings .unit)), bindings, heap)
  | classOf handle => (.classId (heap.classOf? (handle.eval bindings .unit)), bindings, heap)
  | get handle type => (.state (stateOf? heap type (handle.eval bindings .unit)), bindings, heap)
  | counterAdd handle amount =>
    let handle := handle.eval bindings .unit
    match heap.get? SampleType.counterKind handle with
    | some n => (.counter (some (n + amount)), bindings,
        heap.set SampleType.counterKind handle (n + amount))
    | none => (.counter none, bindings, heap)
  | inArray handle step =>
    let handle := handle.eval bindings .unit
    match heap.get? (StateKind.array Sample) handle with
    | some items =>
      let (reply, items) := step.run bindings items
      (.inArray (some reply), bindings, heap.set (StateKind.array Sample) handle items)
    | none => (.inArray none, bindings, heap)
  | liveCount => (.count heap.liveCount, bindings, heap)
  | inspect => (.text heap.inspect, bindings, heap)

end NativeBridge.Script
