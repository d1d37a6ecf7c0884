import NativeBridge.Script.HeapStep
import NativeBridge.Scope

/-!
# Sessions on a heap

A session works step by step on one heap and one ledger, with scopes and states of the ledger under
names.
-/

namespace NativeBridge.Script

structure MemorySession where
  heap : Heap Sample
  ledger : Ledger
  scopes : List (String × Scope)
  snapshots : List (String × Ledger)
  bindings : Bindings

def MemorySession.new : MemorySession := ⟨Heap.empty, Ledger.empty, [], [], []⟩

inductive MemoryStep where
  | heap (step : HeapStep)
  | openScope (scope : String) (grows : Bool)
  | allocIn (scope : String) (state : StateExpr) (name : Option String)
  | track (scope : String) (handle : HandleExpr)
  | trackedCount (scope : String)
  | handOff (scope : String) (value : ValueExpr)
  | close (scope : String)
  | drop (scope : String)
  | inspect (scope : String)
  | check (id : Nat)
  | snapshot (name : String)
  | checkSince (id : Nat) (since : String)
  /-- Binds a receiver and looks at its state. -/
  | bindReceiver (receiver : ReceiverExpr) (type : SampleType)

inductive MemoryReply where
  | heap (reply : HeapReply)
  | opened (id : Nat) (grows : Bool)
  | checked (result : Except ScopeImbalance Unit)
  | snapshot (ledger : Ledger)
  | receiver (result : Except BodyError (Receiver × Except BodyError (State Sample)))
  /-- There is no open scope of this name. -/
  | noScope

namespace MemorySession

/-- Changes a scope; answers nothing when no scope of this name is open. -/
def withScope {α : Type} (session : MemorySession) (name : String)
    (f : Scope → α × Scope × Heap Sample) : Option α × MemorySession :=
  match Assoc.find? name session.scopes with
  | some scope =>
    let (a, scope, heap) := f scope
    (some a, { session with heap, scopes := Assoc.put name scope session.scopes })
  | none => (none, session)

/-- Opens a scope under a name. A scope that had the name before is dropped. -/
def openScope (session : MemorySession) (name : String) (grows : Bool) :
    MemoryReply × MemorySession :=
  let (scope, ledger) := session.ledger.openScope grows
  let ledger := if (Assoc.find? name session.scopes).isSome then ledger.dropScope else ledger
  (.opened scope.id scope.grows,
    { session with ledger, scopes := Assoc.put name scope session.scopes })

def run (session : MemorySession) : MemoryStep → MemoryReply × MemorySession
  | .heap step =>
    let (reply, bindings, heap) := step.run session.bindings session.heap
    (.heap reply, { session with bindings, heap })
  | .openScope name grows => session.openScope name grows
  | .allocIn name state as_ =>
    let (reply, session) := session.withScope name fun scope =>
      let (handle, heap) := session.heap.allocate (state.eval session.bindings)
      (handle, scope.track handle, heap)
    match reply with
    | some handle =>
      (.heap (.handle handle), { session with bindings := session.bindings.bind as_ handle })
    | none => (.noScope, session)
  | .track name handle =>
    let (reply, session) := session.withScope name fun scope =>
      ((), scope.track (handle.eval session.bindings .unit), session.heap)
    (reply.elim .noScope fun _ => .heap .done, session)
  | .trackedCount name =>
    let (reply, session) := session.withScope name fun scope =>
      (scope.tracked.length, scope, session.heap)
    (reply.elim .noScope fun n => .heap (.count n), session)
  | .handOff name value =>
    let (reply, session) := session.withScope name fun scope =>
      let (handed, scope) := scope.handOff (value.eval session.bindings)
      (handed, scope, session.heap)
    (reply.elim .noScope fun b => .heap (.flag b), session)
  | .close name =>
    match Assoc.find? name session.scopes with
    | some scope =>
      let (released, ledger, heap) := scope.close session.ledger session.heap
      (.heap (.count released),
        { session with ledger, heap, scopes := Assoc.erase name session.scopes })
    | none => (.noScope, session)
  | .drop name =>
    match Assoc.find? name session.scopes with
    | some _ =>
      (.heap .done,
        { session with
          ledger := session.ledger.dropScope
          scopes := Assoc.erase name session.scopes })
    | none => (.noScope, session)
  | .inspect name =>
    let (reply, session) := session.withScope name fun scope =>
      (scope.inspect, scope, session.heap)
    (reply.elim .noScope fun s => .heap (.text s), session)
  | .check id => (.checked (session.ledger.check id), session)
  | .snapshot name =>
    (.snapshot session.ledger,
      { session with snapshots := Assoc.put name session.ledger session.snapshots })
  | .checkSince id since =>
    let before := (Assoc.find? since session.snapshots).getD Ledger.empty
    (.checked (session.ledger.checkSince id before), session)
  | .bindReceiver receiver type =>
    (.receiver ((Receiver.bind (receiver.eval session.bindings)).map fun bound =>
      (bound, (bound.state type.kind session.heap).map type.kind.write)), session)

end MemorySession

end NativeBridge.Script
