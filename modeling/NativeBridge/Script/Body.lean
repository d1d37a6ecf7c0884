import NativeBridge.Script.HeapStep

/-!
# Scripted bodies

A method body given as a list of actions. The actions share the names of handles with the rest of
the script and keep a log of what they saw.
-/

namespace NativeBridge.Script

/-- What a body wrote into the log. -/
inductive LogEntry where
  | text (s : String)
  | params (params : Params)
  | scope (id tracked : Nat) (grows : Bool) (live : Nat)
  | state (state : State Sample)
  | heap (reply : HeapReply)

/-- What the bodies of a script share: the names of handles, and the log in order. -/
structure Workspace where
  bindings : Bindings
  log : List LogEntry

def Workspace.empty : Workspace := ⟨[], []⟩

inductive Action where
  | answer (value : ValueExpr)
  | answerNative (native : NativeExpr)
  | answerArgument (index : Nat)
  | answerArgumentAs (index : Nat) (type : NativeType)
  | answerSelf
  | log (s : String)
  | logParams
  | logScope
  | logThis (type : SampleType)
  | allocArray (items : List ItemExpr) (name : Option String)
  | allocObject (className : String) (state : StateExpr) (name : Option String)
  | bindArgument (index : Nat) (name : Option String)
  | retain (value : ValueExpr)
  | release (value : ValueExpr)
  | track (handle : HandleExpr)
  | heap (step : HeapStep)
  | counterAdd (amount : Int64)
  /-- Opens a nested scope, allocates states in it, and closes it or drops it. -/
  | nested (grows : Bool) (states : List StateExpr) (closes : Bool)
  | fail (reason : String)
  | failThis (reason : String)

abbrev ScriptM := CallM Sample Workspace

namespace Action

def bindings : ScriptM Bindings :=
  CallM.withShared fun workspace => (workspace.bindings, workspace)

def bindName (name : Option String) (handle : Handle) : ScriptM Unit :=
  CallM.withShared fun workspace =>
    ((), { workspace with bindings := workspace.bindings.bind name handle })

def write (entry : LogEntry) : ScriptM Unit :=
  CallM.withShared fun workspace => ((), { workspace with log := workspace.log ++ [entry] })

def allocateNested (scope : Nat) (states : List StateExpr) : ScriptM Unit :=
  states.forM fun state => do
    let names ← bindings
    let handle ← CallM.withHeap fun heap => heap.allocate (state.eval names)
    CallM.trackNested scope handle

def run : Action → ScriptM Unit
  | answer value => do CallM.setResult (value.eval (← bindings))
  | answerNative native => do CallM.setResult (native.eval (← bindings))
  | answerArgument index => do CallM.setResult (← CallM.argument index)
  | answerArgumentAs index type => do
    CallM.setResult (type.box (← CallM.argumentAs type index))
  | answerSelf => do
    CallM.setResult (.object (← CallM.inspect fun input _ => input.receiver.handle))
  | log s => write (.text s)
  | logParams => do write (.params (← CallM.input).params)
  | logScope => do
    write (← CallM.inspect fun _ state =>
      .ok (.scope state.scope.id state.scope.tracked.length state.scope.grows state.heap.liveCount))
  | logThis type => do write (.state (type.kind.write (← CallM.this type.kind)))
  | allocArray items name => do
    let value ← CallM.allocateArray (evalItems (← bindings) items)
    value.handle?.toList.forM (bindName name)
  | allocObject className state name => do
    let value ← CallM.allocateObject (Identity.ofClass className) (state.eval (← bindings))
    value.handle?.toList.forM (bindName name)
  | bindArgument index name => do
    match (← CallM.argument index).handle? with
    | some handle => bindName name handle
    | none => CallM.fail (.other "not a handle")
  | retain value => do CallM.retain (value.eval (← bindings))
  | release value => do CallM.release (value.eval (← bindings))
  | track handle => do CallM.track (handle.eval (← bindings) .unit)
  | heap step => do
    let names ← bindings
    let (reply, names) ← CallM.withHeap fun heap =>
      let (reply, names, heap) := step.run names heap
      ((reply, names), heap)
    CallM.withShared fun workspace => ((), { workspace with bindings := names })
    write (.heap reply)
  | counterAdd amount =>
    CallM.updateThis SampleType.counterKind fun n => (.ok (), n + amount)
  | nested grows states closes => do
    let scope ← CallM.openNested grows
    allocateNested scope states
    if closes then discard (CallM.closeNested scope) else discard (CallM.dropNested scope)
  | fail reason => CallM.fail (.other reason)
  | failThis reason => CallM.fail (.invalidThis reason)

end Action

/-- The body that carries out actions in order; the first failure ends it. -/
def bodyOf (actions : List Action) : ScriptM Unit :=
  actions.forM Action.run

end NativeBridge.Script
