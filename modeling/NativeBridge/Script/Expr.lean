import NativeBridge.Sample.State

/-!
# Script expressions

Scripts try the bridge out step by step. They name handles as they get them and use the names
later, so values and states in a script are expressions over names. A name stays bound when its
object is gone.
-/

namespace NativeBridge.Script

/-- The handles that a script has named, the names bound last in front. -/
abbrev Bindings := List (String × Handle)

namespace Bindings

def bind (bindings : Bindings) (name : Option String) (handle : Handle) : Bindings :=
  match name with
  | some name => Assoc.put name handle bindings
  | none => bindings

/-- What a name that was never bound stands for: a handle to no slot. -/
def unbound : Handle := ⟨0xFFFFFFFF, 0, SampleType.unit.type⟩

end Bindings

/-- A handle in a script: a name, or slot and generation written out. -/
inductive HandleExpr where
  | named (name : String)
  | raw (index generation : UInt32)
deriving Repr

/-- The handle that an expression stands for. A handle written out has the given type. -/
def HandleExpr.eval (bindings : Bindings) (type : SampleType) : HandleExpr → Handle
  | named name => (Assoc.find? name bindings).getD Bindings.unbound
  | raw index generation => ⟨index, generation, type.type⟩

inductive ValueExpr where
  | scalar (value : Value)
  | array (handle : HandleExpr)
  | object (handle : HandleExpr)

def ValueExpr.eval (bindings : Bindings) : ValueExpr → Value
  | scalar value => value
  | array handle => .array (handle.eval bindings .array)
  | object handle => .object (handle.eval bindings .unit)

/-- An entry of an array in a script: a value to append, or a value at a key. -/
inductive ItemExpr where
  | push (value : ValueExpr)
  | insert (key : Key) (value : ValueExpr)

/-- The array with these entries, written one after another. -/
def evalItems (bindings : Bindings) (items : List ItemExpr) : OrderedArray :=
  items.foldl (fun built item =>
    match item with
    | .push value => built.push (value.eval bindings)
    | .insert key value => built.insert key (value.eval bindings)) OrderedArray.empty

inductive StateExpr where
  | array (items : List ItemExpr)
  | bag (items : List ItemExpr) (inner : ValueExpr)
  | holder (handles : List HandleExpr)
  | counter (n : Int64)
  | text (s : String)
  | unit
  | placeholder

def StateExpr.eval (bindings : Bindings) : StateExpr → State Sample
  | array items => .array (evalItems bindings items)
  | bag items inner => .native (.bag (Bag.ofItems (evalItems bindings items) (inner.eval bindings)))
  | holder handles => .native (.holder (handles.map (HandleExpr.eval bindings .unit)))
  | counter n => .native (.counter n)
  | text s => .native (.text s)
  | unit => .native .unit
  | placeholder => .native .placeholder

/-- A native in a script: a scalar that may be missing, or a box. -/
inductive NativeExpr where
  | optional (native : Option Native)
  | boxed (value : ValueExpr)

def NativeExpr.eval (bindings : Bindings) : NativeExpr → Value
  | optional native => Native.optionToValue native
  | boxed value => value.eval bindings

inductive ReceiverExpr where
  | absent
  | bare (handle : HandleExpr)
  | managed (value : ValueExpr)

def ReceiverExpr.eval (bindings : Bindings) : ReceiverExpr → Option RawReceiver
  | absent => none
  | bare handle => some (.bare (handle.eval bindings .unit))
  | managed value => some (.managed (value.eval bindings))

end NativeBridge.Script
