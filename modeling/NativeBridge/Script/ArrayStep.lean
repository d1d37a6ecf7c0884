import NativeBridge.Script.Expr

/-!
# Steps on arrays

One operation on an ordered array, and what it answers.
-/

namespace NativeBridge.Script

inductive ArrayStep where
  | push (value : ValueExpr)
  | insert (key : Key) (value : ValueExpr)
  | remove (key : Key)
  | get (key : Key)
  | contains (key : Key)
  /-- Writes at the key that an offset stands for. -/
  | setOffset (offset value : ValueExpr)
  | getOffset (offset : ValueExpr)
  | items
  | isEmpty
  | handles
  | equals (other : List ItemExpr)

inductive ArrayReply where
  | key (key : Key)
  | found (value : Option Value)
  | flag (b : Bool)
  | items (items : OrderedArray)
  | handles (handles : List Handle)
  | failed (error : ConversionError)

/-- Carries out a step; answers its reply and the array after it. -/
def ArrayStep.run (bindings : Bindings) (a : OrderedArray) : ArrayStep → ArrayReply × OrderedArray
  | push value => (.key a.nextKey, a.push (value.eval bindings))
  | insert key value => (.found (a.get? key), a.insert key (value.eval bindings))
  | remove key => (.found (a.get? key), a.remove key)
  | get key => (.found (a.get? key), a)
  | contains key => (.flag (a.contains key), a)
  | setOffset offset value =>
    match Key.ofValue (offset.eval bindings) with
    | .ok key => (.found (a.get? key), a.insert key (value.eval bindings))
    | .error error => (.failed error, a)
  | getOffset offset =>
    match Key.ofValue (offset.eval bindings) with
    | .ok key => (.found (a.get? key), a)
    | .error error => (.failed error, a)
  | items => (.items a, a)
  | isEmpty => (.flag a.isEmpty, a)
  | handles => (.handles a.handles, a)
  | equals other => (.flag (a.same (evalItems bindings other)), a)

end NativeBridge.Script
