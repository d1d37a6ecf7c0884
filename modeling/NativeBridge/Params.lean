import NativeBridge.Params.Decl
import NativeBridge.Receiver

/-!
# Parameters

Fetching matches the arguments of a call with the declared parameters: first their number, then
each argument's type, in order. What comes out is one slot for each declared parameter.
-/

namespace NativeBridge

/-- Why the arguments of a call were not accepted. -/
inductive FetchError where
  | arity (required max supplied : Nat)
  /-- The argument at this position, counted from zero, has the wrong type. -/
  | coercion (position : Nat) (cause : ConversionError)

/-- The number of arguments wanted, in words. -/
def arityText (required max : Nat) : String :=
  if required = max then "exactly " ++ toString required
  else "between " ++ toString required ++ " and " ++ toString max

def FetchError.message : FetchError → String
  | arity required max supplied =>
    "expects " ++ arityText required max ++ " argument(s), " ++ toString supplied ++ " given"
  | coercion position cause =>
    "argument #" ++ toString (position + 1) ++ " could not be coerced: " ++ cause.message

inductive ParamSlot where
  /-- The caller left it out. -/
  | undefined
  /-- The argument of a mixed parameter. -/
  | value (value : Value)
  /-- An argument converted to its declared type. -/
  | native (native : Native)

def ParamSlot.isDefined : ParamSlot → Bool
  | undefined => false
  | _ => true

def ParamSlot.toValue : ParamSlot → Value
  | undefined => .undefined
  | value v => v
  | native n => n.toValue

def ParamSlot.inspect : ParamSlot → String
  | undefined => "Undefined"
  | value v => "Value(" ++ v.inspect ++ ")"
  | native n => "Native(" ++ n.inspect ++ ")"

/-- The parameters of one call. The rule is the one under which later conversions read strings. -/
structure Params where
  slots : List ParamSlot
  supplied : Nat
  exceptionCapable : Bool
  rule : Strictness

namespace Params

/-- The slot of a declared parameter. -/
def slot (params : Params) (index : Nat) : Except BodyError ParamSlot :=
  match params.slots[index]? with
  | some slot => .ok slot
  | none => .error (.parameterOutOfBounds index params.slots.length)

/-- Whether the caller supplied a parameter. -/
def isDefined (params : Params) (index : Nat) : Bool :=
  params.slots[index]?.any ParamSlot.isDefined

/-- A parameter as a box. -/
def value (params : Params) (index : Nat) : Except BodyError Value :=
  (params.slot index).map ParamSlot.toValue

/-- A parameter as a native of the given type. -/
def get (params : Params) (type : NativeType) (index : Nat) : Except BodyError type.Carrier := do
  let slot ← params.slot index
  (type.coerce params.rule slot.toValue).mapError BodyError.conversion

/-- Parameters as diagnostics show them. -/
def inspect (params : Params) : String :=
  "Params \x7b slots: [" ++ ", ".intercalate (params.slots.map ParamSlot.inspect) ++
    "], supplied: " ++ toString params.supplied ++ ", exception_capable: " ++
    toString params.exceptionCapable ++ " \x7d"

def checkArity (supplied required max : Nat) : Except FetchError Unit :=
  if supplied < required ∨ max < supplied then .error (.arity required max supplied) else .ok ()

/-- The slot of a parameter of the given type. -/
def fetchSlot (rule : Strictness) (type : ParamType) : Option Value → Except ConversionError ParamSlot
  | none => .ok .undefined
  | some argument =>
    match type.native? with
    | some native => (Native.ofValue rule native argument).map ParamSlot.native
    | none => .ok (.value argument)

/-- The slots of declared parameters, from the first position on. The first argument of the wrong
type ends the fetch. -/
def fetchSlots (rule : Strictness) :
    Nat → List ParamDecl → List Value → Except FetchError (List ParamSlot)
  | _, [], _ => .ok []
  | position, decl :: decls, arguments => do
    let slot ← (fetchSlot rule decl.type arguments.head?).mapError (FetchError.coercion position)
    let slots ← fetchSlots rule (position + 1) decls arguments.tail
    .ok (slot :: slots)

/-- The number of parameters at the front that the caller has to supply. -/
def leadingRequired (decls : List ParamDecl) : Nat :=
  (decls.takeWhile fun decl => !decl.optional).length

def fetchTyped (rule : Strictness) (exceptionCapable : Bool) (decls : List ParamDecl)
    (arguments : List Value) : Except FetchError Params := do
  checkArity arguments.length (leadingRequired decls) decls.length
  let slots ← fetchSlots rule 0 decls arguments
  .ok ⟨slots, arguments.length, exceptionCapable, rule⟩

/-- Fetches parameters without types: the required ones, then the optional ones. -/
def fetch (rule : Strictness) (exceptionCapable : Bool) (required optional : Nat)
    (arguments : List Value) : Except FetchError Params := do
  checkArity arguments.length required (required + optional)
  let slots := (List.range (required + optional)).map fun index =>
    match arguments[index]? with
    | some argument => ParamSlot.value argument
    | none => .undefined
  .ok ⟨slots, arguments.length, exceptionCapable, rule⟩

end Params

end NativeBridge
