import NativeBridge.Method.Contract
import NativeBridge.Proofs.Call.Phases
import NativeBridge.Proofs.Class.Binding
import NativeBridge.Proofs.Heap.Exchange

namespace NativeBridge

variable {σ ω α β : Type}

namespace CallM

private theorem run_bind_ok {first : CallM σ ω α} {next : α → CallM σ ω β} {input : CallInput}
    {state after : CallState σ ω} {a : α} (h : first.run input state = (.ok a, after)) :
    (first >>= next).run input state = (next a).run input after := by
  change (CallM.bind first next).run input state = _
  simp only [CallM.bind, h]

private theorem run_bind_error {first : CallM σ ω α} {next : α → CallM σ ω β} {input : CallInput}
    {state after : CallState σ ω} {error : BodyError}
    (h : first.run input state = (.error error, after)) :
    (first >>= next).run input state = (.error error, after) := by
  change (CallM.bind first next).run input state = _
  simp only [CallM.bind, h]

private theorem run_attempt {action : CallM σ ω α} {input : CallInput} {state after : CallState σ ω}
    {outcome : Except BodyError α} (h : action.run input state = (outcome, after)) :
    action.attempt.run input state = (.ok outcome, after) := by
  simp only [attempt, h]

end CallM

private theorem Receiver.state_cases (handle : Handle) (kind : StateKind σ α) (heap : Heap σ) :
    (∃ error, (Receiver.bound handle).state kind heap = .error error) ∨
    ∃ object a, heap.object? handle = some object ∧ kind.read object.state = some a ∧
      (Receiver.bound handle).state kind heap = .ok a := by
  have hhandle : (Receiver.bound handle).handle = .ok handle := rfl
  cases hobject : heap.object? handle with
  | none =>
    have hgone : heap.contains handle = false := by simp [Heap.contains, hobject]
    refine Or.inl ⟨.staleHandle handle.index, ?_⟩
    simp [state, hhandle, Bind.bind, Except.bind, hgone]
  | some object =>
    have hlive : heap.contains handle = true := Heap.contains_iff.2 ⟨object, hobject⟩
    have hget : heap.get? kind handle = kind.read object.state := by simp [Heap.get?, hobject]
    cases hread : kind.read object.state with
    | none =>
      refine Or.inl ⟨.invalidThis ("receiver is not a " ++ kind.type.name), ?_⟩
      simp [state, hhandle, Bind.bind, Except.bind, hlive, hget, hread]
    | some a =>
      refine Or.inr ⟨object, a, rfl, hread, ?_⟩
      simp [state, hhandle, Bind.bind, Except.bind, hlive, hget, hread]

namespace CallM

/-- Either the receiver's state is not to be had, or it is put back as the
update left it. An update that fails is put back as well, so a failing one may
leave traces. -/
theorem updateThis_cases (kind : StateKind σ α) (update : Update α β) (input : CallInput)
    (state : CallState σ ω) :
    (∃ error, (updateThis kind update).run input state = (.error error, state)) ∨
    ∃ handle object a, input.receiver = .bound handle ∧
      state.heap.object? handle = some object ∧ kind.read object.state = some a ∧
      (updateThis kind update).run input state = ((update a).1, { state with
        heap := state.heap.putObject handle.index
          { object with state := kind.write (update a).2 } }) := by
  obtain ⟨receiver, params⟩ := input
  cases receiver with
  | absent => exact Or.inl ⟨.missingReceiver, rfl⟩
  | bound handle =>
    have hhandle : (inspect fun input _ => input.receiver.handle : CallM σ ω Handle).run
        ⟨.bound handle, params⟩ state = (.ok handle, state) := rfl
    obtain ⟨error, herror⟩ | ⟨object, a, hobject, hread, hstate⟩ :=
      Receiver.state_cases handle kind state.heap
    · have hthis : (this kind).run ⟨.bound handle, params⟩ state = (.error error, state) := by
        simp only [this, inspect, herror]
      refine Or.inl ⟨error, ?_⟩
      rw [updateThis, run_bind_ok hhandle, run_bind_error hthis]
    · have hthis : (this kind).run ⟨.bound handle, params⟩ state = (.ok a, state) := by
        simp only [this, inspect, hstate]
      have hset : state.heap.set kind handle (update a).2 = state.heap.putObject handle.index
          { object with state := kind.write (update a).2 } := by
        simp only [Heap.set, hobject, hread]
      refine Or.inr ⟨handle, object, a, rfl, hobject, hread, ?_⟩
      rw [updateThis, run_bind_ok hhandle, run_bind_ok hthis, ← hset]
      rfl

end CallM

/-- What a call asks of a state with offsets. -/
inductive OffsetRequest where
  | set (offset value : Value)
  | unset (offset : Value)

namespace OffsetRequest

/-- The value that the state is handed a reference for. -/
def passed : OffsetRequest → Value
  | set _ value => value
  | unset _ => .null

def methodName : OffsetRequest → String
  | set _ _ => "offsetSet"
  | unset _ => "offsetUnset"

def arguments : OffsetRequest → List Value
  | set offset value => [offset, value]
  | unset offset => [offset]

def update [HasOffsets α] : OffsetRequest → CallM.Update α (Option Value)
  | set offset value => HasOffsets.offsetSet offset value
  | unset offset => HasOffsets.offsetUnset offset

variable [NativeState σ]

/-- The method that carries a request out. -/
def method (kind : StateKind σ α) [HasOffsets α] : OffsetRequest → Method σ ω
  | set _ _ => .declare "offsetSet" [MethodTable.offsetParam, .required "value" .mixed]
      .instanceOnly (MethodTable.storeOffset kind)
  | unset _ => .declare "offsetUnset" [MethodTable.offsetParam] .instanceOnly do
      let offset ← CallM.argument 0
      MethodTable.giveUp (← CallM.updateThis kind (HasOffsets.offsetUnset offset))

@[simp]
private theorem name_method (kind : StateKind σ α) [HasOffsets α] (request : OffsetRequest) :
    (request.method kind : Method σ ω).name = request.methodName := by
  cases request <;> rfl

private theorem method_mem (kind : StateKind σ α) [HasOffsets α] (request : OffsetRequest)
    (table : MethodTable σ ω) : request.method kind ∈ table.withArrayAccess kind := by
  cases request <;>
    simp [method, MethodTable.withArrayAccess, MethodTable.instanceMethod, MethodTable.add]

/-- The handles of a value that a state hands back. -/
def owed (returned : Option Value) : List Handle :=
  (returned.bind Value.handle?).toList

/-- How the body for a request may end, with the heap it leaves. The reference
for the value is taken before anything else, and given back when the state
refuses. -/
inductive Ends (kind : StateKind σ α) [HasOffsets α] (request : OffsetRequest)
    (receiver : Receiver) (heap : Heap σ) : Except BodyError Unit → Heap σ → Prop
  /-- The receiver's state was not to be had. -/
  | unreached {error : BodyError} : Ends kind request receiver heap (.error error)
      ((heap.retainValue request.passed).releaseValue request.passed)
  | refused {handle : Handle} {object : Object σ} {a b : α} {error : BodyError} :
      receiver = .bound handle →
      (heap.retainValue request.passed).object? handle = some object →
      kind.read object.state = some a → request.update a = (.error error, b) →
      Ends kind request receiver heap (.error error)
        (((heap.retainValue request.passed).putObject handle.index
          { object with state := kind.write b }).releaseValue request.passed)
  | done {handle : Handle} {object : Object σ} {a b : α} {returned : Option Value} :
      receiver = .bound handle →
      (heap.retainValue request.passed).object? handle = some object →
      kind.read object.state = some a → request.update a = (.ok returned, b) →
      Ends kind request receiver heap (.ok ())
        (((heap.retainValue request.passed).putObject handle.index
          { object with state := kind.write b }).releaseAll (owed returned))

private theorem run_giveUp (returned : Option Value) (input : CallInput) (state : CallState σ ω) :
    (MethodTable.giveUp returned).run input state =
      (.ok (), { state with heap := state.heap.releaseAll (owed returned) }) := by
  cases returned <;> rfl

omit [NativeState σ] in
private theorem run_argument (index : Nat) {request : OffsetRequest} {input : CallInput}
    {value : Value} (hparams : input.params.slots = request.arguments.map ParamSlot.value)
    (hvalue : request.arguments[index]? = some value) (state : CallState σ ω) :
    (CallM.argument index).run input state = (.ok value, state) := by
  have hslot : input.params.slots[index]? = some (.value value) := by
    rw [hparams, List.getElem?_map, hvalue]
    rfl
  simp only [CallM.argument, CallM.inspect, Params.value, Params.slot, hslot]
  rfl

private theorem run_set (kind : StateKind σ α) [HasOffsets α] (offset value : Value)
    {input : CallInput}
    (hparams : input.params.slots = (set offset value).arguments.map ParamSlot.value)
    (state : CallState σ ω) :
    ∃ outcome after, (MethodTable.storeOffset kind).run input state =
        (outcome, { state with heap := after }) ∧
      Ends kind (set offset value) input.receiver state.heap outcome after := by
  have hretain : (CallM.retain value : CallM σ ω Unit).run input state =
      (.ok (), { state with heap := state.heap.retainValue value }) := rfl
  unfold MethodTable.storeOffset
  rw [CallM.run_bind_ok (run_argument 0 hparams rfl state),
    CallM.run_bind_ok (run_argument 1 hparams rfl state), CallM.run_bind_ok hretain]
  obtain ⟨error, herror⟩ | ⟨handle, object, a, hreceiver, hobject, hread, hupdate⟩ :=
    CallM.updateThis_cases kind (HasOffsets.offsetSet offset value) input
      { state with heap := state.heap.retainValue value }
  · rw [CallM.run_bind_ok (CallM.run_attempt herror)]
    exact ⟨.error error, _, rfl, .unreached⟩
  · rw [CallM.run_bind_ok (CallM.run_attempt hupdate)]
    cases hresult : (HasOffsets.offsetSet offset value : CallM.Update α (Option Value)) a with
    | mk outcome b =>
      cases outcome with
      | error error => exact ⟨.error error, _, rfl, .refused hreceiver hobject hread hresult⟩
      | ok returned =>
        exact ⟨.ok (), _, run_giveUp returned input _, .done hreceiver hobject hread hresult⟩

private theorem run_unset (kind : StateKind σ α) [HasOffsets α] (offset : Value) {input : CallInput}
    (hparams : input.params.slots = (unset offset).arguments.map ParamSlot.value)
    (state : CallState σ ω) :
    ∃ outcome after, ((unset offset).method kind).body.run input state =
        (outcome, { state with heap := after }) ∧
      Ends kind (unset offset) input.receiver state.heap outcome after := by
  simp only [method, Method.declare]
  rw [CallM.run_bind_ok (run_argument 0 hparams rfl state)]
  obtain ⟨error, herror⟩ | ⟨handle, object, a, hreceiver, hobject, hread, hupdate⟩ :=
    CallM.updateThis_cases kind (HasOffsets.offsetUnset offset) input state
  · exact ⟨.error error, _, CallM.run_bind_error herror, .unreached⟩
  · cases hresult : (HasOffsets.offsetUnset offset : CallM.Update α (Option Value)) a with
    | mk outcome b =>
      rw [hresult] at hupdate
      cases outcome with
      | error error =>
        exact ⟨.error error, _, CallM.run_bind_error hupdate,
          .refused hreceiver hobject hread hresult⟩
      | ok returned =>
        exact ⟨.ok (), _, (CallM.run_bind_ok hupdate).trans (run_giveUp returned input _),
          .done hreceiver hobject hread hresult⟩

/-- The body for a request ends in one of the three ways and does nothing but
work on the heap. All that is known of these bodies goes through this. -/
theorem run_body (kind : StateKind σ α) [HasOffsets α] (request : OffsetRequest)
    {input : CallInput} (hparams : input.params.slots = request.arguments.map ParamSlot.value)
    (state : CallState σ ω) :
    ∃ outcome after, (request.method kind).body.run input state =
        (outcome, { state with heap := after }) ∧
      Ends kind request input.receiver state.heap outcome after := by
  cases request with
  | set offset value => exact run_set kind offset value hparams state
  | unset offset => exact run_unset kind offset hparams state

end OffsetRequest

/-- A state with offsets keeps to its side: what it holds and hands back is what
it held and was handed, and when it refuses, it holds what it held. -/
structure HonoursOffsets [NativeState σ] (kind : StateKind σ α) [HasOffsets α] : Prop where
  done : ∀ {request : OffsetRequest} {a b : α} {returned : Option Value},
    request.update a = (.ok returned, b) →
      ((kind.write b).handles ++ OffsetRequest.owed returned).Perm
        ((kind.write a).handles ++ request.passed.handle?.toList)
  refused : ∀ {request : OffsetRequest} {a b : α} {error : BodyError},
    request.update a = (.error error, b) → (kind.write b).handles.Perm (kind.write a).handles

/-- The state of the receiver owns the handles in it, if the receiver is of the
kind. -/
def OwnsState (kind : StateKind σ α) (receiver : Receiver) (heap : Heap σ) : Prop :=
  ∀ handle, receiver = .bound handle → ∀ object a, heap.object? handle = some object →
    kind.read object.state = some a → object.owning = true

namespace OffsetRequest

variable [NativeState σ] {kind : StateKind σ α} [HasOffsets α] {request : OffsetRequest}
  {receiver : Receiver} {heap after : Heap σ} {outcome : Except BodyError Unit}
  {owners : Tenancy → Nat}

/-- The heap is balanced for the same owners after a request as before it,
however it ended. This needs that the state keeps to its side and owns what it
holds. -/
theorem Ends.balanced (h : Ends kind request receiver heap outcome after)
    (hhonours : HonoursOffsets kind) (howns : OwnsState kind receiver heap)
    (hbalanced : heap.BalancedFor owners)
    (hbelow : ∀ handle object, heap.object? handle = some object →
      object.refCount < Heap.maxCount) : after.BalancedFor owners := by
  have hretained := hbalanced.retainValue hbelow request.passed
  have howned : ∀ {handle object a}, receiver = .bound handle →
      (heap.retainValue request.passed).object? handle = some object →
      kind.read object.state = some a → object.owning = true ∧
        object.owned = (kind.write a).handles := by
    intro handle object a hreceiver hobject hread
    obtain ⟨count, hbefore⟩ := Heap.object?_retainValue hobject
    have howning : object.owning = true :=
      howns handle hreceiver { object with refCount := count } a hbefore hread
    exact ⟨howning, by rw [Object.owned, if_pos howning, kind.write_of_read hread]⟩
  cases h with
  | unreached => exact hretained.releaseAll
  | @refused handle object a b error hreceiver hobject hread hupdate =>
    obtain ⟨howning, hheld⟩ := howned hreceiver hobject hread
    have hput : ((heap.retainValue request.passed).putObject handle.index
        { object with state := kind.write b }).BalancedFor
          (owners + tally request.passed.handle?.toList) := by
      refine hretained.replace hobject rfl ?_
      rw [hheld, Object.owned, if_pos howning, tally_perm (hhonours.refused hupdate)]
    exact hput.releaseAll
  | @done handle object a b returned hreceiver hobject hread hupdate =>
    obtain ⟨howning, hheld⟩ := howned hreceiver hobject hread
    have hput : ((heap.retainValue request.passed).putObject handle.index
        { object with state := kind.write b }).BalancedFor (owners + tally (owed returned)) := by
      refine hretained.replace hobject rfl ?_
      rw [hheld, Object.owned, if_pos howning, add_assoc, add_assoc, ← tally_append,
        ← tally_append]
      exact congrArg (owners + ·) (tally_perm (List.perm_append_comm.trans
        ((hhonours.done hupdate).trans List.perm_append_comm)))
    exact hput.releaseAll

omit [NativeState σ] [HasOffsets α] in
private theorem refCount?_handedOver {handle : Handle} {object : Object σ} {b : α}
    (hobject : (heap.retainValue request.passed).object? handle = some object)
    (hbelow : ∀ handle object, heap.object? handle = some object →
      object.refCount < Heap.maxCount) (other : Handle) :
    ((heap.retainValue request.passed).putObject handle.index
      { object with state := kind.write b }).refCount? other =
        (heap.refCount? other).map fun count =>
          count + tally request.passed.handle?.toList other.tenancy := by
  rw [Heap.refCount?_putObject_of_eq hobject (by rfl), Heap.refCount?_retainValue hbelow]

/-- A request that fails changes no count. The reference for the value is the
last thing to be given back, and it was not the only one, which is what the
premise on it is for. -/
theorem Ends.refCount?_of_error {error : BodyError}
    (h : Ends kind request receiver heap (.error error) after)
    (hpos : ∀ handle count, request.passed.handle? = some handle →
      heap.refCount? handle = some count → 0 < count)
    (hbelow : ∀ handle object, heap.object? handle = some object →
      object.refCount < Heap.maxCount) (other : Handle) :
    after.refCount? other = heap.refCount? other := by
  have htakenBack : ∀ {middle : Heap σ}, (∀ other, middle.refCount? other =
      (heap.refCount? other).map fun count =>
        count + tally request.passed.handle?.toList other.tenancy) →
      (middle.releaseValue request.passed).refCount? other = heap.refCount? other := by
    intro middle hmiddle
    rw [Heap.releaseValue, (Heap.exchanges_releaseAll hmiddle request.passed.handle?).kept]
    · simp
    · intro displaced hmem count hcount
      have := hpos displaced count (Option.mem_toList.1 hmem) hcount
      omega
  cases h with
  | unreached => exact htakenBack (Heap.refCount?_retainValue hbelow request.passed)
  | refused hreceiver hobject hread hupdate =>
    exact htakenBack (refCount?_handedOver hobject hbelow)

/-- A request that succeeds takes a reference for the value passed in, and gives
up the one of the value handed back. Nothing is said of whether they are the
same value. -/
theorem Ends.exchanges (h : Ends kind request receiver heap (.ok ()) after)
    (hbelow : ∀ handle object, heap.object? handle = some object →
      object.refCount < Heap.maxCount) :
    ∃ handle a returned b, receiver = .bound handle ∧ heap.get? kind handle = some a ∧
      request.update a = (.ok returned, b) ∧
      heap.Exchanges request.passed.handle?.toList (owed returned) after := by
  cases h with
  | @done handle object a b returned hreceiver hobject hread hupdate =>
    obtain ⟨count, hbefore⟩ := Heap.object?_retainValue hobject
    have hget : heap.get? kind handle = some a := by
      rw [Heap.get?, hbefore]
      exact hread
    exact ⟨handle, a, returned, b, hreceiver, hget, hupdate,
      Heap.exchanges_releaseAll (refCount?_handedOver hobject hbelow) _⟩

end OffsetRequest

namespace Host

variable [NativeState σ] {host : Host σ ω} {className : String} {method : Method σ ω}
  {frame : Frame}

/-- Parameters that take any value leave only the receiver to stop a request.
When it does not, the arguments come to the body as they were supplied. -/
theorem prepare_offsets (rule : Strictness) (className : String) (kind : StateKind σ α)
    [HasOffsets α] (request : OffsetRequest) (id : Identity) (receiver : Option RawReceiver) :
    (∃ error, prepare (ω := ω) rule className { request.method kind with id }
      ⟨receiver, request.arguments⟩ = .error error) ∨
    ∃ handle params, Receiver.bind receiver = .ok (.bound handle) ∧
      params.slots = request.arguments.map ParamSlot.value ∧
      prepare (ω := ω) rule className { request.method kind with id }
        ⟨receiver, request.arguments⟩ = .ok ⟨.bound handle, params⟩ := by
  obtain haccepts | ⟨error, hobstacle⟩ := accepts_or_firstObstacle rule className
    ({ request.method kind with id } : Method σ ω) ⟨receiver, request.arguments⟩
  · obtain ⟨⟨bound, params⟩, hprepare, hbind, hfetch⟩ := haccepts.prepare_eq className
    have hslots : params.slots = request.arguments.map ParamSlot.value := by
      cases request <;> cases hfetch <;> rfl
    have hinstance : ({ request.method kind with id } : Method σ ω).flags.isInstance = true := by
      cases request <;> rfl
    obtain ⟨found, hfound, hisBound⟩ := bind_of_usable haccepts.usable
    rw [hbind] at hfound
    cases hfound
    rw [haccepts.receiver hinstance] at hisBound
    cases bound with
    | absent => cases hisBound
    | bound handle => exact Or.inr ⟨handle, params, hbind, hslots, hprepare⟩
  · exact Or.inl ⟨error, hobstacle.prepare_eq⟩

private theorem invokeMethod_of_prepare_error {error : CallError}
    (hprepare : prepare host.options.strictness className method frame = .error error) :
    (host.invokeMethod className method frame).1 = .error error ∧
      (host.invokeMethod className method frame).2.heap = host.heap := by
  rw [invokeMethod_of_error (runCall_of_prepare_error hprepare) (exitCheck_enter host method)]
  exact ⟨rfl, rfl⟩

/-- When its body does no more than work on the heap, a call answers with
nothing and leaves the heap as the body does. -/
theorem invokeMethod_of_body {input : CallInput} {outcome : Except BodyError Unit} {heap : Heap σ}
    (hprepare : prepare host.options.strictness className method frame = .ok input)
    (hbody : method.body.run input (host.enter method) =
      (outcome, { host.enter method with heap })) :
    (host.invokeMethod className method frame).1 =
        (outcome.mapError (CallError.body className method.name)).map (fun _ => .null) ∧
      (host.invokeMethod className method frame).2.heap = heap := by
  have hrun : host.runCall className method frame =
      ((outcome.mapError (CallError.body className method.name)).map (fun _ => .null),
        { host.enter method with heap }) := by
    rw [runCall_of_prepare_ok hprepare, hbody]
    rfl
  have hcheck : host.exitCheck { host.enter method with heap } = .ok () :=
    exitCheck_enter host method
  refine ⟨fst_invokeMethod hrun hcheck, ?_⟩
  cases outcome with
  | ok _ =>
    obtain ⟨value, hvalue, -, heq⟩ | ⟨_, _, _, hfails, _⟩ | ⟨_, hfails, _⟩ |
      ⟨_, _, hfails, _⟩ := invokeMethod_cases hrun
    · cases hvalue
      rw [heq]
      rfl
    · rw [hcheck] at hfails
      cases hfails
    · cases hfails
    · cases hfails
  | error error =>
    rw [invokeMethod_of_error hrun hcheck]
    rfl

end Host

/-- The class has the methods for values at offsets, with identities of its
own. -/
def NativeClass.OffersOffsets [NativeState σ] (cls : NativeClass σ ω) (kind : StateKind σ α)
    [HasOffsets α] : Prop :=
  ∀ method ∈ (MethodTable.empty : MethodTable σ ω).withArrayAccess kind,
    ∃ id, { method with id } ∈ cls.methods

namespace Host

variable [NativeState σ] {cls : NativeClass σ ω} {host after : Host σ ω} {kind : StateKind σ α}
  [HasOffsets α] {owners : Tenancy → Nat} {outcome : Except CallError Value}

/-- A call of a method for values at offsets runs its body on the receiver,
or is refused and leaves the heap alone. The method may be called in any
spelling. -/
theorem invoke_offsets_cases (hoffers : cls.OffersOffsets kind) (request : OffsetRequest)
    {called : String} (hcalled : Text.SameName request.methodName called)
    (receiver : Option RawReceiver)
    (hcall : host.invoke cls called ⟨receiver, request.arguments⟩ = (outcome, after)) :
    (∃ error, outcome = .error error ∧ after.heap = host.heap) ∨
    ∃ handle ended, Receiver.bind receiver = .ok (.bound handle) ∧
      outcome = (ended.mapError (CallError.body cls.name.text request.methodName)).map
        (fun _ => .null) ∧
      OffsetRequest.Ends kind request (.bound handle) host.heap ended after.heap := by
  obtain ⟨gap, -, hbind⟩ | ⟨-, -, hbind⟩ | ⟨found, -, hfound, hbind⟩ := cls.bind_cases called
  · simp only [invoke, hbind] at hcall
    cases hcall
    exact Or.inl ⟨_, rfl, rfl⟩
  · simp only [invoke, hbind] at hcall
    cases hcall
    exact Or.inl ⟨_, rfl, rfl⟩
  · obtain ⟨id, hmem⟩ := hoffers _ (request.method_mem kind MethodTable.empty)
    have hmethod : cls.method? called = some { request.method kind with id } :=
      cls.distinct.find?_eq_some_iff.2 ⟨hmem, by rwa [OffsetRequest.name_method]⟩
    rw [hfound] at hmethod
    cases hmethod
    simp only [invoke, hbind] at hcall
    obtain ⟨error, hprepare⟩ | ⟨handle, params, hreceiver, hslots, hprepare⟩ :=
      prepare_offsets (ω := ω) host.options.strictness cls.name.text kind request id receiver
    · obtain ⟨houtcome, hheap⟩ := invokeMethod_of_prepare_error hprepare
      rw [hcall] at houtcome hheap
      exact Or.inl ⟨error, houtcome, hheap⟩
    · have hparams : (CallInput.mk (.bound handle) params).params.slots =
        request.arguments.map ParamSlot.value := hslots
      obtain ⟨ended, heap, hbody, hends⟩ := OffsetRequest.run_body kind request hparams
        (host.enter ({ request.method kind with id } : Method σ ω))
      obtain ⟨houtcome, hheap⟩ := invokeMethod_of_body hprepare hbody
      rw [hcall] at houtcome hheap
      rw [OffsetRequest.name_method] at houtcome
      exact Or.inr ⟨handle, ended, hreceiver, houtcome, hheap ▸ hends⟩

/-- Calls that store or remove a value of a state that owns what it holds keep
the heap balanced for the same owners, whatever the receiver is and however
they end. One that fails changes no count, if whoever passed the value in has a
reference to it. One that succeeds counts a reference for the value passed in,
and takes away the one of the value that the state hands back. -/
theorem invoke_offsets_balanced (hhonours : HonoursOffsets kind) (hoffers : cls.OffersOffsets kind)
    (hbalanced : host.heap.BalancedFor owners)
    (hbelow : ∀ handle object, host.heap.object? handle = some object →
      object.refCount < Heap.maxCount)
    (request : OffsetRequest) {called : String}
    (hcalled : Text.SameName request.methodName called) (receiver : Option RawReceiver)
    (howns : ∀ bound, Receiver.bind receiver = .ok bound → OwnsState kind bound host.heap) :
    ∀ outcome after, host.invoke cls called ⟨receiver, request.arguments⟩ = (outcome, after) →
      after.heap.BalancedFor owners ∧
      (∀ error, outcome = .error error →
        (∀ handle count, request.passed.handle? = some handle →
          host.heap.refCount? handle = some count → 0 < count) →
        ∀ handle, after.heap.refCount? handle = host.heap.refCount? handle) ∧
      ∀ value, outcome = .ok value → value = .null ∧ ∃ handle a returned b,
        Receiver.bind receiver = .ok (.bound handle) ∧ host.heap.get? kind handle = some a ∧
        request.update a = (.ok returned, b) ∧
        host.heap.Exchanges request.passed.handle?.toList (OffsetRequest.owed returned)
          after.heap := by
  intro outcome after hcall
  obtain ⟨error, rfl, hheap⟩ | ⟨handle, ended, hreceiver, rfl, hends⟩ :=
    invoke_offsets_cases hoffers request hcalled receiver hcall
  · rw [hheap]
    exact ⟨hbalanced, fun _ _ _ _ => rfl, fun _ hvalue => by cases hvalue⟩
  · refine ⟨hends.balanced hhonours (howns _ hreceiver) hbalanced hbelow, ?_, ?_⟩
    · intro error herror hpos
      cases ended with
      | ok _ => cases herror
      | error cause => exact hends.refCount?_of_error hpos hbelow
    · intro value hvalue
      cases ended with
      | error cause => cases hvalue
      | ok _ =>
        cases hvalue
        obtain ⟨found, a, returned, b, hfound, hget, hupdate, hexchanges⟩ := hends.exchanges hbelow
        cases hfound
        exact ⟨rfl, handle, a, returned, b, hreceiver, hget, hupdate, hexchanges⟩

end Host

/-- State that keeps what it was handed last in front, in the place of what was
there. -/
structure Shelf where
  handles : List Handle

instance : HasOffsets Shelf where
  offsetExists := fun shelf _ => .ok !shelf.handles.isEmpty
  offsetGet := fun shelf _ => .ok ((shelf.handles.head?.map Value.object).getD .null)
  offsetSet := fun _ value shelf =>
    match value.handle? with
    | some handle => (.ok (shelf.handles.head?.map Value.object), ⟨handle :: shelf.handles.tail⟩)
    | none => (.error (.other "nothing to keep"), shelf)
  offsetUnset := fun _ shelf =>
    (.ok (shelf.handles.head?.map Value.object), ⟨shelf.handles.tail⟩)

def Shelf.kind : StateKind Sample Shelf where
  type := SampleType.holder.type
  read := fun state => (SampleType.holderKind.read state).map Shelf.mk
  write := fun shelf => SampleType.holderKind.write shelf.handles
  read_write := fun _ => rfl
  write_of_read := by
    intro state shelf h
    obtain ⟨handles, hread, rfl⟩ := Option.map_eq_some_iff.1 h
    exact SampleType.holderKind.write_of_read hread

/-- A shelf keeps to its side: what it puts in front replaces what it hands
back, and a value that is no handle is refused before anything is moved. -/
theorem Shelf.honoursOffsets : HonoursOffsets Shelf.kind := by
  constructor
  · rintro (⟨offset, value⟩ | offset) ⟨handles⟩ ⟨after⟩ returned hupdate
    · simp only [OffsetRequest.update, HasOffsets.offsetSet] at hupdate
      cases hvalue : value.handle? with
      | none =>
        rw [hvalue] at hupdate
        cases hupdate
      | some handle =>
        rw [hvalue] at hupdate
        cases hupdate
        cases handles with
        | nil =>
          change [handle].Perm value.handle?.toList
          rw [hvalue]
          exact .refl _
        | cons first rest =>
          change ((handle :: rest) ++ [first]).Perm ((first :: rest) ++ value.handle?.toList)
          rw [hvalue]
          exact (List.perm_append_singleton first _).trans
            ((List.Perm.swap _ _ rest).trans (List.perm_append_singleton handle _).symm)
    · cases hupdate
      cases handles with
      | nil => exact .refl _
      | cons first rest =>
        change (rest ++ [first]).Perm ((first :: rest) ++ [])
        rw [List.append_nil]
        exact List.perm_append_singleton first rest
  · rintro (⟨offset, value⟩ | offset) ⟨handles⟩ ⟨after⟩ error hupdate
    · simp only [OffsetRequest.update, HasOffsets.offsetSet] at hupdate
      split at hupdate
      · cases hupdate
      · cases hupdate
        rfl
    · cases hupdate

def Shelf.firstArray : Handle := ⟨0, 0, SampleType.array.type⟩

def Shelf.secondArray : Handle := ⟨1, 0, SampleType.array.type⟩

def Shelf.receiver : Handle := ⟨2, 0, SampleType.holder.type⟩

/-- A shelf with the first of two arrays in it. The shelf and the second array
have owners outside of the heap. -/
def Shelf.host : Host Sample Unit :=
  let first := Heap.empty.allocate (.array .empty)
  let second := first.2.allocate (.array .empty)
  let shelf := second.2.allocateOwning Identity.empty (.native (.holder [Shelf.firstArray]))
  ⟨shelf.2, .empty, .standard, [], [], ()⟩

def Shelf.cls : NativeClass Sample Unit where
  name := .global "Shelf"
  parent := none
  capabilities := .empty
  methods := MethodTable.empty.withArrayAccess Shelf.kind
  properties := []
  distinct := MethodTable.firstRepeat?_nil_eq_none_iff.1 rfl

/-- The second array takes the place of the first, which goes. An array is no
shelf, so a call on it changes no count. -/
theorem Host.invoke_offsets_balanced_shelf :
    Shelf.host.heap.BalancedFor (tally [Shelf.receiver, Shelf.secondArray]) ∧
    (Shelf.host.invoke Shelf.cls "OFFSETSET"
      ⟨some (.bare Shelf.receiver), [.int 0, .array Shelf.secondArray]⟩).2.heap.BalancedFor
        (tally [Shelf.receiver, Shelf.secondArray]) ∧
    (Shelf.host.invoke Shelf.cls "OFFSETSET"
      ⟨some (.bare Shelf.receiver), [.int 0, .array Shelf.secondArray]⟩).2.heap.contains
        Shelf.firstArray = false ∧
    (Shelf.host.invoke Shelf.cls "offsetSet"
      ⟨some (.bare Shelf.secondArray), [.int 0, .array Shelf.firstArray]⟩).2.heap.refCount?
        Shelf.firstArray = some 1 := by
  have hbalanced : Shelf.host.heap.BalancedFor (tally [Shelf.receiver, Shelf.secondArray]) := by
    decide
  have hbelow : ∀ handle object, Shelf.host.heap.object? handle = some object →
      object.refCount < Heap.maxCount := Heap.forall_object?_of_slots (by decide)
  have hoffers : Shelf.cls.OffersOffsets Shelf.kind := fun method hmem => ⟨method.id, hmem⟩
  have howns : ∀ receiver, OwnsState Shelf.kind receiver Shelf.host.heap :=
    fun _ handle _ object _ hobject _ => Heap.forall_object?_of_slots
      (p := fun object => object.owning = true) (by decide) handle object hobject
  have hcalls := fun (request : OffsetRequest) (called : String)
      (hcalled : Text.SameName request.methodName called) receiver =>
    Host.invoke_offsets_balanced Shelf.honoursOffsets hoffers hbalanced hbelow request hcalled
      receiver fun bound _ => howns bound
  obtain ⟨hset, -, hok⟩ := hcalls (.set (.int 0) (.array Shelf.secondArray)) "OFFSETSET" (by decide)
    (some (.bare Shelf.receiver)) _ _ rfl
  obtain ⟨-, herror, -⟩ := hcalls (.set (.int 0) (.array Shelf.firstArray)) "offsetSet" (by decide)
    (some (.bare Shelf.secondArray)) _ _ rfl
  refine ⟨hbalanced, hset, ?_, ?_⟩
  · obtain ⟨-, handle, a, returned, b, hhandle, hget, hupdate, hexchanges⟩ := hok .null (by rfl)
    cases hhandle
    cases hget
    cases hupdate
    exact hexchanges.gone Shelf.firstArray (by decide) 1 (by decide) (by decide)
  · refine (herror _ rfl ?_ Shelf.firstArray).trans (by decide)
    rintro _ count ⟨⟩ ⟨⟩
    decide

end NativeBridge
