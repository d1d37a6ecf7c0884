import NativeBridge.Assoc
import NativeBridge.Bridge
import NativeBridge.Call.Body
import NativeBridge.Call.Error
import NativeBridge.Capability
import NativeBridge.Class
import NativeBridge.ClassName
import NativeBridge.Decimal.Dyadic
import NativeBridge.Decimal.Literal
import NativeBridge.Decimal.Nearest
import NativeBridge.Decimal.Shortest
import NativeBridge.Decimal.Style
import NativeBridge.Dispatch
import NativeBridge.Fixture.Literals
import NativeBridge.Fixture.Placeholder
import NativeBridge.Heap
import NativeBridge.Heap.State
import NativeBridge.Host
import NativeBridge.Identity
import NativeBridge.Identity.Digest
import NativeBridge.Method
import NativeBridge.Method.Contract
import NativeBridge.OrderedArray
import NativeBridge.OrderedArray.Key
import NativeBridge.Params
import NativeBridge.Params.Decl
import NativeBridge.Receiver
import NativeBridge.Registry
import NativeBridge.Sample.Bag
import NativeBridge.Sample.State
import NativeBridge.Scope
import NativeBridge.Script.ArrayStep
import NativeBridge.Script.Body
import NativeBridge.Script.BridgeSession
import NativeBridge.Script.ClassSpec
import NativeBridge.Script.Expr
import NativeBridge.Script.HeapStep
import NativeBridge.Script.MemorySession
import NativeBridge.StaticProperty
import NativeBridge.Text.Blank
import NativeBridge.Text.Case
import NativeBridge.Text.Glyphless
import NativeBridge.Text.Quoted
import NativeBridge.Value
import NativeBridge.Value.Conversion
import NativeBridge.Value.Native
import NativeBridge.Proofs.Heap.Owners
import NativeBridge.Proofs.Heap.Cascade
import NativeBridge.Proofs.Heap.Soundness
import NativeBridge.Proofs.Heap.Allocation
import NativeBridge.Proofs.Heap.Release
import NativeBridge.Proofs.Heap.Reached
import NativeBridge.Proofs.Heap.Conservation
import NativeBridge.Proofs.Heap.Additions
import NativeBridge.Proofs.Call.Ownership
import NativeBridge.Proofs.Call.Phases
import NativeBridge.Proofs.Call.Runs
import NativeBridge.Proofs.Heap.History
import NativeBridge.Proofs.Heap.Staleness
import NativeBridge.Proofs.Call.Channel
import NativeBridge.Proofs.Registry.Growth
import NativeBridge.Proofs.Static.Resolution
import NativeBridge.Proofs.Static.Values
import NativeBridge.Proofs.Class.Capabilities
import NativeBridge.Proofs.Class.Contracts
import NativeBridge.Proofs.Class.Binding
import NativeBridge.Proofs.Heap.Shedding
import NativeBridge.Proofs.Heap.Departures
import NativeBridge.Proofs.Scope.Closing
import NativeBridge.Proofs.Call.Offsets
import NativeBridge.Proofs.Call.Spelling
import NativeBridge.Proofs.Registry.Ancestry
import NativeBridge.Proofs.Static.Access
import NativeBridge.Proofs.Static.Ownership
import NativeBridge.Proofs.Decimal.Grammar
import NativeBridge.Proofs.Decimal.Longest
import NativeBridge.Proofs.Decimal.Cursor
import NativeBridge.Proofs.Value.Strict
import NativeBridge.Proofs.Value.Lenient
import NativeBridge.Proofs.Array.Appending
import NativeBridge.Proofs.Params.Outcomes
import NativeBridge.Proofs.Params.Required
import NativeBridge.Proofs.Call.Arity
import NativeBridge.Proofs.Class.Generated
import NativeBridge.Proofs.Value.Narrowing
import NativeBridge.Proofs.Value.IntegerText
import NativeBridge.Proofs.Params.Reading
import NativeBridge.Proofs.Array.History
import NativeBridge.Proofs.Decimal.Canonical
import NativeBridge.Proofs.Array.Keys
import NativeBridge.Proofs.Class.Names
import NativeBridge.Proofs.Registry.Catalog
import NativeBridge.Proofs.Registry.Installations
import NativeBridge.Proofs.Registry.OwnName
import NativeBridge.Proofs.Class.ReadingBack
import NativeBridge.Proofs.Registry.Climbing
import NativeBridge.Proofs.Heap.FreeList
import NativeBridge.Proofs.Class.MethodIndex
import NativeBridge.Proofs.Identity.Members
