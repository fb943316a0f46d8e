import ObjectVM.Binary.Codec
import ObjectVM.Code.Builder
import ObjectVM.Code.Instruction
import ObjectVM.Code.Op
import ObjectVM.Command.Arguments
import ObjectVM.Command.Listing
import ObjectVM.Command.Session
import ObjectVM.Container.Basic
import ObjectVM.Container.Binary
import ObjectVM.Container.Document
import ObjectVM.Decimal.Binary
import ObjectVM.Decimal.Digits
import ObjectVM.Decimal.Notation
import ObjectVM.Decimal.Reading
import ObjectVM.Decimal.Shortest
import ObjectVM.Files.Folder
import ObjectVM.Files.Path
import ObjectVM.Identity
import ObjectVM.Json.Numeral
import ObjectVM.Json.Printer
import ObjectVM.Json.Token
import ObjectVM.Json.Tree
import ObjectVM.KeyMap
import ObjectVM.Machine.Arguments
import ObjectVM.Machine.CallStack
import ObjectVM.Machine.Calls
import ObjectVM.Machine.Control
import ObjectVM.Machine.Event
import ObjectVM.Machine.Exec
import ObjectVM.Machine.Fault
import ObjectVM.Machine.Frame
import ObjectVM.Machine.Invocation
import ObjectVM.Machine.Objects
import ObjectVM.Machine.Options
import ObjectVM.Machine.Process
import ObjectVM.Machine.Run
import ObjectVM.Machine.Signal
import ObjectVM.Machine.Sink
import ObjectVM.Machine.Traceback
import ObjectVM.Machine.Values
import ObjectVM.Main
import ObjectVM.Program.Closure
import ObjectVM.Program.Compartment
import ObjectVM.Program.Load
import ObjectVM.Program.Stored
import ObjectVM.Proofs.Admission
import ObjectVM.Proofs.Arena
import ObjectVM.Proofs.AttributeHistory
import ObjectVM.Proofs.BinaryContainers
import ObjectVM.Proofs.Bindings
import ObjectVM.Proofs.Blindness
import ObjectVM.Proofs.BulkAttributes
import ObjectVM.Proofs.CallDiscipline
import ObjectVM.Proofs.CallLinks
import ObjectVM.Proofs.CallOrder
import ObjectVM.Proofs.CallsMatch
import ObjectVM.Proofs.Catching
import ObjectVM.Proofs.ClosureLookups
import ObjectVM.Proofs.CodecLaws
import ObjectVM.Proofs.Collection
import ObjectVM.Proofs.Comparisons
import ObjectVM.Proofs.Delivery
import ObjectVM.Proofs.Dispatch
import ObjectVM.Proofs.Drafts
import ObjectVM.Proofs.Edit
import ObjectVM.Proofs.EvaluationStack
import ObjectVM.Proofs.Failures
import ObjectVM.Proofs.FolderLaws
import ObjectVM.Proofs.ForwardRuns
import ObjectVM.Proofs.Handlers
import ObjectVM.Proofs.HeapLaws
import ObjectVM.Proofs.Heeding
import ObjectVM.Proofs.History
import ObjectVM.Proofs.Immutability
import ObjectVM.Proofs.IntegerArithmetic
import ObjectVM.Proofs.IntegerLaws
import ObjectVM.Proofs.IntegerTexts
import ObjectVM.Proofs.Isolation
import ObjectVM.Proofs.JsonContainers
import ObjectVM.Proofs.JsonTexts
import ObjectVM.Proofs.KeyMapLaws
import ObjectVM.Proofs.LabelTargets
import ObjectVM.Proofs.LexicalLinks
import ObjectVM.Proofs.Loading
import ObjectVM.Proofs.Lookups
import ObjectVM.Proofs.Marking
import ObjectVM.Proofs.NearestScope
import ObjectVM.Proofs.Nesting
import ObjectVM.Proofs.NoDangling
import ObjectVM.Proofs.NumeralLaws
import ObjectVM.Proofs.Onward
import ObjectVM.Proofs.Opcodes
import ObjectVM.Proofs.Ownership
import ObjectVM.Proofs.Pace
import ObjectVM.Proofs.Passing
import ObjectVM.Proofs.Paths
import ObjectVM.Proofs.PoolLaws
import ObjectVM.Proofs.PowersAndShifts
import ObjectVM.Proofs.Quiet
import ObjectVM.Proofs.Retrieval
import ObjectVM.Proofs.Sealing
import ObjectVM.Proofs.Shifts
import ObjectVM.Proofs.SignalFates
import ObjectVM.Proofs.Sound
import ObjectVM.Proofs.Spending
import ObjectVM.Proofs.StoreWrites
import ObjectVM.Proofs.Stores
import ObjectVM.Proofs.Tally
import ObjectVM.Proofs.TextEdits
import ObjectVM.Proofs.TextOrder
import ObjectVM.Proofs.TextPlaces
import ObjectVM.Proofs.TextSearches
import ObjectVM.Proofs.Tracebacks
import ObjectVM.Proofs.Turns
import ObjectVM.Proofs.Unwinding
import ObjectVM.Proofs.ValueIds
import ObjectVM.Proofs.Vectors
import ObjectVM.Proofs.Windows
import ObjectVM.Store.Collect
import ObjectVM.Store.Heap
import ObjectVM.Store.Object
import ObjectVM.Store.Pool
import ObjectVM.Text.Blank
import ObjectVM.Text.Case
import ObjectVM.Text.CaseTable
import ObjectVM.Text.Hash
import ObjectVM.Text.Order
import ObjectVM.Text.PrintTable
import ObjectVM.Text.Quoted
import ObjectVM.Text.Ranges
import ObjectVM.Text.Search
import ObjectVM.Text.Stretch
import ObjectVM.Value.Arrays
import ObjectVM.Value.Basic
import ObjectVM.Value.Error
import ObjectVM.Value.Integer
import ObjectVM.Value.Kind
import ObjectVM.Value.Maps
import ObjectVM.Value.Operator
import ObjectVM.Value.Texts
