import ObjectVM.Machine.CallStack
import ObjectVM.Machine.Event
import ObjectVM.Machine.Invocation
import ObjectVM.Machine.Sink
import ObjectVM.Machine.Traceback
import ObjectVM.Program.Compartment
import ObjectVM.Store.Collect

/-!
# Processes

All that a running program has: the stores, the loaded compartments, three stacks, and what the host
has set up. Here are the parts of a process that only look at it, collection, and what starts and
ends a program.

The invocation stack has one entry for each frame, at the index that the frame knows, and between
and above them the calls that frames have staged and not yet made.

Specification: 4.5, B.4.3, B.4.5 and B.4.7.
-/
namespace ObjectVM

/-- The state of a process. Of the objects the top comes first; frames and invocations are indexed
from the bottom. `uncaught` is the call stack as it was when the last uncaught exception was
raised. -/
structure Process where
  options : ProcessOptions
  heap : Heap
  pool : Pool
  compartments : Array Compartment
  calls : CallStack
  invocations : Array Invocation
  objects : List ObjectId
  halt : Option Outcome
  uncaught : Option Traceback
  rules : GcRules
  vectors : Signal → Option Code
  signals : SignalQueue
  output : Sink
  diagnostics : String
  journal : Journal

/-- A process without a program. -/
def ProcessOptions.newProcess (options : ProcessOptions) (journal : Journal) :
    Except Fault Process :=
  match options.check with
  | .error fault => .error (.options fault)
  | .ok () =>
    .ok
      { options
        heap := .empty options.heapCapacity
        pool := .empty options.poolCapacity
        compartments := #[]
        calls := .empty options.maxCallDepth
        invocations := #[]
        objects := []
        halt := none
        uncaught := none
        rules := options.rules
        vectors := fun _ => none
        signals := .empty
        output := .fresh
        diagnostics := ""
        journal }

namespace Process

/-- Notes an event. -/
def note (p : Process) (e : Event) : Process := { p with journal := p.journal.record e }

/-! ## Looking things up -/

/-- A loaded compartment. -/
def compartment (p : Process) (id : UInt64) : Except Fault Compartment :=
  match p.compartments[id.toNat]? with
  | some c => .ok c
  | none => .error (.compartmentNotFound id)

/-- The closure that a reference names. -/
def resolve (p : Process) (ref : ClosureRef) : Except Fault Closure := do
  (← p.compartment ref.compartment).closure ref.closure

/-- The compartment of the running frame. -/
def currentCompartment (p : Process) : Except Fault Compartment :=
  match p.calls.top? with
  | some f => p.compartment f.closure.compartment
  | none => .error .frameNotFound

/-- A text literal of the running frame's compartment. -/
def stringLiteral (p : Process) (key : UInt64) : Except Fault String := do
  (← p.currentCompartment).string key

/-- The name of a variable, or its key where the literal table has no name for it. -/
def nameOf (p : Process) (key : UInt64) : String :=
  match p.stringLiteral key with
  | .ok name => name
  | .error _ => Fault.anonymous key

/-- A fault with the name of a variable in place of its key. -/
def named (p : Process) (key : UInt64) : Fault → Fault
  | .nameNotFound _ => .nameNotFound (p.nameOf key)
  | fault => fault

/-- What a visible variable is bound to as seen from the running frame. -/
def visible (p : Process) (key : UInt64) : Except Fault ObjectId :=
  if p.calls.depth = 0 then .error .frameNotFound
  else (p.calls.getVisible (p.calls.depth - 1) key).mapError (p.named key)

/-- The object that an id names. -/
def object (p : Process) (id : ObjectId) : Except Fault Object :=
  (p.heap.find id).mapError .heap

/-- The value under a key of the pool. -/
def pooled (p : Process) (key : HandleKey) : Except Fault Value :=
  (p.pool.find key).mapError .pool

/-- The value in the handle of an object. Mirrors `handle`. -/
def valueOf (p : Process) (id : ObjectId) : Except Fault Value := do
  match (← p.object id).handle with
  | some key => p.pooled key
  | none => .error (.noHandle id)

/-- The nearest live frame of a closure around, trying at most `steps` closures outward, the
innermost first. Part of `lexical_parent`. -/
def nearestFrame (p : Process) (c : Compartment) (compartment : UInt64) :
    Option UInt64 → Nat → Option Nat
  | none, _ => none
  | some _, 0 => none
  | some parent, steps + 1 =>
    match p.calls.frameOf? ⟨compartment, parent⟩ with
    | some index => some index
    | none => nearestFrame p c compartment ((c.closure? parent).bind (·.parent)) steps

/-- The frame that a new frame of a closure is linked to. Parents may form a cycle, so no more
closures are tried than there are. -/
def lexicalParent (p : Process) (ref : ClosureRef) : Except Fault (Option Nat) := do
  let c ← p.compartment ref.compartment
  let closure ← c.closure ref.closure
  .ok (p.nearestFrame c ref.compartment closure.parent c.closures.size)

/-! ## Reports -/

/-- Counts of everything in one line. -/
def summary (p : Process) : String :=
  "process: " ++ Decimal.natText p.calls.depth ++ " frame(s), "
    ++ Decimal.natText p.invocations.size ++ " invocation ctx(s), "
    ++ Decimal.natText p.objects.length ++ " object(s) on stack, heap "
    ++ Decimal.natText p.heap.live ++ "/" ++ Decimal.natText p.heap.capacity ++ ", pool "
    ++ Decimal.natText p.pool.live ++ "/" ++ Decimal.natText p.pool.capacity

/-- A frame's entry in a traceback. -/
def traceEntry (p : Process) (f : Frame) : TraceEntry :=
  let path := match p.compartment f.closure.compartment with
    | .ok c => c.path
    | .error _ => ""
  match p.resolve f.closure with
  | .ok c => ⟨c.name, path, f.closureIndex, c.positionAt f.closureIndex⟩
  | .error _ => ⟨f.closure.text, path, f.closureIndex, none⟩

/-- The innermost frames, at most `limit` of them. -/
def traceback (p : Process) (limit : Nat) : Traceback :=
  let frames := p.calls.frames.toList.reverse
  ⟨(frames.take limit).map p.traceEntry, (frames.drop limit).length⟩

/-- The whole call stack. -/
def fullTraceback (p : Process) : Traceback := p.traceback p.calls.depth

/-! ## Collection -/

/-- The ids that the process holds outside the stores. Mirrors `visit_roots`. -/
def roots (p : Process) : List ObjectId :=
  p.objects ++ p.calls.frames.toList.flatMap Frame.objectIds
    ++ p.invocations.toList.flatMap Invocation.objectIds

/-- The ids in the value under a key of the pool. Mirrors `visit_native_edges`. -/
def handleEdges (p : Process) (key : HandleKey) : List ObjectId :=
  match p.pool.get? key with
  | some v => v.objectIds
  | none => []

/-- The pool without the values under the given keys. -/
def eraseHandles (pool : Pool) (keys : List HandleKey) : Pool :=
  keys.foldl (fun pool key =>
    match pool.erase key with
    | .ok (_, pool) => pool
    | .error _ => pool) pool

/-- Reclaims all objects out of reach, and the values in their handles. Mirrors `do_gc`. -/
def collect (p : Process) : Collection × Process :=
  let p := p.note (.collectionStarted p.heap.live p.pool.live)
  let (stats, heap) := p.heap.collect p.roots p.handleEdges
  let pool := eraseHandles p.pool stats.orphans
  let journal := (p.journal.recordAll (stats.reclaimed.map .reclaimed)).record
    (.collectionEnded stats.marked stats.reclaimed.length)
  (stats, { p with heap, pool, journal })

/-- Whether one of the collection rules asks for a collection. Part of `apply_gc_rules`. -/
def isCollectionDue (p : Process) : Bool :=
  p.rules.always
    || (p.rules.heapSize && p.options.isFilled p.heap.live p.heap.capacity)
    || (p.rules.poolSize && p.options.isFilled p.pool.live p.pool.capacity)

/-- Collects if a rule asks for it. Mirrors `apply_gc_rules`. -/
def applyRules (p : Process) : Process := if p.isCollectionDue then p.collect.2 else p

/-! ## Programs -/

/-- Loads a compartment behind those that are loaded. Its number is its place. Mirrors
`insert_compartment`. -/
def load (p : Process) (c : Compartment) : Nat × Process :=
  let p := p.note (.loaded c.path)
  (p.compartments.size, { p with compartments := p.compartments.push c })

/-- The process without frames, staged calls, objects on the stack and outcome. -/
def clearStacks (p : Process) : Process :=
  { p with
    calls := p.calls.clear
    invocations := #[]
    objects := []
    halt := none
    uncaught := none }

/-- Makes the first frame of the first compartment. Says whether there is anything to run. Mirrors
`pre_start`. -/
def start (p : Process) : Except Fault Bool × Process :=
  match p.compartments[0]?.bind Compartment.entryPoint? with
  | none => (.ok false, p)
  | some entry =>
    let ref : ClosureRef := ⟨0, entry.id⟩
    let p := (p.note (.entered entry.name)).clearStacks
    let p := { p with invocations := #[Invocation.new ref] }
    match p.calls.push (Frame.new ref entry.code 0 none none) with
    | .ok calls => (.ok true, { p with calls })
    | .error fault => (.error fault, p)

/-- The process without programs, objects and handles. What the host has set up stays. -/
def reset (p : Process) : Process :=
  let p := p.clearStacks
  { p with
    compartments := #[]
    heap := .empty p.options.heapCapacity
    pool := .empty p.options.poolCapacity }.note .wasReset

/-- Reports the innermost frames and resets the process. Mirrors `unwind_stack`. -/
def abandon (p : Process) (limit : Nat) : Process :=
  { p with diagnostics := p.diagnostics ++ (p.traceback limit).text }.reset

/-! ## Host settings -/

/-- Puts a collection rule in force or out of it. Mirrors `set_gc_flag` and `clear_gc_flag`. -/
def setRule (p : Process) (rule : GcRule) (on : Bool) : Process :=
  { p with rules := p.rules.update rule on }

/-- Sets or takes away the vector of a signal. Mirrors `set_sig_vector` and `clear_sig_vector`. -/
def setVector (p : Process) (s : Signal) (vector : Option Code) : Process :=
  { p with vectors := fun t => if t = s then vector else p.vectors t }

/-- Raises a signal; it is handled before the next instruction. Mirrors `raise`. -/
def raiseSignal (p : Process) (s : Signal) : Process := { p with signals := p.signals.raise s }

end Process

end ObjectVM
