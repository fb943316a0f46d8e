import ObjectVM.Proofs.NoDangling
import ObjectVM.Proofs.Passing

/-!
# Arguments that are lost

Four instructions take arguments out of the running frame's invocation, and only one of them, which
takes the next positional argument, finds out first whether it can. The others take what they are
asked for and fail afterwards: on a named argument, where the instructions to pass over reach beyond
the code, and on all that are left, where there is no room for the object or for its value. What has
been taken is lost then, an object that has been made stays blank, and a named argument is on the
stack although the instruction has failed (`Process.RetrievalFails`, `retrieval_fails`).
-/
namespace ObjectVM

/-- Whether the opcode takes arguments. -/
def ArgumentOp.Takes : ArgumentOp → Prop
  | .take | .takeNamed | .takeAll | .takeAllNamed => True
  | _ => False

/-- Whether the opcode takes all positional or all named arguments. -/
def ArgumentOp.TakesAll : ArgumentOp → Prop
  | .takeAll | .takeAllNamed => True
  | _ => False

/-- The invocation when an opcode has taken all of its arguments. -/
def Invocation.drained (j : Invocation) : ArgumentOp → Invocation
  | .takeAll => { j with taken := j.positional.length }
  | .takeAllNamed => { j with named := ∅ }
  | _ => j

namespace Process

/-- How an instruction that takes arguments fails in `p`: the fault, and what is left. -/
inductive RetrievalFails (p : Process) (i : Instruction) : Fault → Process → Prop where
  | unframed (none : p.calls.top? = none) : RetrievalFails p i .frameNotFound p
  | uncalled {f : Frame} (top : p.calls.top? = some f)
    (none : p.invocations[f.invocation]? = none) : RetrievalFails p i .invocationNotFound p
  | missing {f : Frame} {j : Invocation} (op : i.op = .argument .take)
    (top : p.calls.top? = some f) (there : p.invocations[f.invocation]? = some j)
    (none : j.remaining = []) : RetrievalFails p i (.missingParameter .none) p
  /-- The skip goes beyond the code: the named argument has been taken and pushed. -/
  | stranded {f : Frame} {j : Invocation} {id : ObjectId} {target : Nat}
    (op : i.op = .argument .takeNamed) (top : p.calls.top? = some f)
    (there : p.invocations[f.invocation]? = some j) (named : j.named.get? i.first = some id)
    (skipped : target = min (f.pc + i.second.toNat) (UInt64.size - 1))
    (beyond : f.code.size < target) :
    RetrievalFails p i (.invalidAddress (signed64 target)) (p.takeNamed f j i.first id)
  /-- There is no room for an object: the arguments have been taken. -/
  | drained {a : ArgumentOp} {f : Frame} {j : Invocation} (op : i.op = .argument a)
    (all : a.TakesAll) (top : p.calls.top? = some f)
    (there : p.invocations[f.invocation]? = some j) (full : p.heap.isFull = true) :
    RetrievalFails p i (.heap (.exhausted p.heap.capacity))
      (p.setInvocation f.invocation (j.drained a))
  /-- There is no room for a value: the arguments have been taken, and the object stays blank. -/
  | blank {a : ArgumentOp} {f : Frame} {j : Invocation} (op : i.op = .argument a)
    (all : a.TakesAll) (top : p.calls.top? = some f)
    (there : p.invocations[f.invocation]? = some j) (room : p.heap.isFull = false)
    (full : p.pool.isFull = true) :
    RetrievalFails p i (.pool (.full p.pool.capacity))
      { p.setInvocation f.invocation (j.drained a) with heap := p.heap.allocate.2 }

end Process

namespace Exec

variable {p q : Process} {i : Instruction} {a : ArgumentOp} {f : Frame} {j : Invocation}
  {id : ObjectId} {fault : Fault}

/-- Without an invocation nothing can be taken. -/
theorem runArgument_uncalled (takes : a.Takes) (none : ownInvocation p = .error fault p) :
    runArgument a i p = .error fault p := by
  cases a with
  | take | takeAll | takeAllNamed => exact bind_error (bind_error none)
  | takeNamed => exact bind_error none
  | put | putNamed | putAll | putAllNamed | hasMore => exact takes.elim

/-- The frame goes on if it stays inside its code. -/
theorem updateFrame_skip (top : p.calls.top? = some f) (n : UInt64) :
    updateFrame (·.skip n) p =
      if f.code.size < min (f.pc + n.toNat) (UInt64.size - 1) then
        .error (.invalidAddress (signed64 (min (f.pc + n.toNat) (UInt64.size - 1) : Nat))) p
      else .ok () { p with
        calls := p.calls.modifyTop fun _ =>
          { f with pc := min (f.pc + n.toNat) (UInt64.size - 1) } } := by
  refine (bind_ok (topFrame_eq top)).trans ?_
  unfold Frame.skip
  dsimp only
  split <;> rfl

/-- All that are left are taken before there is an object for them. -/
theorem execute_takesAll (books : p.heap.WellFormed) (op : i.op = .argument a) (all : a.TakesAll)
    (top : p.calls.top? = some f) (there : p.invocations[f.invocation]? = some j) :
    p.heap.isFull = true ∧ execute i p =
        .error (.heap (.exhausted p.heap.capacity)) (p.setInvocation f.invocation (j.drained a)) ∨
      p.heap.isFull = false ∧ p.pool.isFull = true ∧ execute i p =
        .error (.pool (.full p.pool.capacity))
          { p.setInvocation f.invocation (j.drained a) with heap := p.heap.allocate.2 } ∨
      p.heap.isFull = false ∧ p.pool.isFull = false ∧ ∃ q, execute i p = .ok () q := by
  obtain ⟨v, ran⟩ : ∃ v, execute i p = (newObjectWith v >>= pushObject)
      (p.setInvocation f.invocation (j.drained a)) := by
    rw [Process.execute_argument op]
    cases a with
    | takeAll => exact ⟨.array j.remaining, bind_ok (takeOwn_eq top there rfl)⟩
    | takeAllNamed => exact ⟨.map j.named, bind_ok (takeOwn_eq top there rfl)⟩
    | put | putNamed | putAll | putAllNamed | take | takeNamed | hasMore => exact all.elim
  rw [ran]
  rcases newObjectWith_cases (p := p.setInvocation f.invocation (j.drained a)) books v with
    ⟨full, failed⟩ | ⟨room, full, failed⟩ | ⟨room, slot, made⟩
  · exact .inl ⟨full, bind_error failed⟩
  · exact .inr (.inl ⟨room, full, bind_error failed⟩)
  · exact .inr (.inr ⟨room, slot, _, bind_ok made⟩)

/-- Each of these failures happens. -/
theorem execute_of_retrievalFails (books : p.heap.WellFormed) (op : i.op = .argument a)
    (takes : a.Takes) (fails : p.RetrievalFails i fault q) : execute i p = .error fault q := by
  cases fails with
  | unframed none =>
    rw [Process.execute_argument op]
    exact runArgument_uncalled takes (bind_error (topFrame_none none))
  | uncalled top none =>
    rw [Process.execute_argument op]
    exact runArgument_uncalled takes (ownInvocation_none top none)
  | missing op' top there none =>
    exact execute_take_error op' top there (by rw [none]; rfl)
  | @stranded f j id target op' top there named skipped beyond =>
    subst skipped
    rw [execute_takeNamed_eq op' top there named]
    exact (updateFrame_skip (p := p.takeNamed f j i.first id) top i.second).trans (if_pos beyond)
  | @drained a' f j op' all top there full =>
    rcases execute_takesAll books op' all top there with ⟨-, failed⟩ | ⟨room, -, -⟩ | ⟨room, -, -⟩
    · exact failed
    · rw [full] at room
      cases room
    · rw [full] at room
      cases room
  | @blank a' f j op' all top there room full =>
    rcases execute_takesAll books op' all top there with ⟨full', -⟩ | ⟨-, -, failed⟩ | ⟨-, slot, -⟩
    · rw [room] at full'
      cases full'
    · exact failed
    · rw [full] at slot
      cases slot

/-- No other failure happens. -/
theorem retrievalFails_of_execute (books : p.heap.WellFormed) (op : i.op = .argument a)
    (takes : a.Takes) (failed : execute i p = .error fault q) : p.RetrievalFails i fault q := by
  cases top : p.calls.top? with
  | none =>
    have stuck : runArgument a i p = .error .frameNotFound p :=
      runArgument_uncalled takes (bind_error (topFrame_none top))
    rw [Process.execute_argument op] at failed
    cases stuck.symm.trans failed
    exact .unframed top
  | some f =>
    cases there : p.invocations[f.invocation]? with
    | none =>
      have stuck : runArgument a i p = .error .invocationNotFound p :=
        runArgument_uncalled takes (ownInvocation_none top there)
      rw [Process.execute_argument op] at failed
      cases stuck.symm.trans failed
      exact .uncalled top there
    | some j =>
      by_cases all : a.TakesAll
      · rcases execute_takesAll books op all top there with
          ⟨full, ran⟩ | ⟨room, full, ran⟩ | ⟨-, -, t, ran⟩
        · cases ran.symm.trans failed
          exact .drained op all top there full
        · cases ran.symm.trans failed
          exact .blank op all top there room full
        · cases ran.symm.trans failed
      · cases a with
        | put | putNamed | putAll | putAllNamed | hasMore => exact takes.elim
        | takeAll | takeAllNamed => exact absurd trivial all
        | take =>
          cases next : j.remaining with
          | nil =>
            cases (execute_take_error op top there (by rw [next]; rfl)).symm.trans failed
            exact .missing op top there next
          | cons id rest =>
            have first : j.remaining.head? = some id := by rw [next]; rfl
            cases (execute_take op top there first).1.symm.trans failed
        | takeNamed =>
          cases named : j.named.get? i.first with
          | none => cases (execute_takeNamed_missing op top there named).symm.trans failed
          | some id =>
            have ran := (execute_takeNamed_eq op top there named).trans
              (updateFrame_skip (p := p.takeNamed f j i.first id) top i.second)
            split at ran
            · next beyond =>
              cases ran.symm.trans failed
              exact .stranded op top there named rfl beyond
            · cases ran.symm.trans failed

end Exec

namespace Process.RetrievalFails

variable {p q : Process} {i : Instruction} {fault : Fault}

/-- Whatever is lost, no value is, and every object is as it was. -/
theorem kept (books : p.heap.WellFormed) (fails : p.RetrievalFails i fault q) :
    q.pool = p.pool ∧ ∀ id o, p.heap.get? id = some o → q.heap.get? id = some o := by
  cases fails with
  | unframed | uncalled | missing | stranded | drained => exact ⟨rfl, fun id o get => get⟩
  | blank op all top there room full =>
    refine ⟨rfl, fun id o get => ?_⟩
    show p.heap.allocate.2.get? id = some o
    rw [Heap.get?_allocate books room, if_neg, get]
    rintro rfl
    rw [Heap.get?_allocate_fresh books room] at get
    cases get

/-- The next positional argument is not taken unless there is one. -/
theorem eq_of_take (op : i.op = .argument .take) (fails : p.RetrievalFails i fault q) : q = p := by
  cases fails with
  | unframed | uncalled | missing => rfl
  | stranded op' => cases op.symm.trans op'
  | drained op' all | blank op' all =>
    cases op.symm.trans op'
    exact all.elim

end Process.RetrievalFails

/-- When and how an instruction that takes arguments fails. Only the one that takes the next
positional argument leaves all as it was; the others keep objects and values. -/
theorem retrieval_fails {may : Compartment → Prop} {p q : Process} {i : Instruction}
    {a : ArgumentOp} (r : p.Reachable may) (x : p.Executing q i) (op : i.op = .argument a)
    (takes : a.Takes) :
    (∀ fault t, Exec.execute i q = .error fault t ↔ q.RetrievalFails i fault t) ∧
      (a = .take → ∀ fault t, Exec.execute i q = .error fault t → t = q) ∧
      ∀ fault t, Exec.execute i q = .error fault t →
        t.pool = q.pool ∧ ∀ id o, q.heap.get? id = some o → t.heap.get? id = some o := by
  have books := (x.sound r.sound).stores.heapBooks
  have exactly : ∀ fault t, Exec.execute i q = .error fault t ↔ q.RetrievalFails i fault t :=
    fun fault t => ⟨Exec.retrievalFails_of_execute books op takes,
      Exec.execute_of_retrievalFails books op takes⟩
  refine ⟨exactly, fun next fault t failed => ?_, fun fault t failed => ?_⟩
  · subst next
    exact ((exactly fault t).mp failed).eq_of_take op
  · exact ((exactly fault t).mp failed).kept books

/-- A stored program that fills a pool with room for one value, and then calls a closure with an
argument which takes all that it is given. -/
def storedFilling : Container :=
  { Container.new "filling" with
    closures :=
      [⟨Compartment.mainName, 0, none,
          [.ofInstruction (.ofOp (.constant .bool)), .ofInstruction (.ofOp (.object .new)),
            .ofInstruction (.ofOp (.handle .set)), .ofInstruction (.ofOp (.object .new)),
            .ofInstruction ⟨.object .setClosure, 1, 0⟩, .ofInstruction (.ofOp (.control .stage)),
            .ofInstruction (.ofOp (.argument .put)), .ofInstruction (.ofOp (.control .invoke))],
          [], []⟩,
        ⟨"taker", 1, none, [.ofInstruction (.ofOp (.argument .takeAll))], [], []⟩] }

/-- The stored program, loaded. -/
def filling : Compartment := ((Compartment.ofContainer storedFilling).toOption).getD (.new "")

theorem filling_loaded : filling.Loaded := Compartment.loaded_of_accepted (by decide +kernel)

/-- A process with room for one pooled value. -/
def tight : Process :=
  { Process.standard with
    options := { ProcessOptions.standard with poolCapacity := 1 }
    pool := .empty 1 }

/-- The program in it, when the closure is about to take its arguments. -/
def taking : Process := ((tight.after (.load filling)).after .start).after (.run 8)

theorem taking_reachable : taking.Reachable Compartment.Loaded := by
  have made : ({ ProcessOptions.standard with poolCapacity := 1 } : ProcessOptions).newProcess
      (.new none) = .ok tight := rfl
  have loaded : (tight.after (.load filling)).Reachable Compartment.Loaded :=
    (Process.Reachable.new made).after (.load filling) filling_loaded
  exact (loaded.after .start trivial).after (.run 8) trivial

/-- In a process whose pool is full, all arguments are taken in vain. -/
theorem retrieval_fails_taking :
    taking.Reachable Compartment.Loaded ∧
    taking.RetrievalFails (.ofOp (.argument .takeAll)) (.pool (.full 1))
      (taking.after (.execute (.ofOp (.argument .takeAll)))) := by
  have fails : Exec.fault? (Exec.execute (.ofOp (.argument .takeAll)) taking) =
      some (.pool (.full 1)) := by decide +kernel
  obtain ⟨exactly, -, -⟩ := retrieval_fails (a := .takeAll) taking_reachable
    (.asked (.ofOp (.argument .takeAll))) rfl trivial
  exact ⟨taking_reachable, (exactly _ _).mp (Exec.eq_error_left fails)⟩

/-- A failure that loses an argument and leaves an object: what was left for the closure to take is
gone, and there is an object that was not there. -/
theorem arguments_lost :
    taking.Reachable Compartment.Loaded ∧
    Exec.fault? (Exec.execute (.ofOp (.argument .takeAll)) taking) = some (.pool (.full 1)) ∧
    taking.calls.top?.map (·.invocation) = some 1 ∧
    taking.invocations[1]?.map (·.remaining) = some [⟨1, 0⟩] ∧
    (taking.after (.execute (.ofOp (.argument .takeAll)))).invocations[1]?.map (·.remaining) =
      some [] ∧
    taking.heap.contains ⟨2, 0⟩ = false ∧
    (taking.after (.execute (.ofOp (.argument .takeAll)))).heap.contains ⟨2, 0⟩ = true := by
  exact ⟨taking_reachable, by decide +kernel, by decide +kernel, by decide +kernel,
    by decide +kernel, by decide +kernel, by decide +kernel⟩

end ObjectVM
