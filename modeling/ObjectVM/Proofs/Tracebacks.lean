import ObjectVM.Proofs.CallOrder
import ObjectVM.Proofs.Pace

/-!
# Tracebacks

While a program runs that the loader has accepted, a traceback tells of each frame which closure it
belongs to and where in it the frame stands (`tracebacks_describe`). A frame that is not on top
stands at the call that it has made: its counter has moved on, but it waits behind just that
instruction (`Process.CallersWait`). Where signal vectors run in a frame, what counts is the code
that the first of them has set aside, which is that of the closure (`Process.Linked`).
-/
namespace ObjectVM

/-! ## Callers -/

/-- Every frame but the one on top has last executed a call, in the code that it runs. -/
def Process.CallersWait (p : Process) : Prop :=
  ∀ (n : Nat) (f : Frame), p.calls.frames[n]? = some f → n + 1 < p.calls.depth →
    ∃ i, f.code[f.currentIndex]? = some i ∧ i.op = .control .invoke

namespace Process

variable {p q : Process} {i : Instruction} {f g : Frame} {m : Nat}
  {label : Option (Process × Instruction)}

theorem callersWait_of_depth (few : p.calls.depth ≤ 1) : p.CallersWait := fun n _ _ below => by
  omega

theorem callersWait_of_empty (none : p.calls.frames = #[]) : p.CallersWait := by
  refine callersWait_of_depth ?_
  rw [CallStack.depth, none]
  exact Nat.zero_le 1

namespace CallersWait

theorem of_frames (c : p.CallersWait) (frames : q.calls.frames = p.calls.frames) :
    q.CallersWait := by
  unfold CallersWait CallStack.depth at *
  rw [frames]
  exact c

theorem drops (c : p.CallersWait) (d : p.Drops m q) : q.CallersWait := by
  intro n f there below
  rw [d.depth] at below
  rw [d.below n below] at there
  exact c n f there (Nat.lt_of_lt_of_le below d.within)

theorem bindOuter (c : p.CallersWait) (b : OuterBinding) : (p.bindOuter b).CallersWait := by
  intro n f' there below
  have depth : (p.bindOuter b).calls.depth = p.calls.depth := Array.size_modify
  obtain ⟨f, hf, rfl | rfl⟩ := frame_of_bindOuter there
  · exact c n f' hf (depth ▸ below)
  · exact c n f hf (depth ▸ below)

/-- The frame that was on top waits from now on, and those below it go on waiting. -/
theorem call (c : p.CallersWait) (top : p.calls.top? = some f)
    (makes : f.code[f.currentIndex]? = some i) (op : i.op = .control .invoke) :
    { p with calls := p.calls.add g }.CallersWait := by
  intro n f' there below
  rw [CallStack.depth_add] at below
  rcases CallStack.frame_add_cases there with ⟨last, -⟩ | ⟨-, there⟩
  · omega
  · by_cases last : n + 1 = p.calls.depth
    · rw [show n = p.calls.depth - 1 by omega, CallStack.frame_of_top top] at there
      cases there
      exact ⟨i, makes, op⟩
    · exact c n f' there (by omega)

theorem act (c : p.CallersWait)
    (executes : ∀ f, p.calls.top? = some f → f.code[f.currentIndex]? = some i) (a : p.Act i q) :
    q.CallersWait := by
  cases a with
  | keep _ => exact c
  | bind _ => exact c.bindOuter _
  | put | take | stage => exact c.of_frames rfl
  | call op top _ _ _ _ _ _ => exact c.call top (executes _ top) op

end CallersWait

/-- What has been fetched is the instruction that is executed. -/
theorem executing_fetched (next : p.next? = some i) (top : p.fetched.calls.top? = some f) :
    f.code[f.currentIndex]? = some i := by
  obtain ⟨g, top', here⟩ := next?_eq_some_iff.mp next
  rw [top?_fetched top' here] at top
  cases top
  exact here

theorem CallersWait.step (c : p.CallersWait) (paced : p.Paced) (s : p.Step label q) :
    q.CallersWait := by
  rcases paced.step_cases s with ⟨i, r, m, -, next, act, drops⟩ | ⟨-, m, drops⟩
  · exact ((c.drops p.quiet_fetched).act (fun _ => executing_fetched next) act).drops drops
  · exact c.drops drops

theorem callersWait_start (c : p.CallersWait) : p.start.2.CallersWait := by
  rcases p.start_cases with same | ⟨-, -, none | ⟨m, entry, -, -, -, one⟩⟩
  · exact same.symm ▸ c
  · exact callersWait_of_empty none
  · refine callersWait_of_depth ?_
    rw [CallStack.depth, one]
    exact Nat.le_refl 1

theorem Driven.callersWait (d : p.Driven) : p.CallersWait := by
  induction d with
  | new made => exact callersWait_of_empty (frames_of_new made)
  | load _ _ ih => exact ih.of_frames rfl
  | start _ ih => exact callersWait_start ih
  | step before s ih => exact ih.step before.paced s
  | reset | abandon => exact callersWait_of_empty rfl

/-! ## Closures -/

theorem Step.compartments (st : p.Step label q) : q.compartments = p.compartments := by
  rcases st.cases with ⟨i, -, -, rfl⟩ | ⟨-, quiet⟩ | ⟨-, f, -, -, -, rfl⟩
  · cases Exec.shift_execute p.fetched i with
    | back _ _ returned =>
      rw [show p.fetched.after (.execute i) = _ from returned,
        (Exec.quiet_applyRules _).compartments]
      exact p.quiet_fetched.compartments
    | acts act drops =>
      refine (drops.compartments.trans ?_).trans p.quiet_fetched.compartments
      cases act <;> rfl
  · exact quiet.compartments
  · exact (Exec.quiet_applyRules _).compartments

theorem compartments_start (p : Process) : p.start.2.compartments = p.compartments := by
  rcases p.start_cases with same | ⟨compartments, -⟩
  · rw [same]
  · exact compartments

theorem Step.linked (st : p.Step label q) (s : p.Sound) (l : p.Linked) : q.Linked := by
  cases st with
  | instruction => exact (s.steps_fetched.edits.linked l).after s.fetched _ trivial
  | ended top ended =>
    have finished := Exec.ends_finishCode (.refl s) top ended
    exact (steps_left finished fun _ _ h => h.toSteps).edits.linked l
  | between r between => exact l.after s r (by cases r <;> trivial)
  | noted | answered => exact l.keep rfl rfl (Nat.le_refl _)

/-- Where the loader has made all that is loaded, each frame belongs to a closure. -/
theorem Driven.linked (d : p.Driven) : (∀ m ∈ p.compartments, m.Loaded) → p.Linked := by
  induction d with
  | new made => exact fun _ => .new made
  | @load p _ c _ ih =>
    intro loaded
    replace loaded : ∀ m ∈ p.compartments.push c, m.Loaded := loaded
    refine (ih fun m mem => loaded m (Array.mem_push_of_mem c mem)).load ?_
    exact (loaded c Array.mem_push_self).sound
  | @start p _ ih =>
    intro loaded
    exact (ih (p.compartments_start ▸ loaded)).start
  | step before st ih =>
    intro loaded
    exact st.linked before.sound (ih (st.compartments ▸ loaded))
  | reset => exact fun _ => linked_reset _
  | abandon => exact fun _ => linked_reset _

end Process

/-! ## Places in the code -/

namespace Frame

variable {f : Frame} {w : Window} {inner : List Window}

theorem closureIndex_of_nil (none : f.suspended = []) : f.closureIndex = f.currentIndex := by
  unfold closureIndex
  rw [none]
  rfl

theorem ownCode_of_nil (none : f.suspended = []) : f.ownCode = f.code := by
  unfold ownCode
  rw [none]
  rfl

theorem closureIndex_of_concat (first : f.suspended = inner ++ [w]) :
    f.closureIndex = w.pc - 1 := by
  unfold closureIndex
  rw [first, List.getLast?_concat]

theorem ownCode_of_concat (first : f.suspended = inner ++ [w]) : f.ownCode = w.code := by
  unfold ownCode
  rw [first, List.getLast?_concat]

/-- Where a frame stands is in the code of its closure, or where that begins. -/
theorem Bounded.closureIndex_le (b : f.Bounded) : f.closureIndex ≤ f.ownCode.size := by
  rcases List.eq_nil_or_concat' f.suspended with none | ⟨inner, w, first⟩
  · rw [closureIndex_of_nil none, ownCode_of_nil none]
    exact Nat.le_trans (Nat.sub_le _ _) b.pc
  · rw [closureIndex_of_concat first, ownCode_of_concat first]
    exact Nat.le_trans (Nat.sub_le _ _) (b.windows w (by rw [first]; simp))

end Frame

namespace Closure

variable {c : Closure} {index : Nat} {place : Position}

/-- The last position up to an instruction holds for it. -/
theorem positionAt_eq_some_iff (small : index < UInt64.size) : c.positionAt index = some place ↔
    ∃ k, c.positions.get? k = some place ∧ k.toNat ≤ index ∧
      ∀ j, c.positions.contains j = true → j.toNat ≤ index → j ≤ k := by
  have same : ∀ k : UInt64, k ≤ .ofNat index ↔ k.toNat ≤ index := fun k => by
    rw [UInt64.le_iff_toNat_le, UInt64.toNat_ofNat_of_lt' small]
  unfold positionAt
  simp only [KeyMap.floor?_eq_some_iff, same]

theorem positionAt_eq_none_iff (small : index < UInt64.size) : c.positionAt index = none ↔
    ∀ k, c.positions.contains k = true → index < k.toNat := by
  unfold positionAt
  simp only [KeyMap.floor?_eq_none_iff, UInt64.lt_iff_toNat_lt, UInt64.toNat_ofNat_of_lt' small]

end Closure

/-! ## Entries -/

namespace Process

/-- What an entry says of the frame at an index, which belongs to a closure of a compartment. -/
structure Describes (p : Process) (n : Nat) (e : TraceEntry) (f : Frame) (m : Compartment)
    (c : Closure) : Prop where
  frame : p.calls.frames[n]? = some f
  loaded : p.compartment f.closure.compartment = .ok m
  resolves : p.resolve f.closure = .ok c
  name : e.closure = c.name
  path : e.path = m.path
  /-- A frame below another one waits in its closure for what its call leads to. -/
  waiting : f.suspended = [] → n + 1 < p.calls.depth → ∃ g i,
    p.calls.frames[n + 1]? = some g ∧ g.returnAddress = some e.index ∧
      c.code[e.index]? = some i ∧ i.op = .control .invoke
  /-- The running frame has fetched the instruction at the index, or nothing yet. -/
  running : f.suspended = [] → n + 1 = p.calls.depth → f.code = c.code ∧ e.index = f.pc - 1
  /-- Of all codes that are set aside the outermost is that of the closure. -/
  interrupted : ∀ inner w, f.suspended = inner ++ [w] → w.code = c.code ∧ e.index = w.pc - 1
  placed : ∀ place, e.position = some place ↔ ∃ k, c.positions.get? k = some place ∧
    k.toNat ≤ e.index ∧ ∀ j, c.positions.contains j = true → j.toNat ≤ e.index → j ≤ k
  unplaced : e.position = none ↔ ∀ k, c.positions.contains k = true → e.index < k.toNat

/-- Tracebacks list as many frames as they may, from the top. -/
structure TracebacksDescribe (p : Process) : Prop where
  length : ∀ limit, (p.traceback limit).entries.length = min limit p.calls.depth
  omitted : ∀ limit,
    (p.traceback limit).omitted = p.calls.depth - (p.traceback limit).entries.length
  entries : ∀ (limit k : Nat) e, (p.traceback limit).entries[k]? = some e →
    ∃ f m c, p.Describes (p.calls.depth - 1 - k) e f m c

variable {p : Process} {n limit k : Nat} {f : Frame} {e : TraceEntry}

theorem length_traceback (p : Process) (limit : Nat) :
    (p.traceback limit).entries.length = min limit p.calls.depth := by
  simp [traceback, CallStack.depth]

theorem omitted_traceback (p : Process) (limit : Nat) :
    (p.traceback limit).omitted = p.calls.depth - (p.traceback limit).entries.length := by
  rw [length_traceback]
  simp only [traceback, List.length_drop, List.length_reverse, Array.length_toList,
    CallStack.depth]
  omega

/-- The frame on top comes first. -/
theorem frame_of_entry (there : (p.traceback limit).entries[k]? = some e) :
    ∃ f, p.calls.frames[p.calls.depth - 1 - k]? = some f ∧ e = p.traceEntry f := by
  unfold traceback at there
  rw [List.getElem?_map, Option.map_eq_some_iff] at there
  obtain ⟨f, there, rfl⟩ := there
  rw [List.getElem?_take] at there
  split at there
  · have listed := (List.getElem?_eq_some_iff.mp there).1
    rw [List.length_reverse] at listed
    rw [List.getElem?_reverse listed, Array.getElem?_toList] at there
    exact ⟨f, there, rfl⟩
  · cases there

theorem traceEntry_eq {m : Compartment} {c : Closure}
    (loaded : p.compartment f.closure.compartment = .ok m)
    (resolves : p.resolve f.closure = .ok c) : p.traceEntry f =
      ⟨c.name, m.path, f.closureIndex, c.positionAt f.closureIndex⟩ := by
  unfold traceEntry
  rw [loaded, resolves]

theorem compartment_of_resolve {ref : ClosureRef} {c : Closure} (resolves : p.resolve ref = .ok c) :
    ∃ m, p.compartment ref.compartment = .ok m := by
  obtain ⟨m, there, -⟩ := resolve_eq_ok_iff.mp resolves
  unfold compartment
  rw [there]
  exact ⟨m, rfl⟩

/-- The entry that is made for a frame describes it. -/
theorem describes (linked : p.Linked) (paced : p.Paced) (wait : p.CallersWait)
    (fits : ∀ c, p.Loads c → c.code.size < UInt64.size) (there : p.calls.frames[n]? = some f) :
    ∃ m c, p.Describes n (p.traceEntry f) f m c := by
  obtain ⟨c, resolves, code⟩ := linked.resolved n f there
  obtain ⟨m, loaded⟩ := compartment_of_resolve resolves
  have small : f.closureIndex < UInt64.size :=
    Nat.lt_of_le_of_lt (paced.bounded n f there).closureIndex_le
      (code ▸ fits c (loads_of_resolve resolves))
  rw [traceEntry_eq loaded resolves]
  refine ⟨m, c, there, loaded, resolves, rfl, rfl, fun none below => ?_, fun none _ => ?_,
    fun inner w first => ?_, fun place => Closure.positionAt_eq_some_iff small,
    Closure.positionAt_eq_none_iff small⟩
  · obtain ⟨g, above⟩ := CallStack.exists_frame below
    obtain ⟨address, back, pc⟩ := paced.returns n f g there above
    obtain ⟨i, makes, op⟩ := wait n f there below
    have index : f.currentIndex = address := by
      unfold Frame.currentIndex
      omega
    rw [Frame.closureIndex_of_nil none]
    rw [Frame.ownCode_of_nil none] at code
    exact ⟨g, i, above, back.trans (congrArg some index.symm), code ▸ makes, op⟩
  · rw [Frame.closureIndex_of_nil none]
    exact ⟨(Frame.ownCode_of_nil none).symm.trans code, rfl⟩
  · rw [Frame.closureIndex_of_concat first]
    exact ⟨(Frame.ownCode_of_concat first).symm.trans code, rfl⟩

theorem tracebacksDescribe (linked : p.Linked) (paced : p.Paced) (wait : p.CallersWait)
    (fits : ∀ c, p.Loads c → c.code.size < UInt64.size) : p.TracebacksDescribe := by
  refine ⟨p.length_traceback, p.omitted_traceback, fun limit k e listed => ?_⟩
  obtain ⟨f, there, rfl⟩ := frame_of_entry listed
  exact ⟨f, describes linked paced wait fits there⟩

end Process

/-- However a program has come to where it is, and also when it has just fetched an instruction,
tracebacks describe its frames. -/
theorem tracebacks_describe {p : Process} (d : p.Driven) (loaded : ∀ m ∈ p.compartments, m.Loaded)
    (fits : ∀ c, p.Loads c → c.code.size < UInt64.size) :
    p.TracebacksDescribe ∧ p.fetched.TracebacksDescribe := by
  have linked := d.linked loaded
  have fetches := p.quiet_fetched
  refine ⟨Process.tracebacksDescribe linked d.paced d.callersWait fits,
    Process.tracebacksDescribe (d.sound.steps_fetched.edits.linked linked) (d.paced.quiet fetches)
      (d.callersWait.drops fetches) fun c loads => fits c ?_⟩
  unfold Process.Loads at *
  rwa [fetches.compartments] at loads

/-- A stored program that calls a closure, with the positions of some instructions. -/
def storedTraced : Container :=
  { Container.new "traced" with
    closures :=
      [⟨Compartment.mainName, 0, none,
          [.ofInstruction (.ofOp (.object .new)), .ofInstruction ⟨.object .setClosure, 1, 0⟩,
            .ofInstruction (.ofOp (.control .stage)), .ofInstruction (.ofOp (.control .invoke))],
          [⟨0, 1, 0⟩, ⟨2, 2, 4⟩], []⟩,
        ⟨"callee", 1, none,
          [.ofInstruction (.ofOp (.object .new)), .ofInstruction (.ofOp (.object .pop)),
            .ofInstruction (.ofOp (.object .new))], [⟨1, 8, 2⟩], []⟩] }

/-- The stored program, loaded. -/
def traced : Compartment := (Compartment.ofContainer storedTraced).toOption.getD (.new "")

theorem traced_loaded : traced.Loaded := Compartment.loaded_of_accepted (by decide +kernel)

/-- A vector that calls the closure, too. -/
def recalling : Code :=
  #[.ofOp (.object .new), ⟨.object .setClosure, 1, 0⟩, .ofOp (.control .stage),
    .ofOp (.control .invoke)]

/-- The program in its closure, where a signal has come and then another one, when the vector for
the second one has made its call. -/
def tracedTwice : Process :=
  ((((Process.ranFor traced 6).after (.setVector .int (some recalling))).after
    (.handle .int)).after (.handle .int)).after (.run 4)

/-- The frame with the two vectors is where the first one found it, in the second line. -/
theorem tracebacks_describe_tracedTwice :
    tracedTwice.Driven ∧ (∀ m ∈ tracedTwice.compartments, m.Loaded) ∧
    (∀ c, tracedTwice.Loads c → c.code.size < UInt64.size) ∧
    tracedTwice.traceback 2 =
      ⟨[⟨"callee", "traced", 0, none⟩, ⟨"callee", "traced", 1, some ⟨8, 2⟩⟩], 1⟩ ∧
    tracedTwice.calls.frames.map (·.suspended.length) = #[0, 2, 0] ∧
    tracedTwice.fullTraceback.entries[2]? = some ⟨"__main__", "traced", 3, some ⟨2, 4⟩⟩ ∧
    tracedTwice.TracebacksDescribe ∧ tracedTwice.fetched.TracebacksDescribe := by
  have driven : tracedTwice.Driven := by
    have started := Process.driven_ranFor traced_loaded.assembled 6
    have vectored := started.step (.between (.setVector .int (some recalling)) trivial)
    have twice := (vectored.step (.between (.handle .int) trivial)).step
      (.between (.handle .int) trivial)
    exact twice.after (.run 4) trivial nofun
  have only : tracedTwice.compartments = #[traced] := by decide +kernel
  have loaded : ∀ m ∈ tracedTwice.compartments, m.Loaded := by
    rw [only]
    exact fun m hm => Array.mem_singleton.mp hm ▸ traced_loaded
  have fits : ∀ c, tracedTwice.Loads c → c.code.size < UInt64.size := by
    have few : ∀ c ∈ traced.closures, c.code.size < UInt64.size := by decide +kernel
    unfold Process.Loads
    rw [only]
    rintro c ⟨m, hm, hc⟩
    exact few c (Array.mem_singleton.mp hm ▸ hc)
  exact ⟨driven, loaded, fits, by decide +kernel, by decide +kernel, by decide +kernel,
    tracebacks_describe driven loaded fits⟩

end ObjectVM
