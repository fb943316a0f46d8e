import ObjectVM.Proofs.Windows

/-!
# What comes of signals

Signals arrive when the host raises them and when the reader of the output does. Each is taken once,
in the order in which they have arrived, or waits still (`Process.Settles.inOrder`); and what waits
when a run has ended, whether with an outcome or with a fault, is what the next run takes first.

A signal that is taken is handled, unless it has been taken together with one in front of it whose
handling fails. That ends the run at once, and the signals behind it are dropped: they are neither
handled nor do they wait any longer (`signals_lost`).
-/
namespace ObjectVM

/-- What comes of a signal that is taken: it is handled, with a fault or without, or dropped. -/
inductive Fate where
  | handled (fault : Option Fault)
  | dropped
  deriving DecidableEq

/-- Signals that have been taken and what has come of each, in order. -/
abbrev Fates := List (Signal × Fate)

namespace Process

/-- What comes of signals that are handled in `p` one after another. -/
def fatesOf (p : Process) : List Signal → Fates
  | [] => []
  | s :: behind =>
    match Exec.handleSignal s p with
    | .ok _ q => (s, .handled none) :: q.fatesOf behind
    | .error fault _ => (s, .handled (some fault)) :: behind.map (·, .dropped)

/-- What comes of the signals that wait when they are taken. -/
def fatesWaiting (p : Process) : Fates :=
  { p with signals := .empty }.fatesOf p.signals.waiting

/-- What comes of signals in at most `n` turns. -/
def turnFates (p : Process) : (n : Nat) → Fates
  | 0 => []
  | n + 1 => p.fatesWaiting ++
    match Exec.turn p with
    | .ok none q => q.turnFates n
    | _ => []

/-- What comes of signals while a request is done. -/
def fatesIn (p : Process) : Request → Fates
  | .run turns => (p.note (.runStarted p.calls.depth)).turnFates turns
  | .deliver => p.fatesWaiting
  | _ => []

/-- What the reader of the output has raised between `p` and `q`. -/
def alarmsTo (p q : Process) : List Signal :=
  p.output.alarmsFor (q.output.lines - p.output.lines)

/-- The signals that arrive while a request is done. -/
def arrivals (p : Process) : Request → List Signal
  | .raise s => [s]
  | .redirect _ => []
  | r => p.alarmsTo (p.after r)

/-- The process after requests, one after another. -/
def afterAll (p : Process) (rs : List Request) : Process := rs.foldl after p

/-- The signals that arrive while requests are done. -/
def allArrivals (p : Process) : List Request → List Signal
  | [] => []
  | r :: rs => p.arrivals r ++ (p.after r).allArrivals rs

/-- What comes of signals while requests are done. -/
def allFates (p : Process) : List Request → Fates
  | [] => []
  | r :: rs => p.fatesIn r ++ (p.after r).allFates rs

end Process

/-! ## Signals that are raised while lines are printed -/

namespace Sink

/-- What is raised for some lines and then for some more. -/
theorem alarmsFor_add {s t : Sink} {m : Nat} (alarms : t.alarms = s.alarms)
    (lines : t.lines = s.lines + m) (n : Nat) :
    s.alarmsFor (m + n) = s.alarmsFor m ++ t.alarmsFor n := by
  simp only [alarmsFor, List.range_add, List.flatMap_append, List.flatMap_map, alarms, lines,
    Nat.add_assoc]

@[simp] theorem alarmsFor_zero (s : Sink) : s.alarmsFor 0 = [] := rfl

end Sink

@[simp] theorem SignalQueue.waiting_raiseAll (raised : List Signal) : ∀ q : SignalQueue,
    (raised.foldl SignalQueue.raise q).waiting = q.waiting ++ raised := by
  induction raised with
  | nil => simp
  | cons s raised ih =>
    intro q
    rw [List.foldl_cons, ih]
    simp [SignalQueue.raise]

/-- Between `p` and `q` the reader of the output stays the same, the signals that it raises for the
lines printed arrive, and signals are taken from the front, with the given fates. -/
structure Process.Accounts (p : Process) (fates : Fates) (q : Process) : Prop where
  alarms : q.output.alarms = p.output.alarms
  lines : p.output.lines ≤ q.output.lines
  inOrder : p.signals.waiting ++ p.alarmsTo q = fates.map Prod.fst ++ q.signals.waiting

namespace Process

variable {p q r : Process} {fates fates' : Fates}

theorem accounts_of_same (signals : q.signals = p.signals) (output : q.output = p.output) :
    p.Accounts [] q := by
  refine ⟨by rw [output], Nat.le_of_eq (by rw [output]), ?_⟩
  simp [alarmsTo, output, signals]

theorem Accounts.refl (p : Process) : p.Accounts [] p := accounts_of_same rfl rfl

theorem Accounts.trans (a : p.Accounts fates q) (b : q.Accounts fates' r) :
    p.Accounts (fates ++ fates') r := by
  refine ⟨b.alarms.trans a.alarms, Nat.le_trans a.lines b.lines, ?_⟩
  have lines : r.output.lines - p.output.lines =
      (q.output.lines - p.output.lines) + (r.output.lines - q.output.lines) := by
    have := a.lines
    have := b.lines
    omega
  have raised : p.alarmsTo r = p.alarmsTo q ++ q.alarmsTo r := by
    unfold alarmsTo
    rw [lines]
    refine Sink.alarmsFor_add a.alarms ?_ _
    have := a.lines
    omega
  rw [raised, ← List.append_assoc, a.inOrder, List.append_assoc, b.inOrder, List.map_append,
    List.append_assoc]

theorem Accounts.of_keeps (k : p.Keeps q) : p.Accounts [] q := accounts_of_same k.signals k.output

/-- To take what waits is to account for it. -/
theorem accounts_taken (taken : fates.map Prod.fst = p.signals.waiting) :
    p.Accounts fates { p with signals := .empty } := by
  refine ⟨rfl, Nat.le_refl _, ?_⟩
  simp [alarmsTo, taken, SignalQueue.empty]

end Process

/-! ## Signals that are handled -/

/-- Signals that have been taken until `r` came of it: all are handled; or one is at fault, that
ends it, and those behind it are dropped, and none waits. -/
inductive Fates.Settle {α : Type} (r : EStateM.Result Fault Process α) : Fates → Prop where
  | handled (handled : List Signal) : Settle r (handled.map (·, .handled none))
  | failed {fault : Fault} {q : Process} (ends : r = .error fault q) (gone : q.signals = .empty)
    (handled : List Signal) (s : Signal) (behind : List Signal) :
    Settle r (handled.map (·, .handled none) ++
      (s, .handled (some fault)) :: behind.map (·, .dropped))

namespace Fates.Settle

variable {α β : Type} {r : EStateM.Result Fault Process α} {fates : Fates}

theorem prepend (settle : Settle r fates) (first : List Signal) :
    Settle r (first.map (·, .handled none) ++ fates) := by
  cases settle with
  | handled handled =>
    rw [← List.map_append]
    exact .handled _
  | failed ends gone handled s behind =>
    rw [← List.append_assoc, ← List.map_append]
    exact .failed ends gone _ s behind

/-- What is at fault ends all that is around it, too. -/
theorem outward {r' : EStateM.Result Fault Process β} (settle : Settle r fates)
    (ends : ∀ fault q, r = .error fault q → r' = .error fault q) : Settle r' fates := by
  cases settle with
  | handled handled => exact .handled handled
  | failed ends' gone handled s behind => exact .failed (ends _ _ ends') gone handled s behind

/-- Where none is at fault, all are handled. -/
theorem kept (settle : Settle r fates) (sound : ∀ e ∈ fates, ∀ fault, e.2 ≠ .handled (some fault)) :
    ∀ e ∈ fates, e.2 = .handled none := by
  cases settle with
  | handled handled => simp
  | failed ends gone handled s behind =>
    exact absurd rfl (sound _ (List.mem_append_right _ List.mem_cons_self) _)

/-- Where all goes on, all are handled. -/
theorem of_ok {a : α} {q : Process} (settle : Settle (.ok a q) fates) :
    ∃ handled : List Signal, fates = handled.map (·, .handled none) := by
  cases settle with
  | handled handled => exact ⟨handled, rfl⟩
  | failed ends => cases ends

end Fates.Settle

namespace Exec

variable {p : Process}

theorem handleSignal_rests (s : Signal) (p : Process) :
    (left (handleSignal s p)).signals = p.signals ∧
      (left (handleSignal s p)).output = p.output := by
  have handled := handles_handleSignal p s
  generalize handleSignal s p = r at handled
  cases handled <;> exact ⟨rfl, rfl⟩

/-- Signals that are handled one after another, while none waits. -/
theorem settle_handleSignals (waiting : List Signal) : ∀ p : Process, p.signals = .empty →
    Fates.Settle (waiting.forM handleSignal p) (p.fatesOf waiting) ∧
      (p.fatesOf waiting).map Prod.fst = waiting ∧
        p.Accounts [] (left (waiting.forM handleSignal p)) := by
  -- on the signals: each is handled in what the one in front of it has left
  induction waiting with
  | nil => exact fun p _ => ⟨.handled [], rfl, .refl p⟩
  | cons s behind ih =>
    intro p none
    obtain ⟨signals, output⟩ := handleSignal_rests s p
    show Fates.Settle ((handleSignal s >>= fun _ => behind.forM handleSignal) p) _ ∧ _ ∧
      p.Accounts [] (left ((handleSignal s >>= fun _ => behind.forM handleSignal) p))
    unfold Process.fatesOf
    cases ran : handleSignal s p with
    | ok _ q =>
      rw [ran] at signals output
      rw [bind_ok ran]
      obtain ⟨settle, taken, rest⟩ := ih q (signals.trans none)
      exact ⟨settle.prepend [s], congrArg (s :: ·) taken,
        (Process.accounts_of_same signals output).trans rest⟩
    | error fault q =>
      rw [ran] at signals output
      rw [bind_error ran]
      refine ⟨.failed rfl (signals.trans none) [] s behind, ?_,
        Process.accounts_of_same signals output⟩
      simp [Function.comp_def]

/-- The signals that wait are taken in order. -/
theorem settle_deliverSignals (p : Process) :
    Fates.Settle (deliverSignals p) p.fatesWaiting ∧
      p.fatesWaiting.map Prod.fst = p.signals.waiting ∧
        p.Accounts p.fatesWaiting (left (deliverSignals p)) := by
  obtain ⟨settle, taken, rest⟩ :=
    settle_handleSignals p.signals.waiting { p with signals := .empty } rfl
  refine ⟨settle, taken, ?_⟩
  have both := (Process.accounts_taken taken).trans rest
  rwa [List.append_nil] at both

/-! ## Turns -/

theorem accounts_write (s : String) (p : Process) : p.Accounts [] (left (write s p)) := by
  rcases write_cases s p with same | ⟨raised, output, written, same⟩
  · rw [same]
    exact .refl p
  · rw [same]
    unfold Sink.write at written
    split at written
    · cases written
      exact Process.accounts_of_same rfl rfl
    · split at written
      · cases written
      · cases written
        refine ⟨rfl, Nat.le_add_right _ _, ?_⟩
        simp [Process.alarmsTo]

/-- While an instruction is executed, signals arrive only for the lines that it prints. -/
theorem accounts_execute (i : Instruction) (p : Process) : p.Accounts [] (left (execute i p)) := by
  by_cases call : i.op = .control .invoke
  · obtain ⟨signals, output, -⟩ := makeCall_cases p
    rw [Process.execute_invoke call]
    exact Process.accounts_of_same signals output
  · by_cases prints : i.op = .runtime .print
    · rw [execute_print prints]
      rcases print_cases (i.first != 0) p with same | ⟨objects, s, same⟩
      · rw [same]
        exact .refl p
      · rw [same]
        have written := accounts_write s { p with objects }
        exact ⟨written.alarms, written.lines, written.inOrder⟩
    · exact .of_keeps (keeping_execute call prints p)

theorem accounts_finishCode (f : Frame) (p : Process) : p.Accounts [] (left (finishCode f p)) := by
  unfold finishCode
  cases f.resume? with
  | some f' => exact Process.accounts_of_same rfl rfl
  | none => exact .of_keeps (keeping_returnFromFrame p)

/-- A turn takes the signals that wait, and others arrive for the lines that it prints. -/
theorem settle_turn (p : Process) :
    Fates.Settle (turn p) p.fatesWaiting ∧ p.Accounts p.fatesWaiting (left (turn p)) := by
  obtain ⟨settle, -, taken⟩ := settle_deliverSignals p
  have next : ∀ {q r : Process}, deliverSignals p = .ok () q → q.Accounts [] r →
      Fates.Settle (turn p) p.fatesWaiting ∧ p.Accounts p.fatesWaiting r := by
    intro q r ok rest
    rw [ok] at settle taken
    obtain ⟨handled, all⟩ := settle.of_ok
    have both := taken.trans rest
    rw [List.append_nil] at both
    exact ⟨all ▸ .handled handled, both⟩
  have cases := turn_cases p
  generalize turn p = r at cases next
  cases cases with
  | failed failed =>
    rw [failed] at settle taken
    exact ⟨settle.outward fun _ _ same => by cases same; rfl, taken⟩
  | halted ok _ => exact next ok (Process.accounts_of_same rfl rfl)
  | completed ok _ _ => exact next ok (Process.accounts_of_same rfl rfl)
  | @executed q i ok _ here =>
    rw [left_goesOn]
    exact next ok ((Process.Accounts.of_keeps q.keeps_fetched).trans (accounts_execute i q.fetched))
  | @ended q f ok _ _ _ =>
    rw [left_goesOn]
    exact next ok (accounts_finishCode f q)

theorem settle_turns (n : Nat) : ∀ p : Process,
    Fates.Settle (turns n p) (p.turnFates n) ∧ p.Accounts (p.turnFates n) (left (turns n p)) := by
  -- on the turns: one behind another is taken only where all signals have been handled before
  induction n with
  | zero => exact fun p => ⟨.handled [], .refl p⟩
  | succ n ih =>
    intro p
    obtain ⟨settle, taken⟩ := settle_turn p
    unfold turns Process.turnFates
    cases ran : turn p with
    | error fault q =>
      rw [bind_error ran, List.append_nil]
      rw [ran] at settle taken
      exact ⟨settle.outward fun _ _ same => by cases same; rfl, taken⟩
    | ok outcome q =>
      rw [bind_ok ran]
      rw [ran] at settle taken
      obtain ⟨handled, all⟩ := settle.of_ok
      cases outcome with
      | some outcome =>
        rw [List.append_nil]
        exact ⟨all ▸ .handled handled, taken⟩
      | none =>
        obtain ⟨settle, rest⟩ := ih q
        exact ⟨all ▸ settle.prepend handled, taken.trans rest⟩

theorem settle_run (n : Nat) (p : Process) :
    Fates.Settle (run n p) (p.fatesIn (.run n)) ∧
      p.Accounts (p.fatesIn (.run n)) (p.after (.run n)) := by
  obtain ⟨settle, taken⟩ := settle_turns n (p.note (.runStarted p.calls.depth))
  have started : p.Accounts [] (p.note (.runStarted p.calls.depth)) :=
    Process.accounts_of_same rfl rfl
  exact ⟨settle, started.trans taken⟩

end Exec

/-! ## Requests -/

namespace Process

variable {p q : Process}

theorem start_rests (p : Process) :
    p.start.2.signals = p.signals ∧ p.start.2.output = p.output := by
  unfold start
  cases p.compartments[0]?.bind Compartment.entryPoint? with
  | none => exact ⟨rfl, rfl⟩
  | some entry =>
    dsimp only
    split <;> exact ⟨rfl, rfl⟩

theorem inOrder_of_same (signals : q.signals = p.signals) (output : q.output = p.output) :
    p.signals.waiting ++ p.alarmsTo q = ([] : Fates).map Prod.fst ++ q.signals.waiting :=
  (accounts_of_same signals output).inOrder

/-- In one request each signal that arrives is taken in its turn, or waits. -/
theorem inOrder_after (p : Process) (r : Request) :
    p.signals.waiting ++ p.arrivals r =
      (p.fatesIn r).map Prod.fst ++ (p.after r).signals.waiting := by
  cases r with
  | run n => exact (Exec.settle_run n p).2.inOrder
  | deliver => exact (Exec.settle_deliverSignals p).2.2.inOrder
  | execute i => exact (Exec.accounts_execute i p).inOrder
  | handle s =>
    obtain ⟨signals, output⟩ := Exec.handleSignal_rests s p
    exact inOrder_of_same signals output
  | start =>
    obtain ⟨signals, output⟩ := p.start_rests
    exact inOrder_of_same signals output
  | load | collect | setRule | setVector | reset | abandon => exact inOrder_of_same rfl rfl
  | raise s => rfl
  | redirect output => exact List.append_nil _

theorem inOrder_afterAll (rs : List Request) : ∀ p : Process,
    p.signals.waiting ++ p.allArrivals rs =
      (p.allFates rs).map Prod.fst ++ (p.afterAll rs).signals.waiting := by
  induction rs with
  | nil => exact fun p => List.append_nil _
  | cons r rs ih =>
    intro p
    show _ ++ (p.arrivals r ++ (p.after r).allArrivals rs) =
      (p.fatesIn r ++ (p.after r).allFates rs).map Prod.fst ++
        ((p.after r).afterAll rs).signals.waiting
    rw [← List.append_assoc, p.inOrder_after r, List.append_assoc, ih, List.map_append,
      List.append_assoc]

theorem kept_after {p : Process} {r : Request}
    (sound : ∀ e ∈ p.fatesIn r, ∀ fault, e.2 ≠ .handled (some fault)) :
    ∀ e ∈ p.fatesIn r, e.2 = .handled none := by
  cases r with
  | run n => exact (Exec.settle_run n p).1.kept sound
  | deliver => exact (Exec.settle_deliverSignals p).1.kept sound
  | _ => exact fun e mem => absurd mem List.not_mem_nil

theorem kept_afterAll (rs : List Request) : ∀ p : Process,
    (∀ e ∈ p.allFates rs, ∀ fault, e.2 ≠ .handled (some fault)) →
      ∀ e ∈ p.allFates rs, e.2 = .handled none := by
  induction rs with
  | nil => exact fun p _ e mem => absurd mem List.not_mem_nil
  | cons r rs ih =>
    intro p sound e mem
    rcases List.mem_append.mp mem with mem | mem
    · exact kept_after (fun e mem => sound e (List.mem_append_left _ mem)) e mem
    · exact ih _ (fun e mem => sound e (List.mem_append_right _ mem)) e mem

/-- What comes of the signals of a process. -/
structure Settles (p : Process) : Prop where
  /-- How a signal is handled. -/
  handles : ∀ s, p.Handles s (Exec.handleSignal s p)
  /-- Whatever is asked for, each signal that arrives is taken once, in order, or waits still. -/
  inOrder : ∀ rs, p.signals.waiting ++ p.allArrivals rs =
    (p.allFates rs).map Prod.fst ++ (p.afterAll rs).signals.waiting
  /-- What waits is what a run takes first. -/
  first : ∀ n, p.signals.waiting <+: (p.fatesIn (.run (n + 1))).map Prod.fst
  /-- A run handles what it takes, up to a signal at fault, with which it ends. Those that have been
  taken with that one and are behind it are dropped. -/
  settle : ∀ n, Fates.Settle (Exec.run n p) (p.fatesIn (.run n))
  /-- Where none is at fault, all that are taken are handled. -/
  kept : ∀ rs, (∀ e ∈ p.allFates rs, ∀ fault, e.2 ≠ .handled (some fault)) →
    ∀ e ∈ p.allFates rs, e.2 = .handled none

end Process

/-- Each signal is taken once, in order; and it is handled, unless it is taken behind another whose
handling ends the run. -/
theorem signals_settle (p : Process) : p.Settles := by
  refine ⟨Exec.handles_handleSignal p, fun rs => p.inOrder_afterAll rs, fun n => ?_,
    fun n => (Exec.settle_run n p).1, fun rs => p.kept_afterAll rs⟩
  have taken := (Exec.settle_deliverSignals (p.note (.runStarted p.calls.depth))).2.1
  exact ⟨_, (congrArg (· ++ _) taken.symm).trans List.map_append.symm⟩

/-- A signal that is fatal, and a request to stop behind it. -/
def stopBehindFatal : Process :=
  Process.standard.afterAll [.raise .segv, .raise .int]

/-- The request to stop is neither handled nor does it wait: the next run knows nothing of it. -/
theorem signals_lost :
    stopBehindFatal.signals.waiting = [.segv, .int] ∧
    stopBehindFatal.fatesIn (.run 1) =
      [(.segv, .handled (some (.fatalSignal .segv))), (.int, .dropped)] ∧
    (stopBehindFatal.after (.run 1)).signals.waiting = [] ∧
    (∃ q, Exec.run 1 stopBehindFatal = .error (.fatalSignal .segv) q) ∧
    ∃ q, Exec.run 1 (stopBehindFatal.after (.run 1)) = .ok (some .completed) q :=
  ⟨rfl, rfl, rfl, ⟨_, rfl⟩, ⟨_, rfl⟩⟩

end ObjectVM
