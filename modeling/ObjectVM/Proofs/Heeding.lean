import ObjectVM.Proofs.SignalFates

/-!
# Signals that are heeded

A timer signal is ignored, and a signal with a vector interrupts the running frame: neither is a
reason for a run to end. What the program has come to stays recorded while they are handled, and as
long as a frame is left none of them can fail.

The last frame may have returned, or an exception may have left it, when such a signal is taken. A
timer signal is ignored then as well, but a vector looks for the frame that is to run it before the
run looks at what the program has come to. The run ends with a fault, although the program has ended
as it should (`vectored_signal_missed`).

* `heed_handleSignals`: what becomes of signals that are heeded, in any process.
* `unframed_turns`: no other fault than that of a missing frame comes of one in a whole run.
-/
namespace ObjectVM

namespace Process

/-- Whether a signal is ignored or has a vector. -/
def Heeds (p : Process) (s : Signal) : Prop :=
  s.category = .timer ∨ ∃ vector, p.vectors s = some vector

/-- Whether there is a frame for the vectors of some signals, if they need one. -/
def Hosts (p : Process) (signals : List Signal) : Prop :=
  0 < p.calls.depth ∨ ∀ s ∈ signals, s.category = .timer

/-- What handling signals leaves as it is if they are heeded: what the program has come to, the
number of frames, and the vectors. -/
structure Heeded (p q : Process) : Prop where
  halt : q.halt = p.halt
  depth : q.calls.depth = p.calls.depth
  vectors : q.vectors = p.vectors

variable {p q r : Process} {s : Signal} {signals : List Signal}

theorem Heeded.note (p : Process) (e : Event) : p.Heeded (p.note e) := ⟨rfl, rfl, rfl⟩

theorem Heeded.refl (p : Process) : p.Heeded p := ⟨rfl, rfl, rfl⟩

theorem Heeded.trans (a : p.Heeded q) (b : q.Heeded r) : p.Heeded r :=
  ⟨b.halt.trans a.halt, b.depth.trans a.depth, b.vectors.trans a.vectors⟩

theorem Heeds.of_vectors (same : q.vectors = p.vectors) (heeds : p.Heeds s) : q.Heeds s := by
  unfold Heeds
  rwa [same]

theorem hosts_cons : p.Hosts (s :: signals) ↔ p.Hosts [s] ∧ p.Hosts signals := by
  simp only [Hosts, List.forall_mem_cons, List.not_mem_nil, false_imp_iff, implies_true, and_true]
  tauto

theorem Hosts.of_depth (same : q.calls.depth = p.calls.depth) (hosts : p.Hosts signals) :
    q.Hosts signals := by
  unfold Hosts
  rwa [same]

theorem vectors_of_edits (edits : Edits p q) : q.vectors = p.vectors := by
  induction edits with
  | refl => rfl
  | tail _ edit ih =>
    refine Eq.trans ?_ ih
    cases edit <;> rfl

theorem top?_eq_none_iff : p.calls.top? = none ↔ p.calls.depth = 0 := by
  simp [CallStack.top?, CallStack.depth]

end Process

namespace Exec

open Process

variable {p q : Process} {s : Signal}

/-! ## One signal and several -/

/-- A signal that is heeded can be handled just if there is a frame for its vector, and changes
neither what the program has come to nor the number of frames. -/
theorem heed_handleSignal (heeds : p.Heeds s) :
    (p.Hosts [s] → ∃ q, handleSignal s p = .ok () q ∧ p.Heeded q) ∧
      (¬ p.Hosts [s] → ∃ q, handleSignal s p = .error .frameNotFound q ∧ p.Heeded q) := by
  have handled := handles_handleSignal p s
  generalize handleSignal s p = r at handled
  cases handled with
  | ignored timer =>
    refine ⟨fun _ => ⟨_, rfl, .note p _⟩, fun missing => absurd ?_ missing⟩
    exact .inr (by simpa using timer)
  | vectored acts set top =>
    refine ⟨fun _ => ⟨_, rfl, rfl, ?_, rfl⟩, fun missing => absurd ?_ missing⟩
    · exact Array.size_modify
    · exact .inl (CallStack.depth_pos top)
  | unframed acts set none =>
    refine ⟨fun hosts => ?_, fun _ => ⟨_, rfl, .note p _⟩⟩
    rcases hosts with framed | timers
    · exact absurd (top?_eq_none_iff.mp none) (Nat.pos_iff_ne_zero.mp framed)
    · exact absurd (timers s List.mem_cons_self) acts
  | terminates ends unset =>
    rcases heeds with timer | ⟨vector, set⟩
    · rw [ends] at timer
      cases timer
    · rw [unset] at set
      cases set
  | fatal acts lasts unset =>
    rcases heeds with timer | ⟨vector, set⟩
    · exact absurd timer acts
    · rw [unset] at set
      cases set

/-- Signals that are heeded can all be handled just if there is a frame for their vectors. -/
theorem heed_handleSignals (signals : List Signal) : ∀ p : Process,
    (∀ s ∈ signals, p.Heeds s) →
      (p.Hosts signals → ∃ q, signals.forM handleSignal p = .ok () q ∧ p.Heeded q) ∧
        (¬ p.Hosts signals →
          ∃ q, signals.forM handleSignal p = .error .frameNotFound q ∧ p.Heeded q) := by
  -- on the signals: the first leaves the frames and the vectors as they are for those behind it
  induction signals with
  | nil => exact fun p _ => ⟨fun _ => ⟨p, rfl, .refl p⟩, fun missing => absurd (.inr nofun) missing⟩
  | cons s behind ih =>
    intro p heeds
    obtain ⟨heedsFirst, heedsBehind⟩ := List.forall_mem_cons.mp heeds
    obtain ⟨handled, unframed⟩ := heed_handleSignal heedsFirst
    show (_ → ∃ q, (handleSignal s >>= fun _ => behind.forM handleSignal) p = _ ∧ _) ∧
      (_ → ∃ q, (handleSignal s >>= fun _ => behind.forM handleSignal) p = _ ∧ _)
    rw [hosts_cons]
    by_cases first : p.Hosts [s]
    · obtain ⟨q, ran, heeded⟩ := handled first
      obtain ⟨rest, restUnframed⟩ := ih q fun s mem => (heedsBehind s mem).of_vectors heeded.vectors
      rw [bind_ok ran]
      constructor
      · intro hosts
        obtain ⟨r, ends, heeded'⟩ := rest (hosts.2.of_depth heeded.depth)
        exact ⟨r, ends, heeded.trans heeded'⟩
      · intro missing
        obtain ⟨r, ends, heeded'⟩ := restUnframed fun hosts =>
          missing ⟨first, hosts.of_depth heeded.depth.symm⟩
        exact ⟨r, ends, heeded.trans heeded'⟩
    · obtain ⟨q, ran, heeded⟩ := unframed first
      rw [bind_error ran]
      exact ⟨fun hosts => absurd hosts.1 first, fun _ => ⟨q, rfl, heeded⟩⟩

theorem heed_deliverSignals (heeds : ∀ s ∈ p.signals.waiting, p.Heeds s) :
    (p.Hosts p.signals.waiting → ∃ q, deliverSignals p = .ok () q ∧ p.Heeded q) ∧
      (¬ p.Hosts p.signals.waiting →
        ∃ q, deliverSignals p = .error .frameNotFound q ∧ p.Heeded q) := by
  obtain ⟨handled, unframed⟩ :=
    heed_handleSignals p.signals.waiting { p with signals := .empty } heeds
  constructor
  · intro hosts
    obtain ⟨q, ran, heeded⟩ := handled hosts
    exact ⟨q, ran, heeded.halt, heeded.depth, heeded.vectors⟩
  · intro missing
    obtain ⟨q, ran, heeded⟩ := unframed missing
    exact ⟨q, ran, heeded.halt, heeded.depth, heeded.vectors⟩

/-- A signal at fault that was heeded has a vector, and there was no frame to run it. -/
theorem unframed_handleSignals (signals : List Signal) : ∀ p : Process, p.Heeds s →
    ∀ fault, (s, .handled (some fault)) ∈ p.fatesOf signals →
      s.category ≠ .timer ∧ fault = .frameNotFound ∧
        ∃ q, signals.forM handleSignal p = .error .frameNotFound q ∧ q.calls.depth = 0 := by
  -- on the signals: the vectors stay until the one at fault, behind which all are dropped
  induction signals with
  | nil => exact fun p _ fault mem => absurd mem List.not_mem_nil
  | cons first behind ih =>
    intro p heeds fault mem
    show _ ∧ _ ∧
      ∃ q : Process, (handleSignal first >>= fun _ => behind.forM handleSignal) p = _ ∧
        q.calls.depth = 0
    unfold fatesOf at mem
    have handled := handles_handleSignal p first
    cases ran : handleSignal first p with
    | ok _ q =>
      rw [ran] at mem handled
      rw [bind_ok ran]
      have vectors : q.vectors = p.vectors := by cases handled <;> rfl
      rcases List.mem_cons.mp mem with same | mem
      · cases same
      · exact ih q (heeds.of_vectors vectors) fault mem
    | error fault' q =>
      rw [ran] at mem handled
      rw [bind_error ran]
      rcases List.mem_cons.mp mem with same | dropped
      · cases same
        cases handled with
        | unframed acts _ none => exact ⟨acts, rfl, _, rfl, top?_eq_none_iff.mp none⟩
        | fatal acts _ unset =>
          rcases heeds with timer | ⟨vector, set⟩
          · exact absurd timer acts
          · rw [unset] at set
            cases set
      · obtain ⟨other, -, same⟩ := List.mem_map.mp dropped
        cases same

/-! ## Turns and runs -/

/-- A turn that handles all signals goes on to what the program has come to, if it has ended. -/
theorem turn_ended {o : Outcome} (taken : deliverSignals p = .ok () q)
    (ended : q.halt = some o ∨ q.halt = none ∧ q.calls.depth = 0 ∧ o = .completed) :
    ∃ r, turn p = .ok (some o) r := by
  unfold turn
  rw [bind_ok taken, get_bind]
  rcases ended with told | ⟨on, none, rfl⟩
  · rw [told]
    exact ⟨_, rfl⟩
  · rw [on]
    dsimp only
    rw [get_bind, top?_eq_none_iff.mpr none]
    exact ⟨_, rfl⟩

theorem unframed_turn (heeds : p.Heeds s) {fault : Fault}
    (mem : (s, .handled (some fault)) ∈ p.fatesWaiting) :
    s.category ≠ .timer ∧ fault = .frameNotFound ∧
      ∃ q, turn p = .error .frameNotFound q ∧ q.calls.depth = 0 := by
  obtain ⟨acts, rfl, q, ends, bare⟩ :=
    unframed_handleSignals p.signals.waiting { p with signals := .empty } heeds fault mem
  exact ⟨acts, rfl, q, bind_error (m := deliverSignals) ends, bare⟩

/-- Over a whole run, a heeded signal at fault has found no frame, and the run has ended there. -/
theorem unframed_turns (n : Nat) : ∀ p : Process, p.Sound → p.Heeds s →
    ∀ fault, (s, .handled (some fault)) ∈ p.turnFates n →
      s.category ≠ .timer ∧ fault = .frameNotFound ∧
        ∃ q, turns n p = .error .frameNotFound q ∧ q.calls.depth = 0 := by
  -- on the turns: a turn that goes on keeps the vectors
  induction n with
  | zero => exact fun p _ _ fault mem => absurd mem List.not_mem_nil
  | succ n ih =>
    intro p sound heeds fault mem
    unfold turns
    rcases List.mem_append.mp mem with mem | mem
    · obtain ⟨acts, rfl, q, ends, bare⟩ := unframed_turn heeds mem
      exact ⟨acts, rfl, q, bind_error ends, bare⟩
    · have turned := ends_turn sound
      cases ran : turn p with
      | error fault' q =>
        rw [ran] at mem
        exact absurd mem List.not_mem_nil
      | ok outcome q =>
        rw [ran] at mem turned
        cases outcome with
        | some outcome => exact absurd mem List.not_mem_nil
        | none =>
          rw [bind_ok ran]
          exact ih q turned.sound (heeds.of_vectors (vectors_of_edits turned.edits)) fault mem

end Exec

/-- What comes of signals that are heeded, in `p`. -/
structure Process.Heeding (p : Process) : Prop where
  /-- Where there is a frame for their vectors, all of them are handled. -/
  handled : (∀ s ∈ p.signals.waiting, p.Heeds s) → p.Hosts p.signals.waiting →
    ∃ q, Exec.deliverSignals p = .ok () q ∧ p.Heeded q
  /-- A run then tells what the program has come to, if it has ended. -/
  answered : (∀ s ∈ p.signals.waiting, p.Heeds s) → p.Hosts p.signals.waiting →
    ∀ n o, (p.halt = some o ∨ p.halt = none ∧ p.calls.depth = 0 ∧ o = .completed) →
      ∃ q, Exec.run (n + 1) p = .ok (some o) q
  /-- Where there is none, a run ends with a fault, whatever the program has come to. -/
  unframed : (∀ s ∈ p.signals.waiting, p.Heeds s) → ¬ p.Hosts p.signals.waiting →
    ∀ n, ∃ q, Exec.run (n + 1) p = .error .frameNotFound q ∧ q.halt = p.halt
  /-- In a whole run, that is the only way in which a signal that is heeded can be at fault. -/
  faults : ∀ n s fault, p.Heeds s → (s, .handled (some fault)) ∈ p.fatesIn (.run n) →
    s.category ≠ .timer ∧ fault = .frameNotFound ∧
      ∃ q, Exec.run n p = .error .frameNotFound q ∧ q.calls.depth = 0

/-- A signal that is heeded ends a run only where a vector finds no frame. -/
theorem heeded_signals {may : Compartment → Prop} {p : Process} (reached : p.Reachable may) :
    p.Heeding := by
  have noted := (Path.refl reached.sound).note (.runStarted p.calls.depth)
  refine ⟨fun heeds => (Exec.heed_deliverSignals heeds).1, fun heeds hosts n o ended => ?_,
    fun heeds missing n => ?_, fun n s fault heeds mem => ?_⟩
  · obtain ⟨q, ran, heeded⟩ :=
      (Exec.heed_deliverSignals (p := p.note (.runStarted p.calls.depth)) heeds).1 hosts
    have kept : q.halt = some o ∨ q.halt = none ∧ q.calls.depth = 0 ∧ o = .completed := by
      rw [heeded.halt, heeded.depth]
      exact ended
    obtain ⟨r, turned⟩ := Exec.turn_ended ran kept
    refine ⟨r, ?_⟩
    show Exec.turns (n + 1) (p.note (.runStarted p.calls.depth)) = _
    exact Exec.bind_ok turned
  · obtain ⟨q, ran, heeded⟩ :=
      (Exec.heed_deliverSignals (p := p.note (.runStarted p.calls.depth)) heeds).2 missing
    refine ⟨q, ?_, heeded.halt⟩
    show Exec.turns (n + 1) (p.note (.runStarted p.calls.depth)) = _
    exact Exec.bind_error (Exec.bind_error ran)
  · exact Exec.unframed_turns n _ noted.sound heeds fault mem

/-- A program that makes an object. -/
def making : Compartment :=
  (Compartment.new "main").withClosures
    #[.new Compartment.mainName 0 none #[.ofOp (.object .new)]]

/-- The program after some turns, with a vector for the request to stop. -/
def vectored (turns : Nat) : Process :=
  (Process.ranFor making turns).after
    (.setVector .int (some #[.ofOp (.control .clearException)]))

theorem reachable_vectored (turns : Nat) : (vectored turns).Reachable fun _ => True :=
  (Process.reachable_ranFor trivial turns).after _ trivial

/-- The program at its end, before its frame returns, when a timer and a request to stop wait. -/
def atEnd : Process := ((vectored 1).after (.raise .alrm)).after (.raise .int)

theorem heeded_signals_atEnd : atEnd.signals.waiting = [.alrm, .int] ∧
    (∀ s ∈ atEnd.signals.waiting, atEnd.Heeds s) ∧ atEnd.Hosts atEnd.signals.waiting ∧
    (∃ q, Exec.deliverSignals atEnd = .ok () q ∧ atEnd.Heeded q) ∧ atEnd.Heeding := by
  have reached : atEnd.Reachable fun _ => True :=
    ((reachable_vectored 1).after (.raise .alrm) trivial).after (.raise .int) trivial
  have heeds : ∀ s ∈ atEnd.signals.waiting, atEnd.Heeds s := by
    intro s mem
    rcases List.mem_pair.mp mem with rfl | rfl
    · exact .inl rfl
    · exact .inr ⟨_, rfl⟩
  have hosts : atEnd.Hosts atEnd.signals.waiting := .inl (by decide +kernel)
  exact ⟨by decide +kernel, heeds, hosts, (heeded_signals reached).handled heeds hosts,
    heeded_signals reached⟩

/-- The program when it has run to its end, and then a request to stop. -/
def stopBehindEnd : Process := (vectored 3).after (.raise .int)

/-- The program when the object that it has made has been raised and not been caught, and then a
request to stop. -/
def stopBehindUncaught : Process :=
  ((vectored 1).after (.execute (.ofOp (.control .raise)))).after (.raise .int)

/-- The request to stop has a vector. Still the run does not tell that the program has ended, nor
which exception has not been caught. -/
theorem vectored_signal_missed :
    (stopBehindEnd.Reachable (fun _ => True) ∧ stopBehindEnd.signals.waiting = [.int] ∧
      stopBehindEnd.Heeds .int ∧ stopBehindEnd.calls.depth = 0 ∧ stopBehindEnd.halt = none ∧
      ∃ q, Exec.run 1 stopBehindEnd = .error .frameNotFound q) ∧
    stopBehindUncaught.Reachable (fun _ => True) ∧ stopBehindUncaught.signals.waiting = [.int] ∧
      stopBehindUncaught.Heeds .int ∧ stopBehindUncaught.halt = some (.uncaught ⟨0, 0⟩) ∧
      ∃ q, Exec.run 1 stopBehindUncaught = .error .frameNotFound q :=
  ⟨⟨(reachable_vectored 3).after _ trivial, by decide +kernel, .inr ⟨_, rfl⟩, by decide +kernel,
      by decide +kernel, ⟨_, rfl⟩⟩,
    ((reachable_vectored 1).after (.execute _) trivial).after _ trivial, by decide +kernel,
      .inr ⟨_, rfl⟩, by decide +kernel, ⟨_, rfl⟩⟩

end ObjectVM
