import Mathlib.Algebra.Group.Int.Defs
import Mathlib.Algebra.Group.Nat.Defs
import ObjectVM.Proofs.CallOrder
import ObjectVM.Proofs.Passing
import ObjectVM.Proofs.Windows

/-!
# Programs that only move on

In a program without absolute jumps, without jumps to the instruction that jumps, and with catch
sites that resume behind what they cover, no counter ever goes back. What a frame has still to go in
its code (`Frame.rest`) is the measure of that: no instruction makes it larger for any frame that is
there, neither a jump nor a call, a return or an exception (`Exec.onward_execute`). A frame that is
gone has nothing to go.
-/
namespace ObjectVM

/-- Whether an instruction leads neither back in its code nor to itself. -/
def Instruction.leadsOn (i : Instruction) : Bool :=
  match i.op with
  | .control .jumpTo => false
  | .control .jump | .control .jumpIf | .control .jumpException => i.offset != 0
  | _ => true

/-- The instructions of a closure lead on, and so do its catch sites. There are fewer instructions
than a word with a sign can count, as in any code that fits into memory. -/
structure Closure.Forward (c : Closure) : Prop where
  code : ∀ i ∈ c.code, i.leadsOn = true
  sites : ∀ s ∈ c.catchSites, s.last < s.target
  size : c.code.size < 2 ^ 63

/-- All that is loaded leads on. -/
def Process.Forward (p : Process) : Prop := ∀ m ∈ p.compartments, ∀ c ∈ m.closures, c.Forward

/-- What a frame has still to go in its code, and one more for the end of it. -/
def Frame.rest (f : Frame) : Nat := f.code.size - f.pc + 1

/-- A number below `2 ^ 64` that does not come out negative as a word with a sign is as it is. -/
theorem signed64_of_nonneg {n : Int} (low : 0 ≤ n) (high : n < 2 ^ 64) (nonneg : 0 ≤ signed64 n) :
    signed64 n = n := by
  unfold signed64 Int.bmod at *
  simp only [UInt64.size] at *
  omega

theorem signedWord_lt (w : UInt64) : signedWord w < 2 ^ 63 := by
  unfold signedWord
  exact w.toInt64.toInt_lt

namespace Frame

variable {f f' : Frame}

theorem rest_le (code : f'.code = f.code) (pc : f.pc ≤ f'.pc) : f'.rest ≤ f.rest := by
  unfold rest
  rw [code]
  omega

theorem rest_of_site (same : f'.site = f.site) : f'.rest = f.rest := by
  unfold rest
  rw [show f'.code = f.code from congrArg Site.code same,
    show f'.pc = f.pc from congrArg Site.pc same]

/-- A jump that is not to the instruction itself leads on. -/
theorem le_pc_jump {offset : Int} (small : f.pc ≤ 2 ^ 63) (bounded : offset < 2 ^ 63)
    (moves : offset ≠ 0) (jumped : f.jump offset = .ok f') :
    f'.code = f.code ∧ f.pc ≤ f'.pc := by
  unfold jump at jumped
  dsimp only at jumped
  split at jumped
  · cases jumped
  · next forward =>
    unfold goTo at jumped
    split at jumped
    · cases jumped
      refine ⟨rfl, ?_⟩
      unfold currentIndex at *
      have target := signed64_of_nonneg (n := ↑(f.pc - 1) + offset) (by omega) (by omega) (by omega)
      dsimp only
      omega
    · cases jumped

theorem le_pc_skip {n : UInt64} (small : f.pc ≤ 2 ^ 63) (skipped : f.skip n = .ok f') :
    f'.code = f.code ∧ f.pc ≤ f'.pc := by
  unfold skip at skipped
  dsimp only at skipped
  split at skipped
  · cases skipped
  · cases skipped
    refine ⟨rfl, ?_⟩
    simp only [UInt64.size]
    omega

theorem le_pc_goTo {address : Nat} (ahead : f.currentIndex < address)
    (moved : f.goTo address = .ok f') : f'.code = f.code ∧ f.pc ≤ f'.pc := by
  unfold goTo at moved
  split at moved
  · cases moved
    refine ⟨rfl, ?_⟩
    unfold currentIndex at ahead
    dsimp only
    omega
  · cases moved

end Frame

/-! ## What is left of a run -/

namespace CallStack

/-- What the frame at an index has still to go, which is nothing if there is none. -/
def rest (s : CallStack) (n : Nat) : Nat :=
  match s.frames[n]? with
  | some f => f.rest
  | none => 0

/-- No frame has farther to go. -/
def Onward (s t : CallStack) : Prop := ∀ n, t.rest n ≤ s.rest n

variable {s t u : CallStack} {f f' : Frame} {n : Nat}

theorem rest_of_frame (there : s.frames[n]? = some f) : s.rest n = f.rest := by
  unfold rest
  rw [there]

theorem rest_of_none (gone : s.frames[n]? = none) : s.rest n = 0 := by
  unfold rest
  rw [gone]

theorem Onward.refl (s : CallStack) : s.Onward s := fun _ => Nat.le_refl _

theorem Onward.trans (a : s.Onward t) (b : t.Onward u) : s.Onward u :=
  fun n => Nat.le_trans (b n) (a n)

theorem onward_of_frames (frames : t.frames = s.frames) : s.Onward t := by
  intro n
  unfold rest
  rw [frames]

theorem onward_of_sites (same : t.sites = s.sites) : s.Onward t := by
  intro n
  have site : (t.frames[n]?).map Frame.site = (s.frames[n]?).map Frame.site := by
    have := congrArg (·[n]?) same
    simpa [sites] using this
  cases hs : s.frames[n]? with
  | none =>
    rw [hs, Option.map_none, Option.map_eq_none_iff] at site
    rw [rest_of_none site]
    exact Nat.zero_le _
  | some f =>
    rw [hs, Option.map_some, Option.map_eq_some_iff] at site
    obtain ⟨g, hg, alike⟩ := site
    rw [rest_of_frame hg, rest_of_frame hs, Frame.rest_of_site alike]

theorem onward_modify {g : Frame → Frame}
    (moves : ∀ f, s.frames[n]? = some f → (g f).rest ≤ f.rest) : s.Onward (s.modify n g) := by
  intro k
  cases hs : (s.modify n g).frames[k]? with
  | none =>
    rw [rest_of_none hs]
    exact Nat.zero_le _
  | some f' =>
    rw [rest_of_frame hs]
    replace hs : (s.frames.modify n g)[k]? = some f' := hs
    rcases getElem?_modify_cases hs with ⟨rfl, f, there, rfl⟩ | hs
    · rw [rest_of_frame there]
      exact moves f there
    · rw [rest_of_frame hs]

theorem onward_setTop (top : s.top? = some f) (moves : f'.rest ≤ f.rest) :
    s.Onward (s.modifyTop fun _ => f') := by
  refine onward_modify fun g there => ?_
  rw [frame_of_top top] at there
  cases there
  exact moves

theorem onward_dropTop (s : CallStack) : s.Onward s.dropTop := by
  intro n
  cases hs : s.dropTop.frames[n]? with
  | none =>
    rw [rest_of_none hs]
    exact Nat.zero_le _
  | some f => rw [rest_of_frame hs, rest_of_frame (getElem?_of_pop hs)]

/-- A new frame comes on top of those that are there. -/
theorem rest_add (below : n < s.depth) : (s.add f).rest n = s.rest n := by
  have same : (s.add f).frames[n]? = s.frames[n]? :=
    Array.getElem?_push.trans (if_neg (Nat.ne_of_lt below))
  unfold rest
  rw [same]

theorem rest_top (top : s.top? = some f) : s.rest (s.depth - 1) = f.rest :=
  rest_of_frame (frame_of_top top)

theorem depth_afterReturn (s : CallStack) (f : Frame) : (s.afterReturn f).depth = s.depth - 1 := by
  unfold afterReturn
  split
  · exact Array.size_modify.trans Array.size_pop
  · exact Array.size_pop

end CallStack

/-- A return takes no caller back. -/
theorem Process.Ordered.onward_afterReturn {p : Process} {f : Frame} (o : p.Ordered)
    (top : p.calls.top? = some f) : p.calls.Onward (p.calls.afterReturn f) := by
  unfold CallStack.afterReturn
  cases back : f.returnAddress with
  | none => exact p.calls.onward_dropTop
  | some address =>
    refine p.calls.onward_dropTop.trans (CallStack.onward_modify fun g there => ?_)
    have small : p.calls.dropTop.depth - 1 + 1 = p.calls.depth - 1 := by
      have some := CallStack.lt_depth there
      have : p.calls.dropTop.depth = p.calls.depth - 1 := Array.size_pop
      omega
    have waits := o.returns _ g f address (getElem?_of_pop there)
      (small ▸ CallStack.frame_of_top top) back
    exact Frame.rest_le rfl waits

/-! ## Instructions -/

namespace Exec

variable {p : Process} {α β : Type} {f : Frame} {i : Instruction}

theorem onward_bind {m : Exec α} {k : α → Exec β} (hm : p.calls.Onward (left (m p)).calls)
    (hk : ∀ a q, m p = .ok a q → q.calls.Onward (left (k a q)).calls) :
    p.calls.Onward (left ((m >>= k) p)).calls := by
  rw [left_bind]
  cases ran : m p with
  | ok a q =>
    rw [ran] at hm
    exact hm.trans (hk a q ran)
  | error fault q =>
    rw [ran] at hm
    exact hm

theorem IsBlind.onward {m : Exec α} (blind : IsBlind m) (p : Process) :
    p.calls.Onward (left (m p)).calls := CallStack.onward_of_sites (blind p).rests.sites

theorem onward_updateFrame {g : Frame → Except Fault Frame} (top : p.calls.top? = some f)
    (moves : ∀ f', g f = .ok f' → f'.code = f.code ∧ f.pc ≤ f'.pc) :
    p.calls.Onward (left (updateFrame g p)).calls := by
  unfold updateFrame
  rw [left_bind_ok (topFrame_eq top), left_bind]
  cases changed : g f with
  | ok f' =>
    obtain ⟨code, pc⟩ := moves f' changed
    exact CallStack.onward_setTop top (Frame.rest_le code pc)
  | error fault => exact .refl _

theorem onward_jump (top : p.calls.top? = some f) (small : f.pc ≤ 2 ^ 63) (moves : i.offset ≠ 0) :
    p.calls.Onward (left (jump i p)).calls :=
  onward_updateFrame top fun _ => Frame.le_pc_jump small (signedWord_lt i.first) moves

/-- A jump that is made under a condition. -/
theorem onward_jumpWhen (top : p.calls.top? = some f) (small : f.pc ≤ 2 ^ 63)
    (moves : i.offset ≠ 0) (c : Bool) :
    p.calls.Onward (left ((if c then jump i else pure () : Exec Unit) p)).calls := by
  cases c with
  | true => exact onward_jump top small moves
  | false => exact .refl _

theorem onward_takeNamed (top : p.calls.top? = some f) (small : f.pc ≤ 2 ^ 63)
    (key skipped : UInt64) : p.calls.Onward (left (takeNamed key skipped p)).calls := by
  unfold takeNamed
  rcases ownInvocation_cases p with ⟨fault, none⟩ | ⟨f', j, top', there, own⟩
  · rw [left_bind_error none]
    exact .refl _
  · rw [left_bind_ok own]
    dsimp only
    rw [KeyMap.contains]
    cases named : j.named.get? key with
    | none => exact .refl _
    | some id =>
      rw [Option.isSome_some, if_pos rfl,
        left_bind_ok (takeOwn_eq top' there (Invocation.takeNamed_eq named))]
      exact onward_updateFrame
        (p := { p.setInvocation f'.invocation { j with named := j.named.erase key } with
          objects := id :: p.objects }) top fun _ => Frame.le_pc_skip small

theorem calls_returnFromFrame (top : p.calls.top? = some f) :
    (left (returnFromFrame p)).calls = p.calls.afterReturn f := by
  rw [returnFromFrame_eq top]
  show (p.afterReturn f).applyRules.calls = p.calls.afterReturn f
  unfold Process.applyRules
  split <;> rfl

theorem onward_returnFromFrame (o : p.Ordered) (top : p.calls.top? = some f) :
    p.calls.Onward (left (returnFromFrame p)).calls := by
  rw [calls_returnFromFrame top]
  exact o.onward_afterReturn top

/-- An exception is caught behind what the catch site covers. -/
theorem lt_catchTarget (forward : p.Forward) {search : Bool} {target : Nat} {q : Process}
    (ran : (if search then catchTarget? f else pure none : Exec (Option Nat)) p =
      .ok (some target) q) : f.currentIndex < target := by
  cases search with
  | false => cases ran
  | true =>
    rw [if_pos rfl] at ran
    unfold catchTarget? at ran
    split at ran
    · cases ran
    · cases resolves : p.resolve f.closure with
      | error fault =>
        rw [bind_error (look_error resolves)] at ran
        cases ran
      | ok c =>
        rw [bind_ok (look_eq resolves)] at ran
        have found : (c.catchSiteAt f.currentIndex).map (·.target) = some target :=
          (EStateM.Result.ok.inj ran).1
        obtain ⟨site, first, rfl⟩ := Option.map_eq_some_iff.mp found
        obtain ⟨m, there, mem⟩ := Process.loads_of_resolve resolves
        have behind := (forward m there c mem).sites site (List.mem_of_find?_eq_some first)
        have covered := List.find?_some first
        simp only [CatchSite.covers, Bool.and_eq_true, decide_eq_true_eq] at covered
        omega

/-- Wherever an exception goes, no frame has farther to go. -/
theorem onward_unwind (e : ObjectId) (depth : Nat) : ∀ (search : Bool) (trace : Option Traceback)
    (p : Process), p.Forward → p.calls.Onward (left (unwind e search trace depth p)).calls := by
  -- on the number of frames, as the exception comes from one to the next
  induction depth with
  | zero => exact fun _ _ p _ => .refl _
  | succ depth ih =>
    intro search trace p forward
    rw [unwind_succ, left_bind]
    cases top : p.calls.top? with
    | none =>
      rw [topFrame_none top]
      exact .refl _
    | some f =>
      rw [topFrame_eq top]
      have asked := left_asked (p := p) f search
      show p.calls.Onward (left ((_ >>= handOver e trace depth f) p)).calls
      refine onward_bind (by rw [asked]; exact .refl _) fun target q ran => ?_
      rw [ran] at asked
      obtain rfl : q = p := asked
      cases target with
      | some target =>
        have ahead := lt_catchTarget forward ran
        have kept : q.calls.Onward (q.calls.modifyTop fun _ => f.setException (some e)) :=
          CallStack.onward_setTop top (Nat.le_refl _)
        refine onward_bind kept fun _ r set => ?_
        cases set
        refine onward_bind (onward_updateFrame (CallStack.top?_modifyTop top _) fun _ moved =>
          Frame.le_pc_goTo ahead moved) fun _ r _ => .refl _
      | none =>
        have dropped := q.calls.onward_dropTop
        cases below : q.calls.dropTop.top? with
        | some caller =>
          rw [handOver_pass top below]
          have handed : q.calls.dropTop.Onward
              (q.calls.dropTop.modifyTop fun _ => caller.setException (some e)) :=
            CallStack.onward_setTop below (Nat.le_refl _)
          exact (dropped.trans handed).trans (ih true _ _ forward)
        | none =>
          rw [handOver_last top below]
          exact dropped

theorem onward_runControl {op : ControlOp} (forward : p.Forward) (o : p.Ordered)
    (hop : i.op = .control op) (seeing : i.op.isBlind ≠ true) (inner : op ≠ .invoke)
    (leads : i.leadsOn = true) (top : p.calls.top? = some f) (small : f.pc ≤ 2 ^ 63) :
    p.calls.Onward (left (runControl op i p)).calls := by
  unfold Instruction.leadsOn at leads
  rw [hop] at leads seeing
  cases op with
  | stage | loadException | clearException => exact absurd rfl seeing
  | invoke => exact absurd rfl inner
  | «return» => exact onward_returnFromFrame o top
  | jump => exact onward_jump top small (by simpa using leads)
  | jumpIf =>
    show p.calls.Onward
      (left ((topValue >>= fun v => if v.isTruthy then jump i else pure ()) p)).calls
    cases looked : f.topValue with
    | error fault =>
      have missing : topValue p = .error fault p :=
        (bind_ok (topFrame_eq top)).trans (by rw [looked]; rfl)
      rw [left_bind_error missing]
      exact .refl _
    | ok v =>
      have found : topValue p = .ok v p := (bind_ok (topFrame_eq top)).trans (by rw [looked]; rfl)
      rw [left_bind_ok found]
      exact onward_jumpWhen top small (by simpa using leads) _
  | jumpTo => cases leads
  | raise =>
    show p.calls.Onward (left ((popObject >>= fun e => raise e (i.first != 0)) p)).calls
    cases ho : p.objects with
    | nil =>
      rw [left_bind_error (popObject_nil ho)]
      exact .refl _
    | cons e rest =>
      rw [left_bind_ok (popObject_eq ho)]
      exact onward_unwind e p.calls.depth _ none { p with objects := rest } forward
  | jumpException =>
    show p.calls.Onward (left ((topFrame >>= fun f =>
      if f.exception.isSome == (i.second != 0) then jump i else pure ()) p)).calls
    rw [left_bind_ok (topFrame_eq top)]
    exact onward_jumpWhen top small (by simpa using leads) _
  | exit => exact .refl _

/-- No instruction that leads on gives a frame farther to go, of those that are there. -/
theorem onward_execute (forward : p.Forward) (o : p.Ordered) (leads : i.leadsOn = true)
    (top : p.calls.top? = some f) (small : f.pc ≤ 2 ^ 63) {n : Nat} (there : n < p.calls.depth) :
    (left (execute i p)).calls.rest n ≤ p.calls.rest n := by
  by_cases inner : i.op = .control .invoke
  · rw [Process.execute_invoke inner]
    obtain ⟨-, -, same | ⟨g, -, added⟩⟩ := makeCall_cases p
    · rw [same]
    · rw [added, CallStack.rest_add there]
  refine (?_ : p.calls.Onward (left (execute i p)).calls) n
  by_cases blind : i.op.isBlind = true
  · exact (blind_execute blind).onward p
  · unfold execute
    cases hop : i.op with
    | control op =>
      exact onward_runControl forward o hop blind (fun same => inner (by rw [hop, same])) leads top
        small
    | argument op =>
      rw [hop] at blind
      cases op with
      | takeNamed => exact onward_takeNamed top small _ _
      | _ => exact absurd rfl blind
    | runtime op =>
      rw [hop] at blind
      cases op with
      | print => exact CallStack.onward_of_frames (congrArg CallStack.frames (calls_print _ p))
      | _ => exact absurd rfl blind
    | _ =>
      rw [hop] at blind
      exact absurd rfl blind

end Exec

end ObjectVM
