import Mathlib.Data.Nat.Find
import ObjectVM.Proofs.CallLinks

/-!
# Where an exception goes

The exception that an instruction raises goes to the innermost frame that catches it, and the frames
above that one leave with their invocations (`unwinds_exactly`). Every frame on the way, the one
that raises apart, has found the exception on the object stack once. Where no frame catches it, all
of them leave, and the call stack as it was is kept for the report. Nothing else changes, and
raising an exception is no fault.
-/
namespace ObjectVM

/-- The frame after it has caught `e` and is to go on at `target`. -/
def Frame.catching (f : Frame) (e : ObjectId) (target : Nat) : Frame :=
  { f with exception := some e, pc := target }

namespace Process

/-- The frame `f` at `j` catches what the running frame raises, at the first of its closure's catch
sites that covers where it is. A frame in which a signal vector runs is not asked, and the running
frame only if `search` is set. -/
structure Catches (p : Process) (search : Bool) (j : Nat) (f : Frame) (site : CatchSite) :
    Prop where
  frame : p.calls.frames[j]? = some f
  idle : f.suspended = []
  asked : j + 1 < p.calls.depth ∨ search = true
  first : ∃ c, p.resolve f.closure = .ok c ∧
    c.catchSites.find? (·.covers f.currentIndex) = some site

/-- The process after the frame `f` at `j` has caught `e` and goes on at `target`. -/
def caughtIn (p : Process) (e : ObjectId) (j : Nat) (f : Frame) (target : Nat) : Process :=
  { p with
    calls := { p.calls with frames := (p.calls.frames.shrink j).push (f.catching e target) }
    invocations := match p.calls.frames[j + 1]? with
      | some g => p.invocations.shrink g.invocation
      | none => p.invocations
    objects := List.replicate (p.calls.depth - 1 - j) e ++ p.objects }

/-- The process after no frame has caught `e`. -/
def caughtNowhere (p : Process) (e : ObjectId) (trace : Traceback) : Process :=
  { p with
    calls := p.calls.clear
    invocations := #[]
    objects := List.replicate (p.calls.depth - 1) e ++ p.objects
    halt := some (.uncaught e)
    uncaught := some trace }

/-- What `q` is when `e` has been raised in `p`, whose object stack is without it. -/
structure Unwinds (p : Process) (e : ObjectId) (search : Bool) (q : Process) : Prop where
  stores : q.heap = p.heap ∧ q.pool = p.pool
  caught : ∀ j f site, p.Catches search j f site →
    (∀ k g other, p.Catches search k g other → k ≤ j) →
      ∃ journal, q = { p.caughtIn e j f site.target with journal }
  uncaught : (∀ j f site, ¬ p.Catches search j f site) →
    ∃ journal, q = { p.caughtNowhere e p.fullTraceback with journal }

end Process

/-! ## One frame -/

namespace CallStack

variable {s : CallStack} {f : Frame}

theorem modifyTop_eq (top : s.top? = some f) (g : Frame → Frame) :
    s.modifyTop g = { s with frames := (s.frames.shrink (s.depth - 1)).push (g f) } := by
  have frame := frame_of_top top
  have size := (Array.getElem?_eq_some_iff.mp frame).1
  have shrunk : (s.frames.shrink (s.depth - 1)).size = s.depth - 1 := by
    rw [Array.size_shrink]
    exact Nat.min_eq_left (Nat.sub_le _ _)
  refine congrArg (mk · s.maxDepth) (Array.ext_getElem? fun n => ?_)
  rw [Array.getElem?_modify, Array.getElem?_push, getElem?_shrink, shrunk]
  rcases Nat.lt_trichotomy n (s.depth - 1) with lt | rfl | gt
  · rw [if_neg (Nat.ne_of_gt lt), if_neg (Nat.ne_of_lt lt), if_pos lt]
  · rw [if_pos rfl, if_pos rfl, frame]
    rfl
  · rw [if_neg (Nat.ne_of_lt gt), if_neg (Nat.ne_of_gt gt), if_neg (Nat.lt_asymm gt)]
    exact Array.getElem?_eq_none (by unfold depth at gt; omega)

theorem exists_top (some : 0 < s.depth) : ∃ f, s.top? = .some f :=
  ⟨_, Array.back?_eq_getElem?.trans (Array.getElem?_eq_getElem (Nat.sub_one_lt_of_lt some))⟩

theorem top?_modifyTop (top : s.top? = some f) (g : Frame → Frame) :
    (s.modifyTop g).top? = some (g f) := by
  rw [modifyTop_eq top]
  exact Array.back?_push

/-- To put the frame on top there again changes nothing. -/
theorem setTop_self (top : s.top? = some f) : (s.modifyTop fun _ => f) = s := by
  refine congrArg (CallStack.mk · s.maxDepth) (Array.ext_getElem? fun k => ?_)
  rw [Array.getElem?_modify]
  split
  · next last =>
    subst last
    rw [frame_of_top top]
    rfl
  · rfl

theorem modifyTop_modifyTop (s : CallStack) (g h : Frame → Frame) :
    (s.modifyTop g).modifyTop h = s.modifyTop (h ∘ g) := by
  refine congrArg (mk · s.maxDepth) (Array.ext_getElem? fun n => ?_)
  show ((s.frames.modify (s.depth - 1) g).modify ((s.frames.modify (s.depth - 1) g).size - 1) h)[n]?
    = (s.frames.modify (s.depth - 1) (h ∘ g))[n]?
  rw [Array.size_modify]
  simp only [Array.getElem?_modify]
  unfold depth
  split
  · rw [Option.map_map]
  · rfl

end CallStack

namespace Process

/-- The process after the exception `e` has come from the frame `f` on top to its caller. -/
def handedOn (p : Process) (e : ObjectId) (f : Frame) : Process :=
  { p with
    calls := p.calls.dropTop.modifyTop (·.setException (some e))
    invocations := p.invocations.shrink f.invocation
    objects := e :: p.objects }

variable {p : Process} {e : ObjectId} {search : Bool} {f g : Frame} {j : Nat} {site : CatchSite}

theorem depth_handedOn (p : Process) (e : ObjectId) (f : Frame) :
    (p.handedOn e f).calls.depth = p.calls.depth - 1 := by
  simp [handedOn, CallStack.depth, CallStack.modifyTop, CallStack.modify, CallStack.dropTop]

/-- Only the caller, which is the second frame from the top, has changed. -/
theorem frame_handedOn (p : Process) (e : ObjectId) (f : Frame) (n : Nat) :
    (p.handedOn e f).calls.frames[n]? =
      if n + 2 = p.calls.depth then p.calls.frames[n]?.map (·.setException (some e))
      else if n + 1 < p.calls.depth then p.calls.frames[n]? else none := by
  show (p.calls.frames.pop.modify (p.calls.frames.pop.size - 1) _)[n]? = _
  rw [Array.getElem?_modify, Array.getElem?_pop, Array.size_pop]
  unfold CallStack.depth
  split_ifs <;> first | rfl | omega

theorem Linked.handedOn (l : p.Linked) (e : ObjectId) (top : p.calls.top? = some f) :
    (p.handedOn e f).Linked := by
  have dropped := l.dropTop top
  have changed := dropped.modify (p.calls.dropTop.depth - 1) (g := (·.setException (some e)))
    fun f _ => ⟨rfl, rfl, rfl⟩
  exact changed.keep rfl rfl (Nat.le_refl _)

/-- If any frame catches an exception, there is a highest one that does. -/
theorem highest_or_none (p : Process) (search : Bool) :
    (∃ j f site, p.Catches search j f site ∧ ∀ k g other, p.Catches search k g other → k ≤ j) ∨
      ∀ j f site, ¬ p.Catches search j f site := by
  classical
  by_cases some : ∃ k g other, p.Catches search k g other
  · obtain ⟨k, g, other, c⟩ := some
    have bound : ∀ k g other, p.Catches search k g other → k ≤ p.calls.depth :=
      fun k g other c => Nat.le_of_lt (Array.getElem?_eq_some_iff.mp c.frame).1
    obtain ⟨f, site, highest⟩ := Nat.findGreatest_spec
      (P := fun j => ∃ f site, p.Catches search j f site) (bound k g other c) ⟨g, other, c⟩
    exact .inl ⟨_, f, site, highest, fun k g other c =>
      Nat.le_findGreatest (bound k g other c) ⟨g, other, c⟩⟩
  · exact .inr fun j f site c => some ⟨j, f, site, c⟩

/-- Catch sites resume inside the code that a frame runs when no signal vector does. -/
theorem Linked.target_lt (l : p.Linked) (c : p.Catches search j f site) :
    site.target < f.code.size := by
  obtain ⟨cl, resolves, first⟩ := c.first
  obtain ⟨cl', resolves', code⟩ := l.resolved j f c.frame
  rw [resolves] at resolves'; cases resolves'
  have own : f.ownCode = f.code := by rw [Frame.ownCode, c.idle]; rfl
  rw [← own, code]
  obtain ⟨comp, there, found⟩ := resolve_eq_ok_iff.mp resolves
  have mem := Compartment.mem_of_closure? found
  exact (l.loaded _ comp there).inside cl mem site (List.mem_of_find?_eq_some first)

/-- A frame below the one that an exception leaves catches it afterwards as before. -/
theorem Catches.handedOn (c : p.Catches search j g site) (below : j + 1 < p.calls.depth)
    (e : ObjectId) (f : Frame) : ∃ g', (p.handedOn e f).Catches true j g' site ∧
      ∀ target, g'.catching e target = g.catching e target := by
  have there := frame_handedOn p e f j
  rw [c.frame] at there
  by_cases caller : j + 2 = p.calls.depth
  · rw [if_pos caller] at there
    exact ⟨g.setException (some e), ⟨there, c.idle, .inr rfl, c.first⟩, fun _ => rfl⟩
  · rw [if_neg caller, if_pos below] at there
    exact ⟨g, ⟨there, c.idle, .inr rfl, c.first⟩, fun _ => rfl⟩

theorem Catches.of_handedOn (c : (p.handedOn e f).Catches true j g site) :
    j + 1 < p.calls.depth ∧ ∃ g₀, p.Catches search j g₀ site := by
  have there := (frame_handedOn p e f j).symm.trans c.frame
  by_cases caller : j + 2 = p.calls.depth
  · rw [if_pos caller] at there
    obtain ⟨g₀, frame, rfl⟩ := Option.map_eq_some_iff.mp there
    exact ⟨by omega, g₀, frame, c.idle, .inl (by omega), c.first⟩
  · rw [if_neg caller] at there
    split at there
    · next below => exact ⟨below, g, there, c.idle, .inl below, c.first⟩
    · cases there

/-- One exception more on the object stack, below those that the callers find. -/
theorem replicate_handedOn (n : Nat) (e : ObjectId) (ids : List ObjectId) :
    List.replicate n e ++ e :: ids = List.replicate (n + 1) e ++ ids := by
  rw [List.replicate_succ', List.append_assoc, List.singleton_append]

/-- The calls that go with the frames above `j` are the same, whether or not the frame on top has
left before. -/
theorem invocations_handedOn (l : p.Linked) (top : p.calls.top? = some f)
    (below : j + 1 < p.calls.depth) :
    (match (p.handedOn e f).calls.frames[j + 1]? with
      | some g => (p.handedOn e f).invocations.shrink g.invocation
      | none => (p.handedOn e f).invocations) =
      match p.calls.frames[j + 1]? with
        | some g => p.invocations.shrink g.invocation
        | none => p.invocations := by
  have last := CallStack.frame_of_top top
  rw [frame_handedOn]
  by_cases caller : j + 2 = p.calls.depth
  · rw [if_neg (by omega), if_neg (by omega), show j + 1 = p.calls.depth - 1 by omega, last]
    rfl
  · obtain ⟨g, hg⟩ : ∃ g, p.calls.frames[j + 1]? = some g := ⟨_, Array.getElem?_eq_getElem below⟩
    have rising := l.rising (j + 1) (p.calls.depth - 1) g f (by omega) hg last
    have shrunk : (p.invocations.shrink f.invocation).shrink g.invocation =
        p.invocations.shrink g.invocation := by
      refine Array.ext_getElem? fun n => ?_
      simp only [getElem?_shrink]
      split_ifs <;> first | rfl | omega
    rw [hg]
    split_ifs
    · exact shrunk
    · exact shrunk
    · omega

theorem caughtIn_handedOn (l : p.Linked) (top : p.calls.top? = some f)
    (below : j + 1 < p.calls.depth) {g g' : Frame} {target : Nat}
    (same : g'.catching e target = g.catching e target) :
    (p.handedOn e f).caughtIn e j g' target = p.caughtIn e j g target := by
  have frames : (p.handedOn e f).calls.frames.shrink j = p.calls.frames.shrink j := by
    refine Array.ext_getElem? fun n => ?_
    simp only [getElem?_shrink, frame_handedOn]
    split_ifs <;> first | rfl | omega
  have objects : List.replicate (p.calls.depth - 1 - 1 - j) e ++ e :: p.objects =
      List.replicate (p.calls.depth - 1 - j) e ++ p.objects := by
    rw [replicate_handedOn]
    congr 2
    omega
  unfold caughtIn
  rw [frames, same, invocations_handedOn l top below, depth_handedOn]
  show Process.mk .. = Process.mk ..
  congr 1

theorem caughtNowhere_handedOn (more : 1 < p.calls.depth) (trace : Traceback) :
    (p.handedOn e f).caughtNowhere e trace = p.caughtNowhere e trace := by
  have objects : List.replicate (p.calls.depth - 1 - 1) e ++ e :: p.objects =
      List.replicate (p.calls.depth - 1) e ++ p.objects := by
    rw [replicate_handedOn]
    congr 2
    omega
  unfold caughtNowhere
  rw [depth_handedOn]
  show Process.mk .. = Process.mk ..
  congr 1

end Process

namespace Exec

variable {p : Process} {e : ObjectId} {search : Bool} {f g : Frame} {j : Nat} {site : CatchSite}

/-- Where the frame on top goes on if it is asked. -/
theorem target_eq (l : p.Linked) (search : Bool) (top : p.calls.top? = some f) : ∃ target,
    (if search then catchTarget? f else pure none : Exec (Option Nat)) p = .ok target p ∧
      ∀ t, target = some t ↔
        ∃ site, p.Catches search (p.calls.depth - 1) f site ∧ site.target = t := by
  obtain ⟨c, resolves, -⟩ := l.resolved _ f (CallStack.frame_of_top top)
  have last : ¬ p.calls.depth - 1 + 1 < p.calls.depth := by omega
  by_cases asked : search = true ∧ f.suspended = []
  · obtain ⟨asked, idle⟩ := asked
    refine ⟨(c.catchSiteAt f.currentIndex).map (·.target), ?_, fun t => ?_⟩
    · rw [if_pos asked, catchTarget?, Frame.isInterrupted, idle]
      exact bind_ok (look_eq resolves)
    · rw [Option.map_eq_some_iff]
      refine exists_congr fun site => and_congr_left fun _ => ⟨fun first => ?_, fun catches => ?_⟩
      · exact ⟨CallStack.frame_of_top top, idle, .inr asked, c, resolves, first⟩
      · obtain ⟨c', resolves', first⟩ := catches.first
        rw [resolves] at resolves'; cases resolves'
        exact first
  · refine ⟨none, ?_, fun t => ⟨nofun, ?_⟩⟩
    · split
      · next h =>
        have interrupted : f.isInterrupted = true := by
          simpa [Frame.isInterrupted] using fun idle => asked ⟨h, idle⟩
        rw [catchTarget?, if_pos interrupted]
        rfl
      · rfl
    · rintro ⟨site, catches, -⟩
      exact absurd ⟨catches.asked.resolve_left last, catches.idle⟩ asked

theorem target_of_passes (l : p.Linked) (top : p.calls.top? = some f)
    (passes : ∀ site, ¬ p.Catches search (p.calls.depth - 1) f site) :
    (if search then catchTarget? f else pure none : Exec (Option Nat)) p = .ok none p := by
  obtain ⟨target, found, spec⟩ := target_eq l search top
  cases target with
  | none => exact found
  | some t =>
    obtain ⟨site, catches, -⟩ := (spec t).mp rfl
    exact absurd catches (passes site)

/-- An exception that the frame on top does not catch comes to its caller. -/
theorem unwind_pass (l : p.Linked) {trace : Option Traceback} {depth : Nat}
    (top : p.calls.top? = some f) (more : 1 < p.calls.depth)
    (passes : ∀ site, ¬ p.Catches search (p.calls.depth - 1) f site) :
    unwind e search trace (depth + 1) p =
      unwind e true (trace.or (some p.fullTraceback)) depth (p.handedOn e f) := by
  obtain ⟨caller, below⟩ := CallStack.exists_top (s := p.calls.dropTop) (by
    unfold CallStack.depth CallStack.dropTop at *
    rw [Array.size_pop]
    omega)
  have found := target_of_passes l top passes
  have same : p.calls.dropTop.modifyTop (fun _ => caller.setException (some e)) =
      p.calls.dropTop.modifyTop (·.setException (some e)) :=
    (CallStack.modifyTop_eq below _).trans
      (CallStack.modifyTop_eq below (·.setException (some e))).symm
  rw [unwind_succ, bind_ok (topFrame_eq top), bind_ok found]
  refine (bind_ok (popFrame_eq top)).trans ?_
  refine (bind_ok rfl).trans ?_
  simp only [below]
  unfold Process.handedOn
  rw [← same]
  rfl

/-- An exception that the frame on top catches has come to its end. -/
theorem unwind_caught_top (l : p.Linked) {trace : Option Traceback} {depth : Nat}
    (catches : p.Catches search (p.calls.depth - 1) f site) :
    ∃ journal, unwind e search trace (depth + 1) p =
      .ok () { p.caughtIn e (p.calls.depth - 1) f site.target with journal } := by
  have top : p.calls.top? = some f := by
    rw [CallStack.top?, Array.back?_eq_getElem?]
    exact catches.frame
  obtain ⟨target, found, spec⟩ := target_eq l search top
  obtain rfl := (spec site.target).mpr ⟨site, catches, rfl⟩
  have inside : (f.setException (some e)).goTo site.target = .ok (f.catching e site.target) := by
    have bound := l.target_lt catches
    unfold Frame.goTo
    rw [if_pos (show site.target < (f.setException (some e)).code.size from bound)]
    rfl
  have handled : handOver e trace depth f (some site.target) p = .ok () ({ p with
      calls := p.calls.modifyTop fun _ => f.catching e site.target }.note
        (.caught e f.closure site.target)) := by
    refine (bind_ok rfl).trans ?_
    refine (bind_ok (updateFrame_eq (CallStack.top?_modifyTop top _) inside)).trans ?_
    rw [CallStack.modifyTop_modifyTop]
    rfl
  rw [unwind_succ, bind_ok (topFrame_eq top), bind_ok found, handled, CallStack.modifyTop_eq top]
  refine ⟨p.journal.record (.caught e f.closure site.target), ?_⟩
  have size := (Array.getElem?_eq_some_iff.mp catches.frame).1
  have above : p.calls.frames[p.calls.depth - 1 + 1]? = none :=
    Array.getElem?_eq_none (by unfold CallStack.depth at *; omega)
  unfold Process.caughtIn
  rw [above, Nat.sub_self]
  rfl

/-- An exception that the only frame does not catch is caught nowhere. -/
theorem unwind_last (l : p.Linked) {trace : Option Traceback} {depth : Nat}
    (only : p.calls.depth = 1) (passes : ∀ j f site, ¬ p.Catches search j f site) :
    ∃ journal, unwind e search trace (depth + 1) p =
      .ok () { p.caughtNowhere e (trace.getD p.fullTraceback) with journal } := by
  obtain ⟨f, top⟩ := CallStack.exists_top (s := p.calls) (by omega)
  have empty : p.calls.dropTop = p.calls.clear := by
    refine congrArg (CallStack.mk · p.calls.maxDepth) (Array.eq_empty_of_size_eq_zero ?_)
    rw [Array.size_pop]
    unfold CallStack.depth at only
    omega
  have found := target_of_passes l top (passes _ f)
  have bottom := CallStack.frame_of_top top
  rw [only] at bottom
  rw [unwind_succ, bind_ok (topFrame_eq top), bind_ok found]
  refine ⟨p.journal.record (.uncaught e), ?_⟩
  refine (bind_ok (popFrame_eq top)).trans ?_
  refine (bind_ok rfl).trans ?_
  have shrunk : p.invocations.shrink f.invocation = #[] := by
    rw [l.first f bottom]
    exact Array.eq_empty_of_size_eq_zero (by rw [Array.size_shrink, Nat.zero_min])
  have kept : trace.or (some p.fullTraceback) = some (trace.getD p.fullTraceback) := by
    cases trace <;> rfl
  simp only [empty, shrunk]
  unfold Process.caughtNowhere
  rw [only]
  show EStateM.Result.ok () _ = _
  rw [← kept]
  rfl

/-! ## All frames -/

/-- An exception comes from frame to frame until it has come to the one that catches it. -/
theorem unwind_caught (depth : Nat) : ∀ {p : Process} {search : Bool} (trace : Option Traceback)
    {f : Frame}, p.Linked → p.calls.depth = depth → p.Catches search j f site →
      (∀ k g other, p.Catches search k g other → k ≤ j) →
        ∃ journal, unwind e search trace depth p =
          .ok () { p.caughtIn e j f site.target with journal } := by
  induction depth with
  | zero =>
    intro p search trace f _ depth catches _
    have := (Array.getElem?_eq_some_iff.mp catches.frame).1
    exact absurd depth (Nat.ne_of_gt (Nat.zero_lt_of_lt this))
  | succ depth ih =>
    intro p search trace f l hd catches highest
    have lt : j < p.calls.depth := (Array.getElem?_eq_some_iff.mp catches.frame).1
    by_cases here : j = p.calls.depth - 1
    · subst here
      exact unwind_caught_top l catches
    · have below : j + 1 < p.calls.depth := by omega
      obtain ⟨top, htop⟩ := CallStack.exists_top (s := p.calls) (by omega)
      have passes : ∀ other, ¬ p.Catches search (p.calls.depth - 1) top other := fun other c => by
        have := highest _ _ other c
        omega
      obtain ⟨f', catches', same⟩ := catches.handedOn below e top
      obtain ⟨journal, run⟩ := ih (trace.or (some p.fullTraceback)) (l.handedOn e htop)
        (by rw [Process.depth_handedOn, hd]; rfl) catches' fun k g other c => by
          obtain ⟨-, g', c⟩ := c.of_handedOn
          exact highest k g' other c
      refine ⟨journal, ?_⟩
      rw [unwind_pass l htop (by omega) passes, run,
        Process.caughtIn_handedOn l htop below (same site.target)]

/-- An exception that no frame catches leaves them all. -/
theorem unwind_uncaught (depth : Nat) : ∀ {p : Process} {search : Bool} (trace : Option Traceback),
    p.Linked → p.calls.depth = depth + 1 → (∀ j f site, ¬ p.Catches search j f site) →
      ∃ journal, unwind e search trace (depth + 1) p =
        .ok () { p.caughtNowhere e (trace.getD p.fullTraceback) with journal } := by
  induction depth with
  | zero =>
    intro p search trace l only passes
    exact unwind_last l only passes
  | succ depth ih =>
    intro p search trace l hd passes
    obtain ⟨top, htop⟩ := CallStack.exists_top (s := p.calls) (by omega)
    obtain ⟨journal, run⟩ := ih (trace.or (some p.fullTraceback)) (l.handedOn e htop)
      (by rw [Process.depth_handedOn, hd]; rfl) fun j f site c => by
        obtain ⟨-, g, c⟩ := c.of_handedOn
        exact passes j g site c
    have kept : (trace.or (some p.fullTraceback)).getD (p.handedOn e top).fullTraceback =
        trace.getD p.fullTraceback := by cases trace <;> rfl
    refine ⟨journal, ?_⟩
    rw [unwind_pass l htop (by omega) (passes _ top), run, kept,
      Process.caughtNowhere_handedOn (by omega)]

/-- Raising an exception comes to an end, where `Unwinds` says. -/
theorem unwind_exact (l : p.Linked) (running : 0 < p.calls.depth) :
    ∃ q, unwind e search none p.calls.depth p = .ok () q ∧ p.Unwinds e search q := by
  have ended : ∃ q, unwind e search none p.calls.depth p = .ok () q ∧
      q.heap = p.heap ∧ q.pool = p.pool := by
    rcases p.highest_or_none search with ⟨j, f, site, c, highest⟩ | passes
    · obtain ⟨journal, run⟩ := unwind_caught (e := e) _ none l rfl c highest
      exact ⟨_, run, rfl, rfl⟩
    · obtain ⟨depth, hd⟩ := Nat.exists_eq_add_one_of_ne_zero (Nat.ne_of_gt running)
      obtain ⟨journal, run⟩ := unwind_uncaught (e := e) depth none l hd passes
      rw [hd]
      exact ⟨_, run, rfl, rfl⟩
  obtain ⟨q, run, stores⟩ := ended
  refine ⟨q, run, stores, fun j f site c highest => ?_, fun passes => ?_⟩
  · obtain ⟨journal, run'⟩ := unwind_caught (e := e) _ none l rfl c highest
    rw [run] at run'
    exact ⟨journal, (EStateM.Result.ok.inj run').2⟩
  · obtain ⟨depth, hd⟩ := Nat.exists_eq_add_one_of_ne_zero (Nat.ne_of_gt running)
    obtain ⟨journal, run'⟩ := unwind_uncaught (e := e) depth none l hd passes
    rw [← hd, run] at run'
    exact ⟨journal, (EStateM.Result.ok.inj run').2⟩

end Exec

/-- Raising an exception in a process of loaded programs is no fault, and takes the process to where
the innermost frame that catches the exception goes on, or to its end. -/
theorem unwinds_exactly {p q : Process} {i : Instruction} {e : ObjectId} {rest : List ObjectId}
    (r : p.Reachable Compartment.Loaded) (x : p.Executing q i) (raises : i.op = .control .raise)
    (running : 0 < q.calls.depth) (operand : q.objects = e :: rest) :
    ∃ t, Exec.execute i q = .ok () t ∧
      { q with objects := rest }.Unwinds e (i.first != 0) t := by
  have l : { q with objects := rest }.Linked :=
    (x.linked r.sound r.linked).keep rfl rfl (Nat.le_refl _)
  have run : Exec.execute i q =
      Exec.unwind e (i.first != 0) none q.calls.depth { q with objects := rest } := by
    have popped : Exec.popObject q = .ok e { q with objects := rest } := Exec.popObject_eq operand
    unfold Exec.execute
    rw [raises]
    exact Exec.bind_ok popped
  rw [run]
  exact Exec.unwind_exact l running

/-- A stored program that calls a closure which calls another, and catches what happens there. -/
def storedChain : Container :=
  let calling (closure : UInt64) : List InstructionRecord :=
    [.ofInstruction (.ofOp (.object .new)), .ofInstruction ⟨.object .setClosure, closure, 0⟩,
      .ofInstruction (.ofOp (.control .stage)), .ofInstruction (.ofOp (.control .invoke))]
  { Container.new "chain" with
    closures :=
      [⟨Compartment.mainName, 0, none,
          calling 1 ++ [.ofInstruction (.ofOp (.control .loadException))], [],
          [⟨0, 2, 3⟩, ⟨3, 3, 4⟩]⟩,
        ⟨"middle", 1, none, calling 2, [], []⟩,
        ⟨"inner", 2, none, [.ofInstruction (.ofOp (.object .new))], [], []⟩] }

/-- The stored program, loaded. -/
def chain : Compartment := ((Compartment.ofContainer storedChain).toOption).getD (.new "")

theorem chain_loaded : chain.Loaded := Compartment.loaded_of_accepted (by decide +kernel)

theorem unwinds_exactly_chain :
    (Process.ranFor chain 9).calls.depth = 3 ∧
    (Process.ranFor chain 9).objects = [⟨2, 0⟩, ⟨1, 0⟩, ⟨0, 0⟩] ∧
    ((Process.ranFor chain 9).after (.execute (.ofOp (.control .raise)))).objects =
      [⟨2, 0⟩, ⟨2, 0⟩, ⟨1, 0⟩, ⟨0, 0⟩] ∧
    ∃ t, Exec.execute (.ofOp (.control .raise)) (Process.ranFor chain 9) = .ok () t ∧
      { Process.ranFor chain 9 with objects := [⟨1, 0⟩, ⟨0, 0⟩] }.Unwinds ⟨2, 0⟩ false t := by
  have objects : (Process.ranFor chain 9).objects = [⟨2, 0⟩, ⟨1, 0⟩, ⟨0, 0⟩] := by
    decide +kernel
  have running : (Process.ranFor chain 9).calls.depth = 3 := by decide +kernel
  exact ⟨running, objects, by decide +kernel,
    unwinds_exactly (Process.reachable_ranFor chain_loaded 9) (.asked _) rfl
      (by rw [running]; decide) objects⟩

end ObjectVM
