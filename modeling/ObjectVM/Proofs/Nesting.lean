import Mathlib.Logic.Relation
import ObjectVM.Proofs.Quiet

/-!
# Frames inside frames

The frame of an inner closure is linked to a frame of a closure around it. Compartments may name any
numbers as parents, also in a circle or of closures that are missing. Nevertheless every link leads
down the stack, to a frame of the same compartment whose closure is outward from the frame's own
(`Process.Nested`), because a new frame is linked to one that is there already and frames leave from
the top.

* `Process.LeadsTo.of_lexicalParent`: the frame that a new frame is linked to is such a one.
* `Edit.nested`: every edit keeps this.
* `Process.Reachable.nested`: so it holds of every process that requests lead to.
-/
namespace ObjectVM

/-- Whether the closure `outer` is said to be the parent of the closure `inner`. -/
def Compartment.HasParent (c : Compartment) (inner outer : UInt64) : Prop :=
  (c.closure? inner).bind (·.parent) = some outer

/-- Whether one comes from the closure `inner` to the closure `outer` by one parent or several. -/
abbrev Compartment.Outward (c : Compartment) : UInt64 → UInt64 → Prop :=
  Relation.TransGen c.HasParent

/-- At `k` there is a frame of the compartment of `ref`, of a closure outward from `ref`. -/
def Process.LeadsTo (p : Process) (ref : ClosureRef) (k : Nat) : Prop :=
  ∃ c g, p.compartments[ref.compartment.toNat]? = some c ∧ p.calls.frames[k]? = some g ∧
    g.closure.compartment = ref.compartment ∧ c.Outward ref.closure g.closure.closure

/-- Every link leads down, to a frame of a closure outward from that of the frame that is linked. -/
def Process.Nested (p : Process) : Prop :=
  ∀ n f k, p.calls.frames[n]? = some f → f.parent = some k → k < n ∧ p.LeadsTo f.closure k

/-! ## What a new frame is linked to -/

namespace CallStack

variable {s : CallStack} {ref : ClosureRef} {k n : Nat}

/-- What is found among the first frames is a frame of the closure that is looked for. -/
theorem frame_of_lastFrameOf (found : s.lastFrameOf ref n = some k) :
    ∃ g, s.frames[k]? = some g ∧ g.closure = ref := by
  induction n with
  | zero => cases found
  | succ n ih =>
    unfold lastFrameOf at found
    split at found
    · next here =>
      cases found
      obtain ⟨g, there, same⟩ := Option.any_eq_true _ _ |>.mp here
      exact ⟨g, there, eq_of_beq same⟩
    · exact ih found

theorem frame_of_frameOf? (found : s.frameOf? ref = some k) :
    ∃ g, s.frames[k]? = some g ∧ g.closure = ref := frame_of_lastFrameOf found

end CallStack

namespace Process

variable {p q : Process} {ref : ClosureRef} {k n : Nat}

/-- The closures that are tried are those from the first one outward. -/
theorem frame_of_nearestFrame {c : Compartment} {compartment : UInt64} {steps : Nat} :
    ∀ {parent : Option UInt64}, p.nearestFrame c compartment parent steps = some k →
      ∃ inner g, parent = some inner ∧ p.calls.frames[k]? = some g ∧
        g.closure.compartment = compartment ∧
          Relation.ReflTransGen c.HasParent inner g.closure.closure := by
  induction steps with
  | zero => rintro (_ | inner) found <;> cases found
  | succ steps ih =>
    rintro (_ | inner) found
    · cases found
    · unfold nearestFrame at found
      split at found
      · next index here =>
        cases found
        obtain ⟨g, there, same⟩ := CallStack.frame_of_frameOf? here
        refine ⟨inner, g, rfl, there, by rw [same], ?_⟩
        rw [same]
      · obtain ⟨outer, g, parent, there, same, outward⟩ := ih found
        exact ⟨inner, g, rfl, there, same, .head parent outward⟩

theorem LeadsTo.of_lexicalParent (linked : p.lexicalParent ref = .ok (some k)) :
    p.LeadsTo ref k := by
  unfold lexicalParent compartment at linked
  cases hc : p.compartments[ref.compartment.toNat]? with
  | none => rw [hc] at linked; cases linked
  | some c =>
    rw [hc] at linked
    replace linked : (c.closure ref.closure >>= fun closure =>
      .ok (p.nearestFrame c ref.compartment closure.parent c.closures.size)) = .ok (some k) :=
        linked
    unfold Compartment.closure at linked
    cases hcl : c.closure? ref.closure with
    | none => rw [hcl] at linked; cases linked
    | some cl =>
      rw [hcl] at linked
      obtain ⟨outer, g, parent, there, same, outward⟩ :=
        frame_of_nearestFrame (Except.ok.inj linked)
      have first : c.HasParent ref.closure outer := by
        unfold Compartment.HasParent
        rw [hcl]
        exact parent
      exact ⟨c, g, hc, there, same, .head' first outward⟩

/-! ## What is kept -/

/-- A frame on top leaves those below where they are. -/
theorem LeadsTo.add {f : Frame} (leads : p.LeadsTo ref k) :
    { p with calls := p.calls.add f }.LeadsTo ref k := by
  obtain ⟨c, g, hc, hg, same, outward⟩ := leads
  refine ⟨c, g, hc, ?_, same, outward⟩
  show (p.calls.frames.push f)[k]? = some g
  exact (Array.getElem?_push.trans (if_neg (Nat.ne_of_lt (CallStack.lt_depth hg)))).trans hg

namespace Nested

/-- Links stay where they lead to as long as compartments stay, and frames, if they stay, are of the
same closures and linked as before. -/
theorem transfer (o : p.Nested)
    (compartments : ∀ (m : Nat) (c : Compartment), p.compartments[m]? = some c →
      q.compartments[m]? = some c)
    (frames : ∀ (n : Nat) (f' : Frame), q.calls.frames[n]? = some f' →
      ∃ f, p.calls.frames[n]? = some f ∧ f'.closure = f.closure ∧ f'.parent = f.parent) :
    q.Nested := by
  intro n f' k hf' link
  obtain ⟨f, hf, closure, parent⟩ := frames n f' hf'
  obtain ⟨down, c, g, hc, hg, same, outward⟩ := o n f k hf (parent ▸ link)
  -- the frame that the link leads to is below one that stays
  obtain ⟨g', hg'⟩ := CallStack.exists_frame (Nat.lt_trans down (CallStack.lt_depth hf'))
  obtain ⟨g₀, hg₀, closure', -⟩ := frames k g' hg'
  rw [hg] at hg₀
  cases hg₀
  refine ⟨down, c, g', ?_, hg', ?_, ?_⟩
  · rw [closure]
    exact compartments _ c hc
  · rw [closure, closure']
    exact same
  · rw [closure, closure']
    exact outward

theorem keep (o : p.Nested) (compartments : q.compartments = p.compartments)
    (calls : q.calls = p.calls) : q.Nested :=
  o.transfer (fun _ _ hc => compartments ▸ hc) fun _ f hf => ⟨f, calls ▸ hf, rfl, rfl⟩

theorem of_empty (none : p.calls.frames = #[]) : p.Nested := fun n f k hf => by
  rw [none] at hf
  cases hf

theorem modify (o : p.Nested) (index : Nat) {g : Frame → Frame}
    (same : ∀ f, p.calls.frames[index]? = some f →
      (g f).closure = f.closure ∧ (g f).parent = f.parent) :
    { p with calls := p.calls.modify index g }.Nested := by
  refine o.transfer (fun _ _ hc => hc) fun n f' hf' => ?_
  replace hf' : (p.calls.frames.modify index g)[n]? = some f' := hf'
  rcases getElem?_modify_cases hf' with ⟨rfl, f, hf, rfl⟩ | hf'
  · exact ⟨f, hf, same f hf⟩
  · exact ⟨f', hf', rfl, rfl⟩

theorem setTop (o : p.Nested) {f f' : Frame} (top : p.calls.top? = some f) (on : f.GoesOn f') :
    { p with calls := p.calls.modifyTop fun _ => f' }.Nested := by
  refine o.modify _ fun g hg => ?_
  rw [CallStack.frame_of_top top] at hg
  cases hg
  exact ⟨on.closure, on.parent⟩

theorem dropTop (o : p.Nested) : { p with calls := p.calls.dropTop }.Nested :=
  o.transfer (fun _ _ hc => hc) fun _ f hf => ⟨f, getElem?_of_pop hf, rfl, rfl⟩

theorem afterReturn (o : p.Nested) (f : Frame) :
    { p with calls := p.calls.afterReturn f }.Nested := by
  unfold CallStack.afterReturn
  cases f.returnAddress with
  | none => exact o.dropTop
  | some address => exact o.dropTop.modify _ fun _ _ => ⟨rfl, rfl⟩

/-- A new frame is linked to one that is there already. -/
theorem call (o : p.Nested) {code : Code} {returnAddress parent : Option Nat}
    (outward : p.lexicalParent ref = .ok parent) :
    { p with calls := p.calls.add (.new ref code n returnAddress parent) }.Nested := by
  intro m f k hf link
  rcases CallStack.frame_add_cases hf with ⟨rfl, rfl⟩ | ⟨-, hf⟩
  · obtain rfl : parent = some k := link
    obtain ⟨c, g, hc, hg, outward⟩ := LeadsTo.of_lexicalParent outward
    exact ⟨CallStack.lt_depth hg, LeadsTo.add ⟨c, g, hc, hg, outward⟩⟩
  · obtain ⟨down, leads⟩ := o m f k hf link
    exact ⟨down, leads.add⟩

end Nested

end Process

theorem Edit.nested {p q : Process} (e : Edit p q) (o : p.Nested) : q.Nested := by
  cases e with
  | report | outcome | objects | object | allocate | value | attach | detach | stage | argue
    | collect => exact o.keep rfl rfl
  | frame top continues _ => exact o.setTop top continues.goesOn
  | interrupt top _ => exact o.setTop top (Frame.goesOn_interrupt _ _)
  | resume top _ resumed => exact o.setTop top (Frame.goesOn_resume resumed)
  | outer => exact o.modify _ fun _ _ => ⟨rfl, rfl⟩
  | call _ _ _ outward => exact o.call outward
  | leave => exact o.dropTop.keep rfl rfl
  | back => exact (o.afterReturn _).keep rfl rfl

theorem Edits.nested {p q : Process} (es : Edits p q) (o : p.Nested) : q.Nested := by
  induction es with
  | refl => exact o
  | tail _ e ih => exact e.nested ih

/-! ## Requests -/

namespace Process

variable {p q : Process} {may : Compartment → Prop} {i : Instruction}

/-- The first frame is linked to no other. -/
theorem Nested.start (o : p.Nested) : p.start.2.Nested := by
  rcases p.start_cases with same | ⟨-, -, none | ⟨m, entry, -, -, -, one⟩⟩
  · exact same.symm ▸ o
  · exact .of_empty none
  · intro n f k hf link
    rw [one] at hf
    obtain ⟨-, rfl⟩ := eq_of_singleton hf
    cases link

/-- A compartment more moves none of those that are there. -/
theorem Nested.load (o : p.Nested) (m : Compartment) : (p.load m).2.Nested := by
  refine o.transfer (fun n c hc => ?_) fun _ f hf => ⟨f, hf, rfl, rfl⟩
  show (p.compartments.push m)[n]? = some c
  have there := (Array.getElem?_eq_some_iff.mp hc).1
  rw [Array.getElem?_push, if_neg (Nat.ne_of_lt there)]
  exact hc

theorem Nested.after (o : p.Nested) (s : p.Sound) (r : Request) : (p.after r).Nested := by
  cases r with
  | load c => exact o.load c
  | start => exact o.start
  | run turns => exact (s.steps_run turns).edits.nested o
  | execute i => exact (s.steps_execute i).edits.nested o
  | deliver => exact s.steps_deliver.edits.nested o
  | handle sig => exact (s.steps_handle sig).edits.nested o
  | raise | setRule | setVector | redirect | collect => exact o.keep rfl rfl
  | reset | abandon => exact .of_empty rfl

theorem Reachable.nested (r : p.Reachable may) : p.Nested := by
  induction r with
  | new made => exact .of_empty (frames_of_new made)
  | after before r _ ih => exact ih.after before.sound r

theorem Executing.nested (x : p.Executing q i) (s : p.Sound) (o : p.Nested) : q.Nested :=
  (x.steps s).edits.nested o

end Process

end ObjectVM
