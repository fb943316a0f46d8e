import ObjectVM.Proofs.Drafts
import ObjectVM.Proofs.EvaluationStack
import ObjectVM.Proofs.Onward

/-!
# Where labels lead

A builder counts the offset of a jump from the jump itself, and so does the machine, whose counter
is behind the jump by then and whose arithmetic is that of 64-bit words. In code of fewer than
`2 ^ 63` instructions, as in any that fits into memory, the two agree (`Frame.jump_forward`), so a
jump that is taken leads to where its label was bound, whatever else has been built before, between
and after (`labels_lead`).

A label may be bound where the code ends. There is no instruction to go to then: to take the jump is
a fault, which leaves the counter behind the jump.
-/
namespace ObjectVM

/-- Whether a frame takes a jump, if it can tell. -/
def ForwardJump.taken (j : ForwardJump) (f : Frame) : Except Fault Bool :=
  match j with
  | .always => .ok true
  | .whenTrue => f.topValue.map Value.isTruthy
  | .onException whenSet => .ok (f.exception.isSome == whenSet)

/-! ## Offsets and addresses -/

theorem signedWord_ofNat {n : Nat} (small : n < 2 ^ 63) : signedWord (.ofNat n) = n := by
  unfold signedWord
  rw [UInt64.toInt64_ofNat']
  exact Int64.toInt_ofNat_of_lt small

theorem signed64_ofNat {n : Nat} (small : n < 2 ^ 63) : signed64 n = n := by
  unfold signed64 Int.bmod
  simp only [UInt64.size]
  omega

namespace Frame

variable {f : Frame} {index target : Nat}

/-- The offset from a jump to its target is met by the counter behind the jump. -/
theorem jump_forward (pc : f.pc = index + 1) (forward : index ≤ target)
    (small : target < 2 ^ 63) : f.jump (signedWord (.ofNat (target - index))) = f.goTo target := by
  have offset := signedWord_ofNat (n := target - index) (by omega)
  have meets : (f.currentIndex : Int) + ↑(target - index) = target := by
    unfold currentIndex
    omega
  unfold jump
  dsimp only
  rw [offset, meets, signed64_ofNat small, if_neg (by omega), Int.toNat_natCast]

theorem goTo_of_lt (inside : target < f.code.size) : f.goTo target = .ok { f with pc := target } :=
  if_pos inside

theorem goTo_size (small : f.code.size < 2 ^ 63) :
    f.goTo f.code.size = .error (.invalidAddress f.code.size) := by
  unfold goTo
  rw [if_neg (Nat.lt_irrefl _), signed64_ofNat small]

end Frame

/-! ## Jumps that are executed -/

namespace Process

/-- The running frame has an instruction of some code before it. -/
structure Faces (p : Process) (f : Frame) (code : Code) (index : Nat) : Prop where
  top : p.calls.top? = some f
  code : f.code = code
  pc : f.pc = index

/-- The process with the counter of its running frame at an index. -/
def standing (p : Process) (f : Frame) (index : Nat) : Process :=
  { p with calls := p.calls.modifyTop fun _ => { f with pc := index } }

/-- What comes of the next instruction, which is a jump to a target. Either the code goes on at the
target or it ends there. -/
structure Leads (p : Process) (f : Frame) (i : Instruction) (j : ForwardJump) (target : Nat)
    (goesOn : Prop) : Prop where
  next : p.next? = some i
  fetched : p.fetched.calls.top? = some { f with pc := f.pc + 1 }
  lands : j.taken f = .ok true → goesOn →
    Exec.execute i p.fetched = .ok () (p.fetched.standing f target)
  refused : j.taken f = .ok true → ¬ goesOn →
    Exec.execute i p.fetched = .error (.invalidAddress f.code.size) p.fetched
  passed : j.taken f = .ok false → Exec.execute i p.fetched = .ok () p.fetched
  fails : ∀ fault, j.taken f = .error fault → Exec.execute i p.fetched = .error fault p.fetched

end Process

namespace Exec

variable {p : Process} {f f' : Frame} {j : ForwardJump} {index target : Nat}

theorem updateFrame_error {g : Frame → Except Fault Frame} {fault : Fault}
    (top : p.calls.top? = some f) (failed : g f = .error fault) :
    updateFrame g p = .error fault p := by
  refine (bind_ok (topFrame_eq top)).trans ?_
  rw [failed]
  rfl

/-- A jump forward is made under its condition. -/
theorem execute_forward (top : p.calls.top? = some f) (offset : UInt64) :
    execute (j.instruction offset) p =
      (lift (j.taken f) >>= fun taken =>
        if taken then jump (j.instruction offset) else pure ()) p := by
  cases j with
  | always => rfl
  | whenTrue =>
    show (topValue >>= fun v => if v.isTruthy then jump _ else pure ()) p = _
    have looked : topValue p = lift f.topValue p := bind_ok (topFrame_eq top)
    unfold ForwardJump.taken
    cases value : f.topValue with
    | ok v =>
      rw [value] at looked
      exact bind_ok looked
    | error fault =>
      rw [value] at looked
      exact bind_error looked
  | onException whenSet =>
    refine (bind_ok (topFrame_eq top)).trans ?_
    cases whenSet <;> rfl

theorem jump_forward (top : p.calls.top? = some f) (pc : f.pc = index + 1)
    (forward : index ≤ target) (small : target < 2 ^ 63) (inside : target < f.code.size) :
    jump (j.instruction (.ofNat (target - index))) p = .ok () (p.standing f target) :=
  updateFrame_eq top ((Frame.jump_forward pc forward small).trans (Frame.goTo_of_lt inside))

theorem jump_to_end (top : p.calls.top? = some f) (pc : f.pc = index + 1)
    (forward : index ≤ f.code.size) (small : f.code.size < 2 ^ 63) :
    jump (j.instruction (.ofNat (f.code.size - index))) p =
      .error (.invalidAddress f.code.size) p :=
  updateFrame_error top ((Frame.jump_forward pc forward small).trans (Frame.goTo_size small))

/-- What comes of a jump, by where its target is. -/
theorem leads_of_faces {code : Code} (faces : p.Faces f code index)
    (there : code[index]? = some (j.instruction (.ofNat (target - index))))
    (forward : index ≤ target) (within : target ≤ code.size) (small : code.size < 2 ^ 63) :
    p.Leads f (j.instruction (.ofNat (target - index))) j target (target < code.size) := by
  obtain ⟨top, rfl, rfl⟩ := faces
  have fetched := Process.top?_fetched top there
  -- the condition is that of the frame before its counter moved on
  have executed : execute (j.instruction (.ofNat (target - f.pc))) p.fetched = (lift (j.taken f) >>=
      fun taken => if taken then jump (j.instruction (.ofNat (target - f.pc))) else pure ())
        p.fetched := execute_forward fetched _
  refine ⟨Process.next?_eq_some_iff.mpr ⟨f, top, there⟩, fetched, fun taken inside => ?_,
    fun taken ends => ?_, fun taken => ?_, fun fault failed => ?_⟩
  · rw [executed, taken]
    have landed := jump_forward (j := j) fetched rfl forward (Nat.lt_trans inside small) inside
    exact landed
  · obtain rfl := Nat.le_antisymm within (Nat.le_of_not_lt ends)
    rw [executed, taken]
    have refused := jump_to_end (j := j) fetched rfl forward small
    exact refused
  · rw [executed, taken]
    rfl
  · rw [executed, failed]
    rfl

/-- A jump back goes to the instruction that it names. -/
theorem loops_of_faces {code : Code} {address : UInt64} (faces : p.Faces f code index)
    (there : code[index]? = some ⟨.control .jumpTo, address, 0⟩)
    (inside : address.toNat < code.size) :
    p.next? = some ⟨.control .jumpTo, address, 0⟩ ∧
      execute ⟨.control .jumpTo, address, 0⟩ p.fetched =
        .ok () (p.fetched.standing f address.toNat) := by
  obtain ⟨top, rfl, rfl⟩ := faces
  exact ⟨Process.next?_eq_some_iff.mpr ⟨f, top, there⟩,
    updateFrame_eq (Process.top?_fetched top there) (Frame.goTo_of_lt inside)⟩

end Exec

/-! ## Code that has been built -/

namespace Draft

/-- What becomes of the labels in the code that calls on a builder make. -/
structure LabelsLead (calls : List BuilderCall) : Prop where
  /-- A label is of an earlier jump. To bind it changes that jump's first operand only. -/
  binds : ∀ before l after, calls = before ++ .bind l :: after →
    ∃ earlier j later, before = earlier ++ .jump j :: later ∧ l.index = (built earlier).size ∧
      (built before)[l.index]? = some (j.instruction 0) ∧
      ∀ n : Nat, (built (before ++ [.bind l]))[n]? =
        if n = l.index then some (j.instruction (.ofNat ((built before).size - l.index)))
        else (built before)[n]?
  /-- A jump leads to where its label was bound, if an instruction was added there. -/
  jumps : ∀ before j between l after,
    calls = before ++ .jump j :: (between ++ .bind l :: after) → l.index = (built before).size →
    ∀ p f, Process.Faces p f (built calls) l.index → ∃ i,
      p.Leads f i j (built (before ++ .jump j :: between)).size (∃ c ∈ after, c.emits = true)
  /-- A jump back leads to any instruction that there is in the end. -/
  loops : ∀ before target after, calls = before ++ .loopTo target :: after →
    target.toNat < (built calls).size →
    ∀ p f, Process.Faces p f (built calls) (built before).size → ∃ i, p.next? = some i ∧
      Exec.execute i p.fetched = .ok () (p.fetched.standing f target.toNat)

variable {before after : List BuilderCall} {l : Label}

/-- Something stands where a label was bound if and only if something was added afterwards. -/
theorem size_lt_built_iff : (built before).size < (built (before ++ .bind l :: after)).size ↔
    ∃ c ∈ after, c.emits = true := by
  have count : (BuilderCall.bind l :: after).countP (·.emits) = after.countP (·.emits) :=
    List.countP_cons_of_neg Bool.false_ne_true
  have some : 0 < after.countP (·.emits) ↔ ∃ c ∈ after, c.emits = true := List.countP_pos_iff
  rw [size_built, count, ← some]
  omega

theorem size_le_built (cs cs' : List BuilderCall) :
    (built cs).size ≤ (built (cs ++ cs')).size := by
  rw [size_built]
  exact Nat.le_add_right _ _

/-- In whatever order labels are bound, and whatever is built between, each jump leads to where its
label was bound. -/
theorem labels_lead {calls : List BuilderCall} (allowed : new.allowsAll calls = true)
    (small : (built calls).size < 2 ^ 63) : LabelsLead calls where
  binds := by
    rintro before l after rfl
    have first : new.allowsAll (before ++ [.bind l]) = true := by
      rw [← List.singleton_append, ← List.append_assoc, allowsAll_append] at allowed
      exact (Bool.and_eq_true_iff.mp allowed).1
    obtain ⟨earlier, j, later, whole, rfl, there, changed⟩ := built_bind first
    exact ⟨earlier, j, later, whole, rfl, there, changed⟩
  jumps := by
    rintro before j between l after rfl index p f faces
    have there := built_of_bound index allowed
    have whole : before ++ .jump j :: (between ++ .bind l :: after) =
        (before ++ .jump j :: between) ++ .bind l :: after := by simp
    rw [whole] at faces there small
    have forward := index ▸ size_le_built before (.jump j :: between)
    have leads := Exec.leads_of_faces faces there forward (size_le_built _ _) small
    rw [size_lt_built_iff] at leads
    exact ⟨_, leads⟩
  loops := by
    rintro before target after rfl inside p f faces
    exact ⟨_, Exec.loops_of_faces faces (built_of_loop allowed) inside⟩

end Draft

/-- Two jumps across each other, with a jump back between them and the second label at the end. -/
def crossing : List BuilderCall :=
  [.jump .always, .jump .whenTrue, .emit (.constant .bool) 0 0, .bind ⟨0⟩,
    .emit (.constant .bool) 1 0, .loopTo 1, .bind ⟨1⟩]

/-- A program made of them. -/
def crossed : Compartment :=
  (Compartment.new "crossed").withClosures
    #[.new Compartment.mainName 0 none (Draft.built crossing)]

/-- Its frame at an instruction. -/
def crossedFrame (pc : Nat) (values : List Value) : Frame :=
  { Frame.new ⟨0, 0⟩ (Draft.built crossing) 0 none none with pc, values }

theorem labels_lead_crossing :
    Draft.new.allowsAll crossing = true ∧ (Draft.built crossing).size < 2 ^ 63 ∧ ∃ i j k,
    (Process.ranFor crossed 0).next? = some i ∧
    Exec.execute i (Process.ranFor crossed 0).fetched =
      .ok () ((Process.ranFor crossed 0).fetched.standing (crossedFrame 0 []) 3) ∧
    (Process.ranFor crossed 2).next? = some j ∧
    Exec.execute j (Process.ranFor crossed 2).fetched =
      .ok () ((Process.ranFor crossed 2).fetched.standing (crossedFrame 4 [.bool true]) 1) ∧
    (Process.ranFor crossed 3).next? = some k ∧
    Exec.execute k (Process.ranFor crossed 3).fetched =
      .error (.invalidAddress 5) (Process.ranFor crossed 3).fetched := by
  have allowed : Draft.new.allowsAll crossing = true := by decide
  have small : (Draft.built crossing).size < 2 ^ 63 := by decide
  have lead := Draft.labels_lead allowed small
  obtain ⟨i, across⟩ := lead.jumps [] .always (crossing.drop 1 |>.take 2) ⟨0⟩ (crossing.drop 4)
    rfl rfl (Process.ranFor crossed 0) (crossedFrame 0 []) ⟨by decide +kernel, rfl, rfl⟩
  obtain ⟨j, next, back⟩ := lead.loops (crossing.take 5) 1 [.bind ⟨1⟩] rfl (by decide)
    (Process.ranFor crossed 2) (crossedFrame 4 [.bool true]) ⟨by decide +kernel, rfl, rfl⟩
  obtain ⟨k, last⟩ := lead.jumps [.jump .always] .whenTrue (crossing.drop 2 |>.take 4) ⟨1⟩ []
    rfl rfl (Process.ranFor crossed 3) (crossedFrame 1 [.bool true])
    ⟨by decide +kernel, rfl, rfl⟩
  exact ⟨allowed, small, i, j, k, across.next, across.lands rfl (by decide), next, back,
    last.next, last.refused rfl (by decide)⟩

end ObjectVM
