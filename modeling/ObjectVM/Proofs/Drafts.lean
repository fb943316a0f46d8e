import Mathlib.Data.List.Induction
import Mathlib.Data.List.Nodup
import ObjectVM.Code.Builder

/-!
# Labels while code is built

A jump forward leaves a label, and each label is bound once, in any order and with any other calls
on the builder between (`Draft.allowsAll`). An instruction that is there changes only where its
label is bound (`call_cases`), so a jump waits unchanged until then and never changes again
(`Sound.open_calls`, `closed_calls`).

* `built_bind`: to bind a label sets the offset of the jump that has left it, and no more.
* `built_of_bound`: what has become of a jump when all the code is built.
-/
namespace ObjectVM

/-- A jump forward, whose label is bound later. -/
inductive ForwardJump where
  | always
  | whenTrue
  | onException (whenSet : Bool)
  deriving DecidableEq, Repr

namespace ForwardJump

/-- The opcode of the jump. -/
def op : ForwardJump → ControlOp
  | .always => .jump
  | .whenTrue => .jumpIf
  | .onException _ => .jumpException

/-- The second operand, which says whether an exception has to be stored or none. -/
def operand : ForwardJump → UInt64
  | .always | .whenTrue => 0
  | .onException whenSet => if whenSet then 1 else 0

/-- The jump with an offset. -/
def instruction (j : ForwardJump) (offset : UInt64) : Instruction :=
  ⟨.control j.op, offset, j.operand⟩

end ForwardJump

/-- Adds a jump forward. -/
def Builder.add (b : Builder) : ForwardJump → Label × Builder
  | .always => b.jump
  | .whenTrue => b.jumpIf
  | .onException whenSet => b.jumpException whenSet

/-- What can be asked of a builder. -/
inductive BuilderCall where
  | emit (op : Op) (first second : UInt64)
  | jump (j : ForwardJump)
  | bind (label : Label)
  | loopTo (target : UInt64)
  deriving DecidableEq, Repr

/-- Whether the call adds an instruction. -/
def BuilderCall.emits : BuilderCall → Bool
  | .bind _ => false
  | _ => true

/-- Code under construction, and the labels that are not bound yet. -/
structure Draft where
  builder : Builder
  labels : List Label
  deriving DecidableEq, Repr

namespace Draft

/-- No code and no labels. -/
def new : Draft := ⟨.empty, []⟩

/-- The draft after one call. -/
def call (d : Draft) : BuilderCall → Draft
  | .emit op first second => { d with builder := d.builder.emit op first second }
  | .jump j => ⟨(d.builder.add j).2, (d.builder.add j).1 :: d.labels⟩
  | .bind l => ⟨d.builder.bind l, d.labels.erase l⟩
  | .loopTo target => { d with builder := d.builder.loopTo target }

/-- The draft after calls one after another. -/
def calls (d : Draft) (cs : List BuilderCall) : Draft := cs.foldl call d

/-- The code that calls make from the start. -/
def built (cs : List BuilderCall) : Code := (new.calls cs).builder.code

/-- Whether a call can be made: only labels that are left and not bound yet are bound. -/
def allows (d : Draft) : BuilderCall → Bool
  | .bind l => d.labels.contains l
  | _ => true

/-- Whether each call can be made when its turn comes. -/
def allowsAll (d : Draft) : List BuilderCall → Bool
  | [] => true
  | c :: cs => d.allows c && (d.call c).allowsAll cs

/-- Labels that are not bound are of jumps that are there, each of another one. -/
structure Sound (d : Draft) : Prop where
  inside : ∀ l ∈ d.labels, l.index < d.builder.next
  distinct : d.labels.Nodup

end Draft

/-! ## One call -/

theorem Builder.add_eq (b : Builder) (j : ForwardJump) :
    b.add j = (⟨b.next⟩, ⟨b.code.push (j.instruction 0)⟩) := by
  cases j <;> rfl

namespace Draft

variable {d : Draft} {c : BuilderCall} {cs : List BuilderCall} {l : Label} {k : Nat}

theorem call_jump (d : Draft) (j : ForwardJump) :
    d.call (.jump j) =
      ⟨⟨d.builder.code.push (j.instruction 0)⟩, ⟨d.builder.next⟩ :: d.labels⟩ := by
  rw [call, Builder.add_eq]

theorem calls_append (d : Draft) (cs cs' : List BuilderCall) :
    d.calls (cs ++ cs') = (d.calls cs).calls cs' := List.foldl_append

theorem allowsAll_append (cs cs' : List BuilderCall) : ∀ d : Draft,
    d.allowsAll (cs ++ cs') = (d.allowsAll cs && (d.calls cs).allowsAll cs') := by
  induction cs with
  | nil => exact fun d => (Bool.true_and _).symm
  | cons c cs ih =>
    intro d
    rw [List.cons_append, allowsAll, allowsAll, ih, Bool.and_assoc]
    rfl

theorem mem_of_allows_bind (allowed : d.allows (.bind l) = true) : l ∈ d.labels :=
  List.contains_iff_mem.mp allowed

theorem next_call (d : Draft) (c : BuilderCall) :
    (d.call c).builder.next = d.builder.next + if c.emits then 1 else 0 := by
  cases c with
  | emit op first second => exact Array.size_push _
  | jump j => rw [call_jump]; exact Array.size_push _
  | bind l => exact Array.size_modify
  | loopTo target => exact Array.size_push _

/-- Code grows by one instruction with each call that adds one. -/
theorem next_calls (cs : List BuilderCall) : ∀ d : Draft,
    (d.calls cs).builder.next = d.builder.next + cs.countP (·.emits) := by
  induction cs with
  | nil => exact fun d => rfl
  | cons c cs ih =>
    intro d
    show ((d.call c).calls cs).builder.next = _
    rw [ih, next_call, List.countP_cons]
    omega

theorem next_le_calls (d : Draft) (cs : List BuilderCall) :
    d.builder.next ≤ (d.calls cs).builder.next := by
  rw [next_calls]
  exact Nat.le_add_right _ _

theorem sound_new : new.Sound := ⟨nofun, .nil⟩

theorem Sound.call (s : d.Sound) (c : BuilderCall) : (d.call c).Sound := by
  have grown : d.builder.next ≤ (d.call c).builder.next := d.next_le_calls [c]
  cases c with
  | emit op first second =>
    exact ⟨fun l mem => Nat.lt_of_lt_of_le (s.inside l mem) grown, s.distinct⟩
  | loopTo target => exact ⟨fun l mem => Nat.lt_of_lt_of_le (s.inside l mem) grown, s.distinct⟩
  | bind l =>
    exact ⟨fun l' mem => Nat.lt_of_lt_of_le (s.inside l' (List.mem_of_mem_erase mem)) grown,
      s.distinct.erase l⟩
  | jump j =>
    have more := d.next_call (.jump j)
    rw [call_jump] at grown more ⊢
    refine ⟨fun l mem => ?_, List.nodup_cons.mpr ⟨fun mem => ?_, s.distinct⟩⟩
    · rcases List.mem_cons.mp mem with rfl | mem
      · exact more ▸ Nat.lt_succ_self _
      · exact Nat.lt_of_lt_of_le (s.inside l mem) grown
    · exact absurd (s.inside _ mem) (Nat.lt_irrefl _)

theorem Sound.calls (s : d.Sound) (cs : List BuilderCall) : (d.calls cs).Sound := by
  induction cs generalizing d with
  | nil => exact s
  | cons c cs ih => exact ih (s.call c)

/-- An instruction that is there changes only where its label is bound. -/
theorem call_cases (there : k < d.builder.next) (c : BuilderCall) :
    c = .bind ⟨k⟩ ∨ (d.call c).builder.code[k]? = d.builder.code[k]? ∧
      (⟨k⟩ ∈ (d.call c).labels ↔ ⟨k⟩ ∈ d.labels) := by
  have pushed : ∀ i, (d.builder.code.push i)[k]? = d.builder.code[k]? := fun i =>
    Array.getElem?_push_lt there |>.trans (Array.getElem?_eq_getElem there).symm
  cases c with
  | emit op first second => exact .inr ⟨pushed _, .rfl⟩
  | loopTo target => exact .inr ⟨pushed _, .rfl⟩
  | bind l =>
    by_cases same : l = ⟨k⟩
    · exact .inl (congrArg _ same)
    · refine .inr ⟨?_, List.mem_erase_of_ne (Ne.symm same)⟩
      have apart : l.index ≠ k := fun index => same (congrArg Label.mk index)
      exact Array.getElem?_modify.trans (if_neg apart)
  | jump j =>
    rw [call_jump]
    refine .inr ⟨pushed _, ?_⟩
    have apart : (⟨k⟩ : Label) ≠ ⟨d.builder.next⟩ := fun same =>
      Nat.ne_of_lt there (congrArg Label.index same)
    simp [apart]

/-! ## Many calls -/

/-- An instruction without a label to be bound stays as it is. -/
theorem closed_calls (allowed : d.allowsAll cs = true) (there : k < d.builder.next)
    (closed : ⟨k⟩ ∉ d.labels) :
    (d.calls cs).builder.code[k]? = d.builder.code[k]? ∧ ⟨k⟩ ∉ (d.calls cs).labels := by
  induction cs generalizing d with
  | nil => exact ⟨rfl, closed⟩
  | cons c cs ih =>
    obtain ⟨now, later⟩ := Bool.and_eq_true_iff.mp allowed
    rcases call_cases there c with rfl | ⟨same, labels⟩
    · exact absurd (mem_of_allows_bind now) closed
    · have grown := Nat.lt_of_lt_of_le there (d.next_le_calls [c])
      obtain ⟨code, still⟩ := ih later grown (labels.not.mpr closed)
      exact ⟨code.trans same, still⟩

/-- A jump waits as it is until its label is bound. -/
theorem Sound.open_calls (s : d.Sound) (allowed : d.allowsAll cs = true)
    (there : k < d.builder.next) (waits : ⟨k⟩ ∈ (d.calls cs).labels) :
    (d.calls cs).builder.code[k]? = d.builder.code[k]? := by
  induction cs generalizing d with
  | nil => rfl
  | cons c cs ih =>
    obtain ⟨now, later⟩ := Bool.and_eq_true_iff.mp allowed
    have grown := Nat.lt_of_lt_of_le there (d.next_le_calls [c])
    rcases call_cases there c with rfl | ⟨same, -⟩
    · exact absurd waits (closed_calls later grown s.distinct.not_mem_erase).2
    · exact (ih (s.call c) later grown waits).trans same

/-! ## Bound labels -/

variable {before between after : List BuilderCall} {j : ForwardJump}

/-- What is there to be bound has been left by a jump. -/
theorem exists_jump_of_mem (cs : List BuilderCall) : l ∈ (new.calls cs).labels →
    ∃ before j after, cs = before ++ .jump j :: after ∧ l = ⟨(built before).size⟩ := by
  induction cs using List.reverseRecOn with
  | nil => exact fun mem => absurd mem List.not_mem_nil
  | append_singleton cs c ih =>
    intro mem
    have earlier : l ∈ (new.calls cs).labels → ∃ before j after,
        cs ++ [c] = before ++ .jump j :: after ∧ l = ⟨(built before).size⟩ := by
      intro mem
      obtain ⟨before, j, after, rfl, index⟩ := ih mem
      exact ⟨before, j, after ++ [c], by simp, index⟩
    rw [calls_append] at mem
    replace mem : l ∈ ((new.calls cs).call c).labels := mem
    cases c with
    | emit op first second => exact earlier mem
    | loopTo target => exact earlier mem
    | bind l' => exact earlier (List.mem_of_mem_erase mem)
    | jump j =>
      rw [call_jump] at mem
      rcases List.mem_cons.mp mem with rfl | mem
      · exact ⟨cs, j, [], rfl, rfl⟩
      · exact earlier mem

/-- A jump is as it was emitted when its label comes to be bound. -/
theorem built_of_open (allowed : new.allowsAll (before ++ .jump j :: between) = true)
    (waits : ⟨(built before).size⟩ ∈ (new.calls (before ++ .jump j :: between)).labels) :
    (built (before ++ .jump j :: between))[(built before).size]? = some (j.instruction 0) := by
  rw [allowsAll_append, Bool.and_eq_true_iff] at allowed
  obtain ⟨-, later⟩ := Bool.and_eq_true_iff.mp allowed.2
  have sound := (sound_new.calls before).call (.jump j)
  have there : (built before).size < ((new.calls before).call (.jump j)).builder.next := by
    rw [next_call]
    exact Nat.lt_succ_self _
  unfold built at *
  rw [calls_append] at waits ⊢
  refine (sound.open_calls later there waits).trans ?_
  rw [call_jump]
  exact Array.getElem?_push_size

/-- To bind a label sets the offset of the jump that has left it, and no more. -/
theorem built_bind (allowed : new.allowsAll (before ++ [.bind l]) = true) :
    ∃ earlier j later, before = earlier ++ .jump j :: later ∧ l = ⟨(built earlier).size⟩ ∧
      (built before)[l.index]? = some (j.instruction 0) ∧
      ∀ n : Nat, (built (before ++ [.bind l]))[n]? =
        if n = l.index then some (j.instruction (.ofNat ((built before).size - l.index)))
        else (built before)[n]? := by
  rw [allowsAll_append, Bool.and_eq_true_iff] at allowed
  have mem := mem_of_allows_bind (Bool.and_eq_true_iff.mp allowed.2).1
  obtain ⟨earlier, j, later, rfl, rfl⟩ := exists_jump_of_mem before mem
  have there := built_of_open allowed.1 mem
  refine ⟨earlier, j, later, rfl, rfl, there, fun n => ?_⟩
  unfold built at *
  rw [calls_append]
  refine Array.getElem?_modify.trans ?_
  by_cases own : (new.calls earlier).builder.code.size = n
  · subst own
    rw [if_pos rfl, if_pos rfl, there]
    rfl
  · rw [if_neg own, if_neg (Ne.symm own)]

/-- When all is built, a jump whose label has been bound leads from itself to where that was. -/
theorem built_of_bound (index : l.index = (built before).size)
    (allowed : new.allowsAll (before ++ .jump j :: (between ++ .bind l :: after)) = true) :
    (built (before ++ .jump j :: (between ++ .bind l :: after)))[l.index]? =
      some (j.instruction (.ofNat ((built (before ++ .jump j :: between)).size - l.index))) := by
  have whole : before ++ .jump j :: (between ++ .bind l :: after) =
      (before ++ .jump j :: between) ++ .bind l :: after := by simp
  rw [whole, allowsAll_append, Bool.and_eq_true_iff] at allowed
  obtain ⟨now, later⟩ := Bool.and_eq_true_iff.mp allowed.2
  have mem := mem_of_allows_bind now
  have sound := sound_new.calls (before ++ .jump j :: between)
  have bound : (built (before ++ .jump j :: between))[l.index]? = some (j.instruction 0) :=
    index ▸ built_of_open allowed.1 (congrArg Label.mk index ▸ mem)
  unfold built at bound ⊢
  rw [whole, calls_append]
  generalize new.calls (before ++ .jump j :: between) = d at *
  have there : l.index < (d.call (.bind l)).builder.next :=
    Nat.lt_of_lt_of_le (sound.inside l mem) (d.next_le_calls [.bind l])
  refine (closed_calls later there sound.distinct.not_mem_erase).1.trans ?_
  refine Array.getElem?_modify.trans ?_
  rw [if_pos rfl, bound]
  rfl

/-- A jump back stays as it was emitted. -/
theorem built_of_loop {target : UInt64}
    (allowed : new.allowsAll (before ++ .loopTo target :: after) = true) :
    (built (before ++ .loopTo target :: after))[(built before).size]? =
      some ⟨.control .jumpTo, target, 0⟩ := by
  rw [allowsAll_append, Bool.and_eq_true_iff] at allowed
  obtain ⟨-, later⟩ := Bool.and_eq_true_iff.mp allowed.2
  have sound := sound_new.calls before
  have there : (built before).size < ((new.calls before).call (.loopTo target)).builder.next := by
    rw [next_call]
    exact Nat.lt_succ_self _
  unfold built at *
  rw [calls_append]
  refine (closed_calls later there fun mem => ?_).1.trans Array.getElem?_push_size
  exact absurd (sound.inside _ mem) (Nat.lt_irrefl _)

/-- Code grows by what the calls add. -/
theorem size_built (cs cs' : List BuilderCall) :
    (built (cs ++ cs')).size = (built cs).size + cs'.countP (·.emits) := by
  unfold built
  rw [calls_append]
  exact next_calls cs' _

end Draft

end ObjectVM
