import Mathlib.Data.Fin.Tuple.Curry
import ObjectVM.Proofs.Passing

/-!
# The evaluation stack

A table says of every opcode on values how many operands lie above its container, what it makes of
the container and of those operands, in the order in which they were pushed, and where the result
goes (`ValueOp.discipline`). From a discipline follows what becomes of the evaluation stack and of
the object stack in every case: where the opcode succeeds, where the values are refused, and where
there are too few of them (`Discipline.Effect`). The values below the container stay, and so does
all else of the process.

* `popOperands_eq`, `popOperands_short`: the operands that are there are taken off, or all of them
  when some are missing.
* `Discipline.Effect.exists`: there is a case for all stacks.
* `ValueOp.action_eq`: what runs is what the table says.
* `execute_value`: and the opcode does what that case says.
* `execute_computes`, `execute_refuses`: the two cases in which the operands are there, for opcodes
  that compute a value.

An opcode that stores an object takes it first and has lost it where it then fails; an exchange
looks first and takes nothing.
-/
namespace ObjectVM

/-! ## Disciplines -/

/-- What an opcode does with a container, the `n` operands above it and the object stack. Its
operation takes the container first and then the operands in the order in which they were pushed. -/
inductive Discipline where
  /-- The result takes the container's place. -/
  | replace (n : Nat) (f : Value → Function.OfArity Value (Except ValueError Value) n)
  /-- The id that is found goes on the object stack, and the container stays. -/
  | read (n : Nat) (f : Value → Function.OfArity Value (Except ValueError ObjectId) n)
  /-- The container with an id from the object stack takes its own place. -/
  | store (n : Nat) (f : Value → Function.OfArity Value (ObjectId → Except ValueError Value) n)
  /-- The container and the one operand change places if `f` accepts them. -/
  | exchange (f : Value → Value → Except ValueError (Value × Value))
    (crosses : ∀ {a b r}, f a b = .ok r → r = (b, a))

/-- Operands that were pushed one after another, on a stack whose top comes first. -/
def pushed {n : Nat} (operands : Vector Value n) (below : List Value) : List Value :=
  operands.toList.reverse ++ below

/-- `d.Effect values objects fault values' objects'` when an opcode of that discipline that meets
these values and objects, top first, ends in `fault`, or well, and leaves those. -/
inductive Discipline.Effect : Discipline → List Value → List ObjectId → Option Fault →
    List Value → List ObjectId → Prop where
  | replaced {n f} {operands : Vector Value n} {c v values objects}
    (result : (f c).uncurry operands.get = .ok v) :
    Effect (.replace n f) (pushed operands (c :: values)) objects none (v :: values) objects
  | notReplaced {n f} {operands : Vector Value n} {c e values objects}
    (refused : (f c).uncurry operands.get = .error e) :
    Effect (.replace n f) (pushed operands (c :: values)) objects (some (.value e))
      (c :: values) objects
  | tooFewToReplace {n f values objects} (few : values.length ≤ n) :
    Effect (.replace n f) values objects (some .valueStackEmpty) [] objects
  | read {n f} {operands : Vector Value n} {c id values objects}
    (found : (f c).uncurry operands.get = .ok id) :
    Effect (.read n f) (pushed operands (c :: values)) objects none (c :: values) (id :: objects)
  | notRead {n f} {operands : Vector Value n} {c e values objects}
    (refused : (f c).uncurry operands.get = .error e) :
    Effect (.read n f) (pushed operands (c :: values)) objects (some (.value e))
      (c :: values) objects
  | tooFewToRead {n f values objects} (few : values.length ≤ n) :
    Effect (.read n f) values objects (some .valueStackEmpty) [] objects
  | stored {n f} {operands : Vector Value n} {c v id values objects}
    (result : (f c).uncurry operands.get id = .ok v) :
    Effect (.store n f) (pushed operands (c :: values)) (id :: objects) none (v :: values) objects
  | notStored {n f} {operands : Vector Value n} {c e id values objects}
    (refused : (f c).uncurry operands.get id = .error e) :
    Effect (.store n f) (pushed operands (c :: values)) (id :: objects) (some (.value e))
      (c :: values) objects
  | tooFewToStore {n f id values objects} (few : values.length ≤ n) :
    Effect (.store n f) values (id :: objects) (some .valueStackEmpty) [] objects
  | nothingToStore {n f values} :
    Effect (.store n f) values [] (some .objectStackEmpty) values []
  | exchanged {f crosses a b r values objects} (accepted : f a b = .ok r) :
    Effect (.exchange f crosses) (b :: a :: values) objects none (a :: b :: values) objects
  | notExchanged {f crosses a b e values objects} (refused : f a b = .error e) :
    Effect (.exchange f crosses) (b :: a :: values) objects (some (.value e))
      (b :: a :: values) objects
  | tooFewToExchange {f crosses values objects} (few : values.length ≤ 1) :
    Effect (.exchange f crosses) values objects (some .valueStackEmpty) values objects

/-! ## The table of opcodes -/

theorem Value.asText_eq_ok_iff {operation : String} {v : Value} {s : String} :
    v.asText operation = .ok s ↔ v = .text s := by
  cases v <;> simp [asText]

/-- Two values that are read as containers of one kind, and made values again the other way round,
have changed places. -/
theorem crosses_of_reads {α : Type} {read : Value → Except ValueError α} {make : α → Value}
    (reads : ∀ {v x}, read v = .ok x → v = make x) {a b : Value} {r : Value × Value}
    (done : (do
      let y ← read b
      let x ← read a
      .ok (make y, make x)) = .ok r) : r = (b, a) := by
  cases hb : read b with
  | error e => rw [hb] at done; cases done
  | ok y =>
    cases ha : read a with
    | error e => rw [hb, ha] at done; cases done
    | ok x =>
      rw [hb, ha] at done
      cases done
      rw [reads ha, reads hb]

/-- The opcodes on texts, with their operands as in section B.6 of the specification. -/
def TextOp.discipline : TextOp → Discipline
  | .length => .replace 0 Texts.length
  | .clear => .replace 0 Texts.clear
  | .append => .replace 1 Texts.append
  | .push => .replace 1 Texts.push
  | .insert => .replace 2 Texts.insert
  | .insertChar => .replace 2 Texts.insertChar
  | .erase => .replace 1 Texts.erase
  | .eraseRange => .replace 2 Texts.eraseRange
  | .replace => .replace 3 Texts.replace
  | .exchange => .exchange Texts.exchange (crosses_of_reads Value.asText_eq_ok_iff.mp)
  | .substring => .replace 1 Texts.substring
  | .substringRange => .replace 2 Texts.substringRange
  | .find => .replace 1 Texts.find
  | .findFrom => .replace 2 Texts.findFrom
  | .findLast => .replace 1 Texts.findLast
  | .findLastUpTo => .replace 2 Texts.findLastUpTo
  | .compare => .replace 1 Texts.compare
  | .compareRange => .replace 3 Texts.compareRange
  | .startsWith => .replace 1 Texts.startsWith
  | .endsWith => .replace 1 Texts.endsWith
  | .reverse => .replace 0 Texts.reverse
  | .upper => .replace 0 Texts.upper
  | .lower => .replace 0 Texts.lower
  | .trim => .replace 0 Texts.trim
  | .trimStart => .replace 0 Texts.trimStart
  | .trimEnd => .replace 0 Texts.trimEnd

/-- The opcodes on arrays (B.6). -/
def ArrayOp.discipline : ArrayOp → Discipline
  | .length => .replace 0 Arrays.length
  | .isEmpty => .replace 0 Arrays.isEmpty
  | .at => .read 1 Arrays.at?
  | .front => .read 0 Arrays.front
  | .back => .read 0 Arrays.back
  | .put => .store 1 Arrays.put
  | .append => .store 0 Arrays.append
  | .erase => .replace 1 Arrays.erase
  | .pop => .replace 0 fun a => (Arrays.pop a).map (·.1)
  | .exchange => .exchange Arrays.exchange (crosses_of_reads Value.asArray_eq_ok_iff.mp)
  | .clear => .replace 0 Arrays.clear
  | .merge => .replace 1 Arrays.merge
  | .slice => .replace 2 Arrays.slice
  | .stride => .replace 1 Arrays.stride
  | .reverse => .replace 0 Arrays.reverse

/-- The opcodes on maps (B.6). -/
def MapOp.discipline : MapOp → Discipline
  | .length => .replace 0 Maps.length
  | .isEmpty => .replace 0 Maps.isEmpty
  | .find => .replace 1 Maps.find
  | .at => .read 1 Maps.at?
  | .put => .store 1 Maps.put
  | .erase => .replace 1 Maps.erase
  | .clear => .replace 0 Maps.clear
  | .exchange => .exchange Maps.exchange (crosses_of_reads Value.asMap_eq_ok_iff.mp)
  | .values => .replace 0 Maps.values
  | .merge => .replace 1 Maps.merge

/-- The opcodes on values. The left operand of a binary operator lies where a container would. -/
def ValueOp.discipline : ValueOp → Discipline
  | .convert k => .replace 0 (Value.convert k)
  | .unary op => .replace 0 (Value.unary op)
  | .binary op => .replace 1 (Value.binary op)
  | .text op => op.discipline
  | .array op => op.discipline
  | .map op => op.discipline

/-- `op.Computes c operands r` when the opcode makes `r` of the container `c` and the operands above
it, in the order in which they were pushed. -/
def ValueOp.Computes (op : ValueOp) (c : Value) (operands : List Value)
    (r : Except ValueError Value) : Prop :=
  ∃ (n : Nat) (f : Value → Function.OfArity Value (Except ValueError Value) n)
    (v : Vector Value n), op.discipline = .replace n f ∧ v.toList = operands ∧
      (f c).uncurry v.get = r

/-- The action that keeps to a discipline. -/
def Discipline.action : Discipline → Action
  | .replace n f => .compute n fun c operands => (f c).uncurry operands.get
  | .read n f => .read n fun c operands => (f c).uncurry operands.get
  | .store n f => .store n fun c operands => (f c).uncurry operands.get
  | .exchange f _ => .exchange f

/-- What runs is what the table says. -/
theorem ValueOp.action_eq (op : ValueOp) : op.action = op.discipline.action := by
  cases op with
  | convert | unary | binary => rfl
  | text op => cases op <;> rfl
  | array op => cases op <;> rfl
  | map op => cases op <;> rfl

/-- The process with other values on the evaluation stack of its running frame `f`, and with other
objects. -/
def Process.withStacks (p : Process) (f : Frame) (values : List Value) (objects : List ObjectId) :
    Process :=
  { p with calls := p.calls.modifyTop fun _ => { f with values }, objects }

/-- Work that leaves the process `q` and ends in a fault, or well. -/
def Process.ending (q : Process) : Option Fault → EStateM.Result Fault Process Unit
  | none => .ok () q
  | some fault => .error fault q

/-! ## Operands on a stack -/

theorem pushed_push {n : Nat} (operands : Vector Value n) (last : Value) (below : List Value) :
    pushed (operands.push last) below = last :: pushed operands below := by
  rw [pushed, Vector.toList_push, List.reverse_append]
  rfl

/-- Of values enough, the `n` on top are operands. -/
theorem exists_pushed (n : Nat) : ∀ {values : List Value}, n ≤ values.length →
    ∃ (operands : Vector Value n) (below : List Value), values = pushed operands below ∧
      below.length = values.length - n := by
  induction n with
  | zero =>
    intro values _
    exact ⟨#v[], values, rfl, rfl⟩
  | succ n ih =>
    intro values enough
    cases values with
    | nil => cases enough
    | cons last values =>
      obtain ⟨operands, below, rfl, length⟩ := ih (Nat.le_of_succ_le_succ enough)
      refine ⟨operands.push last, below, (pushed_push operands last below).symm, ?_⟩
      rw [length, List.length_cons]
      omega

/-- Of more values than that, there is one below the operands. -/
theorem exists_container {n : Nat} {values : List Value} (enough : n < values.length) :
    ∃ (operands : Vector Value n) (c : Value) (below : List Value),
      values = pushed operands (c :: below) := by
  obtain ⟨operands, below, eq, length⟩ := exists_pushed n (Nat.le_of_lt enough)
  cases below with
  | nil =>
    rw [List.length_nil] at length
    omega
  | cons c below => exact ⟨operands, c, below, eq⟩

/-- For all stacks there is a case. -/
theorem Discipline.Effect.exists (d : Discipline) (values : List Value) (objects : List ObjectId) :
    ∃ fault values' objects', d.Effect values objects fault values' objects' := by
  cases d with
  | replace n f =>
    by_cases few : values.length ≤ n
    · exact ⟨_, _, _, .tooFewToReplace few⟩
    · obtain ⟨operands, c, below, rfl⟩ := exists_container (Nat.lt_of_not_le few)
      cases result : (f c).uncurry operands.get with
      | ok v => exact ⟨_, _, _, .replaced result⟩
      | error e => exact ⟨_, _, _, .notReplaced result⟩
  | read n f =>
    by_cases few : values.length ≤ n
    · exact ⟨_, _, _, .tooFewToRead few⟩
    · obtain ⟨operands, c, below, rfl⟩ := exists_container (Nat.lt_of_not_le few)
      cases found : (f c).uncurry operands.get with
      | ok id => exact ⟨_, _, _, .read found⟩
      | error e => exact ⟨_, _, _, .notRead found⟩
  | store n f =>
    cases objects with
    | nil => exact ⟨_, _, _, .nothingToStore⟩
    | cons id objects =>
      by_cases few : values.length ≤ n
      · exact ⟨_, _, _, .tooFewToStore few⟩
      · obtain ⟨operands, c, below, rfl⟩ := exists_container (Nat.lt_of_not_le few)
        cases result : (f c).uncurry operands.get id with
        | ok v => exact ⟨_, _, _, .stored result⟩
        | error e => exact ⟨_, _, _, .notStored result⟩
  | exchange f =>
    match values with
    | [] => exact ⟨_, _, _, .tooFewToExchange (Nat.zero_le 1)⟩
    | [b] => exact ⟨_, _, _, .tooFewToExchange (Nat.le_refl 1)⟩
    | b :: a :: values =>
      cases accepted : f a b with
      | ok r => exact ⟨_, _, _, .exchanged accepted⟩
      | error e => exact ⟨_, _, _, .notExchanged accepted⟩

theorem Frame.topTwoValues_eq {f : Frame} {a b : Value} {values : List Value}
    (there : f.values = b :: a :: values) : f.topTwoValues = .ok (a, b) := by
  unfold topTwoValues
  rw [there]

theorem Frame.topTwoValues_short {f : Frame} (few : f.values.length ≤ 1) :
    f.topTwoValues = .error .valueStackEmpty := by
  unfold topTwoValues
  generalize f.values = values at few ⊢
  rcases values with _ | ⟨b, _ | ⟨a, values⟩⟩
  · rfl
  · rfl
  · simp at few

/-! ## One stack in the process -/

namespace Process

variable {p : Process} {f : Frame} {values values' : List Value} {objects objects' : List ObjectId}

theorem top?_withStacks (top : p.calls.top? = some f) (values : List Value)
    (objects : List ObjectId) :
    (p.withStacks f values objects).calls.top? = some { f with values } :=
  CallStack.top?_modifyTop top _

theorem withStacks_withStacks (p : Process) (f : Frame) (values values' : List Value)
    (objects objects' : List ObjectId) :
    (p.withStacks f values objects).withStacks { f with values } values' objects' =
      p.withStacks f values' objects' := by
  unfold withStacks
  rw [CallStack.modifyTop_modifyTop]
  rfl

/-- The stacks that are there make no difference. -/
theorem withStacks_self (top : p.calls.top? = some f) :
    p.withStacks f f.values p.objects = p := by
  unfold withStacks
  rw [CallStack.setTop_self top]

end Process

namespace Exec

variable {p : Process} {f : Frame} {v c : Value} {values : List Value} {n : Nat} {α : Type}

theorem popValue_eq (top : p.calls.top? = some f) (there : f.values = v :: values) :
    popValue p = .ok v (p.withStacks f values p.objects) := by
  rw [show popValue p = _ from bind_ok (topFrame_eq top)]
  unfold Frame.popValue
  rw [there]
  rfl

theorem popValue_nil (top : p.calls.top? = some f) (none : f.values = []) :
    popValue p = .error .valueStackEmpty p := by
  rw [show popValue p = _ from bind_ok (topFrame_eq top)]
  unfold Frame.popValue
  rw [none]
  rfl

theorem topValue_eq (top : p.calls.top? = some f) (there : f.values = v :: values) :
    topValue p = .ok v p := by
  rw [show topValue p = _ from bind_ok (topFrame_eq top)]
  unfold Frame.topValue
  rw [there]
  rfl

theorem topValue_nil (top : p.calls.top? = some f) (none : f.values = []) :
    topValue p = .error .valueStackEmpty p := by
  rw [show topValue p = _ from bind_ok (topFrame_eq top)]
  unfold Frame.topValue
  rw [none]
  rfl

theorem setTopValue_withStacks (top : p.calls.top? = some f) (c v : Value) (values : List Value)
    (objects : List ObjectId) :
    setTopValue v (p.withStacks f (c :: values) objects) =
      .ok () (p.withStacks f (v :: values) objects) := by
  have set := updateFrame_eq (g := (·.setTopValue v))
    (Process.top?_withStacks top (c :: values) objects) rfl
  refine set.trans ?_
  rw [← Process.withStacks_withStacks p f (c :: values) (v :: values)]
  rfl

theorem popOperands_eq (n : Nat) : ∀ {p : Process} {f : Frame} {operands : Vector Value n}
    {below : List Value}, p.calls.top? = some f → f.values = pushed operands below →
    popOperands n p = .ok operands (p.withStacks f below p.objects) := by
  induction n with
  | zero =>
    intro p f operands below top there
    obtain rfl : operands = #v[] := by simp
    rw [show below = f.values from there.symm, Process.withStacks_self top]
    rfl
  | succ n ih =>
    intro p f operands below top there
    obtain ⟨front, last, rfl⟩ : ∃ (front : Vector Value n) (last : Value),
        operands = front.push last := Vector.exists_push
    rw [pushed_push] at there
    have rest := ih (Process.top?_withStacks top (pushed front below) p.objects) rfl
    rw [Process.withStacks_withStacks] at rest
    rw [show popOperands (n + 1) p = _ from bind_ok (popValue_eq top there),
      show (popOperands n >>= fun rest => pure (rest.push last)) _ = _ from bind_ok rest]
    rfl

/-- Where operands are missing, those that are there are gone. -/
theorem popOperands_short (n : Nat) : ∀ {p : Process} {f : Frame}, p.calls.top? = some f →
    f.values.length < n →
    popOperands n p = .error .valueStackEmpty (p.withStacks f [] p.objects) := by
  induction n with
  | zero =>
    intro p f _ few
    cases few
  | succ n ih =>
    intro p f top few
    cases there : f.values with
    | nil =>
      rw [show popOperands (n + 1) p = _ from bind_error (popValue_nil top there), ← there,
        Process.withStacks_self top]
    | cons last values =>
      rw [there, List.length_cons] at few
      have rest := ih (Process.top?_withStacks top values p.objects) (Nat.lt_of_succ_lt_succ few)
      rw [Process.withStacks_withStacks] at rest
      rw [show popOperands (n + 1) p = _ from bind_ok (popValue_eq top there),
        show (popOperands n >>= fun rest => pure (rest.push last)) _ = _ from bind_error rest]
      rfl

/-- Work on operands, and the value below them, that are there. -/
theorem onOperands_eq {operands : Vector Value n} {k : Vector Value n → Value → Exec α}
    (top : p.calls.top? = some f) (there : f.values = pushed operands (c :: values)) :
    (popOperands n >>= fun operands => topValue >>= k operands) p =
      k operands c (p.withStacks f (c :: values) p.objects) := by
  rw [bind_ok (popOperands_eq n top there),
    bind_ok (topValue_eq (Process.top?_withStacks top _ _) rfl)]

theorem onOperands_short {k : Vector Value n → Value → Exec α} (top : p.calls.top? = some f)
    (few : f.values.length ≤ n) :
    (popOperands n >>= fun operands => topValue >>= k operands) p =
      .error .valueStackEmpty (p.withStacks f [] p.objects) := by
  rcases Nat.lt_or_eq_of_le few with lt | eq
  · exact bind_error (popOperands_short n top lt)
  · obtain ⟨operands, below, there, none⟩ := exists_pushed n (Nat.le_of_eq eq.symm)
    rw [eq, Nat.sub_self] at none
    rw [List.eq_nil_of_length_eq_zero none] at there
    rw [bind_ok (popOperands_eq n top there)]
    exact bind_error (topValue_nil (Process.top?_withStacks top _ _) rfl)

/-! ## Actions -/

section

variable {below : List Value} {operands : Vector Value n}

/-- The result takes the place of the first operand, or that stays as it is. -/
theorem perform_compute {g : Value → Vector Value n → Except ValueError Value}
    (top : p.calls.top? = some f) (there : f.values = pushed operands (c :: below)) :
    perform (.compute n g) p = match g c operands with
      | .ok v => .ok () (p.withStacks f (v :: below) p.objects)
      | .error e => .error (.value e) (p.withStacks f (c :: below) p.objects) := by
  have opened : perform (.compute n g) = popOperands n >>= fun operands => topValue >>= fun c =>
    liftValue (g c operands) >>= setTopValue := rfl
  rw [opened, onOperands_eq top there]
  cases g c operands with
  | ok v => exact setTopValue_withStacks top _ _ _ _
  | error e => rfl

theorem perform_compute_short {g : Value → Vector Value n → Except ValueError Value}
    (top : p.calls.top? = some f) (few : f.values.length ≤ n) :
    perform (.compute n g) p = .error .valueStackEmpty (p.withStacks f [] p.objects) :=
  onOperands_short top few

theorem perform_read {g : Value → Vector Value n → Except ValueError ObjectId}
    (top : p.calls.top? = some f) (there : f.values = pushed operands (c :: below)) :
    perform (.read n g) p = match g c operands with
      | .ok id => .ok () (p.withStacks f (c :: below) (id :: p.objects))
      | .error e => .error (.value e) (p.withStacks f (c :: below) p.objects) := by
  have opened : perform (.read n g) = popOperands n >>= fun operands => topValue >>= fun c =>
    liftValue (g c operands) >>= pushObject := rfl
  rw [opened, onOperands_eq top there]
  cases g c operands with
  | ok id => rfl
  | error e => rfl

theorem perform_read_short {g : Value → Vector Value n → Except ValueError ObjectId}
    (top : p.calls.top? = some f) (few : f.values.length ≤ n) :
    perform (.read n g) p = .error .valueStackEmpty (p.withStacks f [] p.objects) :=
  onOperands_short top few

/-- When the object has been taken, storing it is computing with it. -/
theorem perform_store_taken {g : Value → Vector Value n → ObjectId → Except ValueError Value}
    {id : ObjectId} {objects : List ObjectId} (held : p.objects = id :: objects) :
    perform (.store n g) p =
      perform (.compute n fun c operands => g c operands id) { p with objects } := by
  have opened : perform (.store n g) =
    popObject >>= fun id => perform (.compute n fun c operands => g c operands id) := rfl
  rw [opened, bind_ok (popObject_eq held)]

theorem perform_store {g : Value → Vector Value n → ObjectId → Except ValueError Value}
    {id : ObjectId} {objects : List ObjectId} (held : p.objects = id :: objects)
    (top : p.calls.top? = some f) (there : f.values = pushed operands (c :: below)) :
    perform (.store n g) p = match g c operands id with
      | .ok v => .ok () (p.withStacks f (v :: below) objects)
      | .error e => .error (.value e) (p.withStacks f (c :: below) objects) := by
  rw [perform_store_taken held]
  exact perform_compute (p := { p with objects }) top there

theorem perform_store_short {g : Value → Vector Value n → ObjectId → Except ValueError Value}
    {id : ObjectId} {objects : List ObjectId} (held : p.objects = id :: objects)
    (top : p.calls.top? = some f) (few : f.values.length ≤ n) :
    perform (.store n g) p = .error .valueStackEmpty (p.withStacks f [] objects) := by
  rw [perform_store_taken held]
  exact perform_compute_short (p := { p with objects }) top few

theorem perform_store_nil {g : Value → Vector Value n → ObjectId → Except ValueError Value}
    (none : p.objects = []) : perform (.store n g) p = .error .objectStackEmpty p :=
  bind_error (popObject_nil none)

end

theorem perform_exchange_top {g : Value → Value → Except ValueError (Value × Value)}
    (top : p.calls.top? = some f) :
    perform (.exchange g) p = (lift f.topTwoValues >>= fun two =>
      liftValue (g two.1 two.2) >>= fun two => updateFrame (·.setTopTwoValues two.1 two.2)) p := by
  have opened : perform (.exchange g) = topFrame >>= fun f => lift f.topTwoValues >>= fun two =>
    liftValue (g two.1 two.2) >>= fun two => updateFrame (·.setTopTwoValues two.1 two.2) := rfl
  rw [opened, bind_ok (topFrame_eq top)]

theorem perform_exchange {g : Value → Value → Except ValueError (Value × Value)} {a b : Value}
    (top : p.calls.top? = some f) (there : f.values = b :: a :: values) :
    perform (.exchange g) p = match g a b with
      | .ok (a', b') => .ok () (p.withStacks f (b' :: a' :: values) p.objects)
      | .error e => .error (.value e) p := by
  rw [perform_exchange_top top, Frame.topTwoValues_eq there]
  show (liftValue (g a b) >>= _) p = _
  cases g a b with
  | ok r =>
    refine updateFrame_eq top ?_
    unfold Frame.setTopTwoValues
    rw [there]
  | error e => rfl

theorem perform_exchange_short {g : Value → Value → Except ValueError (Value × Value)}
    (top : p.calls.top? = some f) (few : f.values.length ≤ 1) :
    perform (.exchange g) p = .error .valueStackEmpty p := by
  rw [perform_exchange_top top, Frame.topTwoValues_short few]
  rfl

/-- What keeps to a discipline does what its case says. -/
theorem perform_discipline {d : Discipline} {fault : Option Fault} {values' : List Value}
    {objects' : List ObjectId} (top : p.calls.top? = some f)
    (effect : d.Effect f.values p.objects fault values' objects') :
    perform d.action p = (p.withStacks f values' objects').ending fault := by
  generalize there : f.values = before at effect
  generalize held : p.objects = objects at effect
  cases effect with
  | replaced result =>
    refine (perform_compute top there).trans ?_
    rw [result, held]
    rfl
  | notReplaced refused =>
    refine (perform_compute top there).trans ?_
    rw [refused, held]
    rfl
  | tooFewToReplace few =>
    rw [← held]
    exact perform_compute_short top (there ▸ few)
  | read found =>
    refine (perform_read top there).trans ?_
    rw [found, held]
    rfl
  | notRead refused =>
    refine (perform_read top there).trans ?_
    rw [refused, held]
    rfl
  | tooFewToRead few =>
    rw [← held]
    exact perform_read_short top (there ▸ few)
  | stored result =>
    refine (perform_store held top there).trans ?_
    rw [result]
    rfl
  | notStored refused =>
    refine (perform_store held top there).trans ?_
    rw [refused]
    rfl
  | tooFewToStore few => exact perform_store_short held top (there ▸ few)
  | nothingToStore =>
    rw [← there, ← held, Process.withStacks_self top]
    exact perform_store_nil held
  | @exchanged _ crosses _ _ _ _ _ accepted =>
    refine (perform_exchange top there).trans ?_
    rw [accepted, crosses accepted, held]
    rfl
  | notExchanged refused =>
    refine (perform_exchange top there).trans ?_
    rw [refused, ← there, ← held, Process.withStacks_self top]
    rfl
  | tooFewToExchange few =>
    rw [← there, ← held, Process.withStacks_self top]
    exact perform_exchange_short top (there ▸ few)

/-- An opcode does what the case of its discipline says. -/
theorem execute_discipline {i : Instruction} {op : ValueOp} {fault : Option Fault}
    {values' : List Value} {objects' : List ObjectId} (instructed : i.op = .value op)
    (top : p.calls.top? = some f)
    (effect : op.discipline.Effect f.values p.objects fault values' objects') :
    execute i p = (p.withStacks f values' objects').ending fault := by
  have performs : execute i = perform op.action := by
    unfold execute
    rw [instructed]
  rw [performs, op.action_eq]
  exact perform_discipline top effect

section

variable {i : Instruction} {op : ValueOp} {operands below : List Value} {e : ValueError}

/-- An opcode that computes a value puts it in place of the container. -/
theorem execute_computes (instructed : i.op = .value op)
    (computes : op.Computes c operands (.ok v)) (top : p.calls.top? = some f)
    (there : f.values = operands.reverse ++ c :: below) :
    execute i p = .ok () (p.withStacks f (v :: below) p.objects) := by
  obtain ⟨n, g, operands, replaces, rfl, result⟩ := computes
  have effect : op.discipline.Effect f.values p.objects none (v :: below) p.objects := by
    rw [replaces, there]
    exact .replaced result
  exact execute_discipline instructed top effect

/-- One that refuses leaves the container alone. -/
theorem execute_refuses (instructed : i.op = .value op)
    (refuses : op.Computes c operands (.error e)) (top : p.calls.top? = some f)
    (there : f.values = operands.reverse ++ c :: below) :
    execute i p = .error (.value e) (p.withStacks f (c :: below) p.objects) := by
  obtain ⟨n, g, operands, replaces, rfl, refused⟩ := refuses
  have effect : op.discipline.Effect f.values p.objects (some (.value e)) (c :: below)
      p.objects := by
    rw [replaces, there]
    exact .notReplaced refused
  exact execute_discipline instructed top effect

end

end Exec

/-- In a process with a running frame, an opcode on values meets one of the cases of the discipline
that the table gives it, and does to the two stacks what that case says, and nothing else. -/
theorem execute_value {p : Process} {f : Frame} {i : Instruction} {op : ValueOp}
    (instructed : i.op = .value op) (top : p.calls.top? = some f) :
    (∃ fault values objects, op.discipline.Effect f.values p.objects fault values objects) ∧
    ∀ fault values objects, op.discipline.Effect f.values p.objects fault values objects →
      Exec.execute i p = (p.withStacks f values objects).ending fault := by
  refine ⟨Discipline.Effect.exists op.discipline f.values p.objects, ?_⟩
  intro fault values objects effect
  exact Exec.execute_discipline instructed top effect

/-- A program that pushes two numbers. -/
def pushing : Compartment :=
  (Compartment.new "pushing").withClosures #[.new Compartment.mainName 0 none
    #[⟨.constant (.int .int64), 10, 0⟩, ⟨.constant (.int .int64), 3, 0⟩]]

/-- The right operand is the one on top. An object is put at the index above the array, and is taken
also where the index is missing; one that is read is pushed, and the array stays. -/
theorem execute_value_subtracting : ∃ f, (Process.ranFor pushing 2).calls.top? = some f ∧
    f.values = [.ofInt .int64 3, .ofInt .int64 10] ∧
    Exec.execute (.ofOp (.value (.binary .sub))) (Process.ranFor pushing 2) =
      .ok () ((Process.ranFor pushing 2).withStacks f [.ofInt .int64 7]
        (Process.ranFor pushing 2).objects) ∧
    Exec.execute (.ofOp (.value (.array .put))) ((Process.ranFor pushing 2).withStacks f
        [.ofInt .int8 1, .array [⟨4, 0⟩, ⟨5, 0⟩]] [⟨6, 0⟩, ⟨7, 0⟩]) =
      .ok () ((Process.ranFor pushing 2).withStacks f [.array [⟨4, 0⟩, ⟨6, 0⟩]] [⟨7, 0⟩]) ∧
    Exec.execute (.ofOp (.value (.array .put))) ((Process.ranFor pushing 2).withStacks f
        [.array [⟨4, 0⟩, ⟨5, 0⟩]] [⟨6, 0⟩, ⟨7, 0⟩]) =
      .error .valueStackEmpty ((Process.ranFor pushing 2).withStacks f [] [⟨7, 0⟩]) ∧
    Exec.execute (.ofOp (.value (.array .at))) ((Process.ranFor pushing 2).withStacks f
        [.ofInt .int8 1, .array [⟨4, 0⟩, ⟨5, 0⟩]] [⟨7, 0⟩]) =
      .ok () ((Process.ranFor pushing 2).withStacks f [.array [⟨4, 0⟩, ⟨5, 0⟩]]
        [⟨5, 0⟩, ⟨7, 0⟩]) := by
  have two : (Process.ranFor pushing 2).calls.top?.map (·.values) =
      some [.ofInt .int64 3, .ofInt .int64 10] := by decide +kernel
  generalize Process.ranFor pushing 2 = p at *
  obtain ⟨f, top, values⟩ := Option.map_eq_some_iff.mp two
  -- what an opcode does on other stacks, in the process that has them
  have does : ∀ op before objects fault after objects',
      (ValueOp.discipline op).Effect before objects fault after objects' →
      Exec.execute (.ofOp (.value op)) (p.withStacks f before objects) =
        (p.withStacks f after objects').ending fault := by
    intro op before objects fault after objects' effect
    rw [← Process.withStacks_withStacks p f before after objects objects']
    exact (execute_value (i := .ofOp (.value op)) rfl (Process.top?_withStacks top _ _)).2
      _ _ _ effect
  have index : [.ofInt .int8 1, .array [⟨4, 0⟩, ⟨5, 0⟩]] =
      pushed #v[.ofInt .int8 1] [.array [⟨4, 0⟩, ⟨5, 0⟩]] := rfl
  refine ⟨f, top, values, ?_, ?_, ?_, ?_⟩
  · have single : f.values = pushed #v[.ofInt .int64 3] [.ofInt .int64 10] := values
    have computed := does (.binary .sub) f.values p.objects none [.ofInt .int64 7] p.objects
      (by rw [single]; exact .replaced rfl)
    rw [Process.withStacks_self top] at computed
    exact computed
  · refine does (.array .put) _ _ none _ _ ?_
    rw [index]
    exact .stored rfl
  · refine does (.array .put) _ _ (some .valueStackEmpty) _ _ ?_
    exact .tooFewToStore (Nat.le_refl _)
  · refine does (.array .at) _ _ none _ _ ?_
    rw [index]
    exact .read rfl

end ObjectVM
