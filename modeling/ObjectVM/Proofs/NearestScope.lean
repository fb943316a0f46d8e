import Mathlib.Data.List.FinRange
import Mathlib.Data.List.Perm.Subperm
import ObjectVM.Proofs.CallDiscipline
import ObjectVM.Proofs.Nesting

/-!
# The scope of a new frame

The closures around a closure are its parent, the parent of that one, and so on
(`Compartment.around?`). They may go round in a circle, and the last of them may be missing. A new
frame is linked to the topmost frame of the first of them that has frames. The search for it tries
no more closures than the compartment has, and that is enough: those that it tries in vain differ
from one another, or else it would have come to the same one before.

* `CallStack.frameOf?_eq_some_iff`: what is found is the topmost frame.
* `Process.nearestFrame_eq_some_iff`: a search in some steps finds what is within as many parents.
* `Process.FirstAround.lt_size`: what there is to find is within as many parents as there are
  closures.
* `nearest_scope_linked`: so a new frame is linked as it should be, and searching on would change
  nothing.
-/
namespace ObjectVM

/-- The parent of a closure, by their numbers. -/
def Compartment.parent? (c : Compartment) (id : UInt64) : Option UInt64 :=
  (c.closure? id).bind (·.parent)

/-- The closures around a closure, from its parent outward. The last may be missing. -/
def Compartment.around? (c : Compartment) (inner : UInt64) : Nat → Option UInt64
  | 0 => c.parent? inner
  | n + 1 => (c.around? inner n).bind c.parent?

/-- Whether a closure has frames. -/
def CallStack.Runs (s : CallStack) (ref : ClosureRef) : Prop :=
  ∃ (k : Nat) (f : Frame), s.frames[k]? = some f ∧ f.closure = ref

/-- The topmost frame of a closure is the one at `k`. -/
structure CallStack.IsTopmost (s : CallStack) (ref : ClosureRef) (k : Nat) : Prop where
  here : ∃ f, s.frames[k]? = some f ∧ f.closure = ref
  above : ∀ (m : Nat) (f : Frame), k < m → s.frames[m]? = some f → f.closure ≠ ref

/-- Of the closures around `ref` the `n`-th is the first that has frames, and the topmost of them is
the one at `k`. -/
structure Process.FirstAround (p : Process) (c : Compartment) (ref : ClosureRef) (n k : Nat) :
    Prop where
  topmost : ∃ id, c.around? ref.closure n = some id ∧ p.calls.IsTopmost ⟨ref.compartment, id⟩ k
  nearer : ∀ m id, m < n → c.around? ref.closure m = some id →
    ¬ p.calls.Runs ⟨ref.compartment, id⟩

/-! ## Topmost frames -/

namespace CallStack

variable {s : CallStack} {ref : ClosureRef} {k n : Nat}

/-- Above the frame that is found there is none of the closure, and none at all if none is found. -/
theorem closure_ne_of_lastFrameOf : ∀ (m : Nat) (f : Frame),
    (∀ k, s.lastFrameOf ref n = some k → k < m) → m < n → s.frames[m]? = some f →
      f.closure ≠ ref := by
  induction n with
  | zero => exact fun m f _ lt => absurd lt (Nat.not_lt_zero m)
  | succ n ih =>
    intro m f above below there
    unfold lastFrameOf at above
    split at above
    · exact absurd (Nat.lt_of_lt_of_le (above n rfl) (Nat.le_of_lt_succ below)) (Nat.lt_irrefl n)
    · next other =>
      rcases Nat.lt_or_eq_of_le (Nat.le_of_lt_succ below) with lt | rfl
      · exact ih m f above lt there
      · rintro rfl
        rw [there] at other
        simp at other

theorem IsTopmost.runs (t : s.IsTopmost ref k) : s.Runs ref := by
  obtain ⟨f, there, same⟩ := t.here
  exact ⟨k, f, there, same⟩

theorem IsTopmost.unique {l : Nat} (t : s.IsTopmost ref k) (t' : s.IsTopmost ref l) : k = l := by
  obtain ⟨f, there, same⟩ := t.here
  obtain ⟨g, there', same'⟩ := t'.here
  rcases Nat.lt_trichotomy k l with lt | eq | gt
  · exact absurd same' (t.above l g lt there')
  · exact eq
  · exact absurd same (t'.above k f gt there)

theorem isTopmost_of_frameOf? (found : s.frameOf? ref = some k) : s.IsTopmost ref k := by
  refine ⟨frame_of_frameOf? found, fun m f above there => ?_⟩
  refine closure_ne_of_lastFrameOf m f (fun l found' => ?_) (lt_depth there) there
  obtain rfl : k = l := Option.some.inj (found.symm.trans found')
  exact above

theorem frameOf?_eq_none_iff : s.frameOf? ref = none ↔ ¬ s.Runs ref := by
  constructor
  · rintro none ⟨m, f, there, same⟩
    refine closure_ne_of_lastFrameOf m f (fun k found => ?_) (lt_depth there) there same
    cases none.symm.trans found
  · intro idle
    cases found : s.frameOf? ref with
    | none => rfl
    | some k => exact absurd (isTopmost_of_frameOf? found).runs idle

theorem Runs.exists_isTopmost (runs : s.Runs ref) : ∃ k, s.IsTopmost ref k := by
  cases found : s.frameOf? ref with
  | none => exact absurd runs (frameOf?_eq_none_iff.mp found)
  | some k => exact ⟨k, isTopmost_of_frameOf? found⟩

theorem frameOf?_eq_some_iff : s.frameOf? ref = some k ↔ s.IsTopmost ref k := by
  refine ⟨isTopmost_of_frameOf?, fun t => ?_⟩
  cases found : s.frameOf? ref with
  | none => exact absurd t.runs (frameOf?_eq_none_iff.mp found)
  | some l => rw [(isTopmost_of_frameOf? found).unique t]

end CallStack

/-! ## Closures around -/

namespace Compartment

variable {c : Compartment} {inner id : UInt64} {n : Nat}

/-- A closure that is found has the number that it is looked for under. -/
theorem Assembled.id_of_closure? {cl : Closure} (assembled : c.Assembled)
    (found : c.closure? id = some cl) : cl.id = id := by
  obtain ⟨path, strings, floats, closures, rfl⟩ := assembled
  exact (of_closure?_withClosures found).2

theorem around?_succ (c : Compartment) (inner : UInt64) (n : Nat) :
    c.around? inner (n + 1) = (c.parent? inner).bind (c.around? · n) := by
  induction n with
  | zero => rfl
  | succ n ih =>
    rw [around?, ih, Option.bind_assoc]
    rfl

/-- The closures around the one that is `m` closures out are those further out. -/
theorem around?_add (c : Compartment) (inner : UInt64) (m n : Nat) :
    c.around? inner (m + 1 + n) = (c.around? inner m).bind (c.around? · n) := by
  induction n with
  | zero => rfl
  | succ n ih =>
    show (c.around? inner (m + 1 + n)).bind c.parent? = _
    rw [ih, Option.bind_assoc]
    rfl

/-- Further in there are closures as well, and they are not missing. -/
theorem exists_of_around? (there : c.around? inner n = some id) :
    ∀ m, m < n → ∃ id', c.around? inner m = some id' ∧ ∃ cl, c.closure? id' = some cl := by
  induction n generalizing id with
  | zero => exact fun m lt => absurd lt (Nat.not_lt_zero m)
  | succ n ih =>
    intro m lt
    obtain ⟨id', before, parent⟩ := Option.bind_eq_some_iff.mp there
    rcases Nat.lt_or_eq_of_le (Nat.le_of_lt_succ lt) with lt | rfl
    · exact ih before m lt
    · obtain ⟨cl, found, -⟩ := Option.bind_eq_some_iff.mp parent
      exact ⟨id', before, cl, found⟩

/-- Distinct numbers of closures are no more than closures. -/
theorem le_size_of_distinct (assembled : c.Assembled) {ids : List UInt64} (distinct : ids.Nodup)
    (known : ∀ id ∈ ids, ∃ cl, c.closure? id = some cl) : ids.length ≤ c.closures.size := by
  have listed : ids ⊆ c.closures.toList.map (·.id) := by
    intro id mem
    obtain ⟨cl, found⟩ := known id mem
    rw [← assembled.id_of_closure? found]
    exact List.mem_map_of_mem (mem_of_closure? found).val
  have short := (distinct.subperm listed).length_le
  rwa [List.length_map, Array.length_toList] at short

end Compartment

/-! ## The search -/

namespace Process

variable {p : Process} {c : Compartment} {ref : ClosureRef} {k n : Nat}

theorem FirstAround.exists_parent (first : p.FirstAround c ref n k) :
    ∃ id, c.parent? ref.closure = some id := by
  obtain ⟨id, there, -⟩ := first.topmost
  cases n with
  | zero => exact ⟨id, there⟩
  | succ n =>
    rw [Compartment.around?_succ] at there
    obtain ⟨outer, parent, -⟩ := Option.bind_eq_some_iff.mp there
    exact ⟨outer, parent⟩

/-- If the parent has frames, it is the first closure around. -/
theorem firstAround_iff {id : UInt64} {l : Nat} (parent : c.parent? ref.closure = some id)
    (topmost : p.calls.IsTopmost ⟨ref.compartment, id⟩ l) :
    p.FirstAround c ref n k ↔ n = 0 ∧ k = l := by
  constructor
  · rintro ⟨⟨id', there, topmost'⟩, nearer⟩
    cases n with
    | zero =>
      cases parent.symm.trans there
      exact ⟨rfl, topmost'.unique topmost⟩
    | succ n => exact absurd topmost.runs (nearer 0 id (Nat.succ_pos n) parent)
  · rintro ⟨rfl, rfl⟩
    exact ⟨⟨id, parent, topmost⟩, fun m _ lt => absurd lt (Nat.not_lt_zero m)⟩

/-- If the parent has none, the first closure around is the first around the parent. -/
theorem firstAround_iff_of_idle {id : UInt64} (parent : c.parent? ref.closure = some id)
    (idle : ¬ p.calls.Runs ⟨ref.compartment, id⟩) :
    p.FirstAround c ref n k ↔ ∃ m, n = m + 1 ∧ p.FirstAround c ⟨ref.compartment, id⟩ m k := by
  have shift : ∀ m, c.around? ref.closure (m + 1) = c.around? id m := fun m => by
    rw [Compartment.around?_succ, parent]
    rfl
  constructor
  · rintro ⟨⟨id', there, topmost⟩, nearer⟩
    cases n with
    | zero =>
      cases parent.symm.trans there
      exact absurd topmost.runs idle
    | succ n =>
      refine ⟨n, rfl, ⟨id', (shift n).symm.trans there, topmost⟩, fun m id'' lt there => ?_⟩
      exact nearer (m + 1) id'' (Nat.succ_lt_succ lt) ((shift m).trans there)
  · rintro ⟨n, rfl, ⟨id', there, topmost⟩, nearer⟩
    refine ⟨⟨id', (shift n).trans there, topmost⟩, fun m id'' lt there => ?_⟩
    cases m with
    | zero =>
      cases parent.symm.trans there
      exact idle
    | succ m => exact nearer m id'' (Nat.lt_of_succ_lt_succ lt) ((shift m).symm.trans there)

/-- A search in some steps finds what is within as many parents. -/
theorem nearestFrame_eq_some_iff {steps : Nat} : ∀ ref : ClosureRef,
    p.nearestFrame c ref.compartment (c.parent? ref.closure) steps = some k ↔
      ∃ n, n < steps ∧ p.FirstAround c ref n k := by
  induction steps with
  | zero =>
    intro ref
    refine ⟨fun found => ?_, fun ⟨n, lt, _⟩ => absurd lt (Nat.not_lt_zero n)⟩
    cases parent : c.parent? ref.closure <;> rw [parent] at found <;> cases found
  | succ steps ih =>
    intro ref
    cases parent : c.parent? ref.closure with
    | none =>
      constructor
      · intro found
        cases found
      · rintro ⟨n, -, first⟩
        obtain ⟨id, there⟩ := first.exists_parent
        cases parent.symm.trans there
    | some id =>
      unfold nearestFrame
      cases live : p.calls.frameOf? ⟨ref.compartment, id⟩ with
      | some l =>
        have first : ∀ n, p.FirstAround c ref n k ↔ n = 0 ∧ k = l := fun _ =>
          firstAround_iff parent (CallStack.frameOf?_eq_some_iff.mp live)
        constructor
        · intro found
          cases found
          exact ⟨0, Nat.succ_pos steps, (first 0).mpr ⟨rfl, rfl⟩⟩
        · rintro ⟨n, -, here⟩
          exact congrArg some ((first n).mp here).2.symm
      | none =>
        have first : ∀ n, p.FirstAround c ref n k ↔ _ := fun _ =>
          firstAround_iff_of_idle parent (CallStack.frameOf?_eq_none_iff.mp live)
        refine (ih ⟨ref.compartment, id⟩).trans ⟨?_, ?_⟩
        · rintro ⟨n, lt, further⟩
          exact ⟨n + 1, Nat.succ_lt_succ lt, (first _).mpr ⟨n, rfl, further⟩⟩
        · rintro ⟨n, lt, around⟩
          obtain ⟨m, rfl, further⟩ := (first n).mp around
          exact ⟨m, Nat.lt_of_succ_lt_succ lt, further⟩

/-- If one of the closures around has frames, one of them is the first. -/
theorem exists_firstAround {id : UInt64} (there : c.around? ref.closure n = some id)
    (runs : p.calls.Runs ⟨ref.compartment, id⟩) : ∃ m k, p.FirstAround c ref m k := by
  induction n using Nat.strong_induction_on generalizing id with
  | _ n ih =>
    by_cases nearer : ∀ m id, m < n → c.around? ref.closure m = some id →
        ¬ p.calls.Runs ⟨ref.compartment, id⟩
    · obtain ⟨k, topmost⟩ := runs.exists_isTopmost
      exact ⟨n, k, ⟨id, there, topmost⟩, nearer⟩
    · push Not at nearer
      obtain ⟨m, id', lt, there', runs'⟩ := nearer
      exact ih m lt there' runs'

/-- Up to the first closure around that has frames, no closure comes twice. -/
theorem FirstAround.distinct (first : p.FirstAround c ref n k) {i j : Nat} (lt : i < j)
    (le : j ≤ n) : c.around? ref.closure i ≠ c.around? ref.closure j := by
  intro same
  obtain ⟨id, there, topmost⟩ := first.topmost
  rcases Nat.lt_or_eq_of_le le with further | rfl
  · -- what comes behind the second comes behind the first as well
    obtain ⟨m, rfl⟩ : ∃ m, n = j + 1 + m := Nat.exists_eq_add_of_le further
    rw [Compartment.around?_add, ← same, ← Compartment.around?_add] at there
    exact first.nearer _ id (by omega) there topmost.runs
  · exact first.nearer i id lt (same.trans there) topmost.runs

section Complete

variable {cl : Closure} {steps : Nat} (assembled : c.Assembled)
  (there : p.compartments[ref.compartment.toNat]? = some c)
  (live : ∀ f ∈ p.calls.frames, ∃ cl, p.resolve f.closure = .ok cl)
include there

/-- None of the closures up to the first that has frames is missing. -/
theorem FirstAround.known (live : ∀ f ∈ p.calls.frames, ∃ cl, p.resolve f.closure = .ok cl)
    (first : p.FirstAround c ref n k) {m : Nat} (le : m ≤ n) :
    ∃ id, c.around? ref.closure m = some id ∧ ∃ cl, c.closure? id = some cl := by
  obtain ⟨last, reached, topmost⟩ := first.topmost
  rcases Nat.lt_or_eq_of_le le with lt | rfl
  · exact Compartment.exists_of_around? reached m lt
  · obtain ⟨f, hf, same⟩ := topmost.here
    obtain ⟨cl, resolves⟩ := live f (Array.mem_of_getElem? hf)
    rw [same] at resolves
    obtain ⟨c', there', found⟩ := resolve_eq_ok_iff.mp resolves
    rw [there] at there'
    cases there'
    exact ⟨last, reached, cl, found⟩

include assembled live

/-- The first closure around that has frames is within as many parents as there are closures. -/
theorem FirstAround.lt_size (first : p.FirstAround c ref n k) : n < c.closures.size := by
  choose! id around found using fun m (le : m ≤ n) => first.known there live le
  have distinct : (List.ofFn fun m : Fin (n + 1) => id m).Nodup := by
    refine List.nodup_ofFn.mpr fun i j same => ?_
    have hi := around i (Nat.le_of_lt_succ i.isLt)
    have hj := around j (Nat.le_of_lt_succ j.isLt)
    have eq : c.around? ref.closure i = c.around? ref.closure j := by rw [hi, hj, same]
    rcases Nat.lt_trichotomy i j with lt | eq' | gt
    · exact absurd eq (first.distinct lt (Nat.le_of_lt_succ j.isLt))
    · exact Fin.ext eq'
    · exact absurd eq.symm (first.distinct gt (Nat.le_of_lt_succ i.isLt))
  have short := Compartment.le_size_of_distinct assembled distinct fun x mem => by
    obtain ⟨m, rfl⟩ := List.mem_ofFn.mp mem
    exact found m (Nat.le_of_lt_succ m.isLt)
  rwa [List.length_ofFn] at short

/-- So as many steps as there are closures find what there is to find. -/
theorem nearestFrame_complete (enough : c.closures.size ≤ steps) :
    p.nearestFrame c ref.compartment (c.parent? ref.closure) steps = some k ↔
      ∃ n, p.FirstAround c ref n k := by
  rw [nearestFrame_eq_some_iff]
  exact ⟨fun ⟨n, _, first⟩ => ⟨n, first⟩, fun ⟨n, first⟩ =>
    ⟨n, Nat.lt_of_lt_of_le (first.lt_size assembled there live) enough, first⟩⟩

theorem nearestFrame_eq_none_iff (enough : c.closures.size ≤ steps) :
    p.nearestFrame c ref.compartment (c.parent? ref.closure) steps = none ↔
      ∀ n id, c.around? ref.closure n = some id → ¬ p.calls.Runs ⟨ref.compartment, id⟩ := by
  have complete := fun k => nearestFrame_complete (k := k) assembled there live enough
  constructor
  · intro none n id around runs
    obtain ⟨m, k, first⟩ := exists_firstAround around runs
    cases none.symm.trans ((complete k).mpr ⟨m, first⟩)
  · intro idle
    refine Option.eq_none_iff_forall_ne_some.mpr fun k some => ?_
    obtain ⟨n, ⟨id, around, topmost⟩, -⟩ := (complete k).mp some
    exact idle n id around topmost.runs

omit assembled live

theorem lexicalParent_eq (found : c.closure? ref.closure = some cl) : p.lexicalParent ref =
    .ok (p.nearestFrame c ref.compartment cl.parent c.closures.size) := by
  unfold lexicalParent compartment Compartment.closure
  rw [there, ok_bind, found, ok_bind]

end Complete

end Process

/-- In a process whose frames are all of closures that there are, a new frame is linked to the
topmost frame of the first closure around its own that has frames, and to none only if none of the
closures around has. However often the search would be allowed to go on, it would find the same. -/
theorem nearest_scope_linked {p : Process} {c : Compartment} {ref : ClosureRef} {cl : Closure}
    (assembled : c.Assembled) (there : p.compartments[ref.compartment.toNat]? = some c)
    (resolves : p.resolve ref = .ok cl)
    (live : ∀ f ∈ p.calls.frames, ∃ cl, p.resolve f.closure = .ok cl) :
    ∃ parent,
      (∀ k, parent = some k ↔ ∃ n, p.FirstAround c ref n k) ∧
      (parent = none ↔ ∀ n id, c.around? ref.closure n = some id →
        ¬ p.calls.Runs ⟨ref.compartment, id⟩) ∧
      (∀ steps, c.closures.size ≤ steps →
        p.nearestFrame c ref.compartment cl.parent steps = parent) ∧
      p.lexicalParent ref = .ok parent ∧
      ∀ invocation address, p.calls.isFull = false →
        ∃ q, Exec.pushFrame ref invocation address p = .ok () q ∧
          q.calls = p.calls.add (.new ref cl.code invocation address parent) := by
  obtain ⟨c', there', found⟩ := Process.resolve_eq_ok_iff.mp resolves
  rw [there] at there'
  cases there'
  have linked := Process.lexicalParent_eq there found
  have parent : cl.parent = c.parent? ref.closure := by
    unfold Compartment.parent?
    rw [found]
    rfl
  rw [parent] at linked ⊢
  have complete := fun k steps (enough : c.closures.size ≤ steps) =>
    Process.nearestFrame_complete (k := k) assembled there live enough
  refine ⟨_, fun k => complete k _ (Nat.le_refl _),
    Process.nearestFrame_eq_none_iff assembled there live (Nat.le_refl _), ?_, linked, ?_⟩
  · intro steps enough
    refine Option.ext fun k => ?_
    rw [complete k steps enough, complete k _ (Nat.le_refl _)]
  · intro invocation address room
    rw [Exec.pushFrame_eq linked resolves, if_neg (Bool.eq_false_iff.mp room)]
    exact ⟨_, rfl, rfl⟩

/-- A program with three closures that lie around one another in a circle; the main one calls
itself. -/
def ringing : Compartment :=
  (Compartment.new "ringing").withClosures
    #[.new Compartment.mainName 0 (some 7)
        #[.ofOp (.object .new), ⟨.object .setClosure, 0, 0⟩, .ofOp (.control .stage),
          .ofOp (.control .invoke)],
      .new "middle" 7 (some 2) #[], .new "last" 2 (some 0) #[]]

/-- The scope of the inner frame is found with the last try. -/
theorem nearest_scope_linked_ringing :
    (Process.ranFor ringing 3).compartments[0]? = some ringing ∧
    (Process.ranFor ringing 3).nearestFrame ringing 0 (some 7) 2 = none ∧
    (Process.ranFor ringing 3).lexicalParent ⟨0, 0⟩ = .ok (some 0) ∧
    ∃ n, (Process.ranFor ringing 3).FirstAround ringing ⟨0, 0⟩ n 0 := by
  have there : (Process.ranFor ringing 3).compartments[0]? = some ringing := by decide +kernel
  have short : (Process.ranFor ringing 3).nearestFrame ringing 0 (some 7) 2 = none := by
    decide +kernel
  have full : (Process.ranFor ringing 3).nearestFrame ringing 0 (some 7) 3 = some 0 := by
    decide +kernel
  have frames : (Process.ranFor ringing 3).calls.frames.map (·.closure) = #[⟨0, 0⟩] := by
    decide +kernel
  generalize Process.ranFor ringing 3 = p at *
  have main : ∃ cl, ringing.closure? 0 = some cl ∧ cl.parent = some 7 := ⟨_, rfl, rfl⟩
  obtain ⟨cl, found, outer⟩ := main
  have resolves : p.resolve ⟨0, 0⟩ = .ok cl :=
    Process.resolve_eq_ok_iff.mpr ⟨ringing, there, found⟩
  have live : ∀ f ∈ p.calls.frames, ∃ cl, p.resolve f.closure = .ok cl := fun f mem => by
    have mem := Array.mem_map_of_mem (f := (·.closure)) mem
    rw [frames, Array.mem_singleton] at mem
    exact ⟨cl, mem ▸ resolves⟩
  obtain ⟨parent, first, -, tries, linked, -⟩ :=
    nearest_scope_linked ⟨"ringing", #[], #[], _, rfl⟩ there resolves live
  have some : parent = some 0 := by
    rw [← tries 3 (Nat.le_refl 3), outer]
    exact full
  exact ⟨there, short, some ▸ linked, (first 0).mp some⟩

end ObjectVM
