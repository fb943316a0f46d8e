import Mathlib.Data.List.Forall2
import Mathlib.Data.List.Induction
import ObjectVM.Proofs.Loading
import ObjectVM.Proofs.Opcodes

/-!
# Which containers are loaded

A container is loaded if and only if it is well formed (`Container.WellFormed`), into the
compartment that it describes (`Container.Describes`). Any other is refused for its first violation
(`Container.Violates`): of its format before its closures, of its closures in their order, and in
each of them of its number before its codes and of its codes before its catch sites
(`loads_exactly`).

The loops of the loader are followed forward over the records that they pass:

* `ClosureRecord.decode_known`: known codes are decoded, whatever comes behind them.
* `ClosureRecord.closures_accepted`: closures that violate nothing are made, whatever comes behind
  them.
-/
namespace ObjectVM

/-! ## First of a list -/

/-- `a` is the first in a list that is not good; `before` are those before it. -/
structure FirstBad {α : Type} (Good : α → Prop) (l before : List α) (a : α) : Prop where
  split : ∃ after, l = before ++ a :: after
  good : ∀ b ∈ before, Good b
  bad : ¬ Good a

theorem good_or_firstBad {α : Type} (Good : α → Prop) (l : List α) :
    (∀ a ∈ l, Good a) ∨ ∃ before a, FirstBad Good l before a := by
  induction l with
  | nil => exact .inl fun a mem => absurd mem List.not_mem_nil
  | cons a l ih =>
    by_cases good : Good a
    · rcases ih with all | ⟨before, b, ⟨after, rfl⟩, goods, bad⟩
      · exact .inl (List.forall_mem_cons.mpr ⟨good, all⟩)
      · exact .inr ⟨a :: before, b, ⟨after, rfl⟩, List.forall_mem_cons.mpr ⟨good, goods⟩, bad⟩
    · exact .inr ⟨[], a, ⟨l, rfl⟩, fun b mem => absurd mem List.not_mem_nil, good⟩

/-! ## What is accepted, and what is made of it -/

/-- Whether an opcode has the code. -/
def InstructionRecord.IsKnown (r : InstructionRecord) : Prop := ∃ op : Op, op.code = r.code

/-- `i` is the instruction that a record stores. -/
structure InstructionRecord.Describes (r : InstructionRecord) (i : Instruction) : Prop where
  code : i.op.code = r.code
  first : i.first = r.first
  second : i.second = r.second

/-- The catch site that a record stores. -/
def CatchRecord.site (r : CatchRecord) : CatchSite :=
  ⟨r.first.toNat, r.last.toNat, r.target.toNat⟩

/-- The position that a record stores. -/
def PositionRecord.position (r : PositionRecord) : Position := ⟨r.line, r.column⟩

namespace ClosureRecord

/-- Whether a catch site of the closure resumes inside its code. -/
def ResumesInside (r : ClosureRecord) (s : CatchRecord) : Prop :=
  s.target.toNat < r.instructions.length

/-- Every code is known, and every catch site resumes inside the code. -/
structure WellFormed (r : ClosureRecord) : Prop where
  known : ∀ i ∈ r.instructions, i.IsKnown
  inside : ∀ s ∈ r.catchSites, r.ResumesInside s

/-- `c` is the closure that a record stores. Of several positions of one instruction, the last
counts. -/
structure Describes (r : ClosureRecord) (c : Closure) : Prop where
  name : c.name = r.name
  id : c.id = r.id
  parent : c.parent = r.parent
  code : r.instructions.Forall₂ InstructionRecord.Describes c.code.toList
  positions : ∀ index, c.positions.get? index =
    (r.positions.reverse.find? (·.index == index)).map (·.position)
  catchSites : c.catchSites = r.catchSites.map (·.site)

/-- No two records of a list have the same number, and each is well formed. -/
structure Accepted (rs : List ClosureRecord) : Prop where
  distinct : (rs.map (·.id)).Nodup
  each : ∀ r ∈ rs, r.WellFormed

/-- The first violation in a record by itself. -/
inductive Violates (r : ClosureRecord) : LoadError → Prop where
  | code {before : List InstructionRecord} {i : InstructionRecord}
    (first : FirstBad (·.IsKnown) r.instructions before i) :
    Violates r (.unknownOpcode r.name before.length i.code)
  | catchSite {before : List CatchRecord} {s : CatchRecord}
    (known : ∀ i ∈ r.instructions, i.IsKnown)
    (first : FirstBad r.ResumesInside r.catchSites before s) :
    Violates r (.invalidCatchSite r.name s.target)

end ClosureRecord

namespace Container

/-- Whether the format and its version are the known ones, as far as they are said. -/
structure HasKnownFormat (c : Container) : Prop where
  format : c.format = "" ∨ c.format = knownFormat
  version : c.formatVersion = "" ∨ c.formatVersion = knownVersion

/-- The format is known, and nothing is wrong with the closures. -/
structure WellFormed (c : Container) : Prop where
  known : c.HasKnownFormat
  closures : ClosureRecord.Accepted c.closures

/-- `k` is the compartment that a container stores. -/
structure Describes (c : Container) (k : Compartment) : Prop where
  path : k.path = c.path
  strings : k.strings.toList = c.strings
  floats : k.floats.toList = c.floats
  closures : c.closures.Forall₂ ClosureRecord.Describes k.closures.toList
  found : ∀ (n : Nat) (r : ClosureRecord), c.closures[n]? = some r →
    ∃ cl, k.closures[n]? = some cl ∧ k.closure r.id = .ok cl

/-- The first violation in a container. -/
inductive Violates (c : Container) : LoadError → Prop where
  | format (unknown : ¬ c.HasKnownFormat) : Violates c (.unsupportedFormat c.format c.formatVersion)
  | number {before after : List ClosureRecord} {r : ClosureRecord} (known : c.HasKnownFormat)
    (split : c.closures = before ++ r :: after) (accepted : ClosureRecord.Accepted before)
    (again : r.id ∈ before.map (·.id)) : Violates c (.duplicateClosure r.id)
  | closure {before after : List ClosureRecord} {r : ClosureRecord} {e : LoadError}
    (known : c.HasKnownFormat) (split : c.closures = before ++ r :: after)
    (accepted : ClosureRecord.Accepted before) (new : r.id ∉ before.map (·.id))
    (violates : r.Violates e) : Violates c e

end Container

/-! ## Instructions -/

namespace InstructionRecord

variable {r : InstructionRecord}

theorem instruction?_of_known (known : r.IsKnown) :
    ∃ i, r.instruction? = some i ∧ r.Describes i := by
  obtain ⟨op, same⟩ := known
  refine ⟨⟨op, r.first, r.second⟩, ?_, same, rfl, rfl⟩
  rw [instruction?, Op.ofCode?_eq_some_iff.mpr same]
  rfl

theorem instruction?_of_unknown (unknown : ¬ r.IsKnown) : r.instruction? = none := by
  unfold instruction?
  cases found : Op.ofCode? r.code with
  | none => rfl
  | some op => exact absurd ⟨op, Op.ofCode?_eq_some_iff.mp found⟩ unknown

end InstructionRecord

namespace ClosureRecord

variable {r : ClosureRecord}

-- The equations of `decode` match on `instruction?`: opened there, it would evaluate the table of
-- all opcodes.
attribute [local irreducible] InstructionRecord.instruction?

theorem decode_nil (name : String) (done : List Instruction) :
    decode name done [] = .ok done.reverse := by
  rfl

theorem decode_cons (name : String) (done : List Instruction) (i : InstructionRecord)
    (rest : List InstructionRecord) :
    decode name done (i :: rest) = match i.instruction? with
      | some i => decode name (i :: done) rest
      | none => .error (.unknownOpcode name done.length i.code) := by
  rfl

/-- Known codes are decoded one after another, whatever comes behind them. -/
theorem decode_known (name : String) (records : List InstructionRecord)
    (known : ∀ i ∈ records, i.IsKnown) :
    ∃ code, records.Forall₂ InstructionRecord.Describes code ∧ ∀ done rest,
      decode name done (records ++ rest) = decode name (code.reverse ++ done) rest := by
  induction records with
  | nil => exact ⟨[], .nil, fun _ _ => rfl⟩
  | cons r records ih =>
    obtain ⟨first, known⟩ := List.forall_mem_cons.mp known
    obtain ⟨i, found, describes⟩ := InstructionRecord.instruction?_of_known first
    obtain ⟨code, all, decoded⟩ := ih known
    refine ⟨i :: code, .cons describes all, fun done rest => ?_⟩
    rw [List.cons_append, decode_cons, found]
    dsimp only
    rw [decoded, List.reverse_cons, List.append_assoc]
    rfl

theorem decode_ok (known : ∀ i ∈ r.instructions, i.IsKnown) :
    ∃ code, r.instructions.Forall₂ InstructionRecord.Describes code ∧
      decode r.name [] r.instructions = .ok code := by
  obtain ⟨code, all, decoded⟩ := decode_known r.name r.instructions known
  refine ⟨code, all, ?_⟩
  have ran := decoded [] []
  rw [List.append_nil, List.append_nil] at ran
  rw [ran, decode_nil, List.reverse_reverse]

/-- The first unknown code is told with its place. -/
theorem decode_firstBad {before : List InstructionRecord} {i : InstructionRecord}
    (first : FirstBad (·.IsKnown) r.instructions before i) :
    decode r.name [] r.instructions = .error (.unknownOpcode r.name before.length i.code) := by
  obtain ⟨⟨after, split⟩, good, bad⟩ := first
  obtain ⟨code, all, decoded⟩ := decode_known r.name before good
  rw [split, decoded, decode_cons, InstructionRecord.instruction?_of_unknown bad]
  simp [all.length_eq]

/-! ## Catch sites and positions -/

theorem strayCatch?_none (inside : ∀ s ∈ r.catchSites, r.ResumesInside s) :
    strayCatch? r.instructions.length r.catchSites = none := by
  refine List.find?_eq_none.mpr fun s mem => ?_
  simpa [ResumesInside] using inside s mem

theorem strayCatch?_firstBad {before : List CatchRecord} {s : CatchRecord}
    (first : FirstBad r.ResumesInside r.catchSites before s) :
    strayCatch? r.instructions.length r.catchSites = some s := by
  obtain ⟨⟨after, split⟩, good, bad⟩ := first
  refine List.find?_eq_some_iff_append.mpr ⟨?_, before, after, split, fun b mem => ?_⟩
  · simpa [ResumesInside] using bad
  · simpa [ResumesInside] using good b mem

/-- The last position of an instruction stands. -/
theorem get?_positions (l : List PositionRecord) (index : UInt64) :
    (KeyMap.ofList (l.map fun p => (p.index, p.position))).get? index =
      (l.reverse.find? (·.index == index)).map (·.position) := by
  have lookup : ∀ l : List PositionRecord,
      (l.map fun p => (p.index, p.position)).lookup index =
        (l.find? (·.index == index)).map (·.position) := by
    intro l
    induction l with
    | nil => rfl
    | cons p l ih =>
      rw [List.map_cons, List.lookup_cons, List.find?_cons, ih, BEq.comm]
      cases p.index == index <;> rfl
  rw [KeyMap.ofList, KeyMap.get?_insertAll_eq, ← List.map_reverse, lookup, KeyMap.get?_empty,
    Option.or_none]

/-! ## Closures -/

theorem closure_of_wellFormed (good : r.WellFormed) : ∃ c, r.closure = .ok c ∧ r.Describes c := by
  obtain ⟨code, all, decoded⟩ := decode_ok good.known
  unfold closure
  rw [decoded]
  simp only [bind, Except.bind]
  rw [← all.length_eq, strayCatch?_none good.inside]
  exact ⟨_, rfl, rfl, rfl, rfl, all, get?_positions r.positions, rfl⟩

theorem closure_of_violation {e : LoadError} (violates : r.Violates e) : r.closure = .error e := by
  unfold closure
  cases violates with
  | code first =>
    rw [decode_firstBad first]
    rfl
  | catchSite known first =>
    obtain ⟨code, all, decoded⟩ := decode_ok known
    rw [decoded]
    simp only [bind, Except.bind]
    rw [← all.length_eq, strayCatch?_firstBad first]

theorem wellFormed_or_violates (r : ClosureRecord) : r.WellFormed ∨ ∃ e, r.Violates e := by
  rcases good_or_firstBad (·.IsKnown) r.instructions with known | ⟨before, i, first⟩
  · rcases good_or_firstBad r.ResumesInside r.catchSites with inside | ⟨before, s, first⟩
    · exact .inl ⟨known, inside⟩
    · exact .inr ⟨_, .catchSite known first⟩
  · exact .inr ⟨_, .code first⟩

theorem accepted_nil : Accepted [] := ⟨.nil, fun _ mem => absurd mem List.not_mem_nil⟩

theorem accepted_concat {rs : List ClosureRecord} :
    Accepted (rs ++ [r]) ↔ Accepted rs ∧ r.id ∉ rs.map (·.id) ∧ r.WellFormed := by
  constructor
  · intro ⟨distinct, each⟩
    rw [List.map_append, List.map_singleton, List.nodup_append] at distinct
    refine ⟨⟨distinct.1, fun s mem => each s (List.mem_append_left _ mem)⟩, fun mem => ?_,
      each r (List.mem_append_right _ (List.mem_singleton_self r))⟩
    exact distinct.2.2 _ mem _ (List.mem_singleton_self _) rfl
  · intro ⟨⟨distinct, each⟩, new, good⟩
    refine ⟨?_, fun s mem => ?_⟩
    · rw [List.map_append, List.map_singleton]
      exact List.nodup_append.mpr ⟨distinct, List.nodup_singleton _, fun a ha b hb same =>
        new (List.mem_singleton.mp hb ▸ same ▸ ha)⟩
    · rcases List.mem_append.mp mem with mem | mem
      · exact each s mem
      · exact List.mem_singleton.mp mem ▸ good

/-- Unless all are accepted, there is a first record that is not, behind others that are. -/
theorem accepted_or_first (rs : List ClosureRecord) : Accepted rs ∨
    ∃ before r after, rs = before ++ r :: after ∧ Accepted before ∧ ¬ Accepted (before ++ [r]) := by
  induction rs using List.reverseRecOn with
  | nil => exact .inl accepted_nil
  | append_singleton rs r ih =>
    rcases ih with accepted | ⟨before, s, after, rfl, accepted, refused⟩
    · by_cases all : Accepted (rs ++ [r])
      · exact .inl all
      · exact .inr ⟨rs, r, [], rfl, accepted, all⟩
    · exact .inr ⟨before, s, after ++ [r], by simp, accepted, refused⟩

/-- Closures that violate nothing are made one after another, whatever comes behind them. -/
theorem closures_accepted (rs : List ClosureRecord) : ∀ seen : KeyMap Unit, Accepted rs →
    (∀ r ∈ rs, seen.contains r.id = false) →
    ∃ cls seen', rs.Forall₂ Describes cls ∧
      (∀ id, seen'.contains id = true ↔ id ∈ rs.map (·.id) ∨ seen.contains id = true) ∧
      ∀ done rest, closures seen done (rs ++ rest) = closures seen' (cls.reverse ++ done) rest := by
  induction rs with
  | nil =>
    intro seen _ _
    exact ⟨[], seen, .nil, fun id => by simp, fun _ _ => rfl⟩
  | cons r rs ih =>
    intro seen ⟨distinct, each⟩ new
    obtain ⟨apart, distinct⟩ := List.nodup_cons.mp distinct
    obtain ⟨good, each⟩ := List.forall_mem_cons.mp each
    obtain ⟨unseen, new⟩ := List.forall_mem_cons.mp new
    obtain ⟨c, made, describes⟩ := closure_of_wellFormed good
    have still : ∀ s ∈ rs, (seen.insert r.id ()).contains s.id = false := by
      intro s mem
      rw [← Bool.not_eq_true, KeyMap.contains_insert, new s mem]
      rintro (same | seen)
      · exact apart (List.mem_map.mpr ⟨s, mem, same⟩)
      · cases seen
    obtain ⟨cls, seen', all, contains, ran⟩ := ih (seen.insert r.id ()) ⟨distinct, each⟩ still
    refine ⟨c :: cls, seen', .cons describes all, fun id => ?_, fun done rest => ?_⟩
    · rw [contains, KeyMap.contains_insert, List.map_cons, List.mem_cons]
      exact or_left_comm.trans or_assoc.symm
    · rw [List.cons_append, closures, if_neg (by rw [unseen]; exact Bool.false_ne_true), made]
      dsimp only
      rw [ran, List.reverse_cons, List.append_assoc]
      rfl

/-- The same from the start, when no number has been seen. -/
theorem closures_start {rs : List ClosureRecord} (accepted : Accepted rs) :
    ∃ cls seen, rs.Forall₂ Describes cls ∧
      (∀ id, seen.contains id = true ↔ id ∈ rs.map (·.id)) ∧
      ∀ rest, closures ∅ [] (rs ++ rest) = closures seen cls.reverse rest := by
  obtain ⟨cls, seen, all, contains, ran⟩ := closures_accepted rs ∅ accepted fun _ _ => rfl
  refine ⟨cls, seen, all, fun id => ?_, fun rest => ?_⟩
  · rw [contains]
    exact or_iff_left Bool.false_ne_true
  · rw [ran, List.append_nil]

end ClosureRecord

/-! ## Containers -/

namespace Container

variable {c : Container} {e : LoadError}

theorem isKnown_iff : c.isKnown = true ↔ c.HasKnownFormat := by
  unfold isKnown
  rw [Bool.and_eq_true, Bool.or_eq_true, Bool.or_eq_true]
  simp only [decide_eq_true_eq]
  exact ⟨fun h => ⟨h.1, h.2⟩, fun h => ⟨h.format, h.version⟩⟩

/-- Behind a known format, the closures are made. -/
theorem ofContainer_of_known (known : c.HasKnownFormat) :
    Compartment.ofContainer c = (ClosureRecord.closures ∅ [] c.closures).map fun cls =>
      ((Compartment.new c.path).withLiterals c.strings.toArray c.floats.toArray).withClosures
        cls.toArray := by
  unfold Compartment.ofContainer
  rw [isKnown_iff.mpr known]
  rfl

theorem ids_eq {rs : List ClosureRecord} {cls : List Closure}
    (all : rs.Forall₂ ClosureRecord.Describes cls) : cls.map (·.id) = rs.map (·.id) := by
  induction all with
  | nil => rfl
  | cons describes _ ih => rw [List.map_cons, List.map_cons, describes.id, ih]

/-- Of closures with distinct numbers, each is found under the number of the record behind it. -/
theorem closure_of_record {k : Compartment} {rs : List ClosureRecord} {cls : List Closure}
    (distinct : (rs.map (·.id)).Nodup) (all : rs.Forall₂ ClosureRecord.Describes cls) {n : Nat}
    {r : ClosureRecord} (there : rs[n]? = some r) :
    ∃ cl, cls[n]? = some cl ∧ (k.withClosures cls.toArray).closure r.id = .ok cl := by
  have same := ids_eq all
  have ids : (cls[n]?).map (·.id) = some r.id := by
    rw [← List.getElem?_map, same, List.getElem?_map, there]
    rfl
  obtain ⟨cl, at_n, id⟩ := Option.map_eq_some_iff.mp ids
  have found : (k.withClosures cls.toArray).closure? cl.id = some cl :=
    Compartment.closure?_withClosures (by rwa [List.toList_toArray, same])
      (List.mem_toArray.mpr (List.mem_of_getElem? at_n))
  refine ⟨cl, at_n, ?_⟩
  rw [Compartment.closure, ← id, found]

/-- A well-formed container is loaded. -/
theorem ofContainer_of_wellFormed (good : c.WellFormed) :
    ∃ k, Compartment.ofContainer c = .ok k ∧ c.Describes k := by
  obtain ⟨cls, seen, all, -, ran⟩ := ClosureRecord.closures_start good.closures
  have made := ran []
  rw [List.append_nil, ClosureRecord.closures, List.reverse_reverse] at made
  rw [ofContainer_of_known good.known, made]
  refine ⟨_, rfl, rfl, rfl, rfl, all, fun n r there => ?_⟩
  rw [show (_ : Compartment).closures = cls.toArray from rfl, List.getElem?_toArray]
  exact closure_of_record good.closures.distinct all there

/-- A violation is told when the records before it have been passed. -/
theorem ofContainer_of_violation (violates : c.Violates e) :
    Compartment.ofContainer c = .error e := by
  cases violates with
  | format unknown =>
    unfold Compartment.ofContainer
    rw [Bool.eq_false_iff.mpr (mt isKnown_iff.mp unknown)]
    rfl
  | number known split accepted again =>
    obtain ⟨cls, seen, -, contains, ran⟩ := ClosureRecord.closures_start accepted
    rw [ofContainer_of_known known, split, ran, ClosureRecord.closures,
      if_pos ((contains _).mpr again)]
    rfl
  | closure known split accepted new violates =>
    obtain ⟨cls, seen, -, contains, ran⟩ := ClosureRecord.closures_start accepted
    rw [ofContainer_of_known known, split, ran, ClosureRecord.closures,
      if_neg (mt (contains _).mp new), ClosureRecord.closure_of_violation violates]
    rfl

theorem wellFormed_or_violates (c : Container) : c.WellFormed ∨ ∃ e, c.Violates e := by
  by_cases known : c.HasKnownFormat
  · rcases ClosureRecord.accepted_or_first c.closures with
      accepted | ⟨before, r, after, split, accepted, refused⟩
    · exact .inl ⟨known, accepted⟩
    · by_cases again : r.id ∈ before.map (·.id)
      · exact .inr ⟨_, .number known split accepted again⟩
      · rcases r.wellFormed_or_violates with good | ⟨e, violates⟩
        · exact absurd (ClosureRecord.accepted_concat.mpr ⟨accepted, again, good⟩) refused
        · exact .inr ⟨e, .closure known split accepted again violates⟩
  · exact .inr ⟨_, .format known⟩

/-- Exactly the well-formed containers are loaded, into what they describe; of another, the first
violation is told. -/
theorem loads_exactly (c : Container) :
    ((∃ k, Compartment.ofContainer c = .ok k) ↔ c.WellFormed) ∧
      (∀ k, Compartment.ofContainer c = .ok k → c.Describes k) ∧
      ∀ e, Compartment.ofContainer c = .error e ↔ c.Violates e := by
  rcases c.wellFormed_or_violates with good | ⟨first, violates⟩
  · obtain ⟨k, made, describes⟩ := ofContainer_of_wellFormed good
    refine ⟨⟨fun _ => good, fun _ => ⟨k, made⟩⟩, fun k' same => ?_, fun e => ⟨fun refused => ?_,
      fun violates => ofContainer_of_violation violates⟩⟩
    · cases made.symm.trans same
      exact describes
    · cases made.symm.trans refused
  · have refused := ofContainer_of_violation violates
    refine ⟨⟨fun ⟨k, made⟩ => ?_, fun good => ?_⟩, fun k made => ?_, fun e => ⟨fun same => ?_,
      ofContainer_of_violation⟩⟩
    · cases refused.symm.trans made
    · obtain ⟨k, made, -⟩ := ofContainer_of_wellFormed good
      cases refused.symm.trans made
    · cases refused.symm.trans made
    · cases refused.symm.trans same
      exact violates

end Container

end ObjectVM
