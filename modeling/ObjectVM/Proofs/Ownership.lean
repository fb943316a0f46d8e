import Mathlib.Data.List.Perm.Subperm
import ObjectVM.Proofs.History

/-!
# Who owns the values in the pool

In every process that requests lead to, each value in the pool is owned by exactly one live object
and each handle of a live object leads to a value (`handles_owned`). So no value leaks, two objects
never share one, the pool never holds more than the heap, and a collection finds every handle that
it erases.
-/
namespace ObjectVM

/-- Whether the live object `id` has the handle `key`. -/
def Process.Owns (p : Process) (id : ObjectId) (key : HandleKey) : Prop :=
  ∃ o, p.heap.get? id = some o ∧ o.handle = some key

/-- The processes in which a collection may start where `p` goes on: `p` itself and those in which
an instruction is executed, and what they are when a frame has returned. -/
inductive Process.Collecting (p : Process) : Process → Prop where
  | asked : Collecting p p
  | instructed {q : Process} {i : Instruction} (x : p.Executing q i) : Collecting p q
  | returned {q : Process} {i : Instruction} {f : Frame} (x : p.Executing q i)
    (top : q.calls.top? = some f) : Collecting p (q.afterReturn f)
  | ended {q : Process} {f : Frame} (delivered : Exec.deliverSignals p = .ok () q)
    (top : q.calls.top? = some f) : Collecting p (q.afterReturn f)

/-- What it means that live objects own the values in the pool one to one: the first two fields say
so, and the others what follows for the sizes of the stores, for collection and for instructions. -/
structure Process.HandlesOwned (p : Process) : Prop where
  held : ∀ id key, p.Owns id key → ∃ v, p.pool.get? key = some v ∧ p.valueOf id = .ok v
  owner : ∀ key, p.pool.contains key = true → ∃! id, p.Owns id key
  sizes : p.pool.live ≤ p.heap.live
  orphans : ∀ q, p.Collecting q → ∀ keys key rest, q.collect.1.orphans = keys ++ key :: rest →
    (Process.eraseHandles q.pool keys).contains key = true
  executing : ∀ q i, p.Executing q i →
    (∀ id key, q.Owns id key → q.pool.contains key = true) ∧
    ∀ key, q.pool.contains key = true → ∃! id, q.Owns id key
  execute : ∀ q i, p.Executing q i → ∀ fault r, Exec.execute i q = .error fault r →
    (∀ key, fault ≠ .pool (.notLive key)) ∧ ∀ id, fault = .noHandle id → ¬ ∃ key, r.Owns id key
  run : ∀ n fault q, Exec.run n p = .error fault q →
    (∀ key, fault ≠ .pool (.notLive key)) ∧ ∀ id, fault = .noHandle id → ¬ ∃ key, q.Owns id key

namespace Stores

variable {heap : Heap} {pool : Pool}

/-- Each value in the pool takes an object of its own. -/
theorem live_le (s : Stores heap pool) : pool.live ≤ heap.live := by
  have sub : pool.keys ⊆ heap.objects.filterMap (·.2.handle) := by
    intro key hk
    obtain ⟨id, o, ho, has⟩ := s.owned key ((Pool.mem_keys s.poolBooks).mp hk)
    exact List.mem_filterMap.mpr ⟨(id, o), (Heap.mem_objects s.heapBooks).mpr ho, has⟩
  calc pool.live = pool.keys.length := (Pool.length_keys s.poolBooks).symm
    _ ≤ (heap.objects.filterMap (·.2.handle)).length :=
      ((Pool.nodup_keys s.poolBooks).subperm sub).length_le
    _ ≤ heap.objects.length := List.length_filterMap_le _ _
    _ = heap.live := Heap.length_objects s.heapBooks

/-- The handles that a collection leaves behind differ, because their owners do. -/
theorem nodup_orphans (s : Stores heap pool) (roots : List ObjectId)
    (edges : HandleKey → List ObjectId) : (heap.collect roots edges).1.orphans.Nodup := by
  have he := Heap.exact_collect s.heapBooks roots edges
  rw [he.orphans, List.Nodup, List.pairwise_filterMap]
  refine he.ascending.imp fun {a b} hab x hx y hy e => ?_
  subst e
  obtain ⟨o, ho, hk⟩ := Option.bind_eq_some_iff.mp hx
  obtain ⟨o', ho', hk'⟩ := Option.bind_eq_some_iff.mp hy
  rw [s.unshared a b o o' x ho ho' hk hk'] at hab
  exact UInt32.lt_irrefl _ hab

end Stores

namespace Process

variable {p : Process}

theorem Sound.owner (s : p.Sound) {key : HandleKey} (live : p.pool.contains key = true) :
    ∃! id, p.Owns id key := by
  obtain ⟨id, o, ho, hk⟩ := s.stores.owned key live
  refine ⟨id, ⟨o, ho, hk⟩, ?_⟩
  rintro id' ⟨o', ho', hk'⟩
  exact s.stores.unshared id' id o' o key ho' ho hk' hk

theorem Sound.contains_of_owns (s : p.Sound) {id : ObjectId} {key : HandleKey}
    (owns : p.Owns id key) : p.pool.contains key = true := by
  obtain ⟨o, ho, hk⟩ := owns
  exact s.stores.held id o key ho hk

/-- When a collection erases handles one after another, each is still there when its turn comes. -/
theorem Sound.orphan_live (s : p.Sound) {keys rest : List HandleKey} {key : HandleKey}
    (split : p.collect.1.orphans = keys ++ key :: rest) :
    (eraseHandles p.pool keys).contains key = true := by
  change (p.heap.collect p.roots p.handleEdges).1.orphans = keys ++ key :: rest at split
  have distinct := s.stores.nodup_orphans p.roots p.handleEdges
  have member : key ∈ (p.heap.collect p.roots p.handleEdges).1.orphans := by
    rw [split]; exact List.mem_append_right _ List.mem_cons_self
  rw [split] at distinct
  have before : key ∉ keys := fun hm =>
    (List.nodup_append.mp distinct).2.2 key hm key List.mem_cons_self rfl
  obtain ⟨id, o, ho, hk, -⟩ := (Stores.mem_orphans s.stores.heapBooks _ _).mp member
  rw [Pool.contains, get?_eraseHandles, if_neg before]
  exact s.stores.held id o key ho hk

theorem Collecting.sound {q : Process} (s : p.Sound) (x : p.Collecting q) : q.Sound := by
  cases x with
  | asked => exact s
  | instructed x => exact x.sound s
  | returned x top => exact ((Path.refl (x.sound s)).afterReturn top).sound
  | ended delivered top =>
    have handled := Exec.ends_deliverSignals s
    rw [delivered] at handled
    exact ((Path.refl handled.sound).afterReturn top).sound

theorem Admits.blamesNoOwner {fault : Fault} (admits : p.Admits fault) :
    (∀ key, fault ≠ .pool (.notLive key)) ∧
      ∀ id, fault = .noHandle id → ¬ ∃ key, p.Owns id key := by
  refine ⟨?_, ?_⟩
  · rintro key rfl
    exact admits
  · rintro id rfl ⟨key, o, ho, hk⟩
    obtain ⟨o', ho', hn⟩ := admits
    rw [ho] at ho'; cases ho'
    rw [hk] at hn; cases hn

end Process

/-- Live objects own the values in the pool one to one in every process that requests lead to. -/
theorem handles_owned {may : Compartment → Prop} {p : Process} (r : p.Reachable may) :
    p.HandlesOwned := by
  have s := r.sound
  refine ⟨fun id key owns => ?_, fun key => s.owner, s.stores.live_le,
    fun q x keys key rest => (x.sound s).orphan_live,
    fun q i x => ⟨fun id key => (x.sound s).contains_of_owns, fun key => (x.sound s).owner⟩,
    fun q i x fault t ht => ?_, fun n fault q hq => ?_⟩
  · obtain ⟨o, ho, hk⟩ := owns
    exact Exec.valueOf_eq s ho hk
  · have ends := Exec.ends_execute (.refl (x.sound s)) i
    rw [ht] at ends
    exact Process.Admits.blamesNoOwner ends.2
  · have ends := Exec.ends_run s n
    rw [hq] at ends
    exact Process.Admits.blamesNoOwner ends.2

/-- A program that gives two objects values, takes one away again, and gives it to a third. -/
def passing : Compartment :=
  (Compartment.new "passing").withClosures #[.new Compartment.mainName 0 none
    #[.ofOp (.object .new), .ofOp (.constant .array), .ofOp (.handle .set),
      .ofOp (.object .new), .ofOp (.constant .map), .ofOp (.handle .set),
      .ofOp (.object .swap), .ofOp (.handle .clear),
      .ofOp (.object .new), .ofOp (.constant .array), .ofOp (.handle .set)]]

theorem handles_owned_passing :
    (Process.ranFor passing 11).pool.free = [] ∧ (Process.ranFor passing 11).pool.live = 2 ∧
    ((Process.ranFor passing 11).heap.get? ⟨2, 0⟩).bind (·.handle) = some ⟨0⟩ ∧
    (Process.ranFor passing 11).Reachable (fun _ => True) ∧
    (Process.ranFor passing 11).HandlesOwned := by
  have reached : (Process.ranFor passing 11).Reachable (fun _ => True) :=
    Process.reachable_ranFor trivial 11
  exact ⟨by decide +kernel, by decide +kernel, by decide +kernel, reached, handles_owned reached⟩

end ObjectVM
