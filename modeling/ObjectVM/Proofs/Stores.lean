import ObjectVM.Machine.Process
import ObjectVM.Proofs.Collection
import ObjectVM.Proofs.PoolLaws

/-!
# Heap and pool together

`Stores` is what holds of the two stores of a process: the values in the pool are owned by the
objects of the heap, each by exactly one, and the ids that objects and pooled values hold name
objects. Each way in which an instruction changes a store keeps it, and so does collection
(`Stores.collect`).
-/
namespace ObjectVM

/-- Live keys of the pool and handles of live objects match one to one, and no id in the stores
dangles. -/
structure Stores (heap : Heap) (pool : Pool) : Prop where
  heapBooks : heap.WellFormed
  poolBooks : pool.WellFormed
  held : ∀ id o key, heap.get? id = some o → o.handle = some key → pool.contains key = true
  unshared : ∀ id id' o o' key, heap.get? id = some o → heap.get? id' = some o' →
    o.handle = some key → o'.handle = some key → id = id'
  owned : ∀ key, pool.contains key = true → ∃ id o, heap.get? id = some o ∧ o.handle = some key
  attributes : ∀ id o key next, heap.get? id = some o → o.attribute? key = some next →
    heap.contains next = true
  pooled : ∀ key v, pool.get? key = some v → ∀ next ∈ v.objectIds, heap.contains next = true

/-! ## Erasing handles -/

theorem eraseHandles_wellFormed (keys : List HandleKey) : ∀ {pool : Pool}, pool.WellFormed →
    (Process.eraseHandles pool keys).WellFormed := by
  induction keys with
  | nil => intro pool hw; exact hw
  | cons k keys ih =>
    intro pool hw
    unfold Process.eraseHandles
    rw [List.foldl_cons]
    cases hv : pool.get? k with
    | none =>
      have : pool.erase k = .error (.notLive k) := by unfold Pool.erase; rw [hv]
      rw [this]
      exact ih hw
    | some v =>
      rw [Pool.erase_eq hv]
      exact ih (Pool.without_wellFormed hw hv)

theorem get?_eraseHandles (keys : List HandleKey) : ∀ (pool : Pool) (j : HandleKey),
    (Process.eraseHandles pool keys).get? j = if j ∈ keys then none else pool.get? j := by
  induction keys with
  | nil => intro pool j; rfl
  | cons k keys ih =>
    intro pool j
    unfold Process.eraseHandles
    rw [List.foldl_cons]
    cases hv : pool.get? k with
    | none =>
      have : pool.erase k = .error (.notLive k) := by unfold Pool.erase; rw [hv]
      rw [this]
      refine (ih pool j).trans ?_
      by_cases hj : j = k
      · simp [hj, hv]
      · simp [hj]
    | some v =>
      rw [Pool.erase_eq hv]
      refine (ih _ j).trans ?_
      rw [Pool.get?_without hv]
      by_cases hj : j = k
      · simp [hj]
      · simp [hj]

namespace Stores

variable {heap : Heap} {pool : Pool} {id : ObjectId} {o : Object} {key : HandleKey} {v : Value}

theorem empty {heapCapacity poolCapacity : Nat} (hh : heapCapacity < UInt32.size)
    (hp : poolCapacity < UInt32.size) : Stores (.empty heapCapacity) (.empty poolCapacity) := by
  refine ⟨Heap.empty_wellFormed (Nat.le_of_lt hh), Pool.empty_wellFormed (Nat.le_of_lt hp), ?_, ?_,
    ?_, ?_, ?_⟩ <;>
    simp [Heap.get?_empty, Pool.get?_empty, Pool.contains]

/-! ## Edits of objects -/

theorem put (s : Stores heap pool) (get : heap.get? id = some o) {o' : Object}
    (handle : o'.handle = o.handle)
    (attributes : ∀ key next, o'.attribute? key = some next → heap.contains next = true) :
    Stores (heap.put id o') pool := by
  -- every object has the handle that it had
  have old : ∀ j x, (heap.put id o').get? j = some x →
      ∃ y, heap.get? j = some y ∧ y.handle = x.handle := by
    intro j x hx
    rw [Heap.get?_put get] at hx
    split at hx
    · next e => cases hx; exact ⟨o, e ▸ get, handle.symm⟩
    · exact ⟨x, hx, rfl⟩
  have live := Heap.contains_put get o'
  refine ⟨Heap.put_wellFormed s.heapBooks get o', s.poolBooks, fun j x k hx hk => ?_,
    fun j j' x x' k hx hx' hk hk' => ?_, fun k hk => ?_, fun j x k next hx hn => ?_,
    fun k v hv next hn => ?_⟩
  · obtain ⟨y, hy, he⟩ := old j x hx
    exact s.held j y k hy (he.trans hk)
  · obtain ⟨y, hy, he⟩ := old j x hx
    obtain ⟨y', hy', he'⟩ := old j' x' hx'
    exact s.unshared j j' y y' k hy hy' (he.trans hk) (he'.trans hk')
  · obtain ⟨j, x, hx, hk⟩ := s.owned k hk
    by_cases hj : j = id
    · subst hj
      rw [get] at hx; cases hx
      exact ⟨j, o', by rw [Heap.get?_put get, if_pos rfl], handle.trans hk⟩
    · exact ⟨j, x, by rw [Heap.get?_put get, if_neg hj, hx], hk⟩
  · rw [live]
    rw [Heap.get?_put get] at hx
    split at hx
    · cases hx; exact attributes k next hn
    · exact s.attributes j x k next hx hn
  · rw [live]
    exact s.pooled k v hv next hn

theorem allocate (s : Stores heap pool) (room : heap.isFull = false) :
    Stores heap.allocate.2 pool := by
  have old : ∀ j x, heap.allocate.2.get? j = some x → x = .blank ∨ heap.get? j = some x := by
    intro j x hx
    rw [Heap.get?_allocate s.heapBooks room] at hx
    split at hx
    · cases hx; exact .inl rfl
    · exact .inr hx
  have live : ∀ j, heap.contains j = true → heap.allocate.2.contains j = true :=
    fun j => Heap.contains_allocate_of_contains s.heapBooks room
  refine ⟨Heap.allocate_wellFormed s.heapBooks room, s.poolBooks, fun j x k hx hk => ?_,
    fun j j' x x' k hx hx' hk hk' => ?_, fun k hk => ?_, fun j x k next hx hn => ?_,
    fun k v hv next hn => live next (s.pooled k v hv next hn)⟩
  · rcases old j x hx with rfl | hx
    · cases hk
    · exact s.held j x k hx hk
  · rcases old j x hx with rfl | hx
    · cases hk
    · rcases old j' x' hx' with rfl | hx'
      · cases hk'
      · exact s.unshared j j' x x' k hx hx' hk hk'
  · obtain ⟨j, x, hx, hk⟩ := s.owned k hk
    have hj : j ≠ heap.allocate.1 := fun e => by
      rw [e, Heap.get?_allocate_fresh s.heapBooks room] at hx; cases hx
    exact ⟨j, x, by rw [Heap.get?_allocate s.heapBooks room, if_neg hj, hx], hk⟩
  · rcases old j x hx with rfl | hx
    · cases hn
    · exact live next (s.attributes j x k next hx hn)

/-! ## Edits of values -/

theorem replace (s : Stores heap pool) (get : pool.get? key = some v) {w : Value}
    (live : ∀ next ∈ w.objectIds, heap.contains next = true) :
    Stores heap (pool.replace key w) := by
  have same := Pool.contains_replace get w
  refine ⟨s.heapBooks, Pool.replace_wellFormed s.poolBooks get w,
    fun j x k hx hk => by rw [same]; exact s.held j x k hx hk, s.unshared,
    fun k hk => s.owned k (by rwa [same] at hk), s.attributes, fun k x hx next hn => ?_⟩
  rw [Pool.get?_replace get] at hx
  split at hx
  · cases hx; exact live next hn
  · exact s.pooled k x hx next hn

theorem attach (s : Stores heap pool) (get : heap.get? id = some o) (free : o.handle = none)
    (room : pool.isFull = false) (live : ∀ next ∈ v.objectIds, heap.contains next = true) :
    Stores (heap.put id { o with handle := some (pool.allocate v).1 }) (pool.allocate v).2 := by
  have fresh : ∀ j x k, heap.get? j = some x → x.handle = some k → k ≠ (pool.allocate v).1 := by
    intro j x k hx hk e
    obtain ⟨w, hw⟩ := Pool.contains_iff.mp (s.held j x k hx hk)
    rw [e, Pool.get?_allocate_fresh s.poolBooks room] at hw
    cases hw
  have hpool := Pool.get?_allocate s.poolBooks room v
  have hlive := Heap.contains_put get { o with handle := some (pool.allocate v).1 }
  refine ⟨Heap.put_wellFormed s.heapBooks get _, Pool.allocate_wellFormed s.poolBooks room v,
    fun j x k hx hk => ?_, fun j j' x x' k hx hx' hk hk' => ?_, fun k hk => ?_,
    fun j x k next hx hn => ?_, fun k x hx next hn => ?_⟩
  · rw [Heap.get?_put get] at hx
    rw [Pool.contains, hpool]
    split at hx
    · cases hx; cases hk; simp
    · rw [if_neg (fresh j x k hx hk)]
      exact s.held j x k hx hk
  · rw [Heap.get?_put get] at hx hx'
    split at hx <;> split at hx'
    · next e e' => rw [e, e']
    · cases hx; cases hk
      exact absurd rfl (fresh j' x' _ hx' hk')
    · cases hx'; cases hk'
      exact absurd rfl (fresh j x _ hx hk)
    · exact s.unshared j j' x x' k hx hx' hk hk'
  · by_cases he : k = (pool.allocate v).1
    · subst he
      exact ⟨id, _, by rw [Heap.get?_put get, if_pos rfl], rfl⟩
    · rw [Pool.contains, hpool, if_neg he] at hk
      obtain ⟨j, x, hx, hxk⟩ := s.owned k hk
      have hj : j ≠ id := fun e => by
        rw [e, get] at hx; cases hx; rw [free] at hxk; cases hxk
      exact ⟨j, x, by rw [Heap.get?_put get, if_neg hj, hx], hxk⟩
  · rw [hlive]
    rw [Heap.get?_put get] at hx
    split at hx
    · cases hx; exact s.attributes id o k next get hn
    · exact s.attributes j x k next hx hn
  · rw [hlive]
    rw [hpool] at hx
    split at hx
    · cases hx; exact live next hn
    · exact s.pooled k x hx next hn

theorem detach (s : Stores heap pool) (get : heap.get? id = some o) (has : o.handle = some key) :
    Stores (heap.put id { o with handle := none }) (pool.without key) := by
  obtain ⟨v, hv⟩ := Pool.contains_iff.mp (s.held id o key get has)
  have hpool := Pool.get?_without hv
  have hlive := Heap.contains_put get { o with handle := none }
  have other : ∀ j x k, j ≠ id → heap.get? j = some x → x.handle = some k → k ≠ key := by
    intro j x k hj hx hk e
    subst e
    exact hj (s.unshared j id x o k hx get hk has)
  refine ⟨Heap.put_wellFormed s.heapBooks get _, Pool.without_wellFormed s.poolBooks hv,
    fun j x k hx hk => ?_, fun j j' x x' k hx hx' hk hk' => ?_, fun k hk => ?_,
    fun j x k next hx hn => ?_, fun k x hx next hn => ?_⟩
  · rw [Heap.get?_put get] at hx
    split at hx
    · cases hx; cases hk
    · next hj =>
      rw [Pool.contains, hpool, if_neg (other j x k hj hx hk)]
      exact s.held j x k hx hk
  · rw [Heap.get?_put get] at hx hx'
    split at hx
    · cases hx; cases hk
    · split at hx'
      · cases hx'; cases hk'
      · exact s.unshared j j' x x' k hx hx' hk hk'
  · rw [Pool.contains, hpool] at hk
    split at hk
    · cases hk
    · next he =>
      obtain ⟨j, x, hx, hxk⟩ := s.owned k hk
      have hj : j ≠ id := fun e => by
        rw [e, get] at hx; cases hx; rw [has] at hxk; cases hxk; exact he rfl
      exact ⟨j, x, by rw [Heap.get?_put get, if_neg hj, hx], hxk⟩
  · rw [hlive]
    rw [Heap.get?_put get] at hx
    split at hx
    · cases hx; exact s.attributes id o k next get hn
    · exact s.attributes j x k next hx hn
  · rw [hlive]
    rw [hpool] at hx
    split at hx
    · cases hx
    · exact s.pooled k x hx next hn

/-! ## Collection -/

/-- The handles left behind are those of the objects out of reach. -/
theorem mem_orphans (hw : heap.WellFormed) (roots : List ObjectId)
    (edges : HandleKey → List ObjectId) :
    key ∈ (heap.collect roots edges).1.orphans ↔
      ∃ id o, heap.get? id = some o ∧ o.handle = some key ∧ ¬ heap.Reached roots edges id := by
  have he := Heap.exact_collect hw roots edges
  rw [he.orphans, List.mem_filterMap]
  constructor
  · rintro ⟨id, hid, hk⟩
    obtain ⟨live, hr⟩ := (he.reclaimed id).mp hid
    obtain ⟨o, ho⟩ := Heap.contains_iff.mp live
    rw [ho] at hk
    exact ⟨id, o, ho, hk, hr⟩
  · rintro ⟨id, o, ho, hk, hr⟩
    refine ⟨id, (he.reclaimed id).mpr ⟨Heap.contains_of_get? ho, hr⟩, ?_⟩
    rw [ho]; exact hk

theorem collect (s : Stores heap pool) (roots : List ObjectId) {edges : HandleKey → List ObjectId}
    (led : ∀ key v, pool.get? key = some v → ∀ next ∈ v.objectIds, next ∈ edges key) :
    Stores (heap.collect roots edges).2
      (Process.eraseHandles pool (heap.collect roots edges).1.orphans) := by
  have hkept := Heap.get?_collect s.heapBooks roots edges
  have hlive := Heap.contains_collect s.heapBooks roots edges
  have hpool := get?_eraseHandles (heap.collect roots edges).1.orphans pool
  have horphan := fun k => @mem_orphans heap k s.heapBooks roots edges
  -- a value that is left has an owner that stays
  have owner : ∀ k v, (Process.eraseHandles pool (heap.collect roots edges).1.orphans).get? k =
      some v → pool.get? k = some v ∧
        ∃ id o, heap.get? id = some o ∧ o.handle = some k ∧ heap.Reached roots edges id := by
    intro k v hv
    rw [hpool] at hv
    split at hv
    · cases hv
    · next hk =>
      obtain ⟨id, o, ho, hok⟩ := s.owned k (Pool.contains_of_get? hv)
      refine ⟨hv, id, o, ho, hok, Classical.byContradiction fun hr => hk ?_⟩
      exact (horphan k).mpr ⟨id, o, ho, hok, hr⟩
  refine ⟨Heap.collect_wellFormed s.heapBooks roots edges, eraseHandles_wellFormed _ s.poolBooks,
    fun j x k hx hk => ?_, fun j j' x x' k hx hx' hk hk' => ?_, fun k hk => ?_,
    fun j x k next hx hn => ?_, fun k x hx next hn => ?_⟩
  · obtain ⟨hx, hr⟩ := (hkept j x).mp hx
    rw [Pool.contains, hpool, if_neg]
    · exact s.held j x k hx hk
    · intro hm
      obtain ⟨j', x', hx', hk', hr'⟩ := (horphan k).mp hm
      rw [s.unshared j' j x' x k hx' hx hk' hk] at hr'
      exact hr' hr
  · exact s.unshared j j' x x' k ((hkept j x).mp hx).1 ((hkept j' x').mp hx').1 hk hk'
  · obtain ⟨v, hv⟩ := Pool.contains_iff.mp hk
    obtain ⟨-, id, o, ho, hok, hr⟩ := owner k v hv
    exact ⟨id, o, (hkept id o).mpr ⟨ho, hr⟩, hok⟩
  · obtain ⟨hx, hr⟩ := (hkept j x).mp hx
    exact (hlive next).mpr (hr.bound hx hn (s.attributes j x k next hx hn))
  · obtain ⟨hv, id, o, ho, hok, hr⟩ := owner k x hx
    exact (hlive next).mpr (hr.held ho hok (led k x hv next hn) (s.pooled k x hv next hn))

end Stores

end ObjectVM
