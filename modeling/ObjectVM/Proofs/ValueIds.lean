import ObjectVM.Machine.Values
import ObjectVM.Proofs.KeyMapLaws
import ObjectVM.Proofs.Sound

/-!
# Ids in values

Operations on values make no ids up: whatever a heap holds of the operands it holds of the result
(`ValueOp.passes`). Numbers and texts hold none; arrays and maps hold ids of the containers that
they are made from, or the one that is put in.
-/
namespace ObjectVM

/-- Whatever the result is, if there is one, it satisfies `Q`. -/
def Yields {ε α : Type} (r : Except ε α) (Q : α → Prop) : Prop := ∀ a, r = .ok a → Q a

namespace Yields

variable {ε α β : Type} {Q : α → Prop} {R : β → Prop}

theorem ok {a : α} (h : Q a) : Yields (.ok a : Except ε α) Q := fun _ e => by cases e; exact h

theorem error {e : ε} : Yields (.error e : Except ε α) Q := fun _ h => by cases h

theorem any {r : Except ε α} : Yields r fun _ => True := fun _ _ => trivial

theorem bind {r : Except ε α} {f : α → Except ε β} (hr : Yields r Q)
    (hf : ∀ a, Q a → Yields (f a) R) :
    Yields (r >>= f) R := by
  cases r with
  | ok a => exact hf a (hr a rfl)
  | error e => exact fun _ h => by cases h

theorem map {r : Except ε α} {f : α → β} (hr : Yields r fun a => R (f a)) : Yields (r.map f) R := by
  cases r with
  | ok a => exact ok (hr a rfl)
  | error e => exact error

end Yields

/-- Whether a heap holds the ids of what an action makes if it holds those of its operands. -/
def Action.Passes (h : Heap) : Action → Prop
  | .compute n f => ∀ v (ws : Vector Value n), h.Holds v.objectIds →
    (∀ w ∈ ws.toList, h.Holds w.objectIds) → Yields (f v ws) fun r => h.Holds r.objectIds
  | .read n f => ∀ v (ws : Vector Value n), h.Holds v.objectIds →
    Yields (f v ws) fun id => h.contains id = true
  | .store n f => ∀ v (ws : Vector Value n) id, h.Holds v.objectIds → h.contains id = true →
    Yields (f v ws id) fun r => h.Holds r.objectIds
  | .exchange f => ∀ a b, h.Holds a.objectIds → h.Holds b.objectIds →
    Yields (f a b) fun (a', b') => h.Holds a'.objectIds ∧ h.Holds b'.objectIds

variable {h : Heap}

theorem Operands.first_mem {n : Nat} (ws : Vector Value (n + 1)) : first ws ∈ ws.toList :=
  Vector.mem_toList_iff.mpr (Vector.getElem_mem _)

/-- What tells an order holds no ids. -/
theorem Value.holds_ofOrdering (o : Ordering) : h.Holds (Value.ofOrdering o).objectIds := by
  cases o <;> exact Heap.holds_nil h

/-! ## Texts -/

theorem Texts.yields_mapChars (operation : String) (f : List Char → List Char) (s : Value) :
    Yields (mapChars operation f s) fun r => h.Holds r.objectIds :=
  .bind .any fun _ _ => .ok (Heap.holds_nil h)

/-- Operations on texts give numbers, truth values and texts. -/
theorem TextOp.passes (op : TextOp) : op.action.Passes h := by
  have none := Heap.holds_nil h
  cases op
  case exchange =>
    exact fun a b _ _ => .bind .any fun _ _ => .bind .any fun _ _ => .ok ⟨none, none⟩
  case reverse | upper | lower | trim | trimStart | trimEnd =>
    exact fun s _ _ _ => Texts.yields_mapChars _ _ s
  case length | clear => exact fun _ _ _ _ => .bind .any fun _ _ => .ok none
  case append | push | erase | substring | find | findLast | startsWith | endsWith =>
    exact fun _ _ _ _ => .bind .any fun _ _ => .bind .any fun _ _ => .ok none
  case compare =>
    exact fun _ _ _ _ => .bind .any fun _ _ => .bind .any fun _ _ =>
      .ok (Value.holds_ofOrdering _)
  case insert | insertChar | eraseRange | substringRange | findFrom | findLastUpTo =>
    exact fun _ _ _ _ => .bind .any fun _ _ => .bind .any fun _ _ => .bind .any fun _ _ => .ok none
  case compareRange =>
    exact fun _ _ _ _ => .bind .any fun _ _ => .bind .any fun _ _ => .bind .any fun _ _ =>
      .ok (Value.holds_ofOrdering _)
  case replace =>
    exact fun _ _ _ _ => .bind .any fun _ _ => .bind .any fun _ _ => .bind .any fun _ _ =>
      .bind .any fun _ _ => .ok none

/-! ## Arrays and maps -/

theorem Value.yields_asArray {v : Value} (hv : h.Holds v.objectIds) (operation : String) :
    Yields (v.asArray operation) h.Holds := by
  cases v with
  | array items => exact .ok hv
  | _ => exact .error

theorem Value.yields_asMap {v : Value} (hv : h.Holds v.objectIds) (operation : String) :
    Yields (v.asMap operation) fun m => h.Holds m.values := by
  cases v with
  | map entries => exact .ok hv
  | _ => exact .error

theorem Arrays.mem_every {step : Nat} {id : ObjectId} : ∀ {skip : Nat} {items : List ObjectId},
    id ∈ every step skip items → id ∈ items := by
  intro skip items
  induction items generalizing skip with
  | nil => intro hm; exact hm
  | cons x xs ih =>
    intro hm
    cases skip with
    | zero =>
      rcases List.mem_cons.mp hm with rfl | hm
      · exact List.mem_cons_self
      · exact List.mem_cons_of_mem _ (ih hm)
    | succ skip => exact List.mem_cons_of_mem _ (ih hm)

theorem Arrays.yields_element {items : List ObjectId} (hi : h.Holds items) {id : Option ObjectId}
    (mem : ∀ x ∈ id, x ∈ items) (operation : String) :
    Yields (element operation id) fun id => h.contains id = true := by
  cases id with
  | none => exact .error
  | some x => exact .ok (hi x (mem x rfl))

theorem Arrays.yields_slot (operation : String) (n : Nat) (index : Value) :
    Yields (slot operation n index) (· < n) := by
  refine .bind .any fun i _ => ?_
  split
  · exact .ok (by omega)
  · exact .error

/-- Operations on arrays give parts of the arrays, rearranged, and what is put in. -/
theorem ArrayOp.passes (op : ArrayOp) : op.action.Passes h := by
  have none := Heap.holds_nil h
  cases op with
  | length | isEmpty => exact fun a _ _ _ => .bind .any fun _ _ => .ok none
  | clear => exact fun a _ _ _ => .bind .any fun _ _ => .ok none
  | «at» =>
    refine fun a _ ha => .bind (Value.yields_asArray ha _) fun items hi => ?_
    refine .bind (Arrays.yields_slot _ _ _) fun i hlt => .ok ?_
    rw [List.getD_eq_getElem?_getD, List.getElem?_eq_getElem hlt]
    exact hi _ (List.getElem_mem hlt)
  | front =>
    exact fun a _ ha => .bind (Value.yields_asArray ha _) fun items hi =>
      Arrays.yields_element hi (fun x hx => List.mem_of_mem_head? hx) _
  | back =>
    exact fun a _ ha => .bind (Value.yields_asArray ha _) fun items hi =>
      Arrays.yields_element hi (fun x hx => List.mem_of_mem_getLast? hx) _
  | put =>
    refine fun a _ id ha live => .bind (Value.yields_asArray ha _) fun items hi => ?_
    refine .bind .any fun i _ => .ok fun x hx => ?_
    rcases List.mem_or_eq_of_mem_set hx with hx | rfl
    · exact hi x hx
    · exact live
  | append =>
    refine fun a _ id ha live => .bind (Value.yields_asArray ha _) fun items hi => .ok ?_
    exact Heap.holds_append.mpr ⟨hi, Heap.holds_cons.mpr ⟨live, none⟩⟩
  | erase =>
    refine fun a _ ha _ => .bind (Value.yields_asArray ha _) fun items hi => ?_
    exact .bind .any fun i _ => .ok (hi.mono fun x hx => List.mem_of_mem_eraseIdx hx)
  | pop =>
    refine fun a _ ha _ => .map (.bind (Value.yields_asArray ha _) fun items hi => ?_)
    exact .bind .any fun i _ => .ok (hi.mono fun x hx => (List.dropLast_sublist _).mem hx)
  | exchange =>
    exact fun a b ha hb => .bind (Value.yields_asArray hb _) fun items hi =>
      .bind (Value.yields_asArray ha _) fun items' hi' => .ok ⟨hi, hi'⟩
  | merge =>
    refine fun a ws ha hws =>
      .bind (Value.yields_asArray (hws _ (Operands.first_mem ws)) _) fun b hb => ?_
    exact .bind (Value.yields_asArray ha _) fun a ha => .ok (Heap.holds_append.mpr ⟨ha, hb⟩)
  | slice =>
    refine fun a _ ha _ => .bind (Value.yields_asArray ha _) fun items hi => ?_
    refine .bind .any fun i _ => .bind .any fun j _ => ?_
    split
    · exact .error
    · exact .ok (hi.mono fun x hx => List.mem_of_mem_take (List.mem_of_mem_drop hx))
  | stride =>
    refine fun a _ ha _ =>
      .bind (Value.yields_asArray ha _) fun items hi => .bind .any fun n _ => ?_
    split
    · exact .error
    · exact .ok (hi.mono fun x hx => Arrays.mem_every hx)
  | reverse =>
    exact fun a _ ha _ => .bind (Value.yields_asArray ha _) fun items hi =>
      .ok (hi.mono fun x hx => List.mem_reverse.mp hx)

/-- Operations on maps give bindings of the maps, and what is put in. -/
theorem MapOp.passes (op : MapOp) : op.action.Passes h := by
  have none := Heap.holds_nil h
  cases op with
  | length | isEmpty | clear => exact fun m _ _ _ => .bind .any fun _ _ => .ok none
  | find => exact fun m _ _ _ => .bind .any fun _ _ => .bind .any fun _ _ => .ok none
  | «at» =>
    refine fun m _ hm => .bind .any fun k _ => .bind (Value.yields_asMap hm _) fun entries he => ?_
    split
    · next id hid => exact .ok (he id (KeyMap.mem_values_of_get? hid))
    · exact .error
  | put =>
    refine fun m _ id hm live =>
      .bind .any fun k _ => .bind (Value.yields_asMap hm _) fun entries he => ?_
    refine .ok fun x hx => ?_
    rcases KeyMap.mem_values_insert hx with rfl | hx
    · exact live
    · exact he x hx
  | erase =>
    refine fun m _ hm _ =>
      .bind .any fun k _ => .bind (Value.yields_asMap hm _) fun entries he => ?_
    split
    · exact .ok (he.mono fun x hx => KeyMap.mem_values_erase hx)
    · exact .error
  | exchange =>
    exact fun m n hm hn => .bind (Value.yields_asMap hn _) fun entries he =>
      .bind (Value.yields_asMap hm _) fun entries' he' => .ok ⟨he, he'⟩
  | values => exact fun m _ hm _ => .bind (Value.yields_asMap hm _) fun entries he => .ok he
  | merge =>
    refine fun m ws hm hws =>
      .bind (Value.yields_asMap (hws _ (Operands.first_mem ws)) _) fun n hn => ?_
    refine .bind (Value.yields_asMap hm _) fun m hm => .ok fun x hx => ?_
    rcases KeyMap.mem_values_insertAll n.entries hx with hx | hx
    · exact hn x hx
    · exact hm x hx

/-! ## Operators -/

namespace Value

theorem objectIds_ofNumber (k : NumericKind) (n : Number) : (ofNumber k n).objectIds = [] := by
  cases k <;> rfl

theorem yields_ofNumber (k : NumericKind) (n : Number) :
    Yields (.ok (ofNumber k n) : Except ValueError Value) fun r => h.Holds r.objectIds :=
  .ok (by rw [objectIds_ofNumber]; exact Heap.holds_nil h)

theorem yields_arithmetic (op : BinaryOp) (onInt : Int → Int → Except ValueError Int)
    (onReal : Float → Float → Float) (l r : Value) :
    Yields (arithmetic op onInt onReal l r) fun r => h.Holds r.objectIds := by
  unfold arithmetic
  split
  · simp only
    split
    · exact yields_ofNumber _ _
    · refine .map fun n _ => ?_
      show h.Holds (ofNumber _ _).objectIds
      rw [objectIds_ofNumber]; exact Heap.holds_nil h
  · exact .error

theorem yields_integral (op : BinaryOp) (f : Int → Int → Int) (l r : Value) :
    Yields (integral op f l r) fun r => h.Holds r.objectIds := by
  unfold integral
  split
  · exact yields_arithmetic _ _ _ l r
  · exact .error

theorem yields_add {l r : Value} (hl : h.Holds l.objectIds) (hr : h.Holds r.objectIds) :
    Yields (add l r) fun r => h.Holds r.objectIds := by
  unfold add
  split
  · exact .ok (Heap.holds_nil h)
  · exact .ok (Heap.holds_append.mpr ⟨hl, hr⟩)
  · exact yields_arithmetic _ _ _ _ _

/-- Operators give numbers, truth values and texts; only a sum of arrays holds ids. -/
theorem yields_binary (op : BinaryOp) {l r : Value} (hl : h.Holds l.objectIds)
    (hr : h.Holds r.objectIds) : Yields (binary op l r) fun r => h.Holds r.objectIds := by
  have none := Heap.holds_nil h
  cases op <;> simp only [binary]
  case add => exact yields_add hl hr
  case sub | mul | div | mod | pow => exact yields_arithmetic _ _ _ l r
  case band | bor | bxor | bls | brs => exact yields_integral _ _ l r
  case eq | neq | land | lor => exact .ok none
  case gt | lt | gte | lte => exact .map fun _ _ => none
  case cmp =>
    refine .bind .any fun o _ => ?_
    split
    · exact .ok (holds_ofOrdering _)
    · exact .error

theorem yields_mapNumber (op : UnaryOp) (onInt : Int → Int) (onReal : Float → Float) (v : Value) :
    Yields (mapNumber op onInt onReal v) fun r => h.Holds r.objectIds := by
  unfold mapNumber
  split
  · exact yields_ofNumber _ _
  · exact yields_ofNumber _ _
  · exact .error

theorem yields_unary (op : UnaryOp) {v : Value} (hv : h.Holds v.objectIds) :
    Yields (unary op v) fun r => h.Holds r.objectIds := by
  have none := Heap.holds_nil h
  cases op
  case pos =>
    simp only [unary]
    split
    · exact .ok hv
    · exact .error
  case neg | inc | dec | abs => exact yields_mapNumber _ _ _ v
  case sqrt =>
    simp only [unary, sqrt]
    split
    · exact .ok none
    · split
      · exact .ok none
      · exact .error
  case bnot =>
    simp only [unary, complement]
    split
    · exact .ok none
    · exact .ok none
    · exact .error
  case lnot | truthy | repr | hash => exact .ok none

theorem yields_convert (k : Kind) {v : Value} (hv : h.Holds v.objectIds) :
    Yields (v.convert k) fun r => h.Holds r.objectIds := by
  have none := Heap.holds_nil h
  unfold convert
  split
  · exact .ok none
  · exact .ok none
  · split
    · split
      · exact yields_ofNumber _ _
      · exact .error
    · split
      · exact yields_ofNumber _ _
      · exact .error
  all_goals
    split
    · exact .ok hv
    · exact .error

end Value

theorem ValueOp.passes (op : ValueOp) : op.action.Passes h := by
  cases op with
  | convert k => exact fun v _ hv _ => Value.yields_convert k hv
  | unary op => exact fun v _ hv _ => Value.yields_unary op hv
  | binary op =>
    exact fun v ws hv hws => Value.yields_binary op hv (hws _ (Operands.first_mem ws))
  | text op => exact op.passes
  | array op => exact op.passes
  | map op => exact op.passes

end ObjectVM
