import Mathlib.Data.List.Nodup
import ObjectVM.Code.Op

/-!
# Opcodes and their codes

The list of opcodes has every opcode (`Op.mem_all`), and none twice (`Op.nodup_all`). So codes and
opcodes match one to one, and a code is looked up to the opcode that has it
(`Op.ofCode?_eq_some_iff`).
-/
namespace ObjectVM.Op

/-! ## Every opcode -/

theorem mem_conversionKinds (k : Kind) : k ∈ conversionKinds := by
  cases k with
  | numeric k =>
    cases k with
    | int k => cases k <;> decide
    | bool | dec1 | dec2 => decide
  | text | array | map => decide

theorem mem_operatorOps_convert (k : Kind) : Op.value (.convert k) ∈ operatorOps :=
  List.mem_append_left _ (List.mem_append_left _ (List.mem_map_of_mem (mem_conversionKinds k)))

theorem mem_all (op : Op) : op ∈ all := by
  have objects : ∀ {op}, op ∈ objectOps → op ∈ all := fun h => by simp [all, h]
  have controls : ∀ {op}, op ∈ controlOps → op ∈ all := fun h => by simp [all, h]
  have evaluations : ∀ {op}, op ∈ stackOps → op ∈ all := fun h => by simp [all, h]
  have operators : ∀ {op}, op ∈ operatorOps → op ∈ all := fun h => by simp [all, h]
  have containers : ∀ {op}, op ∈ containerOps → op ∈ all := fun h => by simp [all, h]
  cases op with
  | object op | «variable» op | handle op => exact objects (by cases op <;> decide)
  | «attribute» op source => exact objects (by cases op <;> cases source <;> decide)
  | setAttributes => exact objects (by decide)
  | control op | argument op | runtime op => exact controls (by cases op <;> decide)
  | stack op => exact evaluations (by cases op <;> decide)
  | constant op =>
    cases op with
    | int k => exact evaluations (by cases k <;> decide)
    | bool | dec1 | dec2 | text | array | map => exact evaluations (by decide)
  | value op =>
    cases op with
    | convert k => exact operators (mem_operatorOps_convert k)
    | unary op =>
      exact operators (List.mem_append_left _ (List.mem_append_right _
        (List.mem_map_of_mem (by cases op <;> decide))))
    | binary op =>
      exact operators (List.mem_append_right _ (List.mem_map_of_mem (by cases op <;> decide)))
    | text op =>
      exact containers (List.mem_append_left _ (List.mem_append_left _
        (List.mem_map_of_mem (by cases op <;> decide))))
    | array op =>
      exact containers (List.mem_append_left _ (List.mem_append_right _
        (List.mem_map_of_mem (by cases op <;> decide))))
    | map op =>
      exact containers (List.mem_append_right _ (List.mem_map_of_mem (by cases op <;> decide)))

/-! ## No opcode twice -/

/-- The stretch of the list of opcodes in which an opcode stands. -/
def stretch : Op → Nat
  | .object _ | .variable _ | .attribute .. | .setAttributes | .handle _ => 0
  | .control _ | .argument _ | .runtime _ => 1
  | .stack _ | .constant _ => 2
  | .value (.convert _) => 3
  | .value (.unary _) => 4
  | .value (.binary _) => 5
  | .value (.text _) => 6
  | .value (.array _) => 7
  | .value (.map _) => 8

/-- Lists from different stretches have nothing in common. -/
theorem nodup_append_of_stretch {l l' : List Op} {n : Nat} (first : l.Nodup) (second : l'.Nodup)
    (below : ∀ op ∈ l, op.stretch < n) (above : ∀ op ∈ l', n ≤ op.stretch) : (l ++ l').Nodup := by
  refine List.nodup_append.mpr ⟨first, second, fun a ha b hb same => ?_⟩
  subst same
  exact absurd (above a hb) (Nat.not_le_of_lt (below a ha))

theorem nodup_operatorOps : operatorOps.Nodup :=
  nodup_append_of_stretch (n := 5)
    (nodup_append_of_stretch (n := 4) (by decide +kernel) (by decide +kernel) (by decide)
      (by decide))
    (by decide +kernel) (by decide) (by decide)

theorem nodup_containerOps : containerOps.Nodup :=
  nodup_append_of_stretch (n := 8)
    (nodup_append_of_stretch (n := 7) (by decide +kernel) (by decide +kernel) (by decide)
      (by decide))
    (by decide +kernel) (by decide) (by decide)

theorem nodup_all : all.Nodup := by
  have controls : (objectOps ++ controlOps).Nodup :=
    nodup_append_of_stretch (n := 1) (by decide +kernel) (by decide +kernel) (by decide) (by decide)
  have evaluations : (objectOps ++ controlOps ++ stackOps).Nodup :=
    nodup_append_of_stretch (n := 2) controls (by decide +kernel) (by decide) (by decide)
  have operators : (objectOps ++ controlOps ++ stackOps ++ operatorOps).Nodup :=
    nodup_append_of_stretch (n := 3) evaluations nodup_operatorOps (by decide) (by decide)
  exact nodup_append_of_stretch (n := 6) operators nodup_containerOps (by decide) (by decide)

/-! ## Codes -/

theorem length_all_lt : all.length < UInt16.size := by decide +kernel

/-- The opcode that is found under a code is the one that has it. -/
theorem ofCode?_eq_some_iff {code : UInt16} {op : Op} :
    ofCode? code = some op ↔ op.code = code := by
  unfold ofCode? table Op.code
  rw [List.getElem?_toArray]
  constructor
  · intro found
    obtain ⟨lt, rfl⟩ := List.getElem?_eq_some_iff.mp found
    rw [nodup_all.idxOf_getElem, UInt16.ofNat_toNat]
  · rintro rfl
    have lt : all.idxOf op < UInt16.size :=
      Nat.lt_trans (List.idxOf_lt_length_iff.mpr (mem_all op)) length_all_lt
    rw [UInt16.toNat_ofNat_of_lt' lt]
    exact List.getElem?_idxOf (mem_all op)

end ObjectVM.Op
