import Mathlib.Data.List.Nodup
import ObjectVM.Command.Session
import ObjectVM.Proofs.CodecLaws
import ObjectVM.Proofs.FolderLaws
import ObjectVM.Proofs.JsonTexts

/-!
# Containers as JSON and back

What a container holds is read back from its JSON text: every text, whatever is to be escaped in
it, every word up to the largest, every list in its order and every record (`ofJson?_toJson`). Float
literals are what may differ. Each is read as its own numeral is read (`rereadFloat`), which is not
always the double that was written: one that is not finite is written as null, and then the whole
container is not read (`not_reread`); a numeral of many digits may be read as a neighbour.

* `json_round_trip`: what is read is exactly the container with its float literals reread, so it is
  the container itself if and only if each literal is reread as itself; the same holds of the file
  that a program is emitted to.
* `floats_lost`: an infinite literal that makes a container unreadable, and a finite one, the
  eleventh part of one, that another is read for.
-/
namespace ObjectVM

namespace Json

/-- The stored bits that are read where those of a double are written. -/
def rereadFloat (bits : UInt64) : Option UInt64 := (Tree.ofFloatBits bits).floatBits?

namespace Tree

/-! ## Lists and records -/

theorem mapM_of_forall {α β : Type} {f : α → Option β} {g : α → β} {l : List α}
    (h : ∀ a ∈ l, f a = some (g a)) : l.mapM f = some (l.map g) := by
  induction l with
  | nil => rfl
  | cons a l ih =>
    rw [List.mapM_cons, h a List.mem_cons_self, ih fun b hb => h b (List.mem_cons_of_mem a hb)]
    rfl

theorem filter_key {fields : List (String × Tree)} (nodup : (fields.map Prod.fst).Nodup)
    {field : String × Tree} (mem : field ∈ fields) :
    (fields.filter fun e => e.1 == field.1) = [field] := by
  induction fields with
  | nil => cases mem
  | cons e fields ih =>
    obtain ⟨new, nodup⟩ := List.nodup_cons.mp nodup
    rcases List.mem_cons.mp mem with rfl | mem
    · have none : (fields.filter fun e => e.1 == field.1) = [] := by
        refine List.filter_eq_nil_iff.mpr fun e he same => new ?_
        exact List.mem_map.mpr ⟨e, he, by simpa using same⟩
      simp [none]
    · have other : e.1 ≠ field.1 := fun same => new (same ▸ List.mem_map_of_mem mem)
      simpa [other] using ih nodup mem

/-- A record's fields are seen in the order of its keys, all of them. -/
theorem fields?_ofFields {keys : List String} (nodup : keys.Nodup) {ts : List Tree}
    (same : keys.length = ts.length) :
    (ofFields (keys.zip ts)).fields? keys = some (ts.map some) := by
  have first : (keys.zip ts).map Prod.fst = keys := List.map_fst_zip (Nat.le_of_eq same)
  have second : (keys.zip ts).map Prod.snd = ts := List.map_snd_zip (Nat.le_of_eq same.symm)
  generalize keys.zip ts = fields at first second
  subst first second
  have seen : ∀ field ∈ fields,
      entry (fields.map fun e => (some e.1, e.2)) field.1 = some (some field.2) := by
    intro field mem
    have only := filter_key nodup mem
    simp [entry, List.filter_map, Function.comp_def, only]
  rw [ofFields, fields?, if_pos (by simp)]
  simp only [List.mapM_map, List.map_map]
  exact mapM_of_forall seen

theorem list?_ofList {α β : Type} (view : Tree → Option β) (write : α → Tree) (l : List α) :
    (ofList write l).list? view = l.mapM fun a => view (write a) := by
  simp only [ofList, list?, List.mapM_map]
  rfl

/-- A list is read back, if its values are. -/
theorem list?_same {α : Type} {view : Tree → Option α} {write : α → Tree}
    (h : ∀ a, view (write a) = some a) (l : List α) : (ofList write l).list? view = some l := by
  rw [list?_ofList, mapM_of_forall (g := id) (fun a _ => h a), List.map_id]

theorem word16?_ofNat (w : UInt16) : (ofNat w.toNat).word16? = some w := by
  simp [word16?, nat?, ofNat, Numeral.toNat?_ofNat w.toNat_lt]

theorem word32?_ofNat (w : UInt32) : (ofNat w.toNat).word32? = some w := by
  simp [word32?, nat?, ofNat, Numeral.toNat?_ofNat w.toNat_lt]

theorem word64?_ofNat (w : UInt64) : (ofNat w.toNat).word64? = some w := by
  simp [word64?, nat?, ofNat, Numeral.toNat?_ofNat w.toNat_lt]

theorem nullable?_ofOption {α : Type} {view : Tree → Option α} {write : α → Tree}
    (h : ∀ a, view (write a) = some a) (solid : ∀ a, write a ≠ .null) (a : Option α) :
    (ofOption write a).nullable? view = some a := by
  cases a with
  | none => rfl
  | some a =>
    have := solid a
    have := h a
    simp only [ofOption]
    unfold nullable?
    split <;> simp_all

/-! ## Trees that are written -/

theorem written_ofNat (n : Nat) : (ofNat n).Written := .numeral (Numeral.wellFormed_ofNat n)

theorem written_ofFloatBits (bits : UInt64) : (ofFloatBits bits).Written := by
  unfold ofFloatBits
  split
  · exact .numeral (Numeral.wellFormed_ofParts ‹_›)
  · exact .null

theorem written_ofList {α : Type} {write : α → Tree} (h : ∀ a, (write a).Written) (l : List α) :
    (ofList write l).Written := by
  refine .array fun t ht => ?_
  obtain ⟨a, -, rfl⟩ := List.mem_map.mp ht
  exact h a

theorem written_ofOption {α : Type} {write : α → Tree} (h : ∀ a, (write a).Written)
    (a : Option α) : (ofOption write a).Written := by
  cases a with
  | none => exact .null
  | some a => exact h a

theorem written_ofFields {keys : List String} {ts : List Tree} (h : ∀ t ∈ ts, t.Written) :
    (ofFields (keys.zip ts)).Written := by
  refine .object (fun e he => ?_) fun e he => ?_
  · obtain ⟨field, -, rfl⟩ := List.mem_map.mp he
    rfl
  · obtain ⟨field, mem, rfl⟩ := List.mem_map.mp he
    exact h _ (List.of_mem_zip mem).2

end Tree

end Json

open Json

namespace InstructionRecord

theorem ofTree?_toTree (r : InstructionRecord) : ofTree? r.toTree = some r := by
  rw [ofTree?, toTree, Tree.fields?_ofFields (by decide) rfl]
  simp [Tree.required, Tree.optional, Tree.word16?_ofNat, Tree.word64?_ofNat]

theorem written_toTree (r : InstructionRecord) : r.toTree.Written :=
  Tree.written_ofFields (by simp [Tree.written_ofNat])

end InstructionRecord

namespace PositionRecord

theorem ofTree?_toTree (r : PositionRecord) : ofTree? r.toTree = some r := by
  rw [ofTree?, toTree, Tree.fields?_ofFields (by decide) rfl]
  simp [Tree.required, Tree.word32?_ofNat, Tree.word64?_ofNat]

theorem written_toTree (r : PositionRecord) : r.toTree.Written :=
  Tree.written_ofFields (by simp [Tree.written_ofNat])

end PositionRecord

namespace CatchRecord

theorem ofTree?_toTree (r : CatchRecord) : ofTree? r.toTree = some r := by
  rw [ofTree?, toTree, Tree.fields?_ofFields (by decide) rfl]
  simp [Tree.required, Tree.word64?_ofNat]

theorem written_toTree (r : CatchRecord) : r.toTree.Written :=
  Tree.written_ofFields (by simp [Tree.written_ofNat])

end CatchRecord

namespace ClosureRecord

theorem ofTree?_toTree (r : ClosureRecord) : ofTree? r.toTree = some r := by
  have parent := Tree.nullable?_ofOption (fun p : UInt64 => Tree.word64?_ofNat p) nofun r.parent
  rw [ofTree?, toTree, Tree.fields?_ofFields (by decide) rfl]
  simp [Tree.required, Tree.optional, Tree.text?, Tree.ofText, Tree.word64?_ofNat, parent,
    Tree.list?_same InstructionRecord.ofTree?_toTree, Tree.list?_same PositionRecord.ofTree?_toTree,
    Tree.list?_same CatchRecord.ofTree?_toTree]

theorem written_toTree (r : ClosureRecord) : r.toTree.Written := by
  refine Tree.written_ofFields ?_
  simp only [List.mem_cons, List.not_mem_nil, or_false]
  rintro t (rfl | rfl | rfl | rfl | rfl | rfl)
  · exact .string r.name
  · exact Tree.written_ofNat _
  · exact Tree.written_ofOption (fun p : UInt64 => Tree.written_ofNat p.toNat) r.parent
  · exact Tree.written_ofList InstructionRecord.written_toTree _
  · exact Tree.written_ofList PositionRecord.written_toTree _
  · exact Tree.written_ofList CatchRecord.written_toTree _

end ClosureRecord

namespace Container

/-- The container with its float literals as they are read where they are written. -/
def reread (c : Container) : Option Container :=
  (c.floats.mapM rereadFloat).map fun floats => { c with floats }

theorem ofTree?_toTree (c : Container) : ofTree? c.toTree = c.reread := by
  rw [ofTree?, toTree, Tree.fields?_ofFields (by decide) rfl]
  have floats : (Tree.ofList Tree.ofFloatBits c.floats).list? Tree.floatBits? =
    c.floats.mapM rereadFloat := Tree.list?_ofList _ _ _
  cases read : c.floats.mapM rereadFloat <;>
  simp [Tree.optional, Tree.text?, Tree.ofText, Tree.word64?_ofNat, floats, reread, read,
    Tree.list?_same (fun s : String => (rfl : (Tree.ofText s).text? = some s)),
    Tree.list?_same ClosureRecord.ofTree?_toTree]

theorem written_toTree (c : Container) : c.toTree.Written := by
  refine Tree.written_ofFields ?_
  simp only [List.mem_cons, List.not_mem_nil, or_false]
  rintro t (rfl | rfl | rfl | rfl | rfl | rfl | rfl | rfl | rfl | rfl)
  all_goals try exact .string _
  · exact Tree.written_ofNat _
  · exact Tree.written_ofList Tree.Written.string _
  · exact Tree.written_ofList Tree.written_ofFloatBits _
  · exact Tree.written_ofList ClosureRecord.written_toTree _

/-- A container is read back from its JSON text with its float literals reread. -/
theorem ofJson?_toJson (c : Container) : ofJson? c.toJson = c.reread := by
  simp only [ofJson?, toJson, Tree.ofText?_text c.written_toTree, bind, Option.bind_some,
    ofTree?_toTree]

/-! ## Float literals -/

theorem mapM_eq_self {α : Type} {f : α → Option α} {l : List α} :
    l.mapM f = some l ↔ ∀ a ∈ l, f a = some a := by
  induction l with
  | nil => simp
  | cons a l ih =>
    rw [List.mapM_cons, List.forall_mem_cons, ← ih]
    cases f a with
    | none => simp
    | some b => cases l.mapM f <;> simp

theorem mapM_eq_none {α β : Type} {f : α → Option β} {l : List α} {a : α} (mem : a ∈ l)
    (none : f a = none) : l.mapM f = .none := by
  induction l with
  | nil => cases mem
  | cons b l ih =>
    rw [List.mapM_cons]
    rcases List.mem_cons.mp mem with rfl | mem
    · rw [none]
      rfl
    · cases f b with
      | none => rfl
      | some b => simp [ih mem]

theorem reread_eq_self {c : Container} :
    c.reread = some c ↔ ∀ bits ∈ c.floats, rereadFloat bits = some bits := by
  rw [← mapM_eq_self, reread]
  cases c.floats.mapM rereadFloat with
  | none => simp
  | some floats =>
    obtain ⟨⟩ := c
    simp

/-- Whether bits store a finite double. -/
def FiniteBits (bits : UInt64) : Prop :=
  ∃ negative m e, Decimal.parts64 (Float.ofBits bits) = .finite negative m e

/-- A double that is not finite is not read where it is written. -/
theorem rereadFloat_eq_none {bits : UInt64} (h : ¬ FiniteBits bits) : rereadFloat bits = none := by
  unfold rereadFloat Tree.ofFloatBits
  cases parts : Decimal.parts64 (Float.ofBits bits) with
  | nan => rfl
  | infinite negative => rfl
  | finite negative m e => exact absurd ⟨negative, m, e, parts⟩ h

theorem not_reread {c : Container} {bits : UInt64} (mem : bits ∈ c.floats)
    (h : ¬ FiniteBits bits) : c.reread = none := by
  rw [reread, mapM_eq_none mem (rereadFloat_eq_none h)]
  rfl

/-! ## Files -/

/-- The result of reading a file that a container was written to as JSON. -/
def rereadFile (c : Container) : Except LoadError Container :=
  match c.reread with
  | some d => .ok d
  | none => .error .invalidJson

theorem ofFile_toFile {path : String} (json : Path.isJson path = true) (c : Container) :
    ofFile path (c.toFile path) = c.rereadFile := by
  simp only [ofFile, toFile, json, if_true, Binary.Codec.fromUTF8?_toUTF8, ofJson?_toJson]
  rfl

/-- Reading a file leaves its folder as it is. -/
theorem run_read (path : String) (w : Workspace) :
    ∃ journal, (read (m := StateM Workspace) path).run.run w =
      (match w.folder.read path with
        | .error fault => .error (.inaccessible path fault)
        | .ok content => ofFile path content, { w with journal }) := by
  have start : (read (m := StateM Workspace) path).run.run w =
      ((match w.folder.read path with
        | .error fault => throw (.inaccessible path fault)
        | .ok content => do
          let c ← ExceptT.mk (pure (ofFile path content))
          Host.note (m := StateM Workspace) (.containerRead path c.closures.length)
          return c : ExceptT LoadError (StateM Workspace) Container)).run.run w := rfl
  rw [start]
  cases w.folder.read path with
  | error fault => exact ⟨w.journal, rfl⟩
  | ok content =>
    dsimp only
    cases ofFile path content with
    | error e => exact ⟨w.journal, rfl⟩
    | ok c => exact ⟨_, rfl⟩

/-- A file that is written has the container's content afterwards. -/
theorem run_write_ok {c : Container} {path : String} {w w' : Workspace}
    (h : (c.write (m := StateM Workspace) path).run.run w = (.ok (), w')) :
    w.folder.write path (c.toFile path) = .ok w'.folder := by
  have start : (c.write (m := StateM Workspace) path).run.run w =
      match w.folder.write path (c.toFile path) with
      | .error fault => (.error (.inaccessible path fault), w)
      | .ok folder => (.ok (), { w with folder }) := by
    simp only [write, Host.writeFile, ExceptT.run, ExceptT.mk, StateT.run, bind, ExceptT.bind,
      ExceptT.bindCont, StateT.bind, liftM, monadLift, MonadLift.monadLift, ExceptT.lift,
      Functor.map, StateT.map, get, getThe, MonadStateOf.get, StateT.get, pure]
    cases w.folder.write path (c.toFile path) <;> rfl
  rw [start] at h
  cases written : w.folder.write path (c.toFile path) with
  | error fault =>
    rw [written] at h
    cases h
  | ok folder =>
    rw [written] at h
    cases h
    rfl

/-- What a program's container was emitted to as JSON is read as the container reread. -/
theorem run_emitTo {c : Container} {file path : String} {w w' : Workspace} {report : Report}
    (json : Path.isJson path = true)
    (loaded : ((read (m := StateM Workspace) file).run.run w).1 = .ok c)
    (emitted : (Command.emitTo (m := StateM Workspace) file path).run.run w = (.ok report, w')) :
    ((read (m := StateM Workspace) path).run.run w').1 = c.rereadFile := by
  have steps : (Command.emitTo (m := StateM Workspace) file path).run.run w =
      match (read (m := StateM Workspace) file).run.run w with
      | (.error e, w₁) => (.error e, w₁)
      | (.ok c, w₁) =>
        match (c.write (m := StateM Workspace) path).run.run w₁ with
        | (.error e, w₂) => (.error e, w₂)
        | (.ok (), w₂) => (.ok (.success ""), w₂) := by
    simp only [Command.emitTo, ExceptT.run, StateT.run, bind, ExceptT.bind, ExceptT.mk, StateT.bind]
    rcases (read (m := StateM Workspace) file) w with ⟨_ | c, w₁⟩
    · rfl
    · simp only [ExceptT.bindCont, bind, StateT.bind]
      rcases (c.write (m := StateM Workspace) path) w₁ with ⟨_ | _, w₂⟩ <;> rfl
  rw [steps] at emitted
  rcases start : (read (m := StateM Workspace) file).run.run w with ⟨r, w₁⟩
  rw [start] at loaded emitted
  cases loaded
  dsimp only at emitted
  split at emitted
  · cases emitted
  · rename_i written
    cases emitted
    have content := Folder.read_write (run_write_ok written)
    obtain ⟨journal, again⟩ := run_read path w'
    rw [again, content]
    exact ofFile_toFile json c

/-- From its JSON text a container is read with its float literals reread, and so as itself if and
only if each of them is reread as itself; it is not read at all if one is not finite. A file that a
program is emitted to as JSON holds it in the same way. -/
theorem json_round_trip (c : Container) :
    ofJson? c.toJson = c.reread ∧
    (ofJson? c.toJson = some c ↔ ∀ bits ∈ c.floats, rereadFloat bits = some bits) ∧
    ((∃ bits ∈ c.floats, ¬ FiniteBits bits) → ofJson? c.toJson = none) ∧
    ∀ (file path : String) (w w' : Workspace) (report : Report), Path.isJson path = true →
      ((read (m := StateM Workspace) file).run.run w).1 = .ok c →
      (Command.emitTo (m := StateM Workspace) file path).run.run w = (.ok report, w') →
      ((read (m := StateM Workspace) path).run.run w').1 = c.rereadFile := by
  rw [ofJson?_toJson]
  refine ⟨rfl, reread_eq_self, ?_, fun _ _ _ _ _ json loaded emitted => ?_⟩
  · rintro ⟨bits, mem, infinite⟩
    exact not_reread mem infinite
  · exact run_emitTo json loaded emitted

/-- A container with texts that have to be escaped, the largest word, and floats that are reread as
themselves. -/
def spelled : Container :=
  { new "\"\\\n\x01é" with
    timestamp := UInt64.ofNat (UInt64.size - 1)
    strings := ["", "\x1f/\x7f"]
    floats := [0x3ff8000000000000, 0x8000000000000000]
    closures :=
      [⟨"f", 300, some 0, [⟨0xffff, 128, 0⟩], [⟨0, 1, 2⟩], []⟩, ⟨"g", 1, none, [], [], []⟩] }

/-- A folder with the file `program`, which holds that container in binary. -/
def stored : Workspace := ⟨⟨[(["program"], spelled.toBytes)]⟩, .new none⟩

theorem json_round_trip_spelled :
    ofJson? spelled.toJson = some spelled ∧
    ((read (m := StateM Workspace) "copy.json").run.run
      ((Command.emitTo (m := StateM Workspace) "program" "copy.json").run.run stored).2).1 =
        .ok spelled := by
  obtain ⟨-, same, -, emitted⟩ := json_round_trip spelled
  have all : (spelled.floats.all fun bits => rereadFloat bits = some bits) = true := by
    decide +kernel
  have floats : ∀ bits ∈ spelled.floats, rereadFloat bits = some bits := fun bits mem =>
    of_decide_eq_true (List.all_eq_true.mp all bits mem)
  have loaded : ((read (m := StateM Workspace) "program").run.run stored).1 = .ok spelled := by
    decide +kernel
  have done : ((Command.emitTo (m := StateM Workspace) "program" "copy.json").run.run stored).1 =
      .ok (.success "") := by
    decide +kernel
  have copied := emitted "program" "copy.json" stored _ (.success "") (by decide +kernel) loaded
    (Prod.ext done rfl)
  rw [rereadFile, reread_eq_self.mpr floats] at copied
  exact ⟨same.mpr floats, copied⟩

/-- A container that holds one float literal. -/
def holding (bits : UInt64) : Container := { new "floats" with floats := [bits] }

/-- Infinity makes a container unreadable, and for the eleventh part of one another number is
read. -/
theorem floats_lost :
    ofJson? (holding 0x7ff0000000000000).toJson = none ∧
    ofJson? (holding 0x3fb745d1745d1746).toJson = some (holding 0x3fb745d1745d1747) := by
  rw [ofJson?_toJson, ofJson?_toJson]
  decide +kernel

end Container

end ObjectVM
