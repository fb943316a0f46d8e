import ObjectVM.Files.Folder

/-!
# Files that are written

What is written at a path is read from it afterwards (`Folder.read_write`). The new file may stand
where another stood, so what has to be seen is that the way to it is still open: whatever was a
folder still is one (`Folder.isFolder_put`).
-/
namespace ObjectVM.Folder

variable {f f' : Folder} {content : Bytes}

theorem file?_put (f : Folder) (way : List String) (content : Bytes) :
    (f.put way content).file? way = some content := by
  simp [file?, put]

/-- A folder stays a folder when a file is put. -/
theorem isFolder_put {way : List String} (h : f.isFolder way = true) (file : List String)
    (content : Bytes) : (f.put file content).isFolder way = true := by
  simp only [isFolder, put, Bool.or_eq_true, List.any_eq_true, Bool.and_eq_true] at h ⊢
  refine h.imp id ?_
  rintro ⟨e, mem, below⟩
  by_cases same : e.1 = file
  · exact ⟨(file, content), List.mem_cons_self, same ▸ below⟩
  · exact ⟨e, List.mem_cons_of_mem _ (List.mem_filter.mpr ⟨mem, by simpa using same⟩), below⟩

/-- A way that is open stays open when a file is put. -/
theorem enter_put {place : Option (List String)} {name : String} {next : Option (List String)}
    (h : f.enter place name = .ok next) (file : List String) (content : Bytes) :
    (f.put file content).enter place name = .ok next := by
  unfold enter at h ⊢
  split
  · simp_all
  · rw [if_neg ‹_›] at h
    cases place with
    | none => exact h
    | some way =>
      dsimp only at h ⊢
      split
      · simp_all
      · rw [if_neg ‹_›] at h
        split at h
        · rw [if_pos (isFolder_put ‹_› file content)]
          exact h
        · split at h <;> cases h

theorem foldlM_enter_put (names : List String) {place last : Option (List String)}
    (h : names.foldlM f.enter place = .ok last) (file : List String) (content : Bytes) :
    names.foldlM (f.put file content).enter place = .ok last := by
  induction names generalizing place with
  | nil => exact h
  | cons name names ih =>
    rw [List.foldlM_cons] at h ⊢
    cases entered : f.enter place name with
    | error fault =>
      rw [entered] at h
      cases h
    | ok next =>
      rw [entered] at h
      rw [enter_put entered]
      exact ih h

theorem walk_put {names : List String} {place : Option (List String)} {name : String}
    (h : f.walk names = .ok (place, name)) (file : List String) (content : Bytes) :
    (f.put file content).walk names = .ok (place, name) := by
  unfold walk at h ⊢
  cases walked : names.dropLast.foldlM f.enter (origin names) with
  | error fault =>
    rw [walked] at h
    cases h
  | ok last =>
    rw [walked] at h
    rw [foldlM_enter_put _ walked]
    exact h

/-- Where a file was written: the names that led to its folder, and its own. -/
theorem write_ok {path : String} (h : f.write path content = .ok f') :
    ∃ way name, path.isEmpty = false ∧ f.walk (Path.parts path) = .ok (some way, name) ∧
      (Path.isIdle name || name = "..") = false ∧ f' = f.put (way ++ [name]) content := by
  unfold write at h
  dsimp only at h
  split at h
  · cases h
  · split at h
    · cases h
    · cases walked : f.walk (trimmed (Path.parts path)) with
      | error fault =>
        rw [walked] at h
        cases h
      | ok place =>
        obtain ⟨place, name⟩ := place
        rw [walked] at h
        dsimp only [bind, Except.bind] at h
        split at h
        · cases h
        · rename_i plain
          simp only [Bool.or_eq_true, decide_eq_true_eq, not_or, ne_eq, Decidable.not_not] at plain
          cases place with
          | none => cases h
          | some way =>
            dsimp only at h
            split at h
            · cases h
            · cases h
              rw [plain.1.1] at walked
              have named : path.isEmpty = false := by simpa using ‹¬ path.isEmpty = true›
              exact ⟨way, name, by simp [named], walked, by simp [plain], rfl⟩

/-- What is written at a path is read from it. -/
theorem read_write {path : String} (h : f.write path content = .ok f') :
    f'.read path = .ok content := by
  obtain ⟨way, name, solid, walked, plain, rfl⟩ := write_ok h
  have walked := walk_put walked (way ++ [name]) content
  simp only [read, solid, walked, bind, Except.bind, plain, file?_put]
  rfl

end ObjectVM.Folder
