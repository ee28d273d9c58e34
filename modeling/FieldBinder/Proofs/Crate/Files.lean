import FieldBinder.Crate.Layout
import FieldBinder.Proofs.Crate.Built

/-!
# Crates of files

When files make a crate, it is built by registering some of them and linking globs
(`exists_build_of_ofFiles`), so all that holds of built crates holds of it.
-/

namespace FieldBinder.Crate

/-- To insert a file is to register its items, once it has been read and parsed. -/
theorem exists_step_of_insertFile {c c' : Crate} {f : SourceFile} (h : c.insertFile f = .ok c') :
    ∃ step : BuildStep, c' = c.perform step := by
  unfold insertFile at h
  split at h
  · cases h
  · split at h
    · cases h
    · next items _ =>
      split at h
      · next heq =>
        cases h
        exact ⟨.insert _ f.path items, (congrArg Prod.fst heq).symm⟩
      · cases h

/-- To insert files is to register their items one after the other. -/
theorem exists_steps_of_foldlM_insertFile {files : List SourceFile} {c c' : Crate}
    (h : files.foldlM insertFile c = .ok c') :
    ∃ steps : List BuildStep, c' = steps.foldl perform c := by
  induction files generalizing c with
  | nil =>
    cases h
    exact ⟨[], rfl⟩
  | cons f r ih =>
    rw [List.foldlM_cons] at h
    cases hf : c.insertFile f with
    | error fault =>
      rw [hf] at h
      cases h
    | ok c₁ =>
      rw [hf] at h
      obtain ⟨step, rfl⟩ := exists_step_of_insertFile hf
      obtain ⟨steps, rfl⟩ := ih h
      exact ⟨step :: steps, rfl⟩

/-- A crate of files is a crate that is built. -/
theorem exists_build_of_ofFiles {root : Namespace} {files : List SourceFile} {c : Crate}
    (h : ofFiles root files = .ok c) : ∃ steps, c = build root steps := by
  unfold ofFiles at h
  cases hfiles : (files.filter fun f => belongs (files.any fun f => isLibraryRoot f.relative)
      f.relative).foldlM insertFile (empty root) with
  | error fault =>
    simp only [hfiles, bind, Except.bind] at h
    cases h
  | ok c₁ =>
    simp only [hfiles, bind, Except.bind] at h
    cases h
    obtain ⟨steps, rfl⟩ := exists_steps_of_foldlM_insertFile hfiles
    exact ⟨steps ++ [.linkGlobs], by simp [build, perform]⟩

/-- In a crate of sources every module is stored under its own namespace. -/
theorem coherent_ofSources {root : Namespace} {sources : List (FilePath × String)} {c : Crate}
    (h : ofSources root sources = .ok c) : c.Coherent := by
  obtain ⟨steps, rfl⟩ := exists_build_of_ofFiles h
  exact coherent_build root steps

/-- A crate of sources has the root that it was given. -/
theorem root_ofSources {root : Namespace} {sources : List (FilePath × String)} {c : Crate}
    (h : ofSources root sources = .ok c) : c.root = root := by
  obtain ⟨steps, rfl⟩ := exists_build_of_ofFiles h
  exact root_build root steps

end FieldBinder.Crate
