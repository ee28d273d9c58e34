import FieldBinder.Proofs.Crate.Files
import FieldBinder.Proofs.Crate.Load
import FieldBinder.Proofs.Crate.Spelling

/-!
# A directory that is read again

Every source that is found in a directory has a path that is made of names
(`normal_of_mem_sourceFiles`).

Between two readings a tree can get directories below the one that is read, as long as there are no
files in them (`Regrown`).  Nothing is found in such directories
(`Regrown.sourceFilesAt_of_get?_eq_none`), and in all others the same as before
(`Regrown.sourceFiles_congr`), so the crate of the directory stays the same (`Regrown.load_congr`).
-/

namespace FieldBinder

namespace FileTree

/-- Whether names are names everywhere in a tree: as on any disk, none has a slash or stands for a
directory on the way. -/
def Named (t : FileTree) : Prop :=
  ∀ loc e, t.get? loc = some e → ∀ name ∈ loc, FilePath.IsName name

theorem named_of_keys {t : FileTree}
    (h : ∀ l ∈ t.entries.keys, ∀ name ∈ l, FilePath.IsName name) : t.Named := by
  intro loc e he name hname
  refine h loc ?_ name hname
  rw [SortedMap.mem_keys_iff, ← get?_of_ne_nil (List.ne_nil_of_mem hname), he]
  rfl

end FileTree

namespace Crate

open FileTree (Named)

/-! ### Paths of sources -/

/-- Where sources are found, there is a directory. -/
theorem exists_list_of_sourceFiles {t : FileTree} {n : Nat} {path relative : FilePath}
    {files : List SourceFile} (h : sourceFiles t (n + 1) path relative = .ok files) :
    ∃ names, t.list path = .ok names := by
  cases hlist : t.list path with
  | ok names => exact ⟨names, rfl⟩
  | error fault =>
    rw [sourceFiles, hlist] at h
    cases h

theorem normal_of_mem_sourceFiles {t : FileTree} (ht : t.Named) {n : Nat}
    {path relative : FilePath} {files : List SourceFile}
    (hrelative : ∀ c ∈ relative.components, ∃ name, c = .normal name)
    (h : sourceFiles t n path relative = .ok files) :
    ∀ f ∈ files, ∀ c ∈ f.relative.components, ∃ name, c = .normal name := by
  induction n generalizing path relative files with
  | zero =>
    cases h
    simp
  | succ n ih =>
    obtain ⟨names, hlist⟩ := exists_list_of_sourceFiles h
    rw [sourceFiles_succ hlist] at h
    intro f hf
    obtain ⟨name, hmem, files', hat, hf⟩ := exists_of_mem_gather h hf
    obtain ⟨loc, -, -, rfl⟩ := FileTree.list_eq_ok_iff.1 hlist
    obtain ⟨e, he⟩ := FileTree.mem_names.1 hmem
    -- a name in a directory is one component of the path
    have hname : FilePath.IsName name := ht _ _ he name (by simp)
    have hjoin : ∀ c ∈ (relative.join ⟨name⟩).components, ∃ name, c = .normal name := by
      rw [FilePath.components_join_name relative hname, List.forall_mem_append,
        List.forall_mem_singleton]
      exact ⟨hrelative, name, rfl⟩
    unfold sourceFilesAt at hat
    split at hat
    · exact ih hjoin hat f hf
    · split at hat
      · cases hat
        obtain rfl := List.mem_singleton.1 hf
        exact hjoin
      · cases hat
        cases hf

theorem exists_files_of_load {t : FileTree} {path : FilePath} {root : Namespace} {c : Crate}
    (h : load t path root = .ok c) : ∃ files,
      sourceFiles t (t.entries.size + 1) path ⟨""⟩ = .ok files ∧ ofFiles root files = .ok c := by
  rw [load] at h
  cases hfiles : sourceFiles t (t.entries.size + 1) path ⟨""⟩ with
  | error fault =>
    rw [hfiles] at h
    cases h
  | ok files =>
    rw [hfiles] at h
    exact ⟨files, rfl, h⟩

/-- Nothing in the crate of a directory has a name with a slash. -/
theorem spelled_of_load {t : FileTree} (ht : t.Named) {path : FilePath} {root : Namespace}
    {c : Crate} (hP : ∀ w, IsNameText w → FilePath.IsPiece w)
    (hroot : ∀ w ∈ root.segments, FilePath.IsPiece w) (h : load t path root = .ok c) :
    c.Spelled FilePath.IsPiece := by
  have hnil : ∀ c ∈ (FilePath.mk "").components, ∃ name, c = .normal name := by
    rw [show (FilePath.mk "").components = [] by decide]
    simp
  obtain ⟨files, hfiles, hc⟩ := exists_files_of_load h
  refine spelled_ofFiles hP hroot (fun f hf => isPiece_of_mem_moduleSegments ?_) hc
  exact normal_of_mem_sourceFiles ht hnil hfiles f hf

theorem coherent_of_load {t : FileTree} {path : FilePath} {root : Namespace} {c : Crate}
    (h : load t path root = .ok c) : c.Coherent := by
  obtain ⟨files, -, hc⟩ := exists_files_of_load h
  obtain ⟨steps, rfl⟩ := exists_build_of_ofFiles hc
  exact coherent_build root steps

theorem exists_locate_of_load {t : FileTree} {path : FilePath} {root : Namespace} {c : Crate}
    (h : load t path root = .ok c) :
    ∃ loc, t.locate path = .ok loc ∧ t.get? loc = some .directory := by
  obtain ⟨files, hfiles, -⟩ := exists_files_of_load h
  obtain ⟨names, hlist⟩ := exists_list_of_sourceFiles hfiles
  obtain ⟨loc, hlocate, hdir, -⟩ := FileTree.list_eq_ok_iff.1 hlist
  exact ⟨loc, hlocate, hdir⟩

/-! ### Two readings -/

/-- Whether a tree has what another one has below a directory, which `path` leads to and which is at
`loc`, and beyond this only directories there.  One that is named like a source can be reached, for
it would be taken for a source if it were not seen to be a directory. -/
structure Regrown (path : FilePath) (loc : List String) (t t' : FileTree) : Prop where
  isTree : t.IsTree
  isTree' : t'.IsTree
  named : t'.Named
  located : t.locate path = .ok loc
  directories : ∀ l, t.get? l = some .directory → t'.get? l = some .directory
  kept : ∀ names e, t.get? (loc ++ names) = some e → t'.get? (loc ++ names) = some e
  made : ∀ names e, t'.get? (loc ++ names) = some e → t.get? (loc ++ names) = none →
    e = .directory ∧ ((path.descend names).extension? = some "rs" →
      t'.locate (path.descend names) = .ok (loc ++ names))

namespace Regrown

variable {path : FilePath} {loc names : List String} {t t' : FileTree} {name : String}
  {e : FileTree.Entry}

variable (h : Regrown path loc t t')

include h

theorem isName (he : t'.get? (loc ++ names) = some e) : ∀ name ∈ names, FilePath.IsName name :=
  fun name hname => h.named _ _ he name (List.mem_append_right _ hname)

/-- At a name that was not there, nothing is found unless it is in the directory. -/
theorem sourceFilesAt_eq_nil (he : t'.get? (loc ++ names) = some e)
    (hnone : t.get? (loc ++ names) = none) {n : Nat} {relative : FilePath}
    (hfiles : t'.locate (path.descend names) = .ok (loc ++ names) →
      sourceFiles t' n (path.descend names) relative = .ok []) :
    sourceFilesAt t' n (path.descend names) relative = .ok [] := by
  obtain ⟨rfl, hreached⟩ := h.made _ _ he hnone
  rw [sourceFilesAt]
  split
  · next hisDirectory =>
    obtain ⟨l, hlocate, -⟩ := FileTree.isDirectory_iff.1 hisDirectory
    obtain rfl := FileTree.eq_of_locate_descend
      (FileTree.locate_mono h.directories h.located) (h.isName he) hlocate
    exact hfiles hlocate
  · next hnot =>
    -- a directory that cannot be reached is not named like a source
    rw [if_neg fun hext => hnot (FileTree.isDirectory_iff.2 ⟨_, hreached hext, he⟩)]

/-- In a directory that was made there is nothing but directories. -/
theorem sourceFilesAt_of_get?_eq_none (he : t'.get? (loc ++ names) = some e)
    (hnone : t.get? (loc ++ names) = none) (n : Nat) (relative : FilePath) :
    sourceFilesAt t' n (path.descend names) relative = .ok [] := by
  refine h.sourceFilesAt_eq_nil he hnone fun hlocate => ?_
  induction n generalizing names e relative with
  | zero => rfl
  | succ n ih =>
    obtain ⟨rfl, -⟩ := h.made _ _ he hnone
    rw [sourceFiles_succ (FileTree.list_eq_ok_iff.2 ⟨_, hlocate, he, rfl⟩)]
    refine gather_eq_nil fun name hname => ?_
    obtain ⟨e', he'⟩ := FileTree.mem_names.1 hname
    have hnone' : t.get? (loc ++ names ++ [name]) = none :=
      h.isTree.get?_append_eq_none (by rw [hnone]; simp) (by simp)
    rw [List.append_assoc] at he' hnone'
    rw [← FilePath.descend_concat]
    exact h.sourceFilesAt_eq_nil he' hnone' (ih he' hnone' _)

/-- A name that was there leads where it led. -/
theorem locate_join (hlocate : t.locate (path.descend names) = .ok (loc ++ names))
    (hdir : t.get? (loc ++ names) = some .directory) (hname : FilePath.IsName name) :
    t'.locate (path.descend (names ++ [name])) = t.locate (path.descend (names ++ [name])) := by
  rw [FilePath.descend_concat, FileTree.locate_join hlocate hname,
    FileTree.locate_join (FileTree.locate_mono h.directories hlocate) hname, FileTree.step,
    FileTree.step, hdir, h.directories _ hdir]

theorem filter_names (names : List String) :
    ((t'.names (loc ++ names)).filter fun name => (t.get? (loc ++ names ++ [name])).isSome) =
      t.names (loc ++ names) := by
  refine SortedMap.eq_of_pairwise_lt ((t'.pairwise_names _).filter _) (t.pairwise_names _)
    fun name => ?_
  rw [List.mem_filter, Option.isSome_iff_exists, FileTree.mem_names, FileTree.mem_names,
    and_iff_right_iff_imp]
  rintro ⟨e, he⟩
  rw [List.append_assoc] at he ⊢
  exact ⟨e, h.kept _ e he⟩

/-- At a name that was there, what is found stays the same if it does in directories. -/
theorem sourceFilesAt_congr {n n' : Nat} {relative : FilePath}
    (hlocate : t.locate (path.descend names) = .ok (loc ++ names))
    (hdir : t.get? (loc ++ names) = some .directory)
    (he : t.get? (loc ++ (names ++ [name])) = some e)
    (hfiles : t.locate (path.descend (names ++ [name])) = .ok (loc ++ (names ++ [name])) →
      t.get? (loc ++ (names ++ [name])) = some .directory →
      sourceFiles t' n' (path.descend (names ++ [name])) relative =
        sourceFiles t n (path.descend (names ++ [name])) relative) :
    sourceFilesAt t' n' (path.descend (names ++ [name])) relative =
      sourceFilesAt t n (path.descend (names ++ [name])) relative := by
  have he' := h.kept _ _ he
  have hnames := h.isName he'
  have hsame := h.locate_join hlocate hdir (hnames name (by simp))
  -- A found path leads to its own place: nothing on the way to it goes up again.
  have hloc {l : List String} (hl : t.locate (path.descend (names ++ [name])) = .ok l) :
      l = loc ++ (names ++ [name]) :=
    FileTree.eq_of_locate_descend h.located hnames hl
  have hget (l : List String) (hl : t.locate (path.descend (names ++ [name])) = .ok l) :
      t'.get? l = t.get? l := by
    rw [hloc hl, he, he']
  rw [sourceFilesAt, sourceFilesAt, FileTree.isDirectory_congr hsame hget,
    FileTree.readText_congr hsame hget]
  split
  · next hisDirectory =>
    obtain ⟨l, hl, hdir'⟩ := FileTree.isDirectory_iff.1 hisDirectory
    obtain rfl := hloc hl
    exact hfiles hl hdir'
  · rfl

/-- In a directory that was there, what is found stays the same. -/
theorem sourceFiles_congr {n n' : Nat}
    (hlocate : t.locate (path.descend names) = .ok (loc ++ names))
    (hdir : t.get? (loc ++ names) = some .directory)
    (hn : t.entries.size < n + (loc ++ names).length)
    (hn' : t'.entries.size < n' + (loc ++ names).length) (relative : FilePath) :
    sourceFiles t' n' (path.descend names) relative =
      sourceFiles t n (path.descend names) relative := by
  induction n generalizing n' names relative with
  | zero =>
    -- no location is longer than the number of entries
    have hlength := h.isTree.length_le_size hdir
    omega
  | succ n ih =>
    have hdir' := h.directories _ hdir
    obtain ⟨m, rfl⟩ : ∃ m, n' = m + 1 := by
      have hlength := h.isTree'.length_le_size hdir'
      exact ⟨n' - 1, by omega⟩
    have hlist : t.list (path.descend names) = .ok (t.names (loc ++ names)) :=
      FileTree.list_eq_ok_iff.2 ⟨_, hlocate, hdir, rfl⟩
    have hlist' : t'.list (path.descend names) = .ok (t'.names (loc ++ names)) :=
      FileTree.list_eq_ok_iff.2 ⟨_, FileTree.locate_mono h.directories hlocate, hdir', rfl⟩
    rw [sourceFiles_succ hlist, sourceFiles_succ hlist',
      ← gather_filter fun name => (t.get? (loc ++ names ++ [name])).isSome, h.filter_names]
    · refine gather_congr fun name hname => ?_
      obtain ⟨e, he⟩ := FileTree.mem_names.1 hname
      rw [List.append_assoc] at he
      rw [← FilePath.descend_concat]
      refine h.sourceFilesAt_congr hlocate hdir he fun hlocate' hdir' => ?_
      have hlength : (loc ++ (names ++ [name])).length = (loc ++ names).length + 1 := by
        rw [← List.append_assoc, List.length_append, List.length_singleton]
      exact ih hlocate' hdir' (by omega) (by omega) _
    · intro name hname hnone
      obtain ⟨e, he⟩ := FileTree.mem_names.1 hname
      rw [List.append_assoc] at he hnone
      rw [Option.isSome_eq_false_iff, Option.isNone_iff_eq_none] at hnone
      rw [← FilePath.descend_concat]
      exact h.sourceFilesAt_of_get?_eq_none he hnone m _

/-- The crate of a directory stays the same. -/
theorem load_congr (hdir : t.get? loc = some .directory) (root : Namespace) :
    load t' path root = load t path root := by
  rw [← List.append_nil loc] at hdir
  have hlocate : t.locate (path.descend []) = .ok (loc ++ []) :=
    h.located.trans (by rw [List.append_nil])
  -- each tree is searched as deep as it can be
  have hfiles : sourceFiles t' (t'.entries.size + 1) path ⟨""⟩ =
      sourceFiles t (t.entries.size + 1) path ⟨""⟩ :=
    h.sourceFiles_congr hlocate hdir (by omega) (by omega) _
  rw [load, load, hfiles]

end Regrown

end Crate

end FieldBinder
