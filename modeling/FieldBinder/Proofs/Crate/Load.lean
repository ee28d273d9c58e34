import FieldBinder.Crate.Load
import FieldBinder.Proofs.Attempts
import FieldBinder.Proofs.Crate.Relocation
import FieldBinder.Proofs.FileTree.Descent
import FieldBinder.Proofs.FileTree.Operations
import FieldBinder.Proofs.FileTree.Walk

/-!
# The crate of a directory

A directory is searched name by name (`sourceFiles_succ`).  Where it can be read with all
directories and sources in it (`Readable`), what is found are the sources below it in the order of
their paths (`sourceFiles_eq`, `sourcesBelow_eq_map_walk`).  Sources given in memory are registered
in the same order.  So the crate of the directory is the crate of its sources, and the fault of one
is the fault of the other, but for the way to the directory in the paths of files (`load_eq`).
-/

namespace FieldBinder

namespace FileTree

/-- The path and the bytes of what lies below a location, if it is a source. -/
def sourceOf? : List String × Entry → Option (FilePath × ByteArray)
  | (names, .file bytes) =>
    if (FilePath.ofSegments names).extension? = some "rs" then some (.ofSegments names, bytes)
    else none
  | (_, .directory) => none

/-- The paths that lead to sources from a location, with their bytes. -/
def sourcesBelow (t : FileTree) (loc : List String) : List (FilePath × ByteArray) :=
  (t.below loc).filterMap sourceOf?

/-- A source is a file whose name has the extension. -/
theorem sourceOf?_eq_some_iff {b : List String × Entry} {source : FilePath × ByteArray} :
    sourceOf? b = some source ↔ ∃ names bytes, b = (names, .file bytes) ∧
      source = (.ofSegments names, bytes) ∧
      (FilePath.ofSegments names).extension? = some "rs" := by
  constructor
  · intro h
    obtain ⟨names, e⟩ := b
    cases e with
    | directory => cases h
    | file bytes =>
      rw [sourceOf?] at h
      split at h
      · next hext =>
        cases h
        exact ⟨names, bytes, rfl, rfl, hext⟩
      · cases h
  · rintro ⟨names, bytes, rfl, rfl, hext⟩
    rw [sourceOf?, if_pos hext]

/-- The sources below a location are the files there with the extension. -/
theorem mem_sourcesBelow {t : FileTree} {loc : List String} {source : FilePath × ByteArray} :
    source ∈ t.sourcesBelow loc ↔ ∃ names bytes, source = (.ofSegments names, bytes) ∧
      names ≠ [] ∧ t.get? (loc ++ names) = some (.file bytes) ∧
      (FilePath.ofSegments names).extension? = some "rs" := by
  rw [sourcesBelow, List.mem_filterMap]
  constructor
  · rintro ⟨b, hb, h⟩
    obtain ⟨names, bytes, rfl, rfl, hext⟩ := sourceOf?_eq_some_iff.1 h
    obtain ⟨hne, hget⟩ := mem_below.1 hb
    exact ⟨names, bytes, rfl, hne, hget, hext⟩
  · rintro ⟨names, bytes, rfl, hne, hget, hext⟩
    exact ⟨_, mem_below.2 ⟨hne, hget⟩, sourceOf?_eq_some_iff.2 ⟨names, bytes, rfl, rfl, hext⟩⟩

end FileTree

/-! ### The order of paths -/

/-- Paths that are made of names are ordered as the names are. -/
theorem compare_ofSegments {names names' : List String}
    (h : ∀ name ∈ names, FilePath.IsName name) (h' : ∀ name ∈ names', FilePath.IsName name) :
    compare (FilePath.ofSegments names) (FilePath.ofSegments names') = compare names names' := by
  have hcompare (p q : FilePath) : compare p q = compare p.components q.components := rfl
  rw [hcompare, FilePath.components_ofSegments h, FilePath.components_ofSegments h',
    compare_map_normal]

/-! ### Reading a directory -/

namespace Crate

open FileTree

/-- What is found at a path in a directory. -/
def sourceFilesAt (t : FileTree) (n : Nat) (path relative : FilePath) :
    Except SourceFault (List SourceFile) :=
  if t.isDirectory path then sourceFiles t n path relative
  else if path.extension? = some "rs" then .ok [⟨relative, path, t.readText path⟩]
  else .ok []

/-- A directory is searched name by name. -/
theorem sourceFiles_succ {t : FileTree} {path : FilePath} {names : List String}
    (h : t.list path = .ok names) (n : Nat) (relative : FilePath) :
    sourceFiles t (n + 1) path relative =
      gather (fun name => sourceFilesAt t n (path.join ⟨name⟩) (relative.join ⟨name⟩)) names := by
  rw [sourceFiles, h]
  rfl

/-- Whether the directory that a path leads to can be read, with the directories and the sources
below it. -/
structure Readable (t : FileTree) (path : FilePath) (loc : List String) : Prop where
  isTree : t.IsTree
  located : t.locate path = .ok loc
  directory : t.get? loc = some .directory
  /-- As on any disk, no name has a slash or stands for a directory on the way. -/
  isName : ∀ b ∈ t.below loc, ∀ name ∈ b.1, FilePath.IsName name
  /-- The path of a directory or a source is not too long. -/
  reached : ∀ b ∈ t.below loc,
    b.2.isDirectory = true ∨ (FilePath.ofSegments b.1).extension? = some "rs" →
    ∃ l, t.locate (path.join (.ofSegments b.1)) = .ok l

/-- The source file of a path below a directory, with its bytes read as text. -/
def SourceFile.ofBytes (path : FilePath) (source : FilePath × ByteArray) : SourceFile where
  relative := source.1
  path := path.join source.1
  text :=
    match String.fromUTF8? source.2 with
    | some text => .ok text
    | none => .error .notText

/-- The source file that names lead to from a directory. -/
def sourceFile (t : FileTree) (path : FilePath) (names : List String) : SourceFile :=
  ⟨.ofSegments names, path.descend names, t.readText (path.descend names)⟩

namespace Readable

variable {t : FileTree} {path : FilePath} {loc names : List String} {name : String} {e : Entry}

variable (h : Readable t path loc)

include h

/-- The names below a directory are names of files. -/
theorem isName_of_get? (he : t.get? (loc ++ names) = some e) :
    ∀ name ∈ names, FilePath.IsName name := by
  by_cases hne : names = []
  · simp [hne]
  · exact h.isName (names, e) (mem_below.2 ⟨hne, he⟩)

/-- To go down by names leads where the tree has them. -/
theorem locate_descend (he : t.get? (loc ++ names) = some e)
    (hcounts : e.isDirectory = true ∨ (FilePath.ofSegments names).extension? = some "rs") :
    t.locate (path.descend names) = .ok (loc ++ names) := by
  by_cases hne : names = []
  · subst hne
    rw [List.append_nil]
    exact h.located
  · have hnames := h.isName_of_get? he
    obtain ⟨l, hl⟩ := h.reached (names, e) (mem_below.2 ⟨hne, he⟩) hcounts
    rw [← FilePath.descend_eq_join path hnames hne] at hl
    rw [hl, eq_of_locate_descend h.located hnames hl]

/-- A directory below is listed with the names in it. -/
theorem list_descend (hdir : t.get? (loc ++ names) = some .directory) :
    t.list (path.descend names) = .ok (t.names (loc ++ names)) :=
  list_eq_ok_iff.2 ⟨_, h.locate_descend hdir (.inl rfl), hdir, rfl⟩

/-- A path by names leads to a directory if there is one. -/
theorem isDirectory_descend (he : t.get? (loc ++ names) = some e) :
    t.isDirectory (path.descend names) = e.isDirectory := by
  rw [isDirectory]
  cases hlocate : t.locate (path.descend names) with
  | ok l =>
    obtain rfl := eq_of_locate_descend h.located (h.isName_of_get? he) hlocate
    simp only [he, Option.any_some]
  | error fault =>
    cases e with
    | directory =>
      rw [h.locate_descend he (.inl rfl)] at hlocate
      cases hlocate
    | file bytes => rfl

/-- The sources that are found below a directory are those of the walk. -/
theorem sourceFiles_eq (n : Nat) (hdir : t.get? (loc ++ names) = some .directory) :
    sourceFiles t n (path.descend names) (.ofSegments names) =
      .ok ((t.walk "rs" n (loc ++ names)).map fun rest => sourceFile t path (names ++ rest)) := by
  induction n generalizing names with
  | zero => rfl
  | succ n ih =>
    -- the induction is on the depth that is searched: one name of the directory at a time
    have hname : ∀ name ∈ t.names (loc ++ names),
        sourceFilesAt t n ((path.descend names).join ⟨name⟩)
          ((FilePath.ofSegments names).join ⟨name⟩) =
        .ok ((t.found "rs" (t.walk "rs" n) (loc ++ names) name).map fun rest =>
          sourceFile t path (names ++ rest)) := by
      intro name hmem
      obtain ⟨e, he⟩ := mem_names.1 hmem
      rw [found, he, Option.any_some]
      rw [List.append_assoc] at he ⊢
      rw [sourceFilesAt, FilePath.ofSegments_eq_descend, ← FilePath.descend_concat,
        ← FilePath.descend_concat, h.isDirectory_descend he,
        FilePath.extension?_descend path (h.isName_of_get? he)]
      cases e with
      | directory =>
        rw [if_pos (by rfl), if_pos (by rfl), ← FilePath.ofSegments_eq_descend, ih he, List.map_map]
        simp [Function.comp_def]
      | file bytes =>
        simp only [Entry.isDirectory, Bool.false_eq_true, if_false]
        split <;> rfl
    rw [sourceFiles_succ (h.list_descend hdir), gather, mapM_eq_ok_map hname, walk,
      List.map_flatMap, List.flatMap_def]
    rfl

/-! ### The sources below a directory -/

/-- The sources are in the order of their paths. -/
theorem pairwise_sourcesBelow :
    (t.sourcesBelow loc).Pairwise fun a b => compare a.1 b.1 = .lt := by
  rw [sourcesBelow, List.pairwise_filterMap]
  refine (t.pairwise_below loc).imp_of_mem fun {a b} ha hb hab x hx y hy => ?_
  obtain ⟨names, bytes, rfl, rfl, -⟩ := sourceOf?_eq_some_iff.1 hx
  obtain ⟨names', bytes', rfl, rfl, -⟩ := sourceOf?_eq_some_iff.1 hy
  rw [compare_ofSegments (h.isName _ ha) (h.isName _ hb)]
  exact hab

/-- So are the files of a walk. -/
theorem pairwise_map_walk (n : Nat) :
    ((t.walk "rs" n loc).map fun names =>
      (FilePath.ofSegments names, t.bytesAt (loc ++ names))).Pairwise
      fun a b => compare a.1 b.1 = .lt := by
  refine List.pairwise_map.2 ((t.pairwise_walk "rs" n loc).imp_of_mem fun {a b} ha hb hab => ?_)
  obtain ⟨-, _, _, _, -, -, hfile⟩ := (mem_walk h.isTree).1 ha
  obtain ⟨-, _, _, _, -, -, hfile'⟩ := (mem_walk h.isTree).1 hb
  rw [compare_ofSegments (h.isName_of_get? hfile) (h.isName_of_get? hfile')]
  exact hab

/-- The walk finds all sources, in the order of their paths. -/
theorem sourcesBelow_eq_map_walk :
    t.sourcesBelow loc = (t.walk "rs" (t.entries.size + 1) loc).map fun names =>
      (.ofSegments names, t.bytesAt (loc ++ names)) := by
  refine SortedMap.eq_of_pairwise_lt_on Prod.fst h.pairwise_sourcesBelow (h.pairwise_map_walk _)
    fun source => ?_
  rw [mem_sourcesBelow, List.mem_map]
  constructor
  · rintro ⟨names, bytes, rfl, hne, hfile, hext⟩
    refine ⟨names, (mem_walk h.isTree).2 ⟨?_, ?_⟩, by rw [bytesAt_of_get? hfile]⟩
    · have hlength := h.isTree.length_le_size hfile
      rw [List.length_append] at hlength
      omega
    · obtain ⟨dirs, name, rfl⟩ := List.eq_nil_or_concat' names |>.resolve_left hne
      rw [FilePath.ofSegments_eq_descend, FilePath.extension?_descend _ (h.isName_of_get? hfile)]
        at hext
      exact ⟨dirs, name, bytes, rfl, hext, hfile⟩
  · rintro ⟨names, hwalk, rfl⟩
    obtain ⟨-, dirs, name, bytes, rfl, hext, hfile⟩ := (mem_walk h.isTree).1 hwalk
    refine ⟨_, bytes, by rw [bytesAt_of_get? hfile], by simp, hfile, ?_⟩
    rw [FilePath.ofSegments_eq_descend, FilePath.extension?_descend _ (h.isName_of_get? hfile)]
    exact hext

/-- What the walk leads to are the sources below the directory, read as text. -/
theorem map_sourceFile_walk :
    (t.walk "rs" (t.entries.size + 1) loc).map (sourceFile t path) =
      (t.sourcesBelow loc).map (SourceFile.ofBytes path) := by
  rw [h.sourcesBelow_eq_map_walk, List.map_map]
  refine List.map_congr_left fun names hnames => ?_
  obtain ⟨-, dirs, name, bytes, rfl, hext, hfile⟩ := (mem_walk h.isTree).1 hnames
  have hnames := h.isName_of_get? hfile
  have hext' : (FilePath.ofSegments (dirs ++ [name])).extension? = some "rs" :=
    (FilePath.extension?_descend ⟨""⟩ hnames).trans hext
  have hread : t.read (path.descend (dirs ++ [name])) = .ok bytes :=
    read_eq_ok_iff.2 ⟨_, h.locate_descend hfile (.inr hext'), hfile⟩
  rw [Function.comp_apply, bytesAt_of_get? hfile, sourceFile, SourceFile.ofBytes,
    ← FilePath.descend_eq_join path hnames (by simp), readText, hread]
  rfl

end Readable

/-- The crate of a directory that can be read is the crate of the sources below it, given in any
order, and the fault of one is the fault of the other; only the paths of files lead through the
directory. -/
theorem load_eq {t : FileTree} {path : FilePath} {loc : List String} (h : Readable t path loc)
    (root : Namespace) {sources : List (FilePath × String)}
    (hsources : (sources.map fun s => (s.1, s.2.toUTF8)).Perm (t.sourcesBelow loc)) :
    load t path root = relocateOutcome path.join (ofSources root sources) := by
  -- The search finds the sources below the directory, in the order of their paths.
  have hfound : sourceFiles t (t.entries.size + 1) path ⟨""⟩ =
      .ok ((t.sourcesBelow loc).map (SourceFile.ofBytes path)) := by
    have hdir : t.get? (loc ++ []) = some .directory := by
      rw [List.append_nil]
      exact h.directory
    have hfiles := h.sourceFiles_eq (t.entries.size + 1) hdir
    rw [List.append_nil] at hfiles
    exact hfiles.trans (congrArg Except.ok h.map_sourceFile_walk)
  -- Sorted by path, the given sources are these files: no path occurs twice in a tree.
  have hsorted : (sources.mergeSort fun a b => (compare a.1 b.1).isLE).map
      (fun s => (s.1, s.2.toUTF8)) = t.sourcesBelow loc := by
    have hmap : (sources.mergeSort fun a b => (compare a.1 b.1).isLE).map
        (fun s => (s.1, s.2.toUTF8)) = (sources.map fun s => (s.1, s.2.toUTF8)).mergeSort
          fun a b => (compare a.1 b.1).isLE :=
      List.map_mergeSort fun _ _ _ _ => rfl
    rw [hmap]
    exact SortedMap.mergeSort_eq_of_perm hsources h.pairwise_sourcesBelow
  -- Each file is found under the directory and read as the text that was given for it.
  have htext (s : FilePath × String) : SourceFile.ofBytes path (s.1, s.2.toUTF8) =
      SourceFile.relocate path.join ⟨s.1, s.1, .ok s.2⟩ := by
    rw [SourceFile.ofBytes, fromUTF8?_eq_some_iff.2 rfl]
    rfl
  calc load t path root
      = ofFiles root ((t.sourcesBelow loc).map (SourceFile.ofBytes path)) := by
        rw [load, hfound]
        rfl
    _ = ofFiles root (((sources.mergeSort fun a b => (compare a.1 b.1).isLE).map
          fun s => ⟨s.1, s.1, .ok s.2⟩).map (SourceFile.relocate path.join)) := by
        rw [← hsorted, List.map_map, List.map_map]
        exact congrArg (ofFiles root) (List.map_congr_left fun s _ => htext s)
    _ = relocateOutcome path.join (ofSources root sources) := ofFiles_relocate root _

/-- A directory with a module in a file and one beside it in a directory. -/
def geoTree : FileTree :=
  ((((FileTree.empty.put ["src"] .directory).put ["src", "geo"] .directory).put
    ["src", "geo", "nordic.rs"] (.file "pub struct Norway;".toUTF8)).put
    ["src", "geo.rs"] (.file "pub trait Country {}".toUTF8)).put
    ["src", "lib.rs"] (.file "pub mod geo;".toUTF8)

/-- The sources in this directory. -/
def geoSources : List (FilePath × String) :=
  [(⟨"lib.rs"⟩, "pub mod geo;"), (⟨"geo/nordic.rs"⟩, "pub struct Norway;"),
    (⟨"geo.rs"⟩, "pub trait Country {}")]

/-- A tree with a file, a module in a directory and a file that is no source. -/
theorem readable_geoTree : Readable geoTree ⟨"src"⟩ ["src"] where
  isTree := isTree_of_keys (by decide +kernel)
  located := by decide +kernel
  directory := rfl
  isName := by
    have hnames : ∀ b ∈ geoTree.below ["src"], ∀ name ∈ b.1, '/' ∉ name.toList ∧
        FilePath.componentOf? name.toList = some (.normal name) := by
      decide +kernel
    exact hnames
  reached b hb _ := by
    have hlocated : ∀ b ∈ geoTree.below ["src"],
        (geoTree.locate (FilePath.join ⟨"src"⟩ (.ofSegments b.1))).isOk = true := by
      decide +kernel
    have := hlocated b hb
    cases hlocate : geoTree.locate (FilePath.join ⟨"src"⟩ (.ofSegments b.1)) with
    | ok l => exact ⟨l, rfl⟩
    | error fault =>
      rw [hlocate] at this
      cases this

/-- It is loaded as its three sources are. -/
theorem load_eq_geoTree :
    (load geoTree ⟨"src"⟩ ⟨["crate"]⟩).toOption.map (fun c => c.moduleList.map (·.file.text)) =
      some ["src/lib.rs", "src/geo.rs", "src/geo/nordic.rs"] ∧
    load geoTree ⟨"src"⟩ ⟨["crate"]⟩ =
      relocateOutcome (FilePath.join ⟨"src"⟩) (ofSources ⟨["crate"]⟩ geoSources) :=
  ⟨by decide +kernel, load_eq readable_geoTree ⟨["crate"]⟩ (by decide +kernel)⟩

end Crate

end FieldBinder
