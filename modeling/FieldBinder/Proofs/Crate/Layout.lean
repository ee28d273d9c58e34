import FieldBinder.Proofs.Crate.Registration
import FieldBinder.Proofs.FileTree.FilePath
import FieldBinder.Proofs.Grammar.Items
import FieldBinder.Proofs.SortedMap
import FieldBinder.Round

/-!
# Where the files of modules lie

A file that declares a module without writing it out leaves it to another file.  The language looks
for that file in the directory of the declaring file (`moduleDirectory`): `a` for `a/mod.rs`, `a/b`
for `a/b.rs`, and the source root for the root of the crate.  A file is registered where the
language has it unless it is named `lib.rs` or `main.rs` and lies below the root
(`moduleSegments_eq_iff`); and the file of a declared module is registered where the name of the
module is looked up unless it is so named or the name is raw (`ofSources_layout`).

Sources are registered in the order of their paths, so the order in which they are given makes no
difference (`ofSources_perm`).
-/

namespace FieldBinder

namespace FilePath

variable {p : FilePath} {dir : List Component}

theorem fileName?_of_components {name : String} (h : p.components = dir ++ [.normal name]) :
    p.fileName? = some name := by
  rw [fileName?, h, List.getLast?_concat]

theorem parentComponents_of_components {name : String}
    (h : p.components = dir ++ [.normal name]) : p.parentComponents = dir := by
  rw [parentComponents, h, List.getLast?_concat]
  exact List.dropLast_concat

theorem cutAtLastDot_source {stem : String} (hstem : stem ≠ "") :
    cutAtLastDot (stem ++ ".rs") = (stem.toList, some ['r', 's']) := by
  obtain ⟨c, r, hcr⟩ : ∃ c r, stem.toList.reverse = c :: r := by
    refine List.exists_cons_of_ne_nil ?_
    rw [ne_eq, List.reverse_eq_nil_iff]
    intro hnil
    exact hstem (String.toList_inj.1 hnil)
  have hreverse : (stem ++ ".rs").toList.reverse = 's' :: 'r' :: '.' :: c :: r := by
    rw [String.toList_append, List.reverse_append, hcr]
    rfl
  -- The name `..` is not cut; a name that ends in `rs` is another.
  have hdots : (stem ++ ".rs").toList ≠ ['.', '.'] := by
    intro heq
    rw [heq] at hreverse
    cases hreverse
  have htail : ('s' :: 'r' :: '.' :: c :: r).takeWhile (· != '.') = ['s', 'r'] := by
    simp
  have hhead : ('s' :: 'r' :: '.' :: c :: r).dropWhile (· != '.') = '.' :: c :: r := by
    simp
  unfold cutAtLastDot
  simp only [hreverse, htail, hhead, if_neg hdots]
  rw [← hcr, List.reverse_reverse]
  rfl

theorem stem?_of_components {stem : String} (hstem : stem ≠ "")
    (h : p.components = dir ++ [.normal (stem ++ ".rs")]) : p.stem? = some stem := by
  rw [stem?, fileName?_of_components h, Option.map_some, cutAtLastDot_source hstem,
    String.ofList_toList]

end FilePath

namespace Crate

/-! ### The layout of the language -/

/-- The directory in which the files of the modules lie that a file declares. -/
def moduleDirectory (p : FilePath) : List Component :=
  p.parentComponents ++
    match p.stem? with
    | some stem =>
      if stem = "mod" ∨ p.parentComponents = [] ∧ stem ∈ ["lib", "main"] then []
      else [.normal stem]
    | none => []

/-- The name of a module without the `r#` of a raw name, which no file name has. -/
def fileSpelling (name : String) : String :=
  match name.toList with
  | 'r' :: '#' :: r => String.ofList r
  | _ => name

/-- The file of a module that another file declares. -/
def flatFile (declaring : FilePath) (name : String) : List Component :=
  moduleDirectory declaring ++ [.normal (fileSpelling name ++ ".rs")]

/-- The file of a module that another file declares, in a directory of its own. -/
def nestedFile (declaring : FilePath) (name : String) : List Component :=
  moduleDirectory declaring ++ [.normal (fileSpelling name), .normal "mod.rs"]

/-- Whether the language takes a declared module from a file; no file is a module of itself. -/
def IsFileOf (name : String) (declaring p : FilePath) : Prop :=
  p.components ≠ declaring.components ∧
    (p.components = flatFile declaring name ∨ p.components = nestedFile declaring name)

/-- Whether a file below the source root is named like the root of a crate. -/
def NamedAsRoot (p : FilePath) : Prop :=
  p.parentComponents ≠ [] ∧ ∃ stem ∈ ["lib", "main"], p.stem? = some stem

/-- The segments of a file are those of its directory in the language, unless it is named like a
root. -/
theorem moduleSegments_eq_iff {p : FilePath} :
    moduleSegments p = (moduleDirectory p).map Component.text ↔ ¬ NamedAsRoot p := by
  rw [moduleSegments, moduleDirectory, NamedAsRoot, List.map_append, List.append_cancel_left_eq]
  cases p.stem? with
  | none => simp
  | some stem =>
    dsimp only
    by_cases hroot : stem ∈ ["lib", "main"]
    · -- a file named as a crate root: it stands for its directory, but only at the top of the crate
      have hspecial : ["lib", "main", "mod"].contains stem = true :=
        List.contains_iff_mem.2 (List.mem_append_left ["mod"] hroot)
      rw [if_pos hspecial]
      by_cases hparent : p.parentComponents = []
      · rw [if_pos (.inr ⟨hparent, hroot⟩)]
        exact iff_of_true rfl fun h => h.1 hparent
      · have hbelow : ¬ (stem = "mod" ∨ p.parentComponents = [] ∧ stem ∈ ["lib", "main"]) := by
          rintro (rfl | h)
          · exact absurd hroot (by decide)
          · exact hparent h.1
        rw [if_neg hbelow]
        exact iff_of_false (by simp) (not_not_intro ⟨hparent, stem, hroot, rfl⟩)
    · have hnamed : ¬ (p.parentComponents ≠ [] ∧
          ∃ stem' ∈ ["lib", "main"], some stem = some stem') := by
        rintro ⟨-, stem', hroot', heq⟩
        cases heq
        exact hroot hroot'
      -- any other stem is read in one way, `mod` or a name
      refine iff_of_true ?_ hnamed
      by_cases hmod : stem = "mod"
      · subst hmod
        rfl
      · have hspecial : ¬ ["lib", "main", "mod"].contains stem = true := by
          rw [List.contains_iff_mem]
          intro hmem
          rcases List.mem_append.1 (show stem ∈ ["lib", "main"] ++ ["mod"] from hmem) with h | h
          · exact hroot h
          · exact hmod (List.mem_singleton.1 h)
        have hplain : ¬ (stem = "mod" ∨ p.parentComponents = [] ∧ stem ∈ ["lib", "main"]) := by
          rintro (h | h)
          · exact hmod h
          · exact hroot h.2
        rw [if_neg hspecial, if_neg hplain]
        rfl

theorem fileSpelling_ne_empty {name : String} (hname : IsNameText name) :
    fileSpelling name ≠ "" := by
  intro hempty
  rw [← String.toList_inj, fileSpelling] at hempty
  unfold IsNameText Lexeme.IsName Lexeme.IsPlainName at hname
  split at hempty
  · next r heq =>
    rw [String.toList_ofList] at hempty
    subst hempty
    -- A raw name has characters behind its `r#`, so taking that off leaves some.
    rcases hname with ⟨c, r, hcr, -, hr⟩ | ⟨r, hr, ⟨c, r', rfl, -⟩, -⟩
    · rw [heq] at hcr
      cases hcr
      exact absurd (hr '#' List.mem_cons_self) (by decide)
    · rw [heq] at hr
      cases hr
  · rw [hempty] at hname
    rcases hname with ⟨c, r, hcr, -⟩ | ⟨r, hr, -⟩
    · cases hcr
    · cases hr

variable {declaring p : FilePath} {name : String}

theorem moduleSegments_of_nestedFile (h : p.components = nestedFile declaring name) :
    moduleSegments p = (moduleDirectory declaring).map Component.text ++ [fileSpelling name] := by
  have hcomponents : p.components =
      moduleDirectory declaring ++ [.normal (fileSpelling name)] ++ [.normal ("mod" ++ ".rs")] := by
    rw [h, nestedFile, List.append_assoc]
    rfl
  rw [moduleSegments, FilePath.stem?_of_components (by decide) hcomponents,
    FilePath.parentComponents_of_components hcomponents]
  simp [Component.text]

theorem moduleSegments_of_flatFile (hname : fileSpelling name ≠ "")
    (h : p.components = flatFile declaring name) :
    moduleSegments p = (moduleDirectory declaring).map Component.text ++
      if fileSpelling name ∈ ["lib", "main", "mod"] then [] else [fileSpelling name] := by
  rw [moduleSegments, FilePath.stem?_of_components hname h,
    FilePath.parentComponents_of_components h]
  simp

theorem prefix_moduleSegments (hname : fileSpelling name ≠ "") (h : IsFileOf name declaring p) :
    (moduleDirectory declaring).map Component.text <+: moduleSegments p := by
  rcases h with ⟨-, h | h⟩
  · rw [moduleSegments_of_flatFile hname h]
    exact List.prefix_append ..
  · rw [moduleSegments_of_nestedFile h]
    exact List.prefix_append ..

/-- The file of a declared module has the segments of the module, unless the name is raw or the
file is named like the file of a directory or of a root. -/
theorem moduleSegments_eq_child_iff (hname : fileSpelling name ≠ "")
    (h : IsFileOf name declaring p) :
    moduleSegments p = (moduleDirectory declaring).map Component.text ++ [name] ↔
      fileSpelling name = name ∧
        (name ∈ ["lib", "main", "mod"] → p.components = nestedFile declaring name) := by
  rcases h with ⟨-, hflat | hnested⟩
  · rw [moduleSegments_of_flatFile hname hflat, List.append_cancel_left_eq]
    constructor
    · intro heq
      split at heq
      · cases heq
      · next hspecial =>
        have heq : fileSpelling name = name := List.singleton_inj.1 heq
        rw [heq] at hspecial
        exact ⟨heq, fun h => absurd h hspecial⟩
    · rintro ⟨heq, hspecial⟩
      have hspecial : name ∉ ["lib", "main", "mod"] := by
        intro hmem
        have hlength := congrArg List.length (hflat.symm.trans (hspecial hmem))
        simp [flatFile, nestedFile] at hlength
      rw [heq, if_neg hspecial]
  · rw [moduleSegments_of_nestedFile hnested, List.append_cancel_left_eq, List.singleton_inj]
    exact (and_iff_left fun _ => hnested).symm

/-! ### Sources -/

/-- The files of sources, in the order in which they are registered. -/
def filesOf (sources : List (FilePath × String)) : List SourceFile :=
  (sources.mergeSort fun a b => (compare a.1 b.1).isLE).map fun s => ⟨s.1, s.1, .ok s.2⟩

/-- The modules that sources bring into a crate. -/
def sourceModules (root : Namespace) (sources : List (FilePath × String)) : List ModuleSource :=
  (crateFiles (filesOf sources)).flatMap (modulesOf root)

theorem mem_filesOf {sources : List (FilePath × String)} {f : SourceFile} :
    f ∈ filesOf sources ↔ ∃ s ∈ sources, f = ⟨s.1, s.1, .ok s.2⟩ := by
  rw [filesOf, List.mem_map]
  constructor
  · rintro ⟨s, hs, rfl⟩
    exact ⟨s, List.mem_mergeSort.1 hs, rfl⟩
  · rintro ⟨s, hs, rfl⟩
    exact ⟨s, List.mem_mergeSort.2 hs, rfl⟩

theorem ofSources_of_pairwise {sources : List (FilePath × String)}
    (h : sources.Pairwise fun a b => (compare a.1 b.1).isLE = true) (root : Namespace) :
    ofSources root sources = ofFiles root (sources.map fun s => ⟨s.1, s.1, .ok s.2⟩) := by
  rw [ofSources, List.mergeSort_of_pairwise h]

/-- The order in which sources with different paths are given makes no difference, neither to their
crate nor to the fault that stops them, nor to a round over them. -/
theorem ofSources_perm {sources sources' : List (FilePath × String)}
    (hsame : sources.Pairwise fun a b => a.1.same b.1 = false) (hperm : sources.Perm sources')
    (root : Namespace) :
    ofSources root sources = ofSources root sources' ∧
    ∀ {σ : Type u} (r : Round) (commit : List BinderUnit → σ → Except EmissionFault Unit × σ)
        (s : σ) (log : List Diagnostic),
      (ofSources root sources).map (fun c => r.run c commit s log) =
        (ofSources root sources').map fun c => r.run c commit s log := by
  have hapart : sources.Pairwise fun a b => compare a.1 b.1 ≠ .eq := by
    refine hsame.imp fun {a b} hab heq => ?_
    rw [FilePath.compare_eq_iff, hab] at heq
    cases heq
  -- with different paths there is only one ascending order
  have hsorted := SortedMap.mergeSort_eq_of_perm
    (hperm.symm.trans (List.mergeSort_perm sources fun a b => (compare a.1 b.1).isLE).symm)
    (SortedMap.pairwise_lt_mergeSort hapart)
  have heq : ofSources root sources = ofSources root sources' := by
    rw [ofSources, ofSources, hsorted]
  refine ⟨heq, fun r commit s log => ?_⟩
  rw [heq]

/-- Sources with two faults, of which the one in the file that comes last by name is not met. -/
def faultySources : List (FilePath × String) :=
  [(⟨"z.rs"⟩, "fn"), (⟨"lib.rs"⟩, "mod geo \x7b\x7d"), (⟨"geo.rs"⟩, "")]

theorem ofSources_perm_faultySources :
    (faultySources.Pairwise fun a b => a.1.same b.1 = false) ∧
    faultySources.Perm faultySources.reverse ∧
    ofSources ⟨["crate"]⟩ faultySources = ofSources ⟨["crate"]⟩ faultySources.reverse ∧
    ofSources ⟨["crate"]⟩ faultySources =
      .error (.duplicateModule ⟨["crate", "geo"]⟩ ⟨"geo.rs"⟩ ⟨"lib.rs"⟩) := by
  have hsame : faultySources.Pairwise fun a b => a.1.same b.1 = false := by decide +kernel
  have hperm : faultySources.Perm faultySources.reverse := (List.reverse_perm _).symm
  obtain ⟨heq, -⟩ := ofSources_perm.{0} hsame hperm ⟨["crate"]⟩
  refine ⟨hsame, hperm, heq, ?_⟩
  rw [heq, ofSources_of_pairwise (by decide +kernel)]
  have hfault : ((ofFiles ⟨["crate"]⟩ (faultySources.reverse.map fun s =>
      ⟨s.1, s.1, .ok s.2⟩)).map fun _ => ()) =
      .error (.duplicateModule ⟨["crate", "geo"]⟩ ⟨"geo.rs"⟩ ⟨"lib.rs"⟩) := by
    decide +kernel
  cases hread : ofFiles ⟨["crate"]⟩ (faultySources.reverse.map fun s => ⟨s.1, s.1, .ok s.2⟩) with
  | ok c =>
    rw [hread] at hfault
    cases hfault
  | error fault =>
    rw [hread] at hfault
    cases hfault
    rfl

/-- The crate of sources has their modules. -/
theorem madeOf_ofSources {root : Namespace} {sources : List (FilePath × String)} {c : Crate}
    (h : ofSources root sources = .ok c) :
    (∀ f ∈ crateFiles (filesOf sources), f.items? ≠ none) ∧
      c.MadeOf root (sourceModules root sources) := by
  have hregistered := registered_ofFiles root (filesOf sources)
  change Registered root [] (crateFiles (filesOf sources)) (ofSources root sources) at hregistered
  rw [h] at hregistered
  exact hregistered

theorem moduleSegments_congr {p q : FilePath} (h : p.components = q.components) :
    moduleSegments p = moduleSegments q := by
  simp only [moduleSegments, FilePath.parentComponents, FilePath.stem?, FilePath.fileName?, h]

/-- A file with a namespace below the root belongs to the crate, outside of `bin`. -/
theorem belongs_of_moduleSegments {hasLibrary : Bool} {p : FilePath}
    (hbin : p.components.head? ≠ some (.normal "bin")) (h : moduleSegments p ≠ []) :
    belongs hasLibrary p = true := by
  have hmain : p.same ⟨"main.rs"⟩ = false := by
    apply Bool.eq_false_iff.2
    intro hsame
    exact h ((moduleSegments_congr (beq_iff_eq.1 hsame)).trans (by decide))
  rw [belongs, hmain, Bool.and_false, Bool.not_false, Bool.and_true]
  exact bne_iff_ne.2 hbin

end Crate

/-- A path that starts with a declared name that is not imported goes on from the module. -/
theorem Scope.resolve_of_declared {s : Scope} {first : String}
    (hdeclared : s.declared.contains first = true) (himport : s.imports.get? first = none)
    (hfirst : first ∉ ["crate", "self", "super"]) {p : Path} (hplain : p.isPlain = true)
    (hleading : p.isLeading = false) {between : List String} {name : String}
    (hidents : p.idents = first :: between ++ [name]) :
    s.resolve p = .ok (.qualify ⟨s.home.segments ++ first :: between⟩ name) := by
  simp only [List.mem_cons, List.not_mem_nil, or_false, not_or] at hfirst
  obtain ⟨hcrate, hself, hsuper⟩ := hfirst
  have habsolute : s.absolute? false (first :: (between ++ [name])) =
      some (s.home.segments ++ first :: between ++ [name]) := by
    simp only [absolute?, if_neg hcrate, if_neg hself, if_neg hsuper, himport, if_pos hdeclared,
      List.append_assoc, List.cons_append]
  rw [resolve, hplain, hleading, hidents, List.cons_append, habsolute, Option.bind_some,
    TypeName.ofSegments?_append]
  rfl

namespace Crate

variable {root : Namespace} {sources : List (FilePath × String)} {c : Crate} {m : Module}

/-- A module comes from the source that is its file: it is the module of this file, with its items,
or lies in a block inside it. -/
theorem exists_source_of_module? (hc : ofSources root sources = .ok c) {home : Namespace}
    (hm : c.module? home = some m) :
    ∃ s ∈ sources, ⟨s.1, s.1, .ok s.2⟩ ∈ crateFiles (filesOf sources) ∧ m.file = s.1 ∧
      ∃ items, Item.parseFile? s.2 = some items ∧
        (home = namespaceOf root s.1 ∧ m.items = items ∨
          ∃ name, ((namespaceOf root s.1).child name).segments <+: home.segments) := by
  obtain ⟨-, hmade⟩ := madeOf_ofSources hc
  have hmem : ⟨m.file, home, m.items⟩ ∈ sourceModules root sources :=
    (hmade.module?_iff _).1 ⟨m, hm, rfl, rfl⟩
  obtain ⟨f, hf, hx⟩ := List.mem_flatMap.1 hmem
  obtain ⟨s, hs, rfl⟩ := mem_filesOf.1 (List.mem_of_mem_filter hf)
  obtain ⟨hfile, items, hitems, hplace⟩ := of_mem_modulesOf hx
  exact ⟨s, hs, hf, hfile, items, hitems, hplace⟩

/-- What a source of the crate brings in first is its own module. -/
theorem exists_module_of_source (hc : ofSources root sources = .ok c) {s : FilePath × String}
    (hs : ⟨s.1, s.1, .ok s.2⟩ ∈ crateFiles (filesOf sources)) {items : List Item}
    (hitems : Item.parseFile? s.2 = some items) :
    ∃ m, c.module? (namespaceOf root s.1) = some m ∧ m.file = s.1 ∧ m.items = items := by
  obtain ⟨-, hmade⟩ := madeOf_ofSources hc
  refine (hmade.module?_iff ⟨s.1, namespaceOf root s.1, items⟩).2 ?_
  exact List.mem_flatMap.2 ⟨_, hs, mem_modulesOf hitems⟩

/-- The module of a file has the items of the file. -/
theorem exists_source_of_home (hc : ofSources root sources = .ok c) (hm : m ∈ c.moduleList)
    (hhome : m.home = namespaceOf root m.file) :
    ∃ s ∈ sources, m.file = s.1 ∧ Item.parseFile? s.2 = some m.items := by
  obtain ⟨home, hm⟩ := mem_moduleList.1 hm
  obtain ⟨rfl, -, -⟩ := coherent_ofSources hc home m hm
  obtain ⟨s, hs, -, hfile, items, hitems, ⟨-, rfl⟩ | ⟨inner, hinner⟩⟩ :=
    exists_source_of_module? hc hm
  · exact ⟨s, hs, hfile, hitems⟩
  · -- a block inside the file would lie below the module of the file
    rw [hhome, hfile] at hinner
    have hlength := hinner.length_le
    simp [Namespace.child] at hlength

/-- A module that is one step below the module of a file, and comes from a file that this module can
be declared to have, is the module of that file. -/
theorem moduleSegments_of_module?_child (hc : ofSources root sources = .ok c)
    (hm : m ∈ c.moduleList) (hhome : m.home = namespaceOf root m.file)
    (hnamed : ¬ NamedAsRoot m.file) {name : String} (hspelling : fileSpelling name ≠ "")
    {n : Module} (hn : c.module? (m.home.child name) = some n)
    (hfile : IsFileOf name m.file n.file) :
    moduleSegments n.file = moduleSegments m.file ++ [name] := by
  obtain ⟨s, -, hcrate, hpath, items, hparsed, hplace⟩ := exists_source_of_module? hc hn
  have hchild : (m.home.child name).segments =
      root.segments ++ (moduleSegments m.file ++ [name]) := by
    rw [hhome]
    exact List.append_assoc ..
  -- the module lies where the file does or below it
  have hbelow : moduleSegments n.file <+: moduleSegments m.file ++ [name] := by
    have hwithin : (namespaceOf root s.1).segments <+: (m.home.child name).segments := by
      rcases hplace with ⟨heq, -⟩ | ⟨inner, hinner⟩
      · exact heq ▸ List.prefix_rfl
      · exact (List.prefix_append ..).trans hinner
    rw [hchild, ← hpath] at hwithin
    exact (List.prefix_append_right_inj root.segments).1 hwithin
  rcases List.prefix_concat_iff.1 hbelow with heq | hbelow
  · exact heq
  · -- the two files would be one module
    exfalso
    have hsame : namespaceOf root s.1 = m.home := by
      have hdirectory := prefix_moduleSegments hspelling hfile
      rw [← moduleSegments_eq_iff.2 hnamed] at hdirectory
      rw [hhome, namespaceOf, namespaceOf, ← hpath, hbelow.eq_of_length_le hdirectory.length_le]
    obtain ⟨n', hn', hn'file, -⟩ := exists_module_of_source hc hcrate hparsed
    obtain ⟨home, hm⟩ := mem_moduleList.1 hm
    obtain ⟨rfl, -, -⟩ := coherent_ofSources hc home m hm
    rw [hsame, hm] at hn'
    cases hn'
    exact hfile.1 (congrArg FilePath.components (hpath.trans hn'file.symm))

/-- The file of a declared module is registered where the name of the module is looked up, unless
the name is raw, or a root or the directory itself would be named like the file. -/
theorem module?_child_iff (hbin : ∀ s ∈ sources, s.1.components.head? ≠ some (.normal "bin"))
    (hc : ofSources root sources = .ok c) (hm : m ∈ c.moduleList)
    (hhome : m.home = namespaceOf root m.file) (hnamed : ¬ NamedAsRoot m.file) {name : String}
    (hname : .mod name none ∈ m.items) {s : FilePath × String} (hs : s ∈ sources)
    (hfile : IsFileOf name m.file s.1) :
    (∃ n, c.module? (m.home.child name) = some n ∧ n.file = s.1 ∧
        Item.parseFile? s.2 = some n.items) ↔
      fileSpelling name = name ∧
        (name ∈ ["lib", "main", "mod"] → s.1.components = nestedFile m.file name) := by
  have hspelling : fileSpelling name ≠ "" := by
    obtain ⟨_, -, -, hitems⟩ := exists_source_of_home hc hm hhome
    have hsound := Item.sound_of_parseFile? hitems _ hname
    rw [Item.Sound] at hsound
    exact fileSpelling_ne_empty hsound
  rw [← moduleSegments_eq_child_iff hspelling hfile, ← moduleSegments_eq_iff.2 hnamed]
  constructor
  · rintro ⟨n, hn, hnfile, -⟩
    rw [← hnfile] at hfile ⊢
    exact moduleSegments_of_module?_child hc hm hhome hnamed hspelling hn hfile
  · intro heq
    -- A file whose place is below a module has segments, so it is none the crate leaves out.
    have hcrate : ⟨s.1, s.1, .ok s.2⟩ ∈ crateFiles (filesOf sources) := by
      refine List.mem_filter.2 ⟨mem_filesOf.2 ⟨s, hs, rfl⟩, ?_⟩
      apply belongs_of_moduleSegments (hbin s hs)
      rw [heq]
      exact List.append_ne_nil_of_right_ne_nil _ (List.cons_ne_nil _ _)
    obtain ⟨hread, -⟩ := madeOf_ofSources hc
    obtain ⟨items, hparsed⟩ := Option.ne_none_iff_exists'.1 (hread _ hcrate)
    obtain ⟨n, hn, hnfile, hnitems⟩ := exists_module_of_source hc hcrate hparsed
    have hhome' : namespaceOf root s.1 = m.home.child name := by
      rw [namespaceOf, heq, hhome, namespaceOf, Namespace.child, List.append_assoc]
    exact ⟨n, hhome' ▸ hn, hnfile, hnitems ▸ hparsed⟩

/-- Sources as the modules of a crate, where nothing lies in `bin`.

The file of a declared module is registered under the name by which the module is looked up, unless
the name is raw or the file is named like a root.  Sources make a crate when all of them are read
and bring in different namespaces.  A duplicate is reported for two modules of one namespace, and
two files that are these modules are one module in the language as well unless one of them is named
like a root; such a file is not registered where the language has it. -/
theorem ofSources_layout (hbin : ∀ s ∈ sources, s.1.components.head? ≠ some (.normal "bin")) :
    -- declared modules
    (∀ c, ofSources root sources = .ok c → ∀ m ∈ c.moduleList, m.home = namespaceOf root m.file →
      ¬ NamedAsRoot m.file → ∀ name, .mod name none ∈ m.items →
        (∀ s ∈ sources, IsFileOf name m.file s.1 →
          ((∃ n, c.module? (m.home.child name) = some n ∧ n.file = s.1 ∧
              Item.parseFile? s.2 = some n.items) ↔
            fileSpelling name = name ∧
              (name ∈ ["lib", "main", "mod"] → s.1.components = nestedFile m.file name))) ∧
        (name ∉ ["crate", "self", "super"] → m.scope.imports.get? name = none →
          ∀ p between type, p.isPlain = true → p.isLeading = false →
            p.idents = name :: between ++ [type] →
            m.scope.resolve p =
              .ok (.qualify ⟨(m.home.child name).segments ++ between⟩ type))) ∧
    -- crates
    ((∃ c, ofSources root sources = .ok c) ↔
      (∀ f ∈ crateFiles (filesOf sources), f.items? ≠ none) ∧
        ((sourceModules root sources).map (·.home)).Nodup) ∧
    -- duplicates
    (∀ home first second, ofSources root sources = .error (.duplicateModule home first second) →
      Clash (sourceModules root sources) home first second ∧
        (home = namespaceOf root first → home = namespaceOf root second →
          ¬ NamedAsRoot first → ¬ NamedAsRoot second →
          (moduleDirectory first).map Component.text =
            (moduleDirectory second).map Component.text)) ∧
    -- files
    ∀ s ∈ sources, moduleSegments s.1 = (moduleDirectory s.1).map Component.text ↔
      ¬ NamedAsRoot s.1 := by
  refine ⟨?_, exists_ofFiles_iff, ?_, fun s _ => moduleSegments_eq_iff⟩
  · intro c hc m hm hhome hnamed name hname
    refine ⟨fun s hs hfile => module?_child_iff hbin hc hm hhome hnamed hname hs hfile, ?_⟩
    intro hword himport p between type hplain hleading hidents
    obtain ⟨home, hm⟩ := mem_moduleList.1 hm
    obtain ⟨rfl, hscope, hdeclared⟩ := coherent_ofSources hc home m hm
    have hcontains : m.scope.declared.contains name = true := by
      rw [hdeclared, SortedMap.contains_ofList]
      exact List.mem_map.2 ⟨(name, .module), List.mem_filterMap.2 ⟨_, hname, rfl⟩, rfl⟩
    have hresolve := Scope.resolve_of_declared hcontains himport hword hplain hleading hidents
    rw [hscope] at hresolve
    rw [hresolve, Namespace.child, List.append_assoc]
    rfl
  · intro home first second herror
    have hregistered := registered_ofFiles root (filesOf sources)
    change Registered root [] (crateFiles (filesOf sources)) (ofSources root sources)
      at hregistered
    rw [herror] at hregistered
    refine ⟨hregistered, ?_⟩
    intro hfirst hsecond hfirst' hsecond'
    rw [← moduleSegments_eq_iff.2 hfirst', ← moduleSegments_eq_iff.2 hsecond']
    have hsame : namespaceOf root first = namespaceOf root second := hfirst.symm.trans hsecond
    exact List.append_cancel_left (congrArg Namespace.segments hsame)

/-- Whether an item declares a module of a name that stands in a file of its own. -/
def declaresFile (name : String) : Item → Bool
  | .mod name' none => name' == name
  | _ => false

theorem declaresFile_iff {name : String} {i : Item} :
    declaresFile name i = true ↔ i = .mod name none := by
  unfold declaresFile
  split <;> simp_all

/-- A crate with a module in a directory of its own. -/
def geoModSources : List (FilePath × String) :=
  [(⟨"geo/mod.rs"⟩, "pub trait Country {}"), (⟨"lib.rs"⟩, "mod geo;")]

theorem ofSources_layout_geoModSources :
    (∀ s ∈ geoModSources, s.1.components.head? ≠ some (.normal "bin")) ∧
    ∃ c n, ofSources ⟨["crate"]⟩ geoModSources = .ok c ∧
      c.module? ⟨["crate", "geo"]⟩ = some n ∧ n.file = ⟨"geo/mod.rs"⟩ := by
  have hbin : ∀ s ∈ geoModSources, s.1.components.head? ≠ some (.normal "bin") := by decide +kernel
  have hread : (ofSources ⟨["crate"]⟩ geoModSources).toOption.bind (fun c =>
      (c.module? ⟨["crate"]⟩).map fun m => (m.file, m.items.any (declaresFile "geo"))) =
      some (⟨"lib.rs"⟩, true) := by
    rw [ofSources_of_pairwise (by decide +kernel)]
    decide +kernel
  refine ⟨hbin, ?_⟩
  obtain ⟨c, hc, hread⟩ := Option.bind_eq_some_iff.1 hread
  replace hc := toOption_eq_some hc
  obtain ⟨m, hm, hread⟩ := Option.map_eq_some_iff.1 hread
  obtain ⟨hfile, hitems⟩ := Prod.ext_iff.1 hread
  dsimp only at hfile hitems
  obtain ⟨i, hi, hname⟩ := List.any_eq_true.1 hitems
  obtain rfl := declaresFile_iff.1 hname
  obtain ⟨hhome, -, -⟩ := coherent_ofSources hc _ m hm
  have hhome' : m.home = namespaceOf ⟨["crate"]⟩ m.file := by
    rw [hhome, hfile]
    decide +kernel
  have hnamed : ¬ NamedAsRoot m.file := by
    rw [hfile]
    rintro ⟨hparent, -⟩
    exact hparent (by decide +kernel)
  have hplace : IsFileOf "geo" m.file ⟨"geo/mod.rs"⟩ := by
    rw [hfile]
    unfold IsFileOf
    decide +kernel
  obtain ⟨hdeclared, -⟩ := @ofSources_layout ⟨["crate"]⟩ geoModSources hbin
  obtain ⟨hregistered, -⟩ := hdeclared c hc m (mem_moduleList.2 ⟨_, hm⟩) hhome' hnamed "geo" hi
  obtain ⟨n, hn, hnfile, -⟩ :=
    (hregistered (⟨"geo/mod.rs"⟩, "pub trait Country {}") (by decide) hplace).2
      ⟨by decide +kernel, fun h => absurd h (by decide)⟩
  rw [hhome] at hn
  exact ⟨c, n, hc, hn, hnfile⟩

/-- A crate with a module `lib` below another module. -/
def nestedLibSources : List (FilePath × String) :=
  [(⟨"geo/lib.rs"⟩, "pub trait Country {}"), (⟨"geo/mod.rs"⟩, "mod lib;"), (⟨"lib.rs"⟩, "mod geo;")]

/-- A crate with a module of a raw name. -/
def rawSources : List (FilePath × String) :=
  [(⟨"lib.rs"⟩, "mod r#type;"), (⟨"type.rs"⟩, "pub trait Country {}")]

/-- The file of the module `lib` is taken for a second one of the module above, and that of the
module of a raw name is not registered under this name. -/
theorem not_layout_nestedLibSources :
    (IsFileOf "lib" ⟨"geo/mod.rs"⟩ ⟨"geo/lib.rs"⟩ ∧
      moduleDirectory ⟨"geo/lib.rs"⟩ ≠ moduleDirectory ⟨"geo/mod.rs"⟩ ∧
      ofSources ⟨["crate"]⟩ nestedLibSources =
        .error (.duplicateModule ⟨["crate", "geo"]⟩ ⟨"geo/lib.rs"⟩ ⟨"geo/mod.rs"⟩)) ∧
    IsFileOf "r#type" ⟨"lib.rs"⟩ ⟨"type.rs"⟩ ∧
      ∃ c, ofSources ⟨["crate"]⟩ rawSources = .ok c ∧
        c.module? ((Namespace.mk ["crate"]).child "r#type") = none := by
  refine ⟨⟨?_, by decide +kernel, ?_⟩, ?_, ?_⟩
  · unfold IsFileOf
    decide +kernel
  · rw [ofSources_of_pairwise (by decide +kernel)]
    have hfault : (tryCatch ((ofFiles ⟨["crate"]⟩ (nestedLibSources.map fun s =>
        ⟨s.1, s.1, .ok s.2⟩)).map fun _ => none) fun fault => .ok (some fault)).toOption =
        some (some (.duplicateModule ⟨["crate", "geo"]⟩ ⟨"geo/lib.rs"⟩ ⟨"geo/mod.rs"⟩)) := by
      decide +kernel
    cases hread : ofFiles ⟨["crate"]⟩ (nestedLibSources.map fun s => ⟨s.1, s.1, .ok s.2⟩) with
    | ok c =>
      rw [hread] at hfault
      cases hfault
    | error fault =>
      rw [hread] at hfault
      rw [Option.some.inj (Option.some.inj hfault)]
  · unfold IsFileOf
    decide +kernel
  · rw [ofSources_of_pairwise (by decide +kernel)]
    have hmodule : (ofFiles ⟨["crate"]⟩ (rawSources.map fun s => ⟨s.1, s.1, .ok s.2⟩)).toOption.map
        (fun c => (c.module? ((Namespace.mk ["crate"]).child "r#type")).isNone) = some true := by
      decide +kernel
    obtain ⟨c, hc, hnone⟩ := Option.map_eq_some_iff.1 hmodule
    exact ⟨c, toOption_eq_some hc, Option.isNone_iff_eq_none.1 hnone⟩

end Crate

end FieldBinder
