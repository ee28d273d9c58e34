import FieldBinder.Generation
import FieldBinder.Proofs.Crate.Reload
import FieldBinder.Proofs.Round.Outcome
import FieldBinder.Proofs.Round.Paths
import FieldBinder.Proofs.Sink.Commit

/-!
# Generating again

A generation that succeeds has loaded the crate of the source root and committed the units of its
round (`exists_run_of_outcome`).  Where the output directory and the source root are apart
(`DirectoriesApart`), the commit leaves the source root as it was but for empty directories on the
way to the output (`regrown_of_commit`).  So the same crate is loaded the next time, the same round
runs, and every unit finds its contents at its target: nothing is written
(`ofSettings_idempotent`).

This holds for units whose targets are different files below the output directory.  A source called
`..rs` is the module `.`, and the unit of a struct in there is for a file of the directory above,
which can be that of another unit; then each generation undoes the one before
(`not_ofSettings_idempotent_dotTree`).
-/

namespace FieldBinder.Generation

open FileTree (locationOf)

/-! ### The output directory and the source root -/

/-- Whether an output directory and a source root are apart: neither lies within the other.  The
path to the output directory can still run through the source root and leave it by `..`; a directory
on such a way that is named like a source can be reached from the source root, where its path is not
too long. -/
structure DirectoriesApart (source dir : FilePath) : Prop where
  dir_outside : ¬ locationOf source.components <+: locationOf dir.components
  source_outside : ¬ locationOf dir.components <+: locationOf source.components
  reached : ∀ k names,
    locationOf (dir.components.take k) = locationOf source.components ++ names →
    (source.descend names).extension? = some "rs" → FileTree.accept (source.descend names) = .ok ()

/-- The third condition, looked up at each step of the path to the output directory. -/
theorem DirectoriesApart.of_accept {source dir : FilePath}
    (hdir : ¬ locationOf source.components <+: locationOf dir.components)
    (hsource : ¬ locationOf dir.components <+: locationOf source.components)
    (haccept : ∀ k ≤ dir.components.length, FileTree.accept (source.descend
      ((locationOf (dir.components.take k)).drop (locationOf source.components).length)) =
        .ok ()) :
    DirectoriesApart source dir where
  dir_outside := hdir
  source_outside := hsource
  reached k names heq _ := by
    rw [List.take_eq_take_min] at heq
    have := haccept _ (Nat.min_le_right k dir.components.length)
    rwa [heq, List.drop_left] at this

variable {source : FilePath} {sink sink' : DiskSink} {units : List BinderUnit} {t t' : FileTree}
  {l names : List String}

/-- Nothing in or at the output directory is in the source root. -/
theorem DirectoriesApart.not_prefix {dir : FilePath} (h : DirectoriesApart source dir) :
    ¬ locationOf dir.components <+: locationOf source.components ++ names := by
  intro hprefix
  rcases List.prefix_or_prefix_of_prefix hprefix (List.prefix_append _ names) with hle | hle
  · exact h.source_outside hle
  · exact h.dir_outside hle

theorem prefix_targetOf (hunits : BinderUnit.Separate units) (out : FilePath) {u : BinderUnit}
    (hu : u ∈ units) : locationOf out.components <+: DiskSink.targetOf out u := by
  obtain ⟨names, hnames⟩ := hunits.exists_names hu
  rw [hunits.targetOf_eq hu hnames]
  exact List.prefix_append _ _

/-- A directory above a target is on the way to the output directory, or it is there. -/
theorem aboveTarget_cases (hunits : BinderUnit.Separate units) {out : FilePath}
    (h : DiskSink.AboveTarget out units l) :
    (∃ k, l = locationOf (out.components.take k)) ∨ locationOf out.components <+: l := by
  obtain ⟨u, hu, k, -, rfl⟩ := h
  obtain ⟨names, hnames⟩ := hunits.exists_names hu
  have hjoin : (out.join u.path).components = out.components ++ names.map .normal := by
    rw [FilePath.components_join, hnames] <;> simp [hnames]
  rw [hjoin, List.take_append]
  by_cases hk : k ≤ out.components.length
  · left
    refine ⟨k, ?_⟩
    rw [Nat.sub_eq_zero_of_le hk, List.take_zero, List.append_nil]
  · right
    rw [List.take_of_length_le (by omega), ← List.map_take, FileTree.locationOf_append_map_normal]
    exact List.prefix_append _ _

/-! ### What a commit leaves -/

section Commit

variable (ht : t.IsTree) (hunits : BinderUnit.Separate units)
  (hcommit : DiskSink.commit units (sink, t) = (.ok (), sink', t'))

include ht hunits hcommit

/-- What a commit makes is a directory above a target or the file at one. -/
theorem aboveTarget_or_target {e : FileTree.Entry} (he : t'.get? l = some e)
    (hnone : t.get? l = none) :
    (e = .directory ∧ DiskSink.AboveTarget sink.out units l) ∨
      ∃ u ∈ units, DiskSink.targetOf sink.out u = l := by
  have hnodup : (units.map (DiskSink.targetOf sink.out)).Nodup := hunits.nodup_targets
  cases e with
  | directory =>
    rcases (DiskSink.directory_of_commit ht hnodup hcommit l).2 he with hold | habove
    · rw [hnone] at hold
      cases hold
    · exact .inl ⟨rfl, habove⟩
  | file bytes =>
    right
    -- at all other locations there are the files that were there before
    refine Classical.not_not.1 fun hne => ?_
    have hother : ∀ u ∈ units, DiskSink.targetOf sink.out u ≠ l := fun u hu heq => hne ⟨u, hu, heq⟩
    have hold := ((DiskSink.read_of_commit ht hnodup hcommit).2 l bytes hother).1 he
    rw [hnone] at hold
    cases hold

theorem named_of_commit (hnamed : t.Named) : t'.Named := by
  intro l e he name hname
  cases hold : t.get? l with
  | some e' => exact hnamed l e' hold name hname
  | none =>
    rcases aboveTarget_or_target ht hunits hcommit he hold with ⟨-, u, -, k, -, rfl⟩ | ⟨u, -, rfl⟩
    · exact FilePath.isName_of_mem_components
        (List.mem_of_mem_take (FileTree.mem_of_mem_locationOf hname))
    · exact FilePath.isName_of_mem_components (FileTree.mem_of_mem_locationOf hname)

/-- Since targets can be read, no name on the way to one is too long. -/
theorem size_le_of_aboveTarget (habove : DiskSink.AboveTarget sink.out units l) {name : String}
    (hname : name ∈ l) : name.utf8ByteSize ≤ FileTree.nameLimit := by
  obtain ⟨u, hu, k, -, rfl⟩ := habove
  have hread := (DiskSink.read_of_commit ht hunits.nodup_targets hcommit).1 u hu
  obtain ⟨loc, hlocate, -⟩ := FileTree.read_eq_ok_iff.1 hread
  exact FileTree.size_le_of_follow (FileTree.follow_components hlocate)
    (List.mem_of_mem_take (FileTree.mem_of_mem_locationOf hname))

/-- A commit leaves a source root that is apart from the output directory as it was, but for empty
directories. -/
theorem regrown_of_commit (hnamed : t.Named) (hapart : DirectoriesApart source sink.out)
    {loc : List String} (hlocate : t.locate source = .ok loc) :
    Crate.Regrown source loc t t' := by
  obtain rfl := FileTree.eq_of_locate hlocate
  have hnodup : (units.map (DiskSink.targetOf sink.out)).Nodup := hunits.nodup_targets
  have hdirectories (l : List String) : t.get? l = some .directory → t'.get? l = some .directory :=
    (DiskSink.directory_of_commit ht hnodup hcommit l).1
  -- no target is in the source root, so all files there stay, and none comes
  have htarget (names : List String) (u : BinderUnit) (hu : u ∈ units) :
      DiskSink.targetOf sink.out u ≠ locationOf source.components ++ names := by
    intro heq
    exact hapart.not_prefix (heq ▸ prefix_targetOf hunits sink.out hu)
  have htree : t'.IsTree := by
    have := DiskSink.isTree_commit ht units sink
    rwa [hcommit] at this
  have hnamed' := named_of_commit ht hunits hcommit hnamed
  constructor
  · exact ht
  · exact htree
  · exact hnamed'
  · exact hlocate
  · exact hdirectories
  · intro names e he
    cases e with
    | directory => exact hdirectories _ he
    | file bytes => exact ((DiskSink.read_of_commit ht hnodup hcommit).2 _ _ (htarget names)).2 he
  · intro names e he hnone
    rcases aboveTarget_or_target ht hunits hcommit he hnone with ⟨rfl, habove⟩ | ⟨u, hu, heq⟩
    · refine ⟨rfl, fun hext => ?_⟩
      rcases aboveTarget_cases hunits habove with ⟨k, heq⟩ | hprefix
      · refine htree.locate_descend (FileTree.locate_mono hdirectories hlocate)
          (fun name hname => ?_) (hapart.reached k names heq.symm hext) he
        have hmem : name ∈ locationOf source.components ++ names := List.mem_append_right _ hname
        exact ⟨hnamed' _ _ he name hmem, size_le_of_aboveTarget ht hunits hcommit habove hmem⟩
      · exact absurd hprefix hapart.not_prefix
    · exact absurd heq (htarget names u hu)

end Commit

/-! ### A generation -/

variable {s : Settings} {manifest out : FilePath} {report : Report}

/-- What a generation does, from the crate that it loads and the run of its round. -/
theorem ofSettings_of_run {c : Crate} {log : List Diagnostic} {outcome : Except RoundFault Report}
    (hfault : s.fault? = none) (hload : Crate.load t (manifest.join s.sourceRoot) s.root = .ok c)
    (hrun : s.round.run c DiskSink.commit ({ out := outputDirectory s out }, t) =
      (log, outcome, sink, t')) :
    ofSettings s manifest out t = ⟨watchLine (manifest.join s.sourceRoot) :: log.map warningLine,
      t', outcome.mapError .round⟩ := by
  simp only [ofSettings, hfault, hload, hrun]

/-- A generation that succeeds has loaded a crate, and its round ended with the report. -/
theorem exists_run_of_outcome (h : (ofSettings s manifest out t).outcome = .ok report) :
    s.fault? = none ∧ ∃ c log sink,
      Crate.load t (manifest.join s.sourceRoot) s.root = .ok c ∧
      s.round.run c DiskSink.commit ({ out := outputDirectory s out }, t) =
        (log, .ok report, sink, (ofSettings s manifest out t).tree) := by
  cases hfault : s.fault? with
  | some fault =>
    simp only [ofSettings, hfault] at h
    cases h
  | none =>
    cases hload : Crate.load t (manifest.join s.sourceRoot) s.root with
    | error fault =>
      simp only [ofSettings, hfault, hload] at h
      cases h
    | ok c =>
      -- Settings without a fault and a loaded crate: the outcome is the one of the round.
      rcases hrun : s.round.run c DiskSink.commit ({ out := outputDirectory s out }, t) with
        ⟨log, outcome, sink, t'⟩
      rw [ofSettings_of_run hfault hload hrun] at h ⊢
      cases outcome with
      | error fault => cases h
      | ok report' =>
        cases h
        exact ⟨rfl, c, log, sink, rfl, hrun⟩

theorem isAsciiIdent_of_fault?_eq_none (h : s.fault? = none) :
    (∀ segment ∈ s.root.segments, Text.isAsciiIdent segment = true) ∧
      Settings.isSuffix s.unitSuffix = true := by
  unfold Settings.fault? at h
  split at h
  · cases h
  split at h
  · cases h
  next hroot =>
  split at h
  · cases h
  next hsuffix =>
  rw [Bool.not_eq_true', Bool.not_eq_false] at hroot hsuffix
  exact ⟨List.all_eq_true.1 hroot, hsuffix⟩

/-- A generation that succeeds is the same when it is made again, and then writes nothing. -/
theorem ofSettings_idempotent (ht : t.IsTree) (hnamed : t.Named)
    (hapart : DirectoriesApart (manifest.join s.sourceRoot) (outputDirectory s out))
    (h : (ofSettings s manifest out t).outcome = .ok report)
    (hdots : ∀ u ∈ report.units,
      "." ∉ u.enclosing.home.segments ∧ ".." ∉ u.enclosing.home.segments) :
    ofSettings s manifest out (ofSettings s manifest out t).tree = ofSettings s manifest out t ∧
    ∃ c log,
      Crate.load (ofSettings s manifest out t).tree (manifest.join s.sourceRoot) s.root = .ok c ∧
      s.round.run c DiskSink.commit
          ({ out := outputDirectory s out }, (ofSettings s manifest out t).tree) =
        (log, .ok report,
          { out := outputDirectory s out
            written := []
            unchanged := report.units.map fun u => (outputDirectory s out).join u.path },
          (ofSettings s manifest out t).tree) := by
  obtain ⟨hfault, c, log, sink, hload, hrun⟩ := exists_run_of_outcome h
  have hfirst := ofSettings_of_run hfault hload hrun
  generalize (ofSettings s manifest out t).tree = t' at *
  obtain ⟨hroot, hsuffix⟩ := isAsciiIdent_of_fault?_eq_none hfault
  have hends := Round.run_ends s.round c DiskSink.commit ({ out := outputDirectory s out }, t) []
  rw [hrun] at hends
  cases hends with
  | report resolved apart committed =>
    rw [Round.units_completed] at hdots ⊢
    have hspelled : c.Spelled FilePath.IsPiece :=
      Crate.spelled_of_load hnamed (fun _ => isPiece_of_isNameText)
        (fun segment hsegment => isPiece_of_isAsciiIdent (hroot segment hsegment)) hload
    have hunits : BinderUnit.Separate (s.round.units c) :=
      Round.separate_units hspelled (Crate.coherent_of_load hload)
        (Settings.slash_not_mem_of_isSuffix hsuffix) apart hdots
    -- the source root is as it was
    obtain ⟨loc, hlocate, hdir⟩ := Crate.exists_locate_of_load hload
    have hregrown := regrown_of_commit ht hunits committed hnamed hapart hlocate
    have hload' : Crate.load t' (manifest.join s.sourceRoot) s.root = .ok c := by
      rw [hregrown.load_congr hdir, hload]
    -- and every target has its contents
    have hread := (DiskSink.read_of_commit ht hunits.nodup_targets committed).1
    have hrun' := Round.run_of_commit_eq_ok resolved apart (DiskSink.commit_of_read hread) []
    refine ⟨?_, c, _, hload', hrun'⟩
    rw [ofSettings_of_run hfault hload' hrun', hfirst]

/-! ### Two crates on disk -/

/-- Settings with a short marker. -/
def bindSettings : Settings := { marker := "bind" }

/-- A crate with one source, in which a struct has a marked field. -/
def orderTree : FileTree :=
  (FileTree.empty.put ["src"] .directory).put ["src", "lib.rs"]
    (.file "struct Order { #[bind] code: u8 }".toUTF8)

/-- A crate with the same source twice, once as the module `.`. -/
def dotTree : FileTree :=
  orderTree.put ["src", "..rs"] (.file "struct Order { #[bind] code: u8 }".toUTF8)

theorem isTree_orderTree : orderTree.IsTree := FileTree.isTree_of_keys (by decide)

theorem isTree_dotTree : dotTree.IsTree := FileTree.isTree_of_keys (by decide)

theorem named_orderTree : orderTree.Named := FileTree.named_of_keys (by decide)

theorem named_dotTree : dotTree.Named := FileTree.named_of_keys (by decide)

/-- A path to the output directory through a directory in the source root, which has the name of a
source and is not there before the first generation. -/
def throughSource : FilePath := ⟨"src/order.rs/../../out"⟩

theorem ofSettings_idempotent_throughSource : ∃ report,
    (ofSettings bindSettings ⟨""⟩ throughSource orderTree).outcome = .ok report ∧
    report.units.map (fun u => (u.path.text, u.enclosing.home.segments)) =
      [("order_binder.rs", ["crate"])] ∧
    ofSettings bindSettings ⟨""⟩ throughSource
        (ofSettings bindSettings ⟨""⟩ throughSource orderTree).tree =
      ofSettings bindSettings ⟨""⟩ throughSource orderTree := by
  have hapart : DirectoriesApart ((FilePath.mk "").join bindSettings.sourceRoot)
      (outputDirectory bindSettings throughSource) :=
    .of_accept (by decide) (by decide) (by decide +kernel)
  have hunits : (ofSettings bindSettings ⟨""⟩ throughSource orderTree).outcome.toOption.map
      (fun report => report.units.map fun u => (u.path.text, u.enclosing.home.segments)) =
      some [("order_binder.rs", ["crate"])] := by
    decide +kernel
  obtain ⟨report, hreport, hlist⟩ := Option.map_eq_some_iff.1 hunits
  have houtcome := toOption_eq_some hreport
  have hdots : ∀ u ∈ report.units,
      "." ∉ u.enclosing.home.segments ∧ ".." ∉ u.enclosing.home.segments := by
    intro u hu
    have hmem := List.mem_map_of_mem (f := fun u : BinderUnit =>
      (u.path.text, u.enclosing.home.segments)) hu
    rw [hlist, List.mem_singleton, Prod.mk.injEq] at hmem
    rw [hmem.2]
    decide
  exact ⟨report, houtcome, hlist,
    (ofSettings_idempotent isTree_orderTree named_orderTree hapart houtcome hdots).1⟩

/-- The second generation of a crate with the module `.` changes what the first one wrote. -/
theorem not_ofSettings_idempotent_dotTree :
    (dotTree.IsTree ∧ dotTree.Named ∧ DirectoriesApart
      ((FilePath.mk "").join bindSettings.sourceRoot) (outputDirectory bindSettings ⟨"out"⟩)) ∧
    (ofSettings bindSettings ⟨""⟩ ⟨"out"⟩ dotTree).outcome.isOk = true ∧
    (ofSettings bindSettings ⟨""⟩ ⟨"out"⟩
        (ofSettings bindSettings ⟨""⟩ ⟨"out"⟩ dotTree).tree).tree ≠
      (ofSettings bindSettings ⟨""⟩ ⟨"out"⟩ dotTree).tree := by
  have hapart : DirectoriesApart ((FilePath.mk "").join bindSettings.sourceRoot)
      (outputDirectory bindSettings ⟨"out"⟩) :=
    .of_accept (by decide) (by decide) (by decide +kernel)
  have hread : (ofSettings bindSettings ⟨""⟩ ⟨"out"⟩ dotTree).outcome.isOk = true ∧
      ((ofSettings bindSettings ⟨""⟩ ⟨"out"⟩
        (ofSettings bindSettings ⟨""⟩ ⟨"out"⟩ dotTree).tree).tree.readText
          ⟨"out/order_binder.rs"⟩).toOption ≠
      ((ofSettings bindSettings ⟨""⟩ ⟨"out"⟩ dotTree).tree.readText
          ⟨"out/order_binder.rs"⟩).toOption := by
    decide +kernel
  exact ⟨⟨isTree_dotTree, named_dotTree, hapart⟩, hread.1,
    ne_of_apply_ne (fun t => (t.readText ⟨"out/order_binder.rs"⟩).toOption) hread.2⟩

end FieldBinder.Generation
