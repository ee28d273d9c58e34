import FieldBinder.Proofs.FileTree.Below
import FieldBinder.Proofs.Sink.Commit
import FieldBinder.Proofs.Sink.Memory

/-!
# Both sinks hold the same files

A memory beside an output directory gets the units of every commit that succeeds on disk
(`SinkPair.commit`).  If nothing was below the directory at first, then after any number of commits,
failed ones among them, the files below it are those in memory (`SinkPair.files_commits`).  A
failed commit leaves the files as they were, and a successful one puts the contents of its units
among them (`DiskSink.filesBelow_of_commit`), so every commit keeps both in step
(`SinkPair.InStep.commit`).
-/

namespace FieldBinder

open FileTree

/-! ### Contents -/

namespace MemorySink

/-- The bytes in memory, by place. -/
def contents (s : MemorySink) : SortedMap (List Component) ByteArray :=
  s.files.mapValues fun _ f => f.2.toUTF8

theorem get?_contents (s : MemorySink) (place : List Component) :
    s.contents.get? place = (s.textAt place).map String.toUTF8 := by
  rw [contents, SortedMap.get?_mapValues, textAt, Option.map_map]
  rfl

end MemorySink

/-! ### Units below an output directory -/

/-- Whether units are for different files, with paths that are made of names. -/
structure BinderUnit.Separate (units : List BinderUnit) : Prop where
  apart : units.Pairwise BinderUnit.Apart
  normal : ∀ u ∈ units, ∀ c ∈ u.path.components, ∃ name, c = .normal name

/-- The form in which units can be checked to be separate. -/
theorem BinderUnit.separate_of_same_eq_false {units : List BinderUnit}
    (hapart : units.Pairwise fun u v => u.path.same v.path = false)
    (hnormal : ∀ u ∈ units, ∀ c ∈ u.path.components, c = .normal c.text) : Separate units :=
  ⟨hapart, fun u hu c hc => ⟨_, hnormal u hu c hc⟩⟩

namespace BinderUnit.Separate

variable {units : List BinderUnit} (h : Separate units) {out : FilePath}

include h

theorem exists_names {u : BinderUnit} (hu : u ∈ units) :
    ∃ names : List String, u.path.components = names.map .normal := by
  refine ⟨u.path.components.map Component.text, ?_⟩
  rw [List.map_map]
  refine (List.map_id _).symm.trans (List.map_congr_left fun c hc => ?_)
  obtain ⟨name, rfl⟩ := h.normal u hu c hc
  rfl

/-- The target of a unit is made of the output directory and the names of the unit. -/
theorem components_join {u : BinderUnit} (hu : u ∈ units) (out : FilePath) :
    (out.join u.path).components = out.components ++ u.path.components := by
  refine FilePath.components_join out (fun hroot => ?_) fun hcurrent => ?_
  · obtain ⟨name, hname⟩ := h.normal u hu _ hroot
    cases hname
  · obtain ⟨name, hname⟩ := h.normal u hu _ hcurrent
    cases hname

/-- The target of a unit is where the names of its path lead from the output directory. -/
theorem targetOf_eq {u : BinderUnit} (hu : u ∈ units) {names : List String}
    (hnames : u.path.components = names.map .normal) :
    DiskSink.targetOf out u = locationOf out.components ++ names := by
  rw [DiskSink.targetOf, h.components_join hu, hnames, locationOf_append_map_normal]

theorem nodup_targets : (units.map (DiskSink.targetOf out)).Nodup := by
  refine List.pairwise_map.2 (h.apart.imp_of_mem fun {u v} hu hv hapart heq => ?_)
  obtain ⟨names, hnames⟩ := h.exists_names hu
  obtain ⟨names', hnames'⟩ := h.exists_names hv
  rw [h.targetOf_eq hu hnames, h.targetOf_eq hv hnames', List.append_cancel_left_eq] at heq
  rw [apart_iff, hnames, hnames', heq] at hapart
  exact hapart rfl

end BinderUnit.Separate

/-! ### Successful commits -/

/-- A commit that succeeds puts the contents of its units among the files below the output
directory, as it does in memory. -/
theorem DiskSink.filesBelow_of_commit {sink sink' : DiskSink} {tree tree' : FileTree}
    (ht : tree.IsTree) {units : List BinderUnit} (hunits : BinderUnit.Separate units)
    (hok : commit units (sink, tree) = (.ok (), sink', tree')) {memory : MemorySink}
    (hfiles : tree.filesBelow (locationOf sink.out.components) = memory.contents) :
    tree'.filesBelow (locationOf sink.out.components) =
      (units.foldl MemorySink.add memory).contents := by
  obtain ⟨hwritten, hkept⟩ := read_of_commit ht hunits.nodup_targets hok
  refine SortedMap.ext_get? fun key => Option.ext fun bytes => ?_
  rw [get?_filesBelow, MemorySink.get?_contents]
  -- a place is that of a unit, whose contents both hold, or it is as it was before in both
  by_cases hkey : ∃ u ∈ units, u.path.components = key
  · obtain ⟨u, hu, rfl⟩ := hkey
    obtain ⟨names, hnames⟩ := hunits.exists_names hu
    have hread := hwritten u hu
    obtain ⟨loc, hloc, hfile⟩ := read_eq_ok_iff.1 hread
    obtain rfl : loc = locationOf sink.out.components ++ names :=
      (eq_of_locate hloc).trans (hunits.targetOf_eq hu hnames)
    have hne : names ≠ [] := by
      rintro rfl
      exact components_ne_nil_of_read hread hnames
    rw [MemorySink.textAt_foldl_add_of_mem hunits.apart hu, Option.map_some, Option.some.injEq]
    constructor
    · rintro ⟨names', -, hnames', hfile'⟩
      have heq : names' = names :=
        List.map_injective_iff.2 (fun _ _ => Component.normal.inj) (hnames'.symm.trans hnames)
      rw [heq, hfile] at hfile'
      cases hfile'
      rfl
    · rintro rfl
      exact ⟨names, hne, hnames, hfile⟩
  · have hother : ∀ u ∈ units, u.path.components ≠ key := fun u hu heq => hkey ⟨u, hu, heq⟩
    rw [MemorySink.textAt_foldl_add_of_forall_ne hother, ← MemorySink.get?_contents, ← hfiles,
      get?_filesBelow]
    refine exists_congr fun names => and_congr_right fun _ => and_congr_right fun hnames => ?_
    refine hkept _ bytes fun u hu heq => ?_
    obtain ⟨names', hnames'⟩ := hunits.exists_names hu
    rw [hunits.targetOf_eq hu hnames', List.append_cancel_left_eq] at heq
    exact hother u hu (by rw [hnames', heq, hnames])

/-! ### Commits to both sinks -/

/-- An output directory in its tree, and a memory beside it. -/
structure SinkPair where
  disk : DiskSink × FileTree
  memory : MemorySink

namespace SinkPair

/-- Commit units on disk and, if this succeeds, in memory. -/
def commit (p : SinkPair) (units : List BinderUnit) : SinkPair :=
  match DiskSink.commit units p.disk with
  | (.ok (), disk) => ⟨disk, (MemorySink.commit units p.memory).2⟩
  | (.error _, disk) => ⟨disk, p.memory⟩

/-- Whether the files below the output directory, which is at a location, are those in memory. -/
structure InStep (loc : List String) (p : SinkPair) : Prop where
  isTree : p.disk.2.IsTree
  out_eq : locationOf p.disk.1.out.components = loc
  files_eq : p.disk.2.filesBelow loc = p.memory.contents

/-- A commit to both sinks, whether or not it succeeds, keeps them in step. -/
theorem InStep.commit {loc : List String} {p : SinkPair} (h : p.InStep loc)
    {units : List BinderUnit} (hunits : BinderUnit.Separate units) :
    (p.commit units).InStep loc := by
  obtain ⟨⟨sink, tree⟩, memory⟩ := p
  obtain ⟨ht, rfl, hfiles⟩ := h
  have htree := DiskSink.isTree_commit ht units sink
  have hout := DiskSink.out_commit units (sink, tree)
  rw [SinkPair.commit]
  rcases hcommit : DiskSink.commit units (sink, tree) with ⟨fault | ⟨⟩, sink', tree'⟩
  · rw [hcommit] at htree hout
    exact ⟨htree, congrArg (fun out => locationOf out.components) hout,
      (filesBelow_congr (DiskSink.file_iff_of_commit_error ht hcommit)).trans hfiles⟩
  · rw [hcommit] at htree hout
    exact ⟨htree, congrArg (fun out => locationOf out.components) hout,
      DiskSink.filesBelow_of_commit ht hunits hcommit hfiles⟩

theorem InStep.foldl_commit {loc : List String} {p : SinkPair} (h : p.InStep loc)
    {history : List (List BinderUnit)} (hhistory : ∀ units ∈ history, BinderUnit.Separate units) :
    (history.foldl SinkPair.commit p).InStep loc :=
  List.foldlRecOn _ _ h fun _ hp units hunits => hp.commit (hhistory units hunits)

/-- If nothing is below the output directory at first, then after any number of commits, of which
some may fail, the files below it are those of a memory that was given just the commits that
succeeded. -/
theorem files_commits {sink : DiskSink} {tree : FileTree} (ht : tree.IsTree)
    (hempty : ∀ names, names ≠ [] → tree.get? (locationOf sink.out.components ++ names) = none)
    {history : List (List BinderUnit)}
    (hhistory : ∀ units ∈ history, BinderUnit.Separate units) :
    let p := history.foldl commit ⟨(sink, tree), .empty⟩
    p.disk.2.filesBelow (locationOf sink.out.components) = p.memory.contents := by
  have hstart : InStep (locationOf sink.out.components) ⟨(sink, tree), .empty⟩ :=
    ⟨ht, rfl, filesBelow_eq_empty hempty⟩
  exact (hstart.foldl_commit hhistory).files_eq

/-- A tree with an empty output directory. -/
def emptyOut : FileTree := FileTree.empty.put ["out"] .directory

/-- Commits of which the second one fails, since it needs a directory where the first one made a
file. -/
def fileHistory : List (List BinderUnit) :=
  [[⟨⟨.root, "A"⟩, "A", ⟨"a"⟩, []⟩],
    [⟨⟨.root, "B"⟩, "B", ⟨"b"⟩, []⟩, ⟨⟨.root, "C"⟩, "C", ⟨"a/c"⟩, []⟩],
    [⟨⟨.root, "C"⟩, "C", ⟨"d/c"⟩, []⟩]]

theorem files_commits_fileHistory :
    let p := fileHistory.foldl commit ⟨(⟨⟨"out"⟩, [], []⟩, emptyOut), .empty⟩
    p.memory.contents.keys = [[.normal "a"], [.normal "d", .normal "c"]] ∧
    p.disk.2.filesBelow (locationOf (FilePath.mk "out").components) = p.memory.contents := by
  have hplace : FileTree.empty.IsPlace ["out"] := ⟨by rintro ⟨⟩, [], "out", rfl, rfl⟩
  have hlocation : locationOf (FilePath.mk "out").components = ["out"] := by decide +kernel
  have hempty (names : List String) (hne : names ≠ []) :
      emptyOut.get? (locationOf (FilePath.mk "out").components ++ names) = none := by
    rw [hlocation, emptyOut, get?_put hplace.ne_nil, if_neg (by simpa using hne),
      get?_of_ne_nil (by simp)]
    rfl
  have hapart : ∀ units ∈ fileHistory, units.Pairwise fun u v => u.path.same v.path = false := by
    decide +kernel
  have hnormal : ∀ units ∈ fileHistory, ∀ u ∈ units, ∀ c ∈ u.path.components,
      c = .normal c.text := by
    decide +kernel
  have hhistory : ∀ units ∈ fileHistory, BinderUnit.Separate units := fun units hunits =>
    BinderUnit.separate_of_same_eq_false (hapart units hunits) (hnormal units hunits)
  have htree : emptyOut.IsTree := isTree_empty.put hplace _
  exact ⟨by decide +kernel, @files_commits ⟨⟨"out"⟩, [], []⟩ emptyOut htree hempty _ hhistory⟩

end SinkPair

end FieldBinder
