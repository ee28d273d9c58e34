import FieldBinder.Generation
import FieldBinder.Proofs.FileTree.Descent
import FieldBinder.Proofs.Sink.Agreement

/-!
# What a commit rewrites

A commit that succeeds leaves a unit alone if the file where its target belongs holds its contents,
and rewrites the others (`DiskSink.leaves`, `DiskSink.lists_of_commit`).  One case is left out: when
the path of the output directory climbs by `..` out of a directory that is missing, it leads nowhere
until the first unit has been staged, so this unit is rewritten in any case.  All files that are not
listed as written are what they were, and where none is written the tree is
(`DiskSink.commit_minimal`).
-/

namespace FieldBinder

/-! ### Following paths -/

namespace FileTree

variable {t t' : FileTree} {p : FilePath} {loc : List String} {bytes : ByteArray}

/-- Whether a path leads anywhere, be there something or not. -/
def reaches (t : FileTree) (p : FilePath) : Bool :=
  (t.follow p.components).toOption.isSome

theorem reaches_iff :
    t.reaches p = true ↔ t.follow p.components = .ok (locationOf p.components) := by
  rw [reaches]
  cases hfollow : t.follow p.components with
  | error fault => simp [Except.toOption]
  | ok loc => simp [Except.toOption, eq_of_follow hfollow]

/-- A path that leads to a file ends in a name. -/
theorem steps_of_read (h : t.read p = .ok bytes) :
    p.endsInSlash = false ∧ p.steps = p.components := by
  obtain ⟨loc, hloc, hfile⟩ := read_eq_ok_iff.1 h
  have hslash : p.endsInSlash = false := by
    rw [← Bool.not_eq_true]
    intro hslash
    rw [get?_of_endsInSlash hslash hloc] at hfile
    cases hfile
  refine ⟨hslash, ?_⟩
  have hfollow := (locate_eq_ok_iff.1 hloc).2
  rw [if_neg (by simp [hslash])] at hfollow
  unfold FilePath.steps at hfollow ⊢
  split
  · -- With a dot at its end the path would lead to a directory.
    next hlast =>
    simp only [hlast] at hfollow
    obtain ⟨dir, -, hstep⟩ := follow_concat_eq_ok_iff.1 hfollow
    obtain ⟨hdir, rfl⟩ := step_eq_ok hstep
    cases hdir.symm.trans hfile
  · rfl

/-- The names on the way to a file are not too long. -/
theorem size_le_of_read {cs : List Component} {names : List String} (h : t.read p = .ok bytes)
    (hp : p.components = cs ++ names.map .normal) :
    ∀ name ∈ names, name.utf8ByteSize ≤ nameLimit := by
  intro name hname
  obtain ⟨loc, hloc, -⟩ := read_eq_ok_iff.1 h
  refine size_le_of_follow (follow_components hloc) ?_
  rw [hp]
  exact List.mem_append_right _ (List.mem_map_of_mem hname)

/-- A path that leads to a file in one tree leads as far as its components do in others. -/
theorem locate_of_read (h : t.read p = .ok bytes) (hfollow : t'.follow p.components = .ok loc) :
    t'.locate p = .ok loc := by
  obtain ⟨hslash, hsteps⟩ := steps_of_read h
  obtain ⟨loc', hloc', -⟩ := read_eq_ok_iff.1 h
  refine locate_eq_ok_iff.2 ⟨(locate_eq_ok_iff.1 hloc').1, ?_⟩
  rw [if_neg (by simp [hslash]), hsteps]
  exact hfollow

end FileTree

namespace FilePath

/-- A path without `..` is made of names behind what it starts with. -/
theorem exists_components_eq {p : FilePath} (h : .parent ∉ p.components) :
    ∃ (lead : List Component) (names : List String), p.components = lead ++ names.map .normal ∧
      ∀ t : FileTree, t.follow lead = .ok [] := by
  refine ⟨leadOf (cutAtSlashes p.text.toList),
    ((cutAtSlashes p.text.toList).filterMap componentOf?).map Component.text, ?_, ?_⟩
  · rw [components_eq, List.map_map]
    refine congrArg _ ((List.map_id _).symm.trans (List.map_congr_left fun c hc => ?_))
    rw [components_eq] at h
    obtain ⟨piece, -, hpiece⟩ := List.mem_filterMap.1 hc
    rcases componentOf?_cases hpiece with rfl | rfl
    · exact absurd (List.mem_append_right _ hc) h
    · rfl
  · intro t
    rcases leadOf_cases (cutAtSlashes p.text.toList) with hlead | hlead | hlead
    all_goals rw [hlead]; rfl

theorem exists_parent?_eq {p : FilePath} {name : String}
    (h : p.components.getLast? = some (.normal name)) : ∃ dir, p.parent? = some dir := by
  unfold parent?
  split
  · next hlast => rw [h] at hlast; cases hlast
  · next hlast => rw [h] at hlast; cases hlast
  · exact ⟨_, rfl⟩
  · exact ⟨_, rfl⟩
  · split
    · split <;> exact ⟨_, rfl⟩
    · split <;> exact ⟨_, rfl⟩

end FilePath

namespace DiskSink

open BinderUnit (Separate)
open FileTree

variable {out : FilePath} {reserved : List String} {units : List BinderUnit} {s s' : Staging}

/-! ### What is left alone -/

/-- Whether the file where the target of a unit belongs holds the contents of the unit. -/
def keeps (out : FilePath) (t : FileTree) (u : BinderUnit) : Bool :=
  match t.get? (targetOf out u) with
  | some (.file bytes) => bytes.data == u.contents.toUTF8.data
  | _ => false

/-- Whether a commit leaves a unit alone.  The first unit is read before any directory is made. -/
def leaves (out : FilePath) (t : FileTree) (units : List BinderUnit) (u : BinderUnit) : Bool :=
  keeps out t u && (t.reaches out || units.head? != some u)

theorem keeps_iff {t : FileTree} {u : BinderUnit} :
    keeps out t u = true ↔ t.get? (targetOf out u) = some (.file u.contents.toUTF8) := by
  unfold keeps
  split
  · next bytes hfile =>
    rw [hfile, Option.some.injEq, Entry.file.injEq, beq_iff_eq, ByteArray.ext_iff]
  · next hfile => exact iff_of_false Bool.false_ne_true (hfile _)

/-- What is read at a target is at its location. -/
theorem keeps_of_read {t : FileTree} {u : BinderUnit}
    (h : t.read (out.join u.path) = .ok u.contents.toUTF8) : keeps out t u = true := by
  obtain ⟨loc, hloc, hfile⟩ := read_eq_ok_iff.1 h
  rw [keeps_iff, targetOf, ← eq_of_locate hloc]
  exact hfile

/-! ### The lists of the first pass -/

/-- One unit is added to one of the two lists; one that is found leaves the tree as it was. -/
theorem lists_of_stageUnit {u : BinderUnit} (hok : stageUnit out reserved s u = .ok s') :
    if holds s.tree (out.join u.path) u.contents then
      s'.unchanged = s.unchanged ++ [out.join u.path] ∧ s'.staged = s.staged ∧ s'.tree = s.tree
    else
      s'.unchanged = s.unchanged ∧
        s'.staged.map Staged.target = s.staged.map Staged.target ++ [out.join u.path] := by
  simp only [stageUnit] at hok
  split at hok
  · next hholds =>
    cases hok
    rw [if_pos hholds]
    exact ⟨rfl, rfl, rfl⟩
  · next hholds =>
    rw [if_neg hholds]
    split at hok
    · cases hok
    · split at hok
      · cases hok
      · cases hok
        exact ⟨rfl, List.map_append⟩

theorem foldlM_stageUnit_concat {l : List BinderUnit} {u : BinderUnit} :
    (l ++ [u]).foldlM (stageUnit out reserved) s = .ok s' ↔
      ∃ s₁, l.foldlM (stageUnit out reserved) s = .ok s₁ ∧
        stageUnit out reserved s₁ u = .ok s' := by
  rw [List.foldlM_append]
  cases l.foldlM (stageUnit out reserved) s with
  | error failed => simp [bind, Except.bind]
  | ok s₁ =>
    have hunit : (Except.ok s₁ >>= fun s => [u].foldlM (stageUnit out reserved) s) =
        (stageUnit out reserved s₁ u >>= pure) := rfl
    rw [hunit, bind_pure]
    simp

/-- A list of units is divided by whether each was found with its contents in its turn. -/
theorem lists_of_foldlM_stageUnit {l : List BinderUnit} (found : BinderUnit → Bool)
    (hfound : ∀ first u rest s₁, l = first ++ u :: rest →
      first.foldlM (stageUnit out reserved) s = .ok s₁ →
      holds s₁.tree (out.join u.path) u.contents = found u)
    (hok : l.foldlM (stageUnit out reserved) s = .ok s') :
    s'.unchanged = s.unchanged ++ (l.filter found).map (fun u => out.join u.path) ∧
    s'.staged.map Staged.target = s.staged.map Staged.target ++
      (l.filter fun u => !found u).map fun u => out.join u.path := by
  -- From the end: the last unit is looked at in the tree that all units in front of it left.
  induction l using List.reverseRecOn generalizing s' with
  | nil =>
    cases hok
    simp
  | append_singleton l u ih =>
    obtain ⟨s₁, hfirst, hunit⟩ := foldlM_stageUnit_concat.1 hok
    obtain ⟨hunchanged, hstaged⟩ := ih (fun first v rest s₂ heq => hfound first v (rest ++ [u]) s₂
      (by rw [heq, List.append_assoc, List.cons_append])) hfirst
    have hlists := lists_of_stageUnit hunit
    rw [hfound l u [] s₁ rfl hfirst] at hlists
    cases h : found u with
    | true =>
      rw [h, if_pos rfl] at hlists
      simp [List.filter_append, h, hlists, hunchanged, hstaged]
    | false =>
      rw [h, if_neg Bool.false_ne_true] at hlists
      simp [List.filter_append, h, hlists, hunchanged, hstaged]

/-- A first pass that stages nothing makes no directory either. -/
theorem tree_of_foldlM_stageUnit {l : List BinderUnit}
    (hok : l.foldlM (stageUnit out reserved) s = .ok s') (hstaged : s'.staged = []) :
    s'.tree = s.tree := by
  induction l using List.reverseRecOn generalizing s' with
  | nil =>
    cases hok
    rfl
  | append_singleton l u ih =>
    obtain ⟨s₁, hfirst, hunit⟩ := foldlM_stageUnit_concat.1 hok
    have hlists := lists_of_stageUnit hunit
    split at hlists
    · obtain ⟨-, hsame, htree⟩ := hlists
      exact htree.trans (ih hfirst (hsame.symm.trans hstaged))
    · -- the last unit would have been staged
      have hlength := congrArg List.length hlists.2
      simp [hstaged] at hlength

/-! ### The output directory while units are staged -/

/-- The directory of a target is at or below the output directory. -/
theorem exists_parent?_join (hunits : Separate units) {u : BinderUnit} (hu : u ∈ units)
    (hne : u.path.components ≠ []) (out : FilePath) :
    ∃ dir, (out.join u.path).parent? = some dir ∧
      dir.components = out.components ++ u.path.components.dropLast := by
  have hjoin := hunits.components_join hu out
  obtain ⟨name, hname⟩ := hunits.normal u hu _ (List.getLast_mem hne)
  have hlast : (out.join u.path).components.getLast? = some (.normal name) := by
    rw [hjoin, List.getLast?_append_of_ne_nil _ hne, List.getLast?_eq_some_getLast hne, hname]
  obtain ⟨dir, hparent⟩ := FilePath.exists_parent?_eq hlast
  refine ⟨dir, hparent, ?_⟩
  rw [(FilePath.components_of_parent? hparent).2, hjoin, List.dropLast_append_of_ne_nil hne]

/-- Once a unit has been found or staged, the path of the output directory leads somewhere: the way
to the target, or to the temporary file, goes through it. -/
theorem reaches_of_stageUnit (hunits : Separate units) {u : BinderUnit} (hu : u ∈ units)
    (hne : u.path.components ≠ []) (hok : stageUnit out reserved s u = .ok s') :
    s'.tree.reaches out = true := by
  rw [reaches_iff]
  simp only [stageUnit] at hok
  split at hok
  · next hholds =>
    cases hok
    obtain ⟨loc, hloc, -⟩ := read_eq_ok_iff.1 (holds_iff.1 hholds)
    have hfollow := follow_components hloc
    rw [hunits.components_join hu out] at hfollow
    exact follow_of_append hfollow
  split at hok
  · cases hok
  next tree _ =>
  split at hok
  · cases hok
  next tree' hwrite =>
  cases hok
  -- the temporary file was written below the output directory, so that was reached
  obtain ⟨loc, hloc, hdir, rfl⟩ := write_eq_ok_iff.1 hwrite
  obtain ⟨dir, hparent, hcomponents⟩ := exists_parent?_join hunits hu hne out
  rw [hparent, Option.getD_some] at hloc
  have hfollow := follow_components hloc
  rw [FilePath.components_join_name _ (isName_temporaryName _), hcomponents,
    List.append_assoc] at hfollow
  refine follow_mono (fun l hl => ?_) (follow_of_append hfollow)
  rw [get?_put (ne_nil_of_get?_ne hdir), if_neg]
  · exact hl
  · rintro rfl
    exact hdir hl

/-! ### Units in their turn -/

theorem head?_eq_some_iff (hunits : Separate units) {first rest : List BinderUnit} {u : BinderUnit}
    (heq : units = first ++ u :: rest) : units.head? = some u ↔ first = [] := by
  cases first with
  | nil => simp [heq]
  | cons v first =>
    refine iff_of_false (fun hhead => ?_) (List.cons_ne_nil _ _)
    have hapart := hunits.apart
    rw [heq, List.cons_append, List.head?_cons, Option.some.injEq] at hhead
    rw [heq, hhead, List.cons_append, List.pairwise_cons] at hapart
    have hself := hapart.1 u (List.mem_append_right _ List.mem_cons_self)
    exact BinderUnit.apart_iff.1 hself rfl

/-- What can be read at the target of a unit can be read as soon as the path of the output directory
leads somewhere. -/
theorem read_of_keeps {t t' : FileTree} (ht : t.IsTree) (hunits : Separate units) {u : BinderUnit}
    (hu : u ∈ units) (hkeeps : keeps out t u = true) (hreach : t.reaches out = true)
    {bytes : ByteArray} (hread : t'.read (out.join u.path) = .ok bytes) :
    t.read (out.join u.path) = .ok u.contents.toUTF8 := by
  obtain ⟨names, hnames⟩ := hunits.exists_names hu
  have hjoin := hunits.components_join hu out
  rw [hnames] at hjoin
  rw [keeps_iff, hunits.targetOf_eq hu hnames] at hkeeps
  have hfollow := ht.follow_append (reaches_iff.1 hreach) (size_le_of_read hread hjoin) hkeeps
  rw [← hjoin] at hfollow
  exact read_eq_ok_iff.2 ⟨_, locate_of_read hread hfollow, hkeeps⟩

/-- In its turn, a unit that can be read in the end is found with its contents exactly if it is left
alone. -/
theorem holds_eq_leaves {before t' : FileTree} (ht : before.IsTree) (hunits : Separate units)
    {first rest : List BinderUnit} {u : BinderUnit} (heq : units = first ++ u :: rest)
    (hfirst : first.foldlM (stageUnit out (targetNames out units)) { tree := before } = .ok s)
    (hfinal : ∀ v ∈ units, t'.read (out.join v.path) = .ok v.contents.toUTF8) :
    holds s.tree (out.join u.path) u.contents = leaves out before units u := by
  have hsub : first ⊆ units := by
    rw [heq]
    exact List.subset_append_left _ _
  have hu : u ∈ units := by
    rw [heq]
    exact List.mem_append_right _ List.mem_cons_self
  have hstart : Sound out (targetNames out units) units before { tree := before } := sound_start ht
  have hsound := sound_foldlM_stageUnit hstart hsub
  rw [hfirst, reached] at hsound
  rw [Bool.eq_iff_iff, holds_iff, leaves, Bool.and_eq_true, Bool.or_eq_true, bne_iff_ne, ne_eq,
    head?_eq_some_iff hunits heq]
  constructor
  · intro hread
    obtain ⟨loc, hloc, hfile⟩ := read_eq_ok_iff.1 hread
    have hkept := (hsound.file_iff (hsound.not_isTemporary hu hloc)).1 hfile
    rw [eq_of_locate hloc] at hkept
    refine ⟨keeps_iff.2 hkept, ?_⟩
    by_cases hnil : first = []
    · subst hnil
      cases hfirst
      have hfollow := follow_components hloc
      rw [hunits.components_join hu out] at hfollow
      exact .inl (reaches_iff.2 (follow_of_append hfollow))
    · exact .inr hnil
  · rintro ⟨hkeeps, hreach⟩
    have hkept := hsound.grows.kept _ _ (keeps_iff.1 hkeeps)
    refine read_of_keeps hsound.grows.isTree hunits hu (keeps_iff.2 hkept) ?_ (hfinal u hu)
    rcases List.eq_nil_or_concat first with rfl | ⟨earlier, v, rfl⟩
    · cases hfirst
      exact hreach.resolve_right (not_not_intro rfl)
    · -- the unit in front has made the output directory
      rw [List.concat_eq_append] at hfirst hsub
      have hv : v ∈ units := hsub (List.mem_append_right _ (List.mem_singleton_self _))
      obtain ⟨s₁, -, hunit⟩ := foldlM_stageUnit_concat.1 hfirst
      exact reaches_of_stageUnit hunits hv (components_ne_nil_of_read (hfinal v hv)) hunit

/-! ### A commit -/

theorem targets_of_persist {t tree : FileTree} {done : List Persisted} {rest : List Staged}
    {targets : List FilePath} (hok : persist t done rest = (tree, .ok targets)) :
    targets = done.reverse.map Persisted.target ++ rest.map Staged.target := by
  induction rest generalizing t done with
  | nil =>
    cases hok
    simp
  | cons st rest ih =>
    rw [persist] at hok
    split at hok
    · rw [ih hok]
      simp
    · cases hok

/-- The lists of the sink are those of the first pass, whatever they were before; the tree is the
one that the second pass leaves. -/
theorem exists_staged_of_commit {sink sink' : DiskSink} {tree tree' : FileTree}
    (hok : commit units (sink, tree) = (.ok (), sink', tree')) :
    ∃ s, stageUnits sink.out units tree = .ok s ∧ sink'.unchanged = s.unchanged ∧
      sink'.written = s.staged.map Staged.target ∧
      persist s.tree [] s.staged = (tree', .ok sink'.written) := by
  rw [commit] at hok
  split at hok
  · cases hok
  · next s hstage =>
    split at hok
    · next targets hpersist =>
      cases hok
      refine ⟨s, hstage, rfl, ?_, hpersist⟩
      rw [targets_of_persist hpersist]
      rfl
    · cases hok

/-- A commit that writes nothing leaves the tree as it was, directories included. -/
theorem tree_of_commit {sink sink' : DiskSink} {tree tree' : FileTree}
    (hok : commit units (sink, tree) = (.ok (), sink', tree')) (hnone : sink'.written = []) :
    tree' = tree := by
  obtain ⟨s, hstage, -, hwritten, hpersist⟩ := exists_staged_of_commit hok
  have hstaged : s.staged = [] := List.map_eq_nil_iff.1 (hwritten.symm.trans hnone)
  rw [hstaged, persist, Prod.mk.injEq] at hpersist
  rw [← hpersist.1]
  exact tree_of_foldlM_stageUnit hstage hstaged

/-- The sink lists the units that were left alone and those that were rewritten. -/
theorem lists_of_commit {sink sink' : DiskSink} {tree tree' : FileTree} (ht : tree.IsTree)
    (hunits : Separate units) (hok : commit units (sink, tree) = (.ok (), sink', tree')) :
    sink'.unchanged =
      (units.filter (leaves sink.out tree units)).map (fun u => sink.out.join u.path) ∧
    sink'.written =
      (units.filter fun u => !leaves sink.out tree units u).map fun u => sink.out.join u.path := by
  have hread := (read_of_commit ht hunits.nodup_targets hok).1
  obtain ⟨s, hstage, hunchanged, hwritten, -⟩ := exists_staged_of_commit hok
  rw [hunchanged, hwritten]
  refine lists_of_foldlM_stageUnit _ (fun first u rest s₁ heq hfirst => ?_) hstage
  exact holds_eq_leaves ht hunits heq hfirst hread

/-- A path that does not climb leads to the output directory if there is a file below it. -/
theorem reaches_of_keeps {t t' : FileTree} (ht : t.IsTree) (hunits : Separate units)
    {u : BinderUnit} (hu : u ∈ units) (hout : .parent ∉ out.components)
    (hkeeps : keeps out t u = true) {bytes : ByteArray}
    (hread : t'.read (out.join u.path) = .ok bytes) : t.reaches out = true := by
  obtain ⟨lead, outer, hlead, hstart⟩ := FilePath.exists_components_eq hout
  obtain ⟨names, hnames⟩ := hunits.exists_names hu
  have hjoin := hunits.components_join hu out
  rw [hnames, hlead, List.append_assoc, ← List.map_append] at hjoin
  have hlocation : locationOf (out.join u.path).components = [] ++ (outer ++ names) := by
    rw [hjoin, locationOf_append_map_normal, ← eq_of_follow (hstart t)]
  rw [keeps_iff, targetOf, hlocation] at hkeeps
  have hfollow := ht.follow_append (hstart t) (size_le_of_read hread hjoin) hkeeps
  rw [List.map_append, ← List.append_assoc, ← hlead] at hfollow
  exact reaches_iff.2 (follow_of_append hfollow)

/-- A commit that succeeds lists the units that it left alone and those that it rewrote, each in the
order of the units and whatever was listed before.  Unless the path of the output directory climbs
out of a directory that is missing, the ones left alone are exactly those whose files held the
contents of the unit.  In the end every target holds the contents of its unit; all files that are
not listed as written are what they were, so that no temporary file is left; the directories are
those that were there and some above targets; and if nothing is written, the tree is what it was. -/
theorem commit_minimal {sink sink' : DiskSink} {tree tree' : FileTree} (ht : tree.IsTree)
    (hunits : Separate units) (hok : commit units (sink, tree) = (.ok (), sink', tree')) :
    let target (u : BinderUnit) := sink.out.join u.path
    (sink'.unchanged = (units.filter (leaves sink.out tree units)).map target ∧
      sink'.written = (units.filter fun u => !leaves sink.out tree units u).map target) ∧
    (tree.reaches sink.out = true ∨ .parent ∉ sink.out.components →
      sink'.unchanged = (units.filter (keeps sink.out tree)).map target ∧
      sink'.written = (units.filter fun u => !keeps sink.out tree u).map target ∧
      ∀ u ∈ units, keeps sink.out tree u = true ↔
        tree.read (target u) = .ok u.contents.toUTF8) ∧
    (∀ u ∈ units, tree'.read (target u) = .ok u.contents.toUTF8) ∧
    (∀ loc, (∀ p ∈ sink'.written, locationOf p.components ≠ loc) → ∀ bytes,
      tree'.get? loc = some (.file bytes) ↔ tree.get? loc = some (.file bytes)) ∧
    (∀ loc, (tree.get? loc = some .directory → tree'.get? loc = some .directory) ∧
      (tree'.get? loc = some .directory →
        tree.get? loc = some .directory ∨ AboveTarget sink.out units loc)) ∧
    (sink'.written = [] → tree' = tree) := by
  intro target
  obtain ⟨hread, hother⟩ := read_of_commit ht hunits.nodup_targets hok
  obtain ⟨hunchanged, hwritten⟩ := lists_of_commit ht hunits hok
  refine ⟨⟨hunchanged, hwritten⟩, fun hout => ?_, hread, fun loc hloc bytes => ?_,
    directory_of_commit ht hunits.nodup_targets hok, tree_of_commit hok⟩
  · -- where its path has no `..`, a target that is there shows that the output directory is
    have hreach : ∀ u ∈ units, keeps sink.out tree u = true → tree.reaches sink.out = true :=
      fun u hu hkeeps => hout.elim id fun hparent =>
        reaches_of_keeps ht hunits hu hparent hkeeps (hread u hu)
    have hleaves : ∀ u ∈ units, leaves sink.out tree units u = keeps sink.out tree u := by
      intro u hu
      rw [leaves, Bool.and_eq_left_iff_imp, Bool.or_eq_true]
      exact fun hkeeps => .inl (hreach u hu hkeeps)
    refine ⟨?_, ?_, fun u hu => ⟨fun hkeeps => ?_, keeps_of_read⟩⟩
    · rw [hunchanged, List.filter_congr hleaves]
    · rw [hwritten, List.filter_congr fun u hu => congrArg not (hleaves u hu)]
    · exact read_of_keeps ht hunits hu hkeeps (hreach u hu hkeeps) (hread u hu)
  · by_cases hu : ∃ u ∈ units, targetOf sink.out u = loc
    · obtain ⟨u, hu, rfl⟩ := hu
      have hleaves : leaves sink.out tree units u = true := by
        refine Classical.not_not.1 fun hnot => hloc (target u) ?_ rfl
        rw [hwritten]
        exact List.mem_map_of_mem (List.mem_filter.2 ⟨hu, by simpa using hnot⟩)
      have hbefore := keeps_iff.1 (Bool.and_eq_true _ _ ▸ hleaves).1
      have hafter := keeps_iff.1 (keeps_of_read (hread u hu))
      rw [hbefore, hafter]
    · exact hother loc bytes fun u hu' heq => hu ⟨u, hu', heq⟩

/-- A tree that has the first of two files with its contents and the second one with bytes that are
no text. -/
def keptTree : FileTree :=
  ((FileTree.empty.put ["out"] .directory).put ["out", "a.rs"] (.file "\n".toUTF8)).put
    ["out", "b.rs"] (.file ⟨#[0xff]⟩)

theorem separate_twoUnits : Separate twoUnits :=
  BinderUnit.separate_of_same_eq_false (by decide +kernel) (by decide +kernel)

theorem commit_minimal_keptTree : ∃ sink tree,
    commit twoUnits (⟨⟨"out"⟩, [⟨"old"⟩], [⟨"older"⟩]⟩, keptTree) = (.ok (), sink, tree) ∧
    keptTree.reaches ⟨"out"⟩ = true ∧ sink.unchanged = [⟨"out/a.rs"⟩] ∧
    sink.written = [⟨"out/b.rs"⟩] ∧
    ∀ u ∈ twoUnits, tree.read ((FilePath.mk "out").join u.path) = .ok u.contents.toUTF8 := by
  have htree : keptTree.IsTree := isTree_of_keys (by decide +kernel)
  have hok : (commit twoUnits (⟨⟨"out"⟩, [⟨"old"⟩], [⟨"older"⟩]⟩, keptTree)).1 = .ok () := by
    decide +kernel
  rcases h : commit twoUnits (⟨⟨"out"⟩, [⟨"old"⟩], [⟨"older"⟩]⟩, keptTree) with
    ⟨outcome, sink, tree⟩
  rw [h] at hok
  obtain rfl : outcome = _ := hok
  obtain ⟨-, hlists, hread, -⟩ := commit_minimal htree separate_twoUnits h
  obtain ⟨hunchanged, hwritten, -⟩ := hlists (.inl (by decide +kernel))
  exact ⟨sink, tree, rfl, by decide +kernel, hunchanged.trans (by decide +kernel),
    hwritten.trans (by decide +kernel), hread⟩

/-- A crate whose two structs have a marked field each, and an output directory in which both units
are already, as the path `d/../e` leads to them once there is a directory `d`. -/
def climbingTree : FileTree :=
  ((((((FileTree.empty.put ["m"] .directory).put ["m", "src"] .directory).put
    ["m", "src", "lib.rs"]
      (.file "struct A \x7b #[bind] x: u8 \x7d\nstruct B \x7b #[bind] x: u8 \x7d\n".toUTF8)).put
    ["out"] .directory).put ["out", "e"] .directory).put
    ["out", "e", "a_binder.rs"] (.file
      ("// @generated by country-binder-build. Do not edit.\n// namespace: crate\n" ++
        "// source: crate::A\n\npub struct ABinder;\n\nimpl ABinder \x7b\n\x7d\n").toUTF8)).put
    ["out", "e", "b_binder.rs"] (.file
      ("// @generated by country-binder-build. Do not edit.\n// namespace: crate\n" ++
        "// source: crate::B\n\npub struct BBinder;\n\nimpl BBinder \x7b\n\x7d\n").toUTF8)

/-- Settings by which the units go into `d/../e`. -/
def climbingSettings : Settings := { marker := "bind", outSubdir := some ⟨"d/../e"⟩ }

/-- The units of the crate, which have no stubs since nothing is said about the fields. -/
def climbingUnits : List BinderUnit :=
  [.ofStubs ⟨["crate"]⟩ "Binder" ⟨⟨["crate"]⟩, "A"⟩ [],
    .ofStubs ⟨["crate"]⟩ "Binder" ⟨⟨["crate"]⟩, "B"⟩ []]

theorem separate_climbingUnits : Separate climbingUnits :=
  BinderUnit.separate_of_same_eq_false (by decide +kernel) (by decide +kernel)

/-- The path of an output directory that climbs out of a missing directory: both files have the
contents of their units, and the first one is rewritten, for which the directory `d` is made.  Nor
is the other reading right that counts what the paths of the targets lead to, since at first neither
leads anywhere. -/
theorem not_commit_minimal_climbingTree :
    (climbingTree.IsTree ∧ Separate climbingUnits ∧
      Generation.outputDirectory climbingSettings ⟨"out"⟩ = ⟨"out/d/../e"⟩ ∧
      (Generation.ofSettings climbingSettings ⟨"m"⟩ ⟨"out"⟩ climbingTree).outcome.toOption.map
        Report.units = some climbingUnits) ∧
    (∀ u ∈ climbingUnits, keeps ⟨"out/d/../e"⟩ climbingTree u = true ∧
      climbingTree.read ((FilePath.mk "out/d/../e").join u.path) = .error .notFound) ∧
    ∃ sink tree,
      commit climbingUnits (⟨⟨"out/d/../e"⟩, [], []⟩, climbingTree) = (.ok (), sink, tree) ∧
      sink.written = [⟨"out/d/../e/a_binder.rs"⟩] ∧
      sink.unchanged = [⟨"out/d/../e/b_binder.rs"⟩] ∧
      climbingTree.contains ⟨"out/d"⟩ = false ∧ tree.isDirectory ⟨"out/d"⟩ = true := by
  have hlists :
      (commit climbingUnits (⟨⟨"out/d/../e"⟩, [], []⟩, climbingTree)).1 = .ok () ∧
      (commit climbingUnits (⟨⟨"out/d/../e"⟩, [], []⟩, climbingTree)).2.1 =
        ⟨⟨"out/d/../e"⟩, [⟨"out/d/../e/a_binder.rs"⟩], [⟨"out/d/../e/b_binder.rs"⟩]⟩ ∧
      (commit climbingUnits (⟨⟨"out/d/../e"⟩, [], []⟩, climbingTree)).2.2.isDirectory
        ⟨"out/d"⟩ = true := by
    decide +kernel
  refine ⟨⟨isTree_of_keys (by decide +kernel), separate_climbingUnits, by decide +kernel,
    by decide +kernel⟩, by decide +kernel, ?_⟩
  rcases h : commit climbingUnits (⟨⟨"out/d/../e"⟩, [], []⟩, climbingTree) with
    ⟨outcome, sink, tree⟩
  rw [h] at hlists
  obtain ⟨rfl, rfl, hdirectory⟩ : outcome = _ ∧ sink = _ ∧ tree.isDirectory _ = true := hlists
  exact ⟨_, tree, rfl, rfl, rfl, by decide +kernel, hdirectory⟩

end DiskSink

end FieldBinder
