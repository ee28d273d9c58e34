import FieldBinder.Proofs.Sink.Rollback

/-!
# The files after a commit

After the first pass every unit has its contents at its target or in a temporary file of its own
(`Prepared`).  The second pass moves each temporary file to its target (`get?_persist`).  So after a
commit that succeeds every target reads as the contents of its unit, and all other files are what
they were (`read_of_commit`).  After one that fails all files are (`file_iff_of_commit_error`).  The
directories stay, and those that are made are above targets (`directory_of_commit`).  A commit of
units whose targets hold their contents writes nothing (`commit_of_read`).
-/

namespace FieldBinder.DiskSink

open FileTree

/-- The location of the target of a unit. -/
def targetOf (out : FilePath) (u : BinderUnit) : List String :=
  locationOf (out.join u.path).components

/-! ### The first pass -/

theorem holds_iff {t : FileTree} {p : FilePath} {text : String} :
    holds t p text = true ↔ t.read p = .ok text.toUTF8 := by
  rw [← readText_eq_ok_iff, holds]
  cases t.readText p <;> simp

/-- What staging has prepared for the units so far. -/
structure Prepared (out : FilePath) (units : List BinderUnit) (s : Staging) : Prop where
  isTree : s.tree.IsTree
  /-- A unit is staged, or its target holds its contents already. -/
  unit : ∀ u ∈ units, (∃ st ∈ s.staged, st.target = out.join u.path) ∨
    s.tree.read (out.join u.path) = .ok u.contents.toUTF8
  contents : ∀ st ∈ s.staged, ∃ u ∈ units, st.target = out.join u.path ∧
    s.tree.read st.temporary = .ok u.contents.toUTF8
  apart : s.staged.Pairwise fun a b =>
    locationOf a.temporary.components ≠ locationOf b.temporary.components
  targets : (s.staged.map Staged.target).Sublist (units.map fun u => out.join u.path)

variable {out : FilePath} {reserved : List String} {units : List BinderUnit} {s s' : Staging}

theorem prepared_start {tree : FileTree} (ht : tree.IsTree) : Prepared out [] { tree } where
  isTree := ht
  unit := by simp
  contents := by simp
  apart := .nil
  targets := .slnil

/-- What is prepared stays so when the tree grows. -/
theorem Prepared.extend (h : Prepared out units s) {new : List String → Entry → Prop}
    {tree : FileTree} (hext : Extends new s.tree tree) : Prepared out units { s with tree } where
  isTree := hext.isTree
  unit u hu := (h.unit u hu).imp_right hext.read
  contents st hst := by
    obtain ⟨u, hu, htarget, hread⟩ := h.contents st hst
    exact ⟨u, hu, htarget, hext.read hread⟩
  apart := h.apart
  targets := h.targets

theorem Prepared.unchanged (h : Prepared out units s) {u : BinderUnit}
    (hu : s.tree.read (out.join u.path) = .ok u.contents.toUTF8) (unchanged : List FilePath) :
    Prepared out (units ++ [u]) { s with unchanged } where
  isTree := h.isTree
  unit v hv := by
    rcases List.mem_append.1 hv with hv | hv
    · exact h.unit v hv
    · obtain rfl := List.mem_singleton.1 hv
      exact .inr hu
  contents st hst := by
    obtain ⟨v, hv, h⟩ := h.contents st hst
    exact ⟨v, List.mem_append_left _ hv, h⟩
  apart := h.apart
  targets := by
    rw [List.map_append]
    exact h.targets.trans (List.sublist_append_left _ _)

/-- A unit is staged where nothing was. -/
theorem Prepared.stage (h : Prepared out units s) {u : BinderUnit} {temporary : FilePath}
    {loc : List String} (hloc : s.tree.locate temporary = .ok loc)
    (hnone : s.tree.get? loc = none) :
    Prepared out (units ++ [u]) { s with
      tree := s.tree.put loc (.file u.contents.toUTF8)
      staged := s.staged ++ [⟨temporary, out.join u.path⟩] } := by
  have hplace : s.tree.IsPlace loc := h.isTree.isPlace_of_locate hloc (by rw [hnone]; simp)
  have hput : Extends (fun _ _ => True) s.tree (s.tree.put loc (.file u.contents.toUTF8)) :=
    .put h.isTree hplace hnone trivial
  have hmade := h.extend hput
  have hread : (s.tree.put loc (.file u.contents.toUTF8)).read temporary =
      .ok u.contents.toUTF8 := by
    refine read_eq_ok_iff.2 ⟨loc, hput.locate hloc, ?_⟩
    rw [get?_put hplace.ne_nil, if_pos rfl]
  constructor
  · exact hmade.isTree
  · intro v hv
    rcases List.mem_append.1 hv with hv | hv
    · refine (hmade.unit v hv).imp_left ?_
      rintro ⟨st, hst, htarget⟩
      exact ⟨st, List.mem_append_left _ hst, htarget⟩
    · obtain rfl := List.mem_singleton.1 hv
      exact .inl ⟨_, List.mem_append_right _ (List.mem_singleton_self _), rfl⟩
  · intro st hst
    rcases List.mem_append.1 hst with hst | hst
    · obtain ⟨v, hv, h⟩ := hmade.contents st hst
      exact ⟨v, List.mem_append_left _ hv, h⟩
    · obtain rfl := List.mem_singleton.1 hst
      exact ⟨u, List.mem_append_right _ (List.mem_singleton_self _), rfl, hread⟩
  · refine List.pairwise_append.2 ⟨h.apart, List.pairwise_singleton _ _, fun st hst st' hst' => ?_⟩
    obtain rfl := List.mem_singleton.1 hst'
    -- the other temporary file is somewhere, and here there was nothing
    intro heq
    obtain ⟨v, -, -, hread'⟩ := h.contents st hst
    obtain ⟨loc', hloc', hfile⟩ := read_eq_ok_iff.1 hread'
    rw [eq_of_locate hloc', heq, ← eq_of_locate hloc, hnone] at hfile
    cases hfile
  · rw [List.map_append, List.map_append]
    exact h.targets.append (List.Sublist.refl _)

theorem Prepared.stageUnit (h : Prepared out units s) {u : BinderUnit}
    (hok : stageUnit out reserved s u = .ok s') : Prepared out (units ++ [u]) s' := by
  simp only [DiskSink.stageUnit] at hok
  split at hok
  · next hholds =>
    cases hok
    exact h.unchanged (holds_iff.1 hholds) _
  · split at hok
    · cases hok
    · next tree heq =>
      have hext := extends_makeDirectories h.isTree ((out.join u.path).parent?.getD ⟨"."⟩)
      rw [heq] at hext
      split at hok
      · cases hok
      · next tree' hwrite =>
        cases hok
        obtain ⟨loc, hloc, -, rfl⟩ := write_eq_ok_iff.1 hwrite
        exact (h.extend hext).stage hloc (get?_eq_none_of_locate_temporary hloc).1

theorem Prepared.foldlM_stageUnit (h : Prepared out units s) {l : List BinderUnit}
    (hok : l.foldlM (DiskSink.stageUnit out reserved) s = .ok s') :
    Prepared out (units ++ l) s' := by
  induction l generalizing units s with
  | nil =>
    cases hok
    rwa [List.append_nil]
  | cons u r ih =>
    rw [List.foldlM_cons] at hok
    cases hstage : DiskSink.stageUnit out reserved s u with
    | error failed =>
      rw [hstage] at hok
      cases hok
    | ok s₁ =>
      rw [hstage] at hok
      have := ih (h.stageUnit hstage) hok
      rwa [List.append_assoc, List.singleton_append] at this

theorem prepared_stageUnits {tree : FileTree} (ht : tree.IsTree)
    (hok : stageUnits out units tree = .ok s) : Prepared out units s :=
  (prepared_start ht).foldlM_stageUnit hok

/-! ### The second pass -/

/-- When all renames succeed, every temporary file has gone to its target, and all other locations
hold what they held. -/
theorem get?_persist (hs : s.Ready) {t tree : FileTree} (h : Alike s.tree t)
    {done : List Persisted} {rest : List Staged} {targets : List FilePath}
    (hrest : rest ⊆ s.staged)
    (htemporary : rest.Pairwise fun a b =>
      locationOf a.temporary.components ≠ locationOf b.temporary.components)
    (htarget : rest.Pairwise fun a b =>
      locationOf a.target.components ≠ locationOf b.target.components)
    (hok : persist t done rest = (tree, .ok targets)) :
    Alike s.tree tree ∧
    (∀ st ∈ rest, tree.locate st.target = .ok (locationOf st.target.components) ∧
      tree.get? (locationOf st.target.components) =
        t.get? (locationOf st.temporary.components) ∧
      tree.get? (locationOf st.temporary.components) = none) ∧
    ∀ l, (∀ st ∈ rest, locationOf st.temporary.components ≠ l ∧
      locationOf st.target.components ≠ l) → tree.get? l = t.get? l := by
  induction rest generalizing t done with
  | nil =>
    cases hok
    exact ⟨h, by simp, fun _ _ => rfl⟩
  | cons st rest ih =>
    obtain ⟨hfirst, htemporary⟩ := List.pairwise_cons.1 htemporary
    obtain ⟨hfirst', htarget⟩ := List.pairwise_cons.1 htarget
    have hst : st ∈ s.staged := hrest List.mem_cons_self
    replace hrest : rest ⊆ s.staged := List.subset_of_cons_subset hrest
    -- no target is where a temporary file is
    have hne {a b : Staged} (ha : a ∈ s.staged) (hb : b ∈ s.staged)
        (hloc : s.tree.locate a.target = .ok (locationOf a.target.components)) :
        locationOf b.temporary.components ≠ locationOf a.target.components := by
      intro heq
      obtain ⟨loc, hloc', -⟩ := hs.temporary b hb
      rw [← eq_of_locate hloc'] at heq
      exact hs.target a ha _ hloc ⟨b, hb, heq ▸ hloc'⟩
    rw [persist] at hok
    split at hok
    · next t' hrename =>
      obtain ⟨start, loc, bytes, hstart, hfile, hloc, -, halike, hget⟩ := h.rename hrename
      obtain rfl := eq_of_locate hstart
      obtain rfl := eq_of_locate hloc
      obtain ⟨hfinal, hmoved, hsame⟩ := ih halike hrest htemporary htarget hok
      have hloc' {st' : Staged} (hst' : st' ∈ rest) :
          s.tree.locate st'.target = .ok (locationOf st'.target.components) :=
        hfinal.locate_iff.1 (hmoved st' hst').1
      refine ⟨hfinal, fun st' hst' => ?_, fun l hl => ?_⟩
      · rcases List.mem_cons.1 hst' with rfl | hst'
        · refine ⟨hfinal.locate_iff.2 hloc, ?_, ?_⟩
          · rw [hsame _ fun st'' hst'' => ⟨hne hst (hrest hst'') hloc, (hfirst' _ hst'').symm⟩,
              hget, if_neg (hne hst hst hloc).symm, if_pos rfl, hfile]
          · rw [hsame _ fun st'' hst'' => ⟨(hfirst _ hst'').symm,
              (hne (hrest hst'') hst (hloc' hst'')).symm⟩, hget, if_pos rfl]
        · obtain ⟨hlocate, htarget', hnone⟩ := hmoved st' hst'
          refine ⟨hlocate, ?_, hnone⟩
          rw [htarget', hget, if_neg (hfirst _ hst').symm, if_neg (hne hst (hrest hst') hloc)]
      · obtain ⟨hl', hl''⟩ := hl st List.mem_cons_self
        rw [hsame l fun st' hst' => hl st' (List.mem_cons_of_mem _ hst'), hget,
          if_neg hl'.symm, if_neg hl''.symm]
    · cases hok

/-! ### A commit -/

/-- Where no temporary file is, staging leaves the files as they are. -/
theorem Sound.file_iff {before : FileTree} (h : Sound out reserved units before s)
    {loc : List String} (hloc : ¬ s.IsTemporary loc) {bytes : ByteArray} :
    s.tree.get? loc = some (.file bytes) ↔ before.get? loc = some (.file bytes) := by
  refine ⟨fun hfile => ?_, h.grows.kept loc _⟩
  cases hbefore : before.get? loc with
  | some e =>
    rw [h.grows.kept loc e hbefore] at hfile
    exact hfile
  | none =>
    rcases h.grows.added loc _ hfile hbefore with ⟨hdir, -⟩ | ⟨hl, -⟩
    · cases hdir
    · exact absurd hl hloc

/-- A commit that fails leaves the files as they are. -/
theorem file_iff_of_commit_error {sink sink' : DiskSink} {tree tree' : FileTree}
    {fault : EmissionFault} (ht : tree.IsTree)
    (hfail : commit units (sink, tree) = (.error fault, sink', tree')) (loc : List String)
    (bytes : ByteArray) :
    tree'.get? loc = some (.file bytes) ↔ tree.get? loc = some (.file bytes) := by
  obtain ⟨s, hsound, hreverted, -⟩ := exists_reverted_of_commit ht hfail
  by_cases hloc : s.IsTemporary loc
  · rw [hreverted.temporary loc hloc]
    obtain ⟨st, hst, hl⟩ := hloc
    obtain ⟨loc', hl', -, hbefore, -⟩ := hsound.temporary st hst
    obtain rfl := Except.ok.inj (hl.symm.trans hl')
    rw [hbefore]
  · rw [hreverted.other loc hloc, hsound.file_iff hloc]

theorem out_commit (units : List BinderUnit) (state : DiskSink × FileTree) :
    (commit units state).2.1.out = state.1.out := by
  obtain ⟨sink, tree⟩ := state
  rw [commit]
  split
  · rfl
  · split <;> rfl

/-- Whether a tree is the staged tree with every temporary file moved to its target. -/
structure Staging.Moved (s : Staging) (t : FileTree) : Prop where
  alike : Alike s.tree t
  target : ∀ st ∈ s.staged, t.locate st.target = .ok (locationOf st.target.components) ∧
    t.get? (locationOf st.target.components) = s.tree.get? (locationOf st.temporary.components)
  temporary : ∀ st ∈ s.staged, t.get? (locationOf st.temporary.components) = none
  other : ∀ l, (∀ st ∈ s.staged, locationOf st.temporary.components ≠ l ∧
    locationOf st.target.components ≠ l) → t.get? l = s.tree.get? l

/-- A commit that succeeds, for units with different targets, has moved what was staged. -/
theorem exists_moved_of_commit {sink sink' : DiskSink} {tree tree' : FileTree} (ht : tree.IsTree)
    (hunits : (units.map (targetOf sink.out)).Nodup)
    (hok : commit units (sink, tree) = (.ok (), sink', tree')) :
    ∃ s, Sound sink.out (targetNames sink.out units) units tree s ∧ Prepared sink.out units s ∧
      s.Moved tree' := by
  have hsound := sound_stageUnits ht sink.out units
  rw [commit] at hok
  split at hok
  · cases hok
  next s hstage =>
  rw [hstage, reached] at hsound
  have hprepared := prepared_stageUnits ht hstage
  split at hok
  swap
  · cases hok
  next targets hpersist =>
  cases hok
  -- the targets of distinct units are at distinct places, so no rename overwrites another
  have htargets : s.staged.Pairwise fun a b =>
      locationOf a.target.components ≠ locationOf b.target.components := by
    have hpaths : (units.map fun u => sink.out.join u.path).Pairwise fun p q =>
        locationOf p.components ≠ locationOf q.components :=
      List.pairwise_map.2 (List.pairwise_map.1 hunits)
    have hstaged : (s.staged.map Staged.target).Pairwise fun p q =>
        locationOf p.components ≠ locationOf q.components :=
      hpaths.sublist hprepared.targets
    rw [List.pairwise_map] at hstaged
    exact hstaged
  obtain ⟨halike, hmoved, hsame⟩ := get?_persist hsound.ready (.refl hprepared.isTree)
    (List.Subset.refl _) hprepared.apart htargets hpersist
  exact ⟨s, hsound, hprepared, halike, fun st hst => ⟨(hmoved st hst).1, (hmoved st hst).2.1⟩,
    fun st hst => (hmoved st hst).2.2, hsame⟩

/-- After a commit that succeeds, for units with different targets, every target reads as the
contents of its unit, and exactly the files that were there before are at all other locations. -/
theorem read_of_commit {sink sink' : DiskSink} {tree tree' : FileTree} (ht : tree.IsTree)
    (hunits : (units.map (targetOf sink.out)).Nodup)
    (hok : commit units (sink, tree) = (.ok (), sink', tree')) :
    (∀ u ∈ units, tree'.read (sink.out.join u.path) = .ok u.contents.toUTF8) ∧
    ∀ loc bytes, (∀ u ∈ units, targetOf sink.out u ≠ loc) →
      (tree'.get? loc = some (.file bytes) ↔ tree.get? loc = some (.file bytes)) := by
  obtain ⟨s, hsound, hprepared, hmoved⟩ := exists_moved_of_commit ht hunits hok
  constructor
  · intro u hu
    by_cases hst : ∃ st ∈ s.staged, locationOf st.target.components = targetOf sink.out u
    · -- a staged file: the rename has moved its contents to the target
      obtain ⟨st, hst, heq⟩ := hst
      obtain ⟨v, hv, htarget, hread⟩ := hprepared.contents st hst
      obtain rfl : v = u := List.inj_on_of_nodup_map hunits hv hu (by rw [← heq, htarget]; rfl)
      obtain ⟨loc, hloc, hfile⟩ := read_eq_ok_iff.1 hread
      obtain ⟨hlocate, hget⟩ := hmoved.target st hst
      rw [← htarget]
      exact read_eq_ok_iff.2 ⟨_, hlocate, by rw [hget, ← eq_of_locate hloc, hfile]⟩
    · -- a target that held its contents before: no rename touches it
      rcases hprepared.unit u hu with ⟨st, hst', htarget⟩ | hread
      · exact absurd ⟨st, hst', by rw [htarget]; rfl⟩ hst
      · obtain ⟨loc, hloc, hfile⟩ := read_eq_ok_iff.1 hread
        refine read_eq_ok_iff.2 ⟨loc, hmoved.alike.locate_iff.2 hloc, ?_⟩
        rw [hmoved.other loc fun st hst' => ⟨fun heq => ?_, fun heq => hst ⟨st, hst', ?_⟩⟩, hfile]
        · obtain ⟨loc', hloc', -⟩ := hsound.ready.temporary st hst'
          exact hsound.not_isTemporary hu hloc ⟨st, hst', by rw [hloc', eq_of_locate hloc', heq]⟩
        · rw [heq, eq_of_locate hloc, targetOf]
  · intro loc bytes hloc
    -- a temporary place was free before, and is free again
    by_cases htemporary : s.IsTemporary loc
    · obtain ⟨st, hst, hl⟩ := htemporary
      obtain ⟨loc', hl', -, hbefore, -⟩ := hsound.temporary st hst
      obtain rfl := Except.ok.inj (hl.symm.trans hl')
      rw [eq_of_locate hl] at hbefore ⊢
      rw [hmoved.temporary st hst, hbefore]
    · rw [hmoved.other loc fun st hst => ⟨fun heq => ?_, fun heq => ?_⟩, hsound.file_iff htemporary]
      · obtain ⟨loc', hloc', -⟩ := hsound.ready.temporary st hst
        exact htemporary ⟨st, hst, by rw [hloc', eq_of_locate hloc', heq]⟩
      · obtain ⟨u, hu, htarget⟩ := hprepared.contents st hst
        rw [htarget.1] at heq
        exact hloc u hu heq

/-- A commit that succeeds keeps all directories, and makes such only as are above targets. -/
theorem directory_of_commit {sink sink' : DiskSink} {tree tree' : FileTree} (ht : tree.IsTree)
    (hunits : (units.map (targetOf sink.out)).Nodup)
    (hok : commit units (sink, tree) = (.ok (), sink', tree')) (loc : List String) :
    (tree.get? loc = some .directory → tree'.get? loc = some .directory) ∧
    (tree'.get? loc = some .directory →
      tree.get? loc = some .directory ∨ AboveTarget sink.out units loc) := by
  obtain ⟨s, hsound, -, hmoved⟩ := exists_moved_of_commit ht hunits hok
  rw [hmoved.alike.directory_iff]
  refine ⟨hsound.grows.kept loc _, fun hdir => ?_⟩
  cases hold : tree.get? loc with
  | some e =>
    rw [hsound.grows.kept loc e hold] at hdir
    exact .inl hdir
  | none =>
    rcases hsound.grows.added loc _ hdir hold with ⟨-, habove⟩ | ⟨-, hne⟩
    · exact .inr habove
    · exact absurd rfl hne

/-! ### A commit of what is there -/

/-- Units whose targets hold their contents are not staged. -/
theorem foldlM_stageUnit_of_read {l : List BinderUnit}
    (h : ∀ u ∈ l, s.tree.read (out.join u.path) = .ok u.contents.toUTF8) :
    l.foldlM (stageUnit out reserved) s =
      .ok { s with unchanged := s.unchanged ++ l.map fun u => out.join u.path } := by
  induction l generalizing s with
  | nil => simp [pure, Except.pure]
  | cons u r ih =>
    rw [List.forall_mem_cons] at h
    have hunit : stageUnit out reserved s u =
        .ok { s with unchanged := s.unchanged ++ [out.join u.path] } :=
      if_pos (holds_iff.2 h.1)
    rw [List.foldlM_cons, hunit]
    refine (ih (s := { s with unchanged := s.unchanged ++ [out.join u.path] }) h.2).trans ?_
    rw [List.map_cons, List.append_assoc, List.singleton_append]

/-- A commit of units whose targets hold their contents writes nothing. -/
theorem commit_of_read {sink : DiskSink} {tree : FileTree}
    (h : ∀ u ∈ units, tree.read (sink.out.join u.path) = .ok u.contents.toUTF8) :
    commit units (sink, tree) = (.ok (),
      { sink with written := [], unchanged := units.map fun u => sink.out.join u.path }, tree) := by
  have hstage : stageUnits sink.out units tree =
      .ok { tree, unchanged := units.map fun u => sink.out.join u.path } :=
    foldlM_stageUnit_of_read h
  rw [commit, hstage]
  rfl

end FieldBinder.DiskSink
