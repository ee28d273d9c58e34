import FieldBinder.Proofs.Sink.Staging

/-!
# A failed commit

While temporary files are renamed, undoing the renames leads back to the staged tree, whatever
became of the temporary files (`Undoable`).  So after a commit that fails, in either pass, the tree
has the files that it had before, and beyond its directories only such that are above targets
(`commit_undone`).  After any commit the tree is still one (`isTree_commit`).
-/

namespace FieldBinder.DiskSink

open FileTree

/-! ### Removing temporary files -/

/-- Removing temporary files removes what is at their locations, and nothing else. -/
theorem alike_discardStaged {t t' : FileTree} (h : Alike t t') {staged : List Staged}
    (hstaged : ∀ st ∈ staged, ∃ loc, t.locate st.temporary = .ok loc ∧
      t.get? loc ≠ some .directory) :
    Alike t (discardStaged t' staged) ∧
    (∀ l, (∃ st ∈ staged, t.locate st.temporary = .ok l) →
      (discardStaged t' staged).get? l = none) ∧
    ∀ l, (∀ st ∈ staged, t.locate st.temporary ≠ .ok l) →
      (discardStaged t' staged).get? l = t'.get? l := by
  induction staged generalizing t' with
  | nil => exact ⟨h, by simp, fun _ _ => rfl⟩
  | cons st rest ih =>
    obtain ⟨loc, hloc, hdir⟩ := hstaged st List.mem_cons_self
    obtain ⟨hremoved, hget⟩ := h.removeFile hloc hdir
    obtain ⟨halike, hnone, hsame⟩ := ih hremoved fun st' hst' =>
      hstaged st' (List.mem_cons_of_mem _ hst')
    refine ⟨halike, fun l hl => ?_, fun l hl => ?_⟩
    · -- A place named twice is emptied by the later removal, one named once by this one.
      by_cases hrest : ∃ st' ∈ rest, t.locate st'.temporary = .ok l
      · exact hnone l hrest
      · have hrest' : ∀ st' ∈ rest, t.locate st'.temporary ≠ .ok l :=
          fun st' hst' heq => hrest ⟨st', hst', heq⟩
        obtain ⟨st', hst', heq⟩ := hl
        rcases List.mem_cons.1 hst' with rfl | hst'
        · obtain rfl := Except.ok.inj (hloc.symm.trans heq)
          exact (hsame loc hrest').trans ((hget loc).trans (if_pos rfl))
        · exact absurd heq (hrest' st' hst')
    · have hne : l ≠ loc := fun heq => hl st List.mem_cons_self (heq ▸ hloc)
      exact (hsame l fun st' hst' => hl st' (List.mem_cons_of_mem _ hst')).trans
        ((hget l).trans (if_neg hne))

/-! ### Undoing renames -/

/-- Undoing a rename puts back what the target held. -/
theorem alike_undo {t t' : FileTree} (h : Alike t t') {p : Persisted} {loc : List String}
    (hloc : t.locate p.target = .ok loc) (hdir : t.get? loc ≠ some .directory) :
    Alike t (undo t' p) ∧
      ∀ l, (undo t' p).get? l = if l = loc then p.previous.map .file else t'.get? l := by
  unfold undo
  cases p.previous with
  | none => exact h.removeFile hloc hdir
  | some bytes =>
    obtain ⟨t'', hwrite, hwritten⟩ := h.write hloc hdir bytes
    simp only [hwrite]
    exact hwritten

/-- What renames need of a staged tree: temporary files have places, and no target is one. -/
structure Staging.Ready (s : Staging) : Prop where
  isTree : s.tree.IsTree
  temporary : ∀ st ∈ s.staged, ∃ loc, s.tree.locate st.temporary = .ok loc ∧
    s.tree.get? loc ≠ some .directory
  target : ∀ st ∈ s.staged, ∀ l, s.tree.locate st.target = .ok l → ¬ s.IsTemporary l

/-- What holds of a tree when `done` was renamed and `rest` was not yet. -/
structure Undoable (s : Staging) (t : FileTree) (done : List Persisted) (rest : List Staged) :
    Prop where
  alike : Alike s.tree t
  /-- Undoing what was done leads back to the staged tree, whatever the temporary files are. -/
  undone : ∀ t', Alike s.tree t' → (∀ l, ¬ s.IsTemporary l → t'.get? l = t.get? l) →
    Alike s.tree (done.foldl undo t') ∧
    (∀ l, ¬ s.IsTemporary l → (done.foldl undo t').get? l = s.tree.get? l) ∧
    ∀ l, s.IsTemporary l → (done.foldl undo t').get? l = t'.get? l
  rest_subset : rest ⊆ s.staged
  /-- The temporary files that are left are those of `rest`. -/
  left : ∀ l, s.IsTemporary l →
    t.get? l = none ∨ ∃ st ∈ rest, s.tree.locate st.temporary = .ok l

theorem Staging.Ready.undoable {s : Staging} (h : s.Ready) : Undoable s s.tree [] s.staged where
  alike := .refl h.isTree
  undone _ halike hsame := ⟨halike, hsame, fun _ _ => rfl⟩
  rest_subset := List.Subset.refl _
  left _ hl := .inr hl

/-- A rename can be undone. -/
theorem Undoable.rename {s : Staging} (hs : s.Ready) {t t' : FileTree} {done : List Persisted}
    {st : Staged} {rest : List Staged} (h : Undoable s t done (st :: rest))
    (hrename : t.rename st.temporary st.target = .ok t') :
    Undoable s t' (⟨st.target, (t.read st.target).toOption⟩ :: done) rest := by
  have hst : st ∈ s.staged := h.rest_subset List.mem_cons_self
  obtain ⟨start, loc, bytes, hstart, -, hloc, hdir, halike, hget⟩ := h.alike.rename hrename
  have hne {l : List String} (hl : s.IsTemporary l) : l ≠ loc :=
    fun heq => hs.target st hst loc hloc (heq ▸ hl)
  have hprevious : t.get? loc = (t.read st.target).toOption.map .file :=
    get?_eq_map_read (h.alike.locate_iff.2 hloc)
      fun hd => hdir ((h.alike.directory_iff loc).1 hd)
  constructor
  · exact halike
  · intro u halike' hsame
    -- undoing the newest rename first leaves a tree that the other undoings started from
    obtain ⟨hundone, hundo⟩ :=
      alike_undo halike' (p := ⟨st.target, (t.read st.target).toOption⟩) hloc hdir
    obtain ⟨hdone, hback, htemporary⟩ := h.undone _ hundone fun l hl => by
      rw [hundo]
      split
      · next heq => rw [heq, hprevious]
      · next hl' =>
        have hstart' : l ≠ start := fun heq => hl ⟨st, hst, heq ▸ hstart⟩
        rw [hsame l hl, hget, if_neg hstart', if_neg hl']
    refine ⟨hdone, hback, fun l hl => ?_⟩
    rw [List.foldl_cons, htemporary l hl, hundo, if_neg (hne hl)]
  · exact List.subset_of_cons_subset h.rest_subset
  · intro l hl
    rw [hget, if_neg (hne hl)]
    split
    · exact .inl rfl
    · next hstart' =>
      -- the temporary file that was moved is the only one that is gone
      rcases h.left l hl with hnone | ⟨st', hst', hl'⟩
      · exact .inl hnone
      · rcases List.mem_cons.1 hst' with rfl | hst'
        · exact absurd (Except.ok.inj (hl'.symm.trans hstart)) hstart'
        · exact .inr ⟨st', hst', hl'⟩

/-- Whether a tree is the staged tree without the temporary files. -/
structure Staging.Reverted (s : Staging) (t : FileTree) : Prop where
  isTree : t.IsTree
  temporary : ∀ l, s.IsTemporary l → t.get? l = none
  other : ∀ l, ¬ s.IsTemporary l → t.get? l = s.tree.get? l

theorem Undoable.reverted {s : Staging} (hs : s.Ready) {t : FileTree} {done : List Persisted}
    {rest : List Staged} (h : Undoable s t done rest) :
    s.Reverted (discardStaged (done.foldl undo t) rest) := by
  obtain ⟨halike, hback, htemporary⟩ := h.undone t h.alike fun _ _ => rfl
  obtain ⟨hdiscarded, hnone, hsame⟩ := alike_discardStaged halike fun st hst =>
    hs.temporary st (h.rest_subset hst)
  constructor
  · exact hdiscarded.isTree
  · intro l hl
    by_cases hrest : ∃ st ∈ rest, s.tree.locate st.temporary = .ok l
    · exact hnone l hrest
    · rw [hsame l fun st hst hl' => hrest ⟨st, hst, hl'⟩, htemporary l hl]
      exact (h.left l hl).resolve_right hrest
  · intro l hl
    rw [hsame l fun st hst hl' => hl ⟨st, h.rest_subset hst, hl'⟩]
    exact hback l hl

/-- When a rename fails, all renames before it are undone and no temporary file is left. -/
theorem reverted_persist {s : Staging} (hs : s.Ready) {t : FileTree} {done : List Persisted}
    {rest : List Staged} (h : Undoable s t done rest) {tree : FileTree} {fault : EmissionFault}
    (hfail : persist t done rest = (tree, .error fault)) : s.Reverted tree := by
  induction rest generalizing t done with
  | nil => cases hfail
  | cons st rest ih =>
    rw [persist] at hfail
    split at hfail
    · next t' hrename => exact ih (h.rename hs hrename) hfail
    · cases hfail
      exact h.reverted hs

theorem isTree_persist {s : Staging} (hs : s.Ready) {t : FileTree} {done : List Persisted}
    {rest : List Staged} (h : Undoable s t done rest) : (persist t done rest).1.IsTree := by
  induction rest generalizing t done with
  | nil => exact h.alike.isTree
  | cons st rest ih =>
    rw [persist]
    split
    · next t' hrename => exact ih (h.rename hs hrename)
    · exact (h.reverted hs).isTree

/-! ### A commit -/

/-- No target is where a temporary file is: its names are reserved. -/
theorem Sound.not_isTemporary {out : FilePath} {units : List BinderUnit} {before : FileTree}
    {s : Staging} (h : Sound out (targetNames out units) units before s) {u : BinderUnit}
    (hu : u ∈ units) {l : List String} (hl : s.tree.locate (out.join u.path) = .ok l) :
    ¬ s.IsTemporary l := by
  rintro ⟨st, hst, hl'⟩
  obtain ⟨loc, hloc, -, -, name, hname, hreserved⟩ := h.temporary st hst
  obtain rfl := Except.ok.inj (hl'.symm.trans hloc)
  rw [eq_of_locate hl] at hname
  refine hreserved (List.mem_flatMap.2 ⟨u, hu, List.mem_map.2 ⟨.normal name, ?_, rfl⟩⟩)
  exact mem_of_mem_locationOf hname

theorem Sound.ready {out : FilePath} {units : List BinderUnit} {before : FileTree} {s : Staging}
    (h : Sound out (targetNames out units) units before s) : s.Ready where
  isTree := h.grows.isTree
  temporary st hst := by
    obtain ⟨loc, hloc, ⟨bytes, hbytes⟩, -⟩ := h.temporary st hst
    exact ⟨loc, hloc, by simp [hbytes]⟩
  target st hst l hl := by
    obtain ⟨u, hu, htarget⟩ := h.target st hst
    exact h.not_isTemporary hu (htarget ▸ hl)

/-- A commit leaves a tree, whether or not it fails. -/
theorem isTree_commit {tree : FileTree} (ht : tree.IsTree) (units : List BinderUnit)
    (sink : DiskSink) : (commit units (sink, tree)).2.2.IsTree := by
  have hsound := sound_stageUnits ht sink.out units
  rw [commit]
  split
  · next s _ heq =>
    rw [heq] at hsound
    exact (hsound.ready.undoable.reverted hsound.ready).isTree
  · next s heq =>
    rw [heq, reached] at hsound
    have htree := isTree_persist hsound.ready hsound.ready.undoable
    split
    · next tree' _ hpersist =>
      rw [hpersist] at htree
      exact htree
    · next tree' _ hpersist =>
      rw [hpersist] at htree
      exact htree

/-- A commit that fails has reverted what was staged. -/
theorem exists_reverted_of_commit {units : List BinderUnit} {sink sink' : DiskSink}
    {tree tree' : FileTree} {fault : EmissionFault} (ht : tree.IsTree)
    (hfail : commit units (sink, tree) = (.error fault, sink', tree')) :
    ∃ s, Sound sink.out (targetNames sink.out units) units tree s ∧ s.Reverted tree' ∧
      sink'.written = [] := by
  have hsound := sound_stageUnits ht sink.out units
  rw [commit] at hfail
  split at hfail
  · -- The first pass failed, and what it had staged was discarded.
    next s _ heq =>
    cases hfail
    rw [heq] at hsound
    exact ⟨s, hsound, hsound.ready.undoable.reverted hsound.ready, rfl⟩
  · next s heq =>
    rw [heq] at hsound
    split at hfail
    · cases hfail
    · -- A rename failed, and the earlier ones were undone.
      next tree'' _ hpersist =>
      cases hfail
      exact ⟨s, hsound, reverted_persist hsound.ready hsound.ready.undoable hpersist, rfl⟩

/-- After a commit that fails, in whichever pass, exactly the files that were there before are
there, with the bytes that they held; the directories that were there are still there, and others
only above targets of units; and nothing counts as written. -/
theorem commit_undone {units : List BinderUnit} {sink sink' : DiskSink} {tree tree' : FileTree}
    {fault : EmissionFault} (ht : tree.IsTree)
    (hfail : commit units (sink, tree) = (.error fault, sink', tree')) :
    (∀ loc bytes, tree'.get? loc = some (.file bytes) ↔ tree.get? loc = some (.file bytes)) ∧
    (∀ loc, tree.get? loc = some .directory → tree'.get? loc = some .directory) ∧
    (∀ loc, tree'.get? loc = some .directory →
      tree.get? loc = some .directory ∨ AboveTarget sink.out units loc) ∧
    sink'.written = [] := by
  obtain ⟨s, hsound, hreverted, hwritten⟩ := exists_reverted_of_commit ht hfail
  -- what was there before is no temporary file
  have hkept {loc : List String} {e : Entry} (he : tree.get? loc = some e) :
      tree'.get? loc = some e := by
    rw [hreverted.other loc]
    · exact hsound.grows.kept loc e he
    · rintro ⟨st, hst, hloc⟩
      obtain ⟨loc', hloc', -, hnone, -⟩ := hsound.temporary st hst
      obtain rfl := Except.ok.inj (hloc.symm.trans hloc')
      rw [hnone] at he
      cases he
  -- what is there afterwards was there before or is a directory above a target
  have hnew {loc : List String} {e : Entry} (he : tree'.get? loc = some e) :
      tree.get? loc = some e ∨ DirectoryAt (AboveTarget sink.out units) loc e := by
    have htemporary : ¬ s.IsTemporary loc := by
      intro hl
      rw [hreverted.temporary loc hl] at he
      cases he
    rw [hreverted.other loc htemporary] at he
    cases hold : tree.get? loc with
    | some e' =>
      rw [hsound.grows.kept loc e' hold] at he
      exact .inl he
    | none =>
      rcases hsound.grows.added loc e he hold with habove | ⟨hl, -⟩
      · exact .inr habove
      · exact absurd hl htemporary
  refine ⟨fun loc bytes => ⟨fun he => ?_, hkept⟩, fun loc => hkept, fun loc he => ?_, hwritten⟩
  · rcases hnew he with he | ⟨hdir, -⟩
    · exact he
    · cases hdir
  · exact (hnew he).imp_right And.right

/-- Units for two files. -/
def twoUnits : List BinderUnit :=
  [⟨⟨.root, "A"⟩, "A", ⟨"a.rs"⟩, []⟩, ⟨⟨.root, "B"⟩, "B", ⟨"b.rs"⟩, []⟩]

/-- A tree in which a directory stands where the second of these files belongs; where the first one
belongs, there is a file that is no text. -/
def blockedTree : FileTree :=
  ((FileTree.empty.put ["out"] .directory).put ["out", "a.rs"] (.file ⟨#[0xff]⟩)).put
    ["out", "b.rs"] .directory

theorem isTree_blockedTree : blockedTree.IsTree := by
  have hout : (FileTree.empty.put ["out"] .directory).IsTree :=
    isTree_empty.put ⟨by rintro ⟨⟩, [], "out", rfl, rfl⟩ _
  have hfile : ((FileTree.empty.put ["out"] .directory).put ["out", "a.rs"]
      (.file ⟨#[0xff]⟩)).IsTree :=
    hout.put ⟨by rintro ⟨⟩, ["out"], "a.rs", rfl, rfl⟩ _
  exact hfile.put ⟨by rintro ⟨⟩, ["out"], "b.rs", rfl, rfl⟩ _

theorem commit_undone_blockedTree : ∃ sink tree,
    commit twoUnits (⟨⟨"out"⟩, [], []⟩, blockedTree) =
      (.error (.unwritable ⟨"out/b.rs"⟩ .isADirectory), sink, tree) ∧
    ∀ loc bytes, tree.get? loc = some (.file bytes) ↔
      blockedTree.get? loc = some (.file bytes) := by
  have hfail : (commit twoUnits (⟨⟨"out"⟩, [], []⟩, blockedTree)).1 =
      .error (.unwritable ⟨"out/b.rs"⟩ .isADirectory) := by
    decide +kernel
  rcases h : commit twoUnits (⟨⟨"out"⟩, [], []⟩, blockedTree) with ⟨outcome, sink, tree⟩
  rw [h] at hfail
  obtain rfl : outcome = _ := hfail
  exact ⟨sink, tree, rfl, (commit_undone isTree_blockedTree h).1⟩

end FieldBinder.DiskSink
