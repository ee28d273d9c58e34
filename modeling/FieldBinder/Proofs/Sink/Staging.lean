import FieldBinder.Proofs.FileTree.FilePath
import FieldBinder.Proofs.FileTree.Operations
import FieldBinder.Sink.Disk
import Mathlib.Data.List.Nodup
import Mathlib.Data.List.Perm.Subperm

/-!
# The first pass of a commit

The name of a temporary file is not in use (`temporaryName_not_mem`).  While units are staged, the
tree keeps all that it had, and gets nothing but directories on the way to the targets and the
temporary files (`Sound`, `sound_stageUnits`).
-/

namespace FieldBinder.DiskSink

open FileTree

/-! ### Temporary names -/

/-- Numbers are told apart by their digits, so names for different numbers differ. -/
theorem nodup_names (n : Nat) : ((List.range n).map fun k => ".tmp" ++ toString k).Nodup := by
  refine List.nodup_range.map fun j k h => ?_
  rw [← String.toList_inj, String.toList_append, String.toList_append,
    List.append_cancel_left_eq] at h
  have hdigits : Nat.toDigits 10 j = Nat.toDigits 10 k := Nat.toList_repr.symm.trans
    (h.trans Nat.toList_repr)
  rw [← @Nat.ofDigitChars_ten_toDigits j, hdigits, Nat.ofDigitChars_ten_toDigits]

/-- One name more than there are in use cannot all be in use. -/
theorem exists_temporaryName_eq (inUse : List String) :
    ∃ k : Nat, temporaryName inUse = ".tmp" ++ toString k ∧ temporaryName inUse ∉ inUse := by
  rw [temporaryName]
  cases hfind : ((List.range (inUse.length + 1)).map fun k => ".tmp" ++ toString k).find?
      fun name => !inUse.contains name with
  | none =>
    have hsubset : (List.range (inUse.length + 1)).map (fun k => ".tmp" ++ toString k) ⊆ inUse := by
      intro name hname
      simpa using List.find?_eq_none.1 hfind name hname
    have := ((nodup_names _).subperm hsubset).length_le
    rw [List.length_map, List.length_range] at this
    omega
  | some name =>
    obtain ⟨k, -, rfl⟩ := List.mem_map.1 (List.mem_of_find?_eq_some hfind)
    exact ⟨k, rfl, by simpa using List.find?_some hfind⟩

theorem temporaryName_not_mem (inUse : List String) : temporaryName inUse ∉ inUse := by
  obtain ⟨k, -, h⟩ := exists_temporaryName_eq inUse
  exact h

theorem isName_temporaryName (inUse : List String) : FilePath.IsName (temporaryName inUse) := by
  obtain ⟨k, hk, -⟩ := exists_temporaryName_eq inUse
  have hlist : (temporaryName inUse).toList = ['.', 't', 'm', 'p'] ++ Nat.toDigits 10 k := by
    rw [hk, String.toList_append]
    exact congrArg _ Nat.toList_repr
  constructor
  · rw [hlist, List.mem_append, not_or]
    refine ⟨by decide, fun h => ?_⟩
    have := Nat.isDigit_of_mem_toDigits (by decide) (by decide) h
    revert this
    decide
  · rw [FilePath.componentOf?, hlist, if_neg (by simp), if_neg (by simp), ← hlist,
      String.ofList_toList]

/-! ### What staging adds -/

/-- Whether a location is that of a directory above the target of a unit. -/
def AboveTarget (out : FilePath) (units : List BinderUnit) (loc : List String) : Prop :=
  ∃ u ∈ units, ∃ k < (out.join u.path).components.length,
    loc = locationOf ((out.join u.path).components.take k)

/-- Whether a temporary file is at a location. -/
def Staging.IsTemporary (s : Staging) (loc : List String) : Prop :=
  ∃ st ∈ s.staged, s.tree.locate st.temporary = .ok loc

/-- What a tree gets while units are staged. -/
def Staging.IsNew (out : FilePath) (units : List BinderUnit) (s : Staging) (loc : List String)
    (e : Entry) : Prop :=
  DirectoryAt (AboveTarget out units) loc e ∨ s.IsTemporary loc ∧ e ≠ .directory

/-- What holds of a tree while units are staged; `before` is the tree before that. -/
structure Sound (out : FilePath) (reserved : List String) (units : List BinderUnit)
    (before : FileTree) (s : Staging) : Prop where
  grows : Extends (s.IsNew out units) before s.tree
  /-- Temporary files are where nothing was, and where no target is. -/
  temporary : ∀ st ∈ s.staged, ∃ loc, s.tree.locate st.temporary = .ok loc ∧
    (∃ bytes, s.tree.get? loc = some (.file bytes)) ∧ before.get? loc = none ∧
    ∃ name ∈ loc, name ∉ reserved
  target : ∀ st ∈ s.staged, ∃ u ∈ units, st.target = out.join u.path

variable {out : FilePath} {reserved : List String} {units : List BinderUnit} {before : FileTree}
  {s : Staging}

theorem sound_start (ht : before.IsTree) : Sound out reserved units before { tree := before } where
  grows := .refl ht
  temporary := by simp
  target := by simp

/-- Directories above targets can be added. -/
theorem Sound.directories (h : Sound out reserved units before s) {tree : FileTree}
    (hext : Extends (DirectoryAt (AboveTarget out units)) s.tree tree) :
    Sound out reserved units before { s with tree } where
  grows := by
    refine (h.grows.mono ?_).trans (hext.mono fun loc e _ he => .inl he)
    rintro loc e - (he | ⟨⟨st, hst, hloc⟩, he⟩)
    · exact .inl he
    · exact .inr ⟨⟨st, hst, hext.locate hloc⟩, he⟩
  temporary st hst := by
    obtain ⟨loc, hloc, ⟨bytes, hbytes⟩, hnew⟩ := h.temporary st hst
    exact ⟨loc, hext.locate hloc, ⟨bytes, hext.kept _ _ hbytes⟩, hnew⟩
  target := h.target

/-- A temporary file can be added where nothing is. -/
theorem Sound.stage (h : Sound out reserved units before s) (st : Staged) {loc : List String}
    (hloc : s.tree.locate st.temporary = .ok loc) (hnone : s.tree.get? loc = none)
    (hname : ∃ name ∈ loc, name ∉ reserved) (htarget : ∃ u ∈ units, st.target = out.join u.path)
    (bytes : ByteArray) :
    Sound out reserved units before
      { s with tree := s.tree.put loc (.file bytes), staged := s.staged ++ [st] } := by
  -- what is new in the tree is this one file, at a place that was free
  have hplace : s.tree.IsPlace loc :=
    h.grows.isTree.isPlace_of_locate hloc (by rw [hnone]; simp)
  have hput : Extends (fun l e => l = loc ∧ e = .file bytes) s.tree
      (s.tree.put loc (.file bytes)) :=
    .put h.grows.isTree hplace hnone ⟨rfl, rfl⟩
  constructor
  · refine (h.grows.mono ?_).trans (hput.mono ?_)
    · rintro l e - (he | ⟨⟨st', hst', hl⟩, he⟩)
      · exact .inl he
      · exact .inr ⟨⟨st', List.mem_append_left _ hst', hput.locate hl⟩, he⟩
    · rintro l e - ⟨rfl, rfl⟩
      exact .inr ⟨⟨st, List.mem_append_right _ (List.mem_singleton_self _), hput.locate hloc⟩,
        by simp⟩
  · intro st' hst'
    rcases List.mem_append.1 hst' with hst' | hst'
    · obtain ⟨l, hl, ⟨bytes', hbytes'⟩, hnew⟩ := h.temporary st' hst'
      exact ⟨l, hput.locate hl, ⟨bytes', hput.kept _ _ hbytes'⟩, hnew⟩
    · obtain rfl := List.mem_singleton.1 hst'
      refine ⟨loc, hput.locate hloc, ⟨bytes, ?_⟩, ?_, hname⟩
      · rw [get?_put hplace.ne_nil, if_pos rfl]
      · cases hbefore : before.get? loc with
        | none => rfl
        | some e =>
          rw [h.grows.kept _ _ hbefore] at hnone
          cases hnone
  · intro st' hst'
    rcases List.mem_append.1 hst' with hst' | hst'
    · exact h.target st' hst'
    · obtain rfl := List.mem_singleton.1 hst'
      exact htarget

/-! ### Staging units -/

/-- The directories that are made for a unit are above its target. -/
theorem extends_makeDirectories_parent (out : FilePath) {t : FileTree} (ht : t.IsTree)
    {u : BinderUnit} (hu : u ∈ units) : Extends (DirectoryAt (AboveTarget out units)) t
      (t.makeDirectories ((out.join u.path).parent?.getD ⟨"."⟩)).1 := by
  refine (extends_makeDirectories ht _).mono ?_
  rintro loc e hnone ⟨he, k, hk, rfl⟩
  refine ⟨he, u, hu, ?_⟩
  cases hparent : (out.join u.path).parent? with
  | none =>
    -- the directory `.` is there already
    rw [hparent] at hnone
    have hroot : ∀ k, locationOf ((FilePath.mk ".").components.take k) = [] := by
      intro k
      rcases k with _ | k
      · rfl
      · have : (FilePath.mk ".").components = [.current] := by decide
        simp [this, locationOf, advance]
    rw [Option.getD_none, hroot] at hnone
    cases hnone
  | some dir =>
    obtain ⟨hne, hcomponents⟩ := FilePath.components_of_parent? hparent
    rw [hparent, Option.getD_some, hcomponents, List.length_dropLast] at hk
    have hpos := List.length_pos_of_ne_nil hne
    refine ⟨k, by omega, ?_⟩
    rw [Option.getD_some, hcomponents, List.dropLast_eq_take, List.take_take, min_eq_left hk]

/-- A temporary file is in a directory, under a name that is not in use. -/
theorem get?_eq_none_of_locate_temporary {t : FileTree} {dir : FilePath} {loc : List String}
    (h : t.locate (dir.join ⟨temporaryName (t.entries.keys.flatten ++ reserved)⟩) = .ok loc) :
    t.get? loc = none ∧ ∃ name ∈ loc, name ∉ reserved := by
  have hname := isName_temporaryName (t.entries.keys.flatten ++ reserved)
  have hunused := temporaryName_not_mem (t.entries.keys.flatten ++ reserved)
  generalize temporaryName (t.entries.keys.flatten ++ reserved) = name at h hname hunused
  rw [List.mem_append, not_or] at hunused
  obtain ⟨steps, hsteps⟩ := FilePath.exists_steps_join dir hname
  have hfollow := (locate_eq_ok_iff.1 h).2
  rw [FilePath.endsInSlash_join dir hname, hsteps] at hfollow
  obtain ⟨outer, -, hstep⟩ := follow_concat_eq_ok_iff.1 hfollow
  obtain ⟨-, rfl⟩ := step_eq_ok hstep
  -- The location ends in the name, and a location of the tree has only names that are in use.
  have hmem : name ∈ advance outer (.normal name) :=
    List.mem_append_right _ (List.mem_singleton_self _)
  refine ⟨?_, name, hmem, hunused.2⟩
  have hne : advance outer (.normal name) ≠ [] := by simp [advance]
  rw [get?_of_ne_nil hne, ← Option.not_isSome_iff_eq_none, ← SortedMap.mem_keys_iff]
  exact fun hkeys => hunused.1 (List.mem_flatten.2 ⟨_, hkeys, hmem⟩)

/-- What was staged, whether or not a unit failed. -/
def reached : Except (Staging × EmissionFault) Staging → Staging
  | .ok s => s
  | .error (s, _) => s

theorem sound_stageUnit (h : Sound out reserved units before s) {u : BinderUnit} (hu : u ∈ units) :
    Sound out reserved units before (reached (stageUnit out reserved s u)) := by
  simp only [stageUnit]
  split
  · exact ⟨h.grows, h.temporary, h.target⟩
  have hext := extends_makeDirectories_parent out h.grows.isTree hu
  split
  · next tree fault heq =>
    rw [heq] at hext
    exact h.directories hext
  · next tree heq =>
    rw [heq] at hext
    have hmade := h.directories hext
    split
    · exact hmade
    · -- The temporary file is new: its name was in no location of the tree.
      next tree' hwrite =>
      obtain ⟨loc, hloc, -, rfl⟩ := write_eq_ok_iff.1 hwrite
      obtain ⟨hnone, hname⟩ := get?_eq_none_of_locate_temporary hloc
      exact hmade.stage ⟨_, out.join u.path⟩ hloc hnone hname ⟨u, hu, rfl⟩ _

theorem sound_foldlM_stageUnit (h : Sound out reserved units before s) {l : List BinderUnit}
    (hl : l ⊆ units) :
    Sound out reserved units before (reached (l.foldlM (stageUnit out reserved) s)) := by
  induction l generalizing s with
  | nil => exact h
  | cons u r ih =>
    have hunit := sound_stageUnit h (hl List.mem_cons_self)
    rw [List.foldlM_cons]
    cases heq : stageUnit out reserved s u with
    | error failed =>
      rw [heq] at hunit
      exact hunit
    | ok s' =>
      rw [heq] at hunit
      exact ih hunit (List.subset_of_cons_subset hl)

theorem sound_stageUnits (ht : before.IsTree) (out : FilePath) (units : List BinderUnit) :
    Sound out (targetNames out units) units before (reached (stageUnits out units before)) :=
  sound_foldlM_stageUnit (sound_start ht) (List.Subset.refl _)

end FieldBinder.DiskSink
