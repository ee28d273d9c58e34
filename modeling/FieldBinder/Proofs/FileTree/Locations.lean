import FieldBinder.FileTree.Basic
import FieldBinder.Proofs.SortedMap
import Mathlib.Data.List.DropRight

/-!
# Trees and locations

A file tree is a tree when everything in it lies in a directory (`IsTree`); then nothing lies below
a location that is no directory (`IsTree.get?_append_eq_none`).  Since there are no links, the
location that a path leads to does not depend on the tree (`locationOf`, `eq_of_locate`), and a path
that leads somewhere still does when there are more directories (`locate_mono`).
-/

namespace FieldBinder.FileTree

variable {t t' : FileTree} {loc dir : List String} {name : String}

/-- A sequence of operations succeeds exactly when each of them does. -/
theorem bind_eq_ok_iff {α β : Type} {x : Except Fault α} {f : α → Except Fault β} {b : β} :
    (x >>= f) = .ok b ↔ ∃ a, x = .ok a ∧ f a = .ok b := by
  cases x with
  | error fault => simp [bind, Except.bind]
  | ok a => simp [bind, Except.bind]

/-! ### Entries -/

/-- Where no directory is, that is not the root. -/
theorem ne_nil_of_get?_ne (h : t.get? loc ≠ some .directory) : loc ≠ [] := by
  rintro rfl
  exact h rfl

theorem get?_of_ne_nil (h : loc ≠ []) (t : FileTree) : t.get? loc = t.entries.get? loc := by
  rw [get?, if_neg (by simpa using h)]

/-- To put an entry changes what is at its location only. -/
theorem get?_put (h : loc ≠ []) (t : FileTree) (e : Entry) (l : List String) :
    (t.put loc e).get? l = if l = loc then some e else t.get? l := by
  by_cases hl : l = []
  · rw [hl, if_neg (Ne.symm h)]
    rfl
  · rw [get?_of_ne_nil hl, get?_of_ne_nil hl, put, SortedMap.get?_insert]

/-- Whether everything lies in a directory. -/
def IsTree (t : FileTree) : Prop :=
  ∀ loc name e, t.get? (loc ++ [name]) = some e → t.get? loc = some .directory

/-- A tree is one if every location that holds something is in a directory. -/
theorem isTree_of_keys
    (h : ∀ l ∈ t.entries.keys, (t.get? l.dropLast).any Entry.isDirectory = true) : t.IsTree := by
  intro loc name e he
  have hkey : loc ++ [name] ∈ t.entries.keys := by
    rw [SortedMap.mem_keys_iff, ← get?_of_ne_nil (by simp), he]
    rfl
  have hdir := h _ hkey
  rw [List.dropLast_concat, Option.any_eq_true] at hdir
  obtain ⟨e', he', hdir⟩ := hdir
  cases e' with
  | directory => exact he'
  | file bytes => cases hdir

theorem isTree_empty : empty.IsTree := by
  intro loc name e h
  rw [get?_of_ne_nil (by simp)] at h
  cases h

/-- Nothing lies below what is no directory. -/
theorem IsTree.get?_append_eq_none (ht : t.IsTree) (h : t.get? loc ≠ some .directory)
    {rest : List String} (hrest : rest ≠ []) : t.get? (loc ++ rest) = none := by
  induction rest using List.reverseRecOn with
  | nil => exact absurd rfl hrest
  | append_singleton rest name ih =>
    rw [← List.append_assoc]
    cases he : t.get? (loc ++ rest ++ [name]) with
    | none => rfl
    | some e =>
      have hdir := ht _ _ _ he
      by_cases hnil : rest = []
      · rw [hnil, List.append_nil] at hdir
        exact absurd hdir h
      · rw [ih hnil] at hdir
        cases hdir

/-- To erase what is no directory changes what is at its location only. -/
theorem IsTree.get?_erase (ht : t.IsTree) (h : t.get? loc ≠ some .directory)
    (l : List String) : (t.erase loc).get? l = if l = loc then none else t.get? l := by
  by_cases hl : l = []
  · rw [hl, if_neg (Ne.symm (ne_nil_of_get?_ne h))]
    rfl
  rw [get?_of_ne_nil hl, erase, SortedMap.get?_filterKeys, ← get?_of_ne_nil hl]
  -- All keys behind the place are taken out, and below a file there are none.
  by_cases hpre : loc <+: l
  · obtain ⟨rest, rfl⟩ := hpre
    by_cases hrest : rest = []
    · have hself : loc.isPrefixOf loc = true := List.isPrefixOf_iff_prefix.2 List.prefix_rfl
      simp [hrest, hself]
    · simp [hrest, ht.get?_append_eq_none h hrest]
  · have hne : l ≠ loc := fun heq => hpre (heq ▸ List.prefix_rfl)
    have hfalse : loc.isPrefixOf l = false := by
      rw [← Bool.not_eq_true, List.isPrefixOf_iff_prefix]
      exact hpre
    simp [hne, hfalse]

/-! ### Places for files -/

/-- Whether a file can be at a location: it lies in a directory and is no directory. -/
structure IsPlace (t : FileTree) (loc : List String) : Prop where
  not_directory : t.get? loc ≠ some .directory
  in_directory : ∃ dir name, loc = dir ++ [name] ∧ t.get? dir = some .directory

theorem IsPlace.ne_nil (h : t.IsPlace loc) : loc ≠ [] := ne_nil_of_get?_ne h.not_directory

/-- Whatever a place holds, the tree remains one. -/
theorem IsTree.of_get? (ht : t.IsTree) (h : t.IsPlace loc) {o : Option Entry}
    (ht' : ∀ l, t'.get? l = if l = loc then o else t.get? l) : t'.IsTree := by
  intro l name e he
  obtain ⟨dir, last, hloc, hdir⟩ := h.in_directory
  rw [ht'] at he
  rw [ht']
  -- The changed place is no directory in the tree, so nothing stands below it.
  by_cases hl : l = loc
  · rw [hl, if_neg (by simp), ht.get?_append_eq_none h.not_directory (by simp)] at he
    cases he
  rw [if_neg hl]
  split at he
  · next heq =>
    rw [hloc] at heq
    rw [(List.append_inj' heq rfl).1]
    exact hdir
  · exact ht _ _ _ he

/-- A tree stays one when an entry is put in a directory. -/
theorem IsTree.put (ht : t.IsTree) (h : t.IsPlace loc) (e : Entry) : (t.put loc e).IsTree :=
  ht.of_get? h (get?_put h.ne_nil t e)

/-- A tree stays one when an entry without entries below it is erased. -/
theorem IsTree.erase (ht : t.IsTree) (h : t.IsPlace loc) : (t.erase loc).IsTree :=
  ht.of_get? h (ht.get?_erase h.not_directory)

/-! ### Where components lead -/

/-- The location that a component leads to from another one. -/
def advance (loc : List String) : Component → List String
  | .root => []
  | .current => loc
  | .parent => loc.dropLast
  | .normal name => loc ++ [name]

/-- The location that components lead to from the root, in every tree in which they lead
anywhere. -/
def locationOf (cs : List Component) : List String := cs.foldl advance []

theorem locationOf_concat (cs : List Component) (c : Component) :
    locationOf (cs ++ [c]) = advance (locationOf cs) c := by
  simp [locationOf]

/-- Names lead further down by one each. -/
theorem locationOf_append_map_normal (cs : List Component) (names : List String) :
    locationOf (cs ++ names.map .normal) = locationOf cs ++ names := by
  induction names using List.reverseRecOn with
  | nil => simp
  | append_singleton names name ih =>
    rw [List.map_append, List.map_singleton, ← List.append_assoc, locationOf_concat, ih, advance,
      List.append_assoc]

/-- The names in a location are components. -/
theorem mem_of_mem_locationOf {cs : List Component} (h : name ∈ locationOf cs) :
    .normal name ∈ cs := by
  induction cs using List.reverseRecOn with
  | nil => cases h
  | append_singleton cs c ih =>
    rw [locationOf_concat] at h
    rw [List.mem_append]
    cases c with
    | root => cases h
    | current => exact .inl (ih h)
    | parent => exact .inl (ih (List.dropLast_subset _ h))
    | normal last =>
      rw [advance, List.mem_append, List.mem_singleton] at h
      rcases h with h | rfl
      · exact .inl (ih h)
      · exact .inr (List.mem_singleton_self _)

/-- The steps of a path lead to the location of the path. -/
theorem locationOf_steps (p : FilePath) : locationOf p.steps = locationOf p.components := by
  unfold FilePath.steps
  split
  · exact locationOf_concat _ _
  · rfl

/-- A step leads from a directory to where the component leads. -/
theorem step_eq_ok {c : Component} {loc' : List String} (h : t.step loc c = .ok loc') :
    t.get? loc = some .directory ∧ loc' = advance loc c := by
  rw [step.eq_def] at h
  split at h
  · cases h
  · cases h
  · next hdir =>
    refine ⟨hdir, ?_⟩
    split at h
    · cases h; rfl
    · cases h; rfl
    · cases h; rfl
    · split at h <;> cases h
      rfl

/-- A step from a directory leads to the same location in other trees where that is one. -/
theorem step_mono {c : Component} (hdir : t'.get? loc = some .directory) {loc' : List String}
    (h : t.step loc c = .ok loc') : t'.step loc c = .ok loc' := by
  rw [← h, step.eq_def, hdir, step.eq_def t, (step_eq_ok h).1]

/-- A path is followed step by step. -/
theorem follow_concat (t : FileTree) (cs : List Component) (c : Component) :
    t.follow (cs ++ [c]) = (t.follow cs >>= fun loc => t.step loc c) := by
  rw [follow, List.foldlM_append, ← follow]
  simp

/-- Following more components, one more step is made from where the others lead. -/
theorem follow_concat_eq_ok_iff {cs : List Component} {c : Component} :
    t.follow (cs ++ [c]) = .ok loc ↔ ∃ dir, t.follow cs = .ok dir ∧ t.step dir c = .ok loc := by
  rw [follow_concat, bind_eq_ok_iff]

/-- Where a path leads is told by its components. -/
theorem eq_of_follow {cs : List Component} (h : t.follow cs = .ok loc) : loc = locationOf cs := by
  induction cs using List.reverseRecOn generalizing loc with
  | nil => cases h; rfl
  | append_singleton cs c ih =>
    obtain ⟨dir, hdir, hstep⟩ := follow_concat_eq_ok_iff.1 h
    rw [locationOf_concat, ← ih hdir]
    exact (step_eq_ok hstep).2

/-- Who follows a path comes through its first part. -/
theorem follow_of_append {cs ds : List Component} (h : t.follow (cs ++ ds) = .ok loc) :
    t.follow cs = .ok (locationOf cs) := by
  rw [follow, List.foldlM_append, bind_eq_ok_iff] at h
  obtain ⟨dir, hdir, -⟩ := h
  rw [← eq_of_follow hdir]
  exact hdir

/-- What lies at a location can be reached by names from each directory above it. -/
theorem IsTree.follow_append (ht : t.IsTree) {cs : List Component} (h : t.follow cs = .ok loc)
    {names : List String} (hsize : ∀ name ∈ names, name.utf8ByteSize ≤ nameLimit) {e : Entry}
    (he : t.get? (loc ++ names) = some e) :
    t.follow (cs ++ names.map .normal) = .ok (loc ++ names) := by
  induction names using List.reverseRecOn generalizing e with
  | nil => simpa using h
  | append_singleton names name ih =>
    rw [List.forall_mem_append, List.forall_mem_singleton] at hsize
    rw [← List.append_assoc] at he
    have hdir := ht _ _ _ he
    rw [List.map_append, List.map_singleton, ← List.append_assoc, ← List.append_assoc]
    refine follow_concat_eq_ok_iff.2 ⟨_, ih hsize.1 hdir, ?_⟩
    simp only [step, hdir, if_pos hsize.2]

/-- Where all directories are kept, paths lead to what they led to. -/
theorem follow_mono (hdirs : ∀ l, t.get? l = some .directory → t'.get? l = some .directory)
    {cs : List Component} (h : t.follow cs = .ok loc) : t'.follow cs = .ok loc := by
  induction cs using List.reverseRecOn generalizing loc with
  | nil => exact h
  | append_singleton cs c ih =>
    obtain ⟨dir, hdir, hstep⟩ := follow_concat_eq_ok_iff.1 h
    have hdir' := hdirs dir (step_eq_ok hstep).1
    exact follow_concat_eq_ok_iff.2 ⟨dir, ih hdir, step_mono hdir' hstep⟩

/-- Names that lead somewhere are not too long. -/
theorem size_le_of_follow {cs : List Component} (h : t.follow cs = .ok loc)
    (hname : .normal name ∈ cs) : name.utf8ByteSize ≤ nameLimit := by
  induction cs using List.reverseRecOn generalizing loc with
  | nil => cases hname
  | append_singleton cs c ih =>
    obtain ⟨dir, hdir, hstep⟩ := follow_concat_eq_ok_iff.1 h
    rcases List.mem_append.1 hname with hname | hname
    · exact ih hdir hname
    · obtain rfl := List.mem_singleton.1 hname
      simp only [step, (step_eq_ok hstep).1] at hstep
      split at hstep
      · assumption
      · cases hstep

/-- Components lead to directories and to what lies in one. -/
theorem IsTree.isPlace_of_follow (ht : t.IsTree) {cs : List Component}
    (h : t.follow cs = .ok loc) (hloc : t.get? loc ≠ some .directory) : t.IsPlace loc := by
  refine ⟨hloc, ?_⟩
  rcases List.eq_nil_or_concat cs with rfl | ⟨cs, c, rfl⟩
  · cases h
    exact absurd rfl hloc
  rw [List.concat_eq_append] at h
  obtain ⟨dir, -, hstep⟩ := follow_concat_eq_ok_iff.1 h
  obtain ⟨hdir, rfl⟩ := step_eq_ok hstep
  cases c with
  | root => exact absurd rfl hloc
  | current => exact absurd hdir hloc
  -- A step upwards comes to a directory, which the location is not.
  | parent =>
    rcases List.eq_nil_or_concat dir with rfl | ⟨outer, name, rfl⟩
    · exact absurd rfl hloc
    · rw [List.concat_eq_append] at hdir hloc
      rw [advance, List.dropLast_concat] at hloc
      exact absurd (ht _ _ _ hdir) hloc
  | normal name => exact ⟨dir, name, rfl, hdir⟩

/-! ### Where paths lead -/

/-- A path leads somewhere if it is accepted and its steps can be followed, through the last one if
it ends in a slash. -/
theorem locate_eq_ok_iff {p : FilePath} : t.locate p = .ok loc ↔
    accept p = .ok () ∧
      t.follow (if p.endsInSlash then p.steps ++ [.current] else p.steps) = .ok loc := by
  rw [locate, bind_eq_ok_iff]
  constructor
  · rintro ⟨⟨⟩, haccept, hfollow⟩
    exact ⟨haccept, hfollow⟩
  · rintro ⟨haccept, hfollow⟩
    exact ⟨(), haccept, hfollow⟩

/-- Who locates a path can follow its components. -/
theorem follow_components {p : FilePath} (h : t.locate p = .ok loc) :
    t.follow p.components = .ok loc := by
  -- staying in a directory leads nowhere else
  have hstay {cs : List Component} (h : t.follow (cs ++ [.current]) = .ok loc) :
      t.follow cs = .ok loc := by
    obtain ⟨dir, hdir, hstep⟩ := follow_concat_eq_ok_iff.1 h
    obtain ⟨-, rfl⟩ := step_eq_ok hstep
    exact hdir
  have hsteps : t.follow p.steps = .ok loc := by
    have hfollow := (locate_eq_ok_iff.1 h).2
    split at hfollow
    · exact hstay hfollow
    · exact hfollow
  unfold FilePath.steps at hsteps
  split at hsteps
  · exact hstay hsteps
  · exact hsteps

/-- A path leads to the location of its components. -/
theorem eq_of_locate {p : FilePath} (h : t.locate p = .ok loc) :
    loc = locationOf p.components :=
  eq_of_follow (follow_components h)

/-- A path with a slash at its end leads to directories only. -/
theorem get?_of_endsInSlash {p : FilePath} (hslash : p.endsInSlash = true)
    (h : t.locate p = .ok loc) : t.get? loc = some .directory := by
  have hfollow := (locate_eq_ok_iff.1 h).2
  rw [if_pos hslash] at hfollow
  obtain ⟨dir, -, hstep⟩ := follow_concat_eq_ok_iff.1 hfollow
  obtain ⟨hdir, rfl⟩ := step_eq_ok hstep
  exact hdir

theorem locate_mono (hdirs : ∀ l, t.get? l = some .directory → t'.get? l = some .directory)
    {p : FilePath} (h : t.locate p = .ok loc) : t'.locate p = .ok loc :=
  locate_eq_ok_iff.2 ((locate_eq_ok_iff.1 h).imp_right (follow_mono hdirs))

/-- A path leads to a place in a directory, unless it leads to a directory. -/
theorem IsTree.isPlace_of_locate (ht : t.IsTree) {p : FilePath} (h : t.locate p = .ok loc)
    (hloc : t.get? loc ≠ some .directory) : t.IsPlace loc :=
  ht.isPlace_of_follow (locate_eq_ok_iff.1 h).2 hloc

end FieldBinder.FileTree
