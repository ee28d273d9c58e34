import FieldBinder.Proofs.FileTree.FilePath
import FieldBinder.Proofs.FileTree.Locations

/-!
# Paths that descend by names

A path that descends by names has these names behind its components (`components_descend`), so where
it leads is the location of the first path with the names behind it (`eq_of_locate_descend`).  It is
written as the first path joined with the path of the names (`descend_eq_join`).
-/

namespace FieldBinder

namespace FilePath

/-- The path that leads through names from a directory. -/
def descend (p : FilePath) (names : List String) : FilePath :=
  names.foldl (fun p name => p.join ⟨name⟩) p

theorem ofSegments_eq_descend (names : List String) : ofSegments names = descend ⟨""⟩ names := rfl

/-- The last name of a descent is joined last. -/
theorem descend_concat (p : FilePath) (names : List String) (name : String) :
    p.descend (names ++ [name]) = (p.descend names).join ⟨name⟩ := by
  rw [descend, List.foldl_append]
  rfl

/-! ### Components -/

/-- A name is a path of one component. -/
theorem IsName.components {name : String} (h : IsName name) :
    (FilePath.mk name).components = [.normal name] := by
  have hne : name.toList ≠ ['.'] := by
    intro hdot
    have := h.2
    rw [hdot] at this
    cases this
  rw [components_eq, cutAtSlashes_of_not_mem h.1, leadOf_cons h.toList_ne_nil hne,
    List.filterMap_cons_some h.2]
  rfl

/-- To join a name adds one component. -/
theorem components_join_name (p : FilePath) {name : String} (h : IsName name) :
    (p.join ⟨name⟩).components = p.components ++ [.normal name] := by
  rw [components_join, h.components]
  · rw [h.components]
    simp
  · rw [h.components]
    simp

/-- A descent adds one component for each name. -/
theorem components_descend (p : FilePath) {names : List String} (h : ∀ name ∈ names, IsName name) :
    (p.descend names).components = p.components ++ names.map .normal := by
  induction names using List.reverseRecOn with
  | nil => exact (List.append_nil _).symm
  | append_singleton names name ih =>
    rw [List.forall_mem_append, List.forall_mem_singleton] at h
    rw [descend_concat, components_join_name _ h.2, ih h.1, List.map_append, List.map_singleton,
      List.append_assoc]

theorem components_ofSegments {names : List String} (h : ∀ name ∈ names, IsName name) :
    (ofSegments names).components = names.map .normal :=
  components_descend ⟨""⟩ h

/-- The extension of a path is that of its last name. -/
theorem extension?_descend (p : FilePath) {names : List String} {name : String}
    (h : ∀ n ∈ names ++ [name], IsName n) :
    (p.descend (names ++ [name])).extension? = (FilePath.mk name).extension? := by
  have hname : IsName name := h name (by simp)
  rw [extension?, extension?, fileName?, fileName?, components_descend p h, hname.components,
    List.map_append, List.map_singleton, ← List.append_assoc, List.getLast?_concat,
    List.getLast?_singleton]

/-! ### Texts -/

/-- What stands between a path and a relative one that is joined to it. -/
def separator (p : FilePath) : String :=
  match p.text.toList.getLast? with
  | none => ""
  | some c => if c = '/' then "" else "/"

/-- A relative path is joined by its text, behind a slash if there is none. -/
theorem join_of_relative (p : FilePath) {q : FilePath} (hq : q.isAbsolute = false) :
    p.join q = ⟨p.text ++ p.separator ++ q.text⟩ := by
  rw [join, if_neg (by simp [hq]), separator]
  cases hlast : p.text.toList.getLast? with
  | none =>
    have hp : p.text = "" := by
      rw [← String.toList_inj, List.getLast?_eq_none_iff.1 hlast, String.toList_empty]
    simp [hp]
  | some c =>
    simp only
    split
    · rw [String.append_empty]
    · rfl

/-- Whether a slash is needed behind a path depends on its end only. -/
theorem separator_append (s : String) {q : FilePath} (hq : q.text ≠ "") :
    separator ⟨s ++ q.text⟩ = q.separator := by
  have hne : q.text.toList ≠ [] := by
    rwa [← String.toList_empty, Ne, String.toList_inj]
  rw [separator, String.toList_append, List.getLast?_append_of_ne_nil _ hne, separator]

/-- Whether a path is absolute depends on its start only. -/
theorem isAbsolute_append {q : FilePath} (hq : q.text ≠ "") (s : String) :
    isAbsolute ⟨q.text ++ s⟩ = q.isAbsolute := by
  have hne : q.text.toList ≠ [] := by
    rwa [← String.toList_empty, Ne, String.toList_inj]
  rw [isAbsolute, String.toList_append, List.head?_append_of_ne_nil _ hne, isAbsolute]

/-- It does not matter which of two joins with relative paths comes first. -/
theorem join_join (p : FilePath) {q r : FilePath} (hq : q.isAbsolute = false) (hne : q.text ≠ "")
    (hr : r.isAbsolute = false) : (p.join q).join r = p.join (q.join r) := by
  have habs : isAbsolute ⟨q.text ++ q.separator ++ r.text⟩ = false := by
    rw [String.append_assoc, isAbsolute_append hne, hq]
  rw [join_of_relative p hq, join_of_relative _ hr, separator_append _ hne, join_of_relative q hr,
    join_of_relative p habs]
  simp only [String.append_assoc]

theorem isAbsolute_ofSegments {names : List String} (h : ∀ name ∈ names, IsName name) :
    (ofSegments names).isAbsolute = false := by
  apply isAbsolute_eq_false
  rw [components_ofSegments h]
  simp

theorem text_ofSegments_ne_empty {names : List String} (h : ∀ name ∈ names, IsName name)
    (hne : names ≠ []) : (ofSegments names).text ≠ "" := by
  intro htext
  have hempty : ofSegments names = ⟨""⟩ := congrArg FilePath.mk htext
  have hcomponents := components_ofSegments h
  rw [hempty] at hcomponents
  exact hne (List.map_eq_nil_iff.1 hcomponents.symm)

/-- To go down by names is to join the path that they make. -/
theorem descend_eq_join (p : FilePath) {names : List String} (h : ∀ name ∈ names, IsName name)
    (hne : names ≠ []) : p.descend names = p.join (ofSegments names) := by
  induction names using List.reverseRecOn with
  | nil => exact absurd rfl hne
  | append_singleton names name ih =>
    rw [List.forall_mem_append, List.forall_mem_singleton] at h
    have hrelative : (FilePath.mk name).isAbsolute = false :=
      isAbsolute_eq_false (by rw [h.2.components]; simp)
    rw [descend_concat, ofSegments_eq_descend, descend_concat, ← ofSegments_eq_descend]
    by_cases hnil : names = []
    · rw [hnil]
      have hempty : join ⟨""⟩ ⟨name⟩ = ⟨name⟩ := by
        rw [join_of_relative _ hrelative]
        simp [separator]
      exact congrArg p.join hempty.symm
    · rw [ih h.1 hnil, join_join p (isAbsolute_ofSegments h.1) (text_ofSegments_ne_empty h.1 hnil)
        hrelative]

end FilePath

/-! ### Locations -/

namespace FileTree

variable {t : FileTree} {path : FilePath} {loc loc' names : List String} {name : String}

/-- A descent from a directory leads to its location with the names behind it. -/
theorem eq_of_locate_descend (hpath : t.locate path = .ok loc)
    (hnames : ∀ name ∈ names, FilePath.IsName name)
    (h : t.locate (path.descend names) = .ok loc') : loc' = loc ++ names := by
  rw [eq_of_locate h, FilePath.components_descend path hnames, locationOf_append_map_normal,
    ← eq_of_locate hpath]

/-- One more name is one more step. -/
theorem locate_join (hpath : t.locate path = .ok loc) (hname : FilePath.IsName name) :
    t.locate (path.join ⟨name⟩) =
      (accept (path.join ⟨name⟩) >>= fun _ => t.step loc (.normal name)) := by
  rw [locate, FilePath.endsInSlash_join path hname, if_neg (by simp),
    FilePath.steps_join path hname, FilePath.components_join_name path hname, follow_concat,
    follow_components hpath]
  rfl

/-- A path that is not too long leads through directories with names that are not too long. -/
theorem IsTree.locate_descend (ht : t.IsTree) (hpath : t.locate path = .ok loc)
    (hnames : ∀ name ∈ names, FilePath.IsName name ∧ name.utf8ByteSize ≤ nameLimit)
    (haccept : accept (path.descend names) = .ok ()) {e : Entry}
    (he : t.get? (loc ++ names) = some e) : t.locate (path.descend names) = .ok (loc ++ names) := by
  have hfollow := ht.follow_append (follow_components hpath) (fun n hn => (hnames n hn).2) he
  rw [← FilePath.components_descend path fun n hn => (hnames n hn).1] at hfollow
  rcases List.eq_nil_or_concat names with rfl | ⟨outer, name, rfl⟩
  · rwa [List.append_nil]
  · -- a path that ends in a name is followed through its components
    rw [List.concat_eq_append] at hnames haccept hfollow ⊢
    have hname : FilePath.IsName name := (hnames name (by simp)).1
    rw [FilePath.descend_concat] at haccept hfollow ⊢
    refine locate_eq_ok_iff.2 ⟨haccept, ?_⟩
    rw [FilePath.endsInSlash_join _ hname, if_neg Bool.false_ne_true, FilePath.steps_join _ hname]
    exact hfollow

end FileTree

end FieldBinder
