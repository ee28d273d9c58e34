import FieldBinder.Proofs.FileTree.Locations

/-!
# What lies below a location

The entries below a location, each with the names that lead to it from there (`below`), and the
files among them as a map (`filesBelow`).
-/

namespace FieldBinder.FileTree

variable {t t' : FileTree} {loc : List String}

/-- What lies below a location: the names that lead to it from there, and the entry. -/
def below (t : FileTree) (loc : List String) : List (List String × Entry) :=
  t.entries.toList.filterMap fun e =>
    if loc <+: e.1 ∧ loc ≠ e.1 then some (e.1.drop loc.length, e.2) else none

/-- Below a location is what has names behind it. -/
theorem mem_below {names : List String} {e : Entry} :
    (names, e) ∈ t.below loc ↔ names ≠ [] ∧ t.get? (loc ++ names) = some e := by
  have hget (l : List String) : (l, e) ∈ t.entries.toList ↔ t.entries.get? l = some e :=
    t.entries.mem_entries_iff l e
  rw [below, List.mem_filterMap]
  constructor
  · rintro ⟨⟨l, e'⟩, hmem, h⟩
    split at h
    · next hpre =>
      obtain ⟨⟨names', rfl⟩, hne⟩ := hpre
      rw [List.drop_left, Option.some.injEq, Prod.mk.injEq] at h
      obtain ⟨rfl, rfl⟩ := h
      have hnames : names' ≠ [] := by
        rintro rfl
        exact hne (List.append_nil loc).symm
      exact ⟨hnames, by rw [get?_of_ne_nil (by simp [hnames]), ← hget]; exact hmem⟩
    · cases h
  · rintro ⟨hnames, h⟩
    rw [get?_of_ne_nil (by simp [hnames]), ← hget] at h
    exact ⟨_, h, by simp [hnames]⟩

/-! ### Files -/

/-- The bytes of the file at a location, and none where no file is. -/
def bytesAt (t : FileTree) (loc : List String) : ByteArray :=
  match t.get? loc with
  | some (.file bytes) => bytes
  | _ => .empty

/-- The bytes of a file are those at its location. -/
theorem bytesAt_of_get? {bytes : ByteArray} (h : t.get? loc = some (.file bytes)) :
    t.bytesAt loc = bytes := by
  rw [bytesAt, h]

/-- The files below a location, by the components that lead to them from there. -/
def filesBelow (t : FileTree) (loc : List String) : SortedMap (List Component) ByteArray :=
  .ofList ((t.below loc).filterMap fun
    | (names, .file bytes) => some (names.map .normal, bytes)
    | (_, .directory) => none)

/-- Names are the texts of their components. -/
theorem map_text_map_normal (names : List String) :
    (names.map Component.normal).map Component.text = names := by
  rw [List.map_map]
  exact List.map_id names

/-- The files below a location, by the names that lead to them from there. -/
theorem get?_filesBelow {key : List Component} {bytes : ByteArray} :
    (t.filesBelow loc).get? key = some bytes ↔
      ∃ names, names ≠ [] ∧ key = names.map .normal ∧
        t.get? (loc ++ names) = some (.file bytes) := by
  have hmem (key : List Component) (bytes : ByteArray) :
      (key, bytes) ∈ (t.below loc).filterMap (fun
        | (names, .file bytes) => some (names.map .normal, bytes)
        | (_, .directory) => none) ↔
      ∃ names, names ≠ [] ∧ key = names.map .normal ∧
        t.get? (loc ++ names) = some (.file bytes) := by
    rw [List.mem_filterMap]
    constructor
    · rintro ⟨⟨names, e⟩, hbelow, h⟩
      cases e with
      | directory => cases h
      | file bytes' =>
        cases h
        obtain ⟨hne, hget⟩ := mem_below.1 hbelow
        exact ⟨names, hne, rfl, hget⟩
    · rintro ⟨names, hne, rfl, hget⟩
      exact ⟨(names, .file bytes), mem_below.2 ⟨hne, hget⟩, rfl⟩
  constructor
  · intro h
    exact (hmem key bytes).1 (SortedMap.mem_of_get?_ofList h)
  · intro h
    -- the bytes of a file are a function of the names that lead to it
    have hheld {key : List Component} {bytes : ByteArray} (h : ∃ names, names ≠ [] ∧
        key = names.map .normal ∧ t.get? (loc ++ names) = some (.file bytes)) :
        bytes = t.bytesAt (loc ++ key.map Component.text) := by
      obtain ⟨names, -, rfl, hget⟩ := h
      rw [map_text_map_normal, bytesAt_of_get? hget]
    have hget := SortedMap.get?_ofList (g := fun key => t.bytesAt (loc ++ key.map Component.text)) _
      (fun e he => hheld ((hmem e.1 e.2).1 he)) key
    rw [filesBelow, hget, if_pos (List.mem_map_of_mem ((hmem key bytes).2 h)), hheld h]

/-- Trees with the same files have the same files below a location. -/
theorem filesBelow_congr (h : ∀ loc bytes, t'.get? loc = some (.file bytes) ↔
    t.get? loc = some (.file bytes)) : t'.filesBelow loc = t.filesBelow loc := by
  refine SortedMap.ext_get? fun key => Option.ext fun bytes => ?_
  rw [get?_filesBelow, get?_filesBelow]
  simp only [h]

/-- Where nothing is, no files are. -/
theorem filesBelow_eq_empty (h : ∀ names, names ≠ [] → t.get? (loc ++ names) = none) :
    t.filesBelow loc = .empty := by
  refine SortedMap.ext_get? fun key => Option.ext fun bytes => ?_
  rw [get?_filesBelow]
  constructor
  · rintro ⟨names, hne, -, hget⟩
    rw [h names hne] at hget
    cases hget
  · intro hempty
    cases hempty

end FieldBinder.FileTree
