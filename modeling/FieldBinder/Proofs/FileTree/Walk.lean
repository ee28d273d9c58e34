import FieldBinder.Proofs.FileTree.Below
import Mathlib.Data.List.Nodup
import Mathlib.Data.List.Perm.Subperm

/-!
# Walking a tree

The files of an extension below a location, found directory by directory (`walk`): they are all the
files that are there (`mem_walk`), in ascending order of the names that lead to them
(`pairwise_walk`).  No location is longer than the number of entries (`IsTree.length_le_size`), so a
walk that deep misses nothing.
-/

namespace FieldBinder

/-! ### The order of names -/

theorem compare_cons_cons {α : Type u} [Ord α] (a b : α) (l l' : List α) :
    compare (a :: l) (b :: l') = (compare a b).then (compare l l') :=
  List.compareLex_cons_cons

/-- What two lists begin with in common does not matter for their order. -/
theorem compare_append_left {α : Type u} [Ord α] [Std.ReflOrd α] (first l l' : List α) :
    compare (first ++ l) (first ++ l') = compare l l' := by
  induction first with
  | nil => rfl
  | cons a r ih => rw [List.cons_append, List.cons_append, compare_cons_cons, ih,
      Std.ReflOrd.compare_self, Ordering.eq_then]

/-- Components of names are ordered as the names are. -/
theorem compare_map_normal (names names' : List String) :
    compare (names.map Component.normal) (names'.map Component.normal) = compare names names' := by
  induction names generalizing names' with
  | nil => cases names' <;> rfl
  | cons name r ih =>
    cases names' with
    | nil => rfl
    | cons name' r' =>
      have hname : compare (Component.normal name) (.normal name') = compare name name' := rfl
      rw [List.map_cons, List.map_cons, compare_cons_cons, compare_cons_cons, ih, hname]

namespace FileTree

variable {t : FileTree} {loc : List String}

/-! ### Names in a directory -/

/-- A location is that of a name in a directory if it has the name behind the directory. -/
theorem nameIn_eq_some_iff {l : List String} {name : String} :
    (match l.getLast? with
      | some last => if l.dropLast = loc then some last else none
      | none => none) = some name ↔ l = loc ++ [name] := by
  constructor
  · intro h
    split at h
    · next last hlast =>
      split at h
      · next hloc =>
        cases h
        rw [← hloc, List.dropLast_append_getLast? _ hlast]
      · cases h
    · cases h
  · rintro rfl
    simp

/-- The names in a directory are those under which something is. -/
theorem mem_names {name : String} : name ∈ t.names loc ↔ ∃ e, t.get? (loc ++ [name]) = some e := by
  have hkey : loc ++ [name] ∈ t.entries.keys ↔ ∃ e, t.get? (loc ++ [name]) = some e := by
    rw [SortedMap.mem_keys_iff, get?_of_ne_nil (by simp), Option.isSome_iff_exists]
  rw [← hkey, names, List.mem_filterMap]
  constructor
  · rintro ⟨l, hl, h⟩
    rw [← nameIn_eq_some_iff.1 h]
    exact hl
  · intro hl
    exact ⟨_, hl, nameIn_eq_some_iff.2 rfl⟩

/-- The names in a directory come in their order. -/
theorem pairwise_names (t : FileTree) (loc : List String) :
    (t.names loc).Pairwise fun a b => compare a b = .lt := by
  rw [names, List.pairwise_filterMap]
  refine t.entries.keys_pairwise.imp fun {l l'} hlt name hname name' hname' => ?_
  rw [nameIn_eq_some_iff.1 hname, nameIn_eq_some_iff.1 hname', compare_append_left,
    compare_cons_cons] at hlt
  rcases Ordering.then_eq_lt.1 hlt with h | ⟨-, h⟩
  · exact h
  · cases h

/-- What lies below a location is in ascending order of the names that lead there. -/
theorem pairwise_below (t : FileTree) (loc : List String) :
    (t.below loc).Pairwise fun a b => compare a.1 b.1 = .lt := by
  rw [below, List.pairwise_filterMap]
  refine t.entries.sorted.imp fun {a b} hab x hx y hy => ?_
  split at hx
  · next hpre =>
    split at hy
    · next hpre' =>
      cases hx
      cases hy
      obtain ⟨⟨names, ha⟩, -⟩ := hpre
      obtain ⟨⟨names', hb⟩, -⟩ := hpre'
      rw [← ha, ← hb, compare_append_left] at hab
      rw [← ha, ← hb, List.drop_left, List.drop_left]
      exact hab
    · cases hy
  · cases hx

/-! ### Walking -/

/-- The names that lead to files of an extension through one name in a directory; `deeper` yields
those that go on from a directory. -/
def found (t : FileTree) (extension : String) (deeper : List String → List (List String))
    (loc : List String) (name : String) : List (List String) :=
  if (t.get? (loc ++ [name])).any Entry.isDirectory then
    (deeper (loc ++ [name])).map (name :: ·)
  else if (FilePath.mk name).extension? = some extension then [[name]]
  else []

/-- The names that lead to files of an extension from a location, through fewer than `n`
directories. -/
def walk (t : FileTree) (extension : String) : Nat → List String → List (List String)
  | 0, _ => []
  | n + 1, loc => (t.names loc).flatMap (t.found extension (t.walk extension n) loc)

/-- What is found at a name has the name in front. -/
theorem exists_of_mem_found {extension name : String}
    {deeper : List String → List (List String)} {names : List String}
    (h : names ∈ t.found extension deeper loc name) : ∃ rest, names = name :: rest := by
  unfold found at h
  split at h
  · obtain ⟨rest, -, rfl⟩ := List.mem_map.1 h
    exact ⟨rest, rfl⟩
  · split at h
    · exact ⟨[], List.mem_singleton.1 h⟩
    · cases h

/-- Whether names lead to a file of an extension from a location. -/
def LeadsToFile (t : FileTree) (extension : String) (loc names : List String) : Prop :=
  ∃ dirs name bytes, names = dirs ++ [name] ∧
    (FilePath.mk name).extension? = some extension ∧ t.get? (loc ++ names) = some (.file bytes)

variable {extension : String}

/-- A walk finds the files that the names lead to through directories, as far down as it goes. -/
theorem mem_walk (ht : t.IsTree) {n : Nat} {names : List String} :
    names ∈ t.walk extension n loc ↔
      names.length ≤ n ∧ t.LeadsToFile extension loc names := by
  -- the induction is on the depth: one name, and the walk below it
  induction n generalizing loc names with
  | zero =>
    refine iff_of_false List.not_mem_nil ?_
    rintro ⟨hlen, dirs, name, bytes, rfl, -⟩
    simp at hlen
  | succ n ih =>
    rw [walk, List.mem_flatMap]
    constructor
    · rintro ⟨name, hname, h⟩
      obtain ⟨e, he⟩ := mem_names.1 hname
      rw [found, he] at h
      cases e with
      | directory =>
        rw [if_pos (by rfl)] at h
        obtain ⟨rest, hrest, rfl⟩ := List.mem_map.1 h
        obtain ⟨hlen, dirs, last, bytes, rfl, hext, hfile⟩ := ih.1 hrest
        refine ⟨by simpa using hlen, name :: dirs, last, bytes, rfl, hext, ?_⟩
        rw [List.append_assoc] at hfile
        exact hfile
      | file bytes =>
        rw [if_neg (by simp [Entry.isDirectory])] at h
        split at h
        · next hext =>
          rw [List.mem_singleton] at h
          subst h
          exact ⟨by simp, [], name, bytes, rfl, hext, he⟩
        · cases h
    · rintro ⟨hlen, dirs, last, bytes, rfl, hext, hfile⟩
      cases dirs with
      | nil =>
        refine ⟨last, mem_names.2 ⟨_, hfile⟩, ?_⟩
        rw [List.nil_append] at hfile
        rw [found, hfile, if_neg (by simp [Entry.isDirectory]), if_pos hext]
        exact List.mem_singleton_self _
      | cons name dirs =>
        have hsplit : loc ++ (name :: dirs ++ [last]) = loc ++ [name] ++ (dirs ++ [last]) := by simp
        -- something lies below the first name, so it is that of a directory
        have hdir : t.get? (loc ++ [name]) = some .directory := by
          refine Classical.not_not.1 fun hne => ?_
          rw [hsplit, ht.get?_append_eq_none hne (by simp)] at hfile
          cases hfile
        refine ⟨name, mem_names.2 ⟨_, hdir⟩, ?_⟩
        rw [found, hdir, if_pos (by rfl)]
        refine List.mem_map.2 ⟨dirs ++ [last], ih.2 ⟨by simpa using hlen, ?_⟩, rfl⟩
        exact ⟨dirs, last, bytes, rfl, hext, hsplit ▸ hfile⟩

/-- A walk finds files in the order of their names, so none of them twice. -/
theorem pairwise_walk (t : FileTree) (extension : String) (n : Nat) (loc : List String) :
    (t.walk extension n loc).Pairwise fun a b => compare a b = .lt := by
  induction n generalizing loc with
  | zero => exact .nil
  | succ n ih =>
    rw [walk, List.pairwise_flatMap]
    constructor
    · intro name _
      unfold found
      split
      · refine List.pairwise_map.2 ((ih _).imp fun {a b} hab => ?_)
        exact (compare_append_left [name] a b).trans hab
      · split
        · exact List.pairwise_singleton _ _
        · exact .nil
    · -- what is found at different names is in the order of these names
      refine (t.pairwise_names loc).imp fun {a b} hab names hnames names' hnames' => ?_
      obtain ⟨rest, rfl⟩ := exists_of_mem_found hnames
      obtain ⟨rest', rfl⟩ := exists_of_mem_found hnames'
      rw [compare_cons_cons, hab]
      rfl

/-! ### The depth of a tree -/

/-- Nothing in a tree is deeper down than it has entries, so a walk of that depth finds all. -/
theorem IsTree.length_le_size (ht : t.IsTree) {e : Entry} (h : t.get? loc = some e) :
    loc.length ≤ t.entries.size := by
  -- the places down to an entry are as many as it has names, and the tree has each of them
  have hnodup : ((List.range loc.length).map fun k => loc.take (k + 1)).Nodup := by
    refine List.nodup_range.map_on fun j hj k hk heq => ?_
    have hlength := congrArg List.length heq
    rw [List.mem_range] at hj hk
    rw [List.length_take, List.length_take] at hlength
    omega
  have hsubset : ((List.range loc.length).map fun k => loc.take (k + 1)) ⊆ t.entries.keys := by
    intro l hl
    obtain ⟨k, hk, rfl⟩ := List.mem_map.1 hl
    rw [List.mem_range] at hk
    have hne : loc.take (k + 1) ≠ [] := by
      rw [← List.length_pos_iff, List.length_take]
      omega
    rw [SortedMap.mem_keys_iff, ← get?_of_ne_nil hne, Option.isSome_iff_ne_none]
    intro hnone
    by_cases hrest : loc.drop (k + 1) = []
    · rw [← List.append_nil (loc.take _), ← hrest, List.take_append_drop, h] at hnone
      cases hnone
    · have hbelow := ht.get?_append_eq_none (by rw [hnone]; simp) hrest
      rw [List.take_append_drop, h] at hbelow
      cases hbelow
  have hle := (hnodup.subperm hsubset).length_le
  rw [List.length_map, List.length_range, SortedMap.keys, List.length_map] at hle
  exact hle

end FileTree

end FieldBinder
