import FieldBinder.SortedMap
import Mathlib.Data.List.Pairwise

/-!
# Keys and entries of sorted maps

The keys of a map are strictly ascending (`keys_pairwise`), and they are the arguments at which a
look-up finds something (`mem_keys_iff`).  A strictly ascending list is determined by its members
(`eq_of_pairwise_lt_on`), so the entries of a map can be read off its keys (`toList_eq_map_keys`).

A map built from entries whose values are a function of their keys holds exactly these values,
whatever the order and the number of the entries (`get?_foldl_insert`, `get?_ofList`).  Entries with
different keys are sorted into the one order in which the keys are ascending
(`pairwise_lt_mergeSort`, `mergeSort_eq_of_perm`).  A list whose keys ascend but may repeat is given
by its members of each key (`eq_of_pairwise_isLE`), and sorting keeps the order of these
(`filter_mergeSort`).
-/

namespace FieldBinder.SortedMap

variable {κ : Type u} {α : Type v} [Ord κ]

/-! ### Keys -/

theorem keys_pairwise (m : SortedMap κ α) : m.keys.Pairwise (fun a b => compare a b = .lt) :=
  List.pairwise_map.2 m.sorted

variable [Std.TransOrd κ] [Std.LawfulEqOrd κ]

theorem mem_keys_iff (m : SortedMap κ α) (k : κ) : k ∈ m.keys ↔ (m.get? k).isSome := by
  rw [Option.isSome_iff_exists, keys, List.mem_map]
  constructor
  · rintro ⟨⟨_, v⟩, he, rfl⟩
    exact ⟨v, (m.mem_entries_iff _ v).1 he⟩
  · rintro ⟨v, hv⟩
    exact ⟨(k, v), (m.mem_entries_iff k v).2 hv, rfl⟩

theorem mem_values_iff (m : SortedMap κ α) (v : α) : v ∈ m.values ↔ ∃ k, m.get? k = some v := by
  rw [values, List.mem_map]
  constructor
  · rintro ⟨⟨k, _⟩, he, rfl⟩
    exact ⟨k, (m.mem_entries_iff k _).1 he⟩
  · rintro ⟨k, hk⟩
    exact ⟨(k, v), (m.mem_entries_iff k v).2 hk, rfl⟩

omit [Std.LawfulEqOrd κ] in
/-- A strictly ascending list has no member twice. -/
theorem nodup_of_pairwise_lt {f : α → κ} {l : List α}
    (h : l.Pairwise (fun a b => compare (f a) (f b) = .lt)) : l.Nodup := by
  refine h.imp fun {a b} hab heq => ?_
  rw [heq, Std.ReflOrd.compare_self] at hab
  cases hab

omit [Std.LawfulEqOrd κ] in
/-- Strictly ascending lists with the same members are equal. -/
theorem eq_of_pairwise_lt_on (f : α → κ) {l l' : List α}
    (hl : l.Pairwise (fun a b => compare (f a) (f b) = .lt))
    (hl' : l'.Pairwise (fun a b => compare (f a) (f b) = .lt)) (h : ∀ a, a ∈ l ↔ a ∈ l') :
    l = l' := by
  have hperm : l.Perm l' :=
    (List.perm_ext_iff_of_nodup (nodup_of_pairwise_lt hl) (nodup_of_pairwise_lt hl')).2 h
  refine hperm.eq_of_pairwise ?_ hl hl'
  intro a b _ _ hab hba
  exact absurd hba (Std.OrientedCmp.not_lt_of_lt hab)

omit [Std.LawfulEqOrd κ] in
theorem eq_of_pairwise_lt {l l' : List κ} (hl : l.Pairwise (fun a b => compare a b = .lt))
    (hl' : l'.Pairwise (fun a b => compare a b = .lt)) (h : ∀ k, k ∈ l ↔ k ∈ l') : l = l' :=
  eq_of_pairwise_lt_on id hl hl' h

/-- The entries, read off the keys when the value is a function of the key. -/
theorem toList_eq_map_keys (m : SortedMap κ α) {g : κ → α}
    (h : ∀ k v, m.get? k = some v → v = g k) : m.toList = m.keys.map fun k => (k, g k) := by
  rw [keys, toList, List.map_map]
  refine (List.map_id _).symm.trans (List.map_congr_left fun e he => ?_)
  exact Prod.ext rfl (h e.1 e.2 ((m.mem_entries_iff e.1 e.2).1 he))

/-! ### Sorting by keys -/

omit [Std.LawfulEqOrd κ] in
theorem isLE_total (k k' : κ) : ((compare k k').isLE || (compare k' k).isLE) = true := by
  cases h : compare k k' with
  | gt => simp [Std.OrientedCmp.lt_of_gt h]
  | _ => rfl

omit [Std.LawfulEqOrd κ] in
theorem pairwise_mergeSort (f : α → κ) (l : List α) :
    (l.mergeSort fun a b => (compare (f a) (f b)).isLE).Pairwise
      fun a b => (compare (f a) (f b)).isLE = true :=
  List.pairwise_mergeSort (fun _ _ _ => Std.TransCmp.isLE_trans) (fun _ _ => isLE_total _ _) l

omit [Std.LawfulEqOrd κ] in
/-- Sorting entries with different keys makes the keys strictly ascending. -/
theorem pairwise_lt_mergeSort {l : List (κ × α)}
    (h : l.Pairwise fun a b => compare a.1 b.1 ≠ .eq) :
    (l.mergeSort fun a b => (compare a.1 b.1).isLE).Pairwise
      fun a b => compare a.1 b.1 = .lt := by
  have hne := (List.mergeSort_perm l fun a b => (compare a.1 b.1).isLE).symm.pairwise h
    fun heq hba => heq (Std.OrientedCmp.eq_symm hba)
  refine (hne.and (pairwise_mergeSort Prod.fst l)).imp ?_
  rintro a b ⟨hab, hle⟩
  exact (Ordering.isLE_iff_eq_lt_or_eq_eq.1 hle).resolve_right hab

omit [Std.LawfulEqOrd κ] in
theorem mergeSort_eq_of_perm {l l' : List (κ × α)} (hperm : l.Perm l')
    (hlt : l'.Pairwise fun a b => compare a.1 b.1 = .lt) :
    l.mergeSort (fun a b => (compare a.1 b.1).isLE) = l' := by
  have hperm' := (List.mergeSort_perm l fun a b => (compare a.1 b.1).isLE).trans hperm
  refine hperm'.eq_of_pairwise (fun a b ha hb hab hba => ?_) (pairwise_mergeSort Prod.fst l)
    (hlt.imp fun h => by rw [h]; rfl)
  -- entries whose keys compare as equal are one entry
  refine Classical.not_not.1 fun hne => ?_
  let apart (a b : κ × α) : Prop := compare a.1 b.1 ≠ .eq
  have : Std.Symm apart := ⟨fun a b h heq => h (Std.OrientedCmp.eq_symm heq)⟩
  have hapart : l'.Pairwise apart := hlt.imp fun h heq => by rw [h] at heq; cases heq
  exact hapart.forall (hperm'.mem_iff.1 ha) hb hne (Std.OrientedCmp.isLE_antisymm hab hba)

/-- A list with ascending keys is given by its members of each key, in their order. -/
theorem eq_of_pairwise_isLE [DecidableEq κ] (f : α → κ) {l l' : List α}
    (hl : l.Pairwise fun a b => (compare (f a) (f b)).isLE = true)
    (hl' : l'.Pairwise fun a b => (compare (f a) (f b)).isLE = true)
    (h : ∀ k, (l.filter fun a => f a = k) = l'.filter fun a => f a = k) : l = l' := by
  induction l generalizing l' with
  | nil =>
    cases l' with
    | nil => rfl
    | cons b r' => simpa using h (f b)
  | cons a r ih =>
    cases l' with
    | nil => simpa using h (f a)
    | cons b r' =>
      obtain ⟨ha, hr⟩ := List.pairwise_cons.1 hl
      obtain ⟨hb, hr'⟩ := List.pairwise_cons.1 hl'
      -- the first member of one list is somewhere in the other one
      have hfirst {a b : α} {r r' : List α} (hb : ∀ c ∈ r', (compare (f b) (f c)).isLE = true)
          (h : ∀ k, ((a :: r).filter fun c => f c = k) = (b :: r').filter fun c => f c = k) :
          (compare (f b) (f a)).isLE = true := by
        have hmem : a ∈ (b :: r').filter fun c => f c = f a := by
          rw [← h (f a)]
          simp
        rcases List.mem_cons.1 (List.mem_filter.1 hmem).1 with rfl | ha
        · simp
        · exact hb a ha
      have hkey : f a = f b := Std.LawfulEqOrd.eq_of_compare <|
        Std.OrientedCmp.isLE_antisymm (hfirst ha fun k => (h k).symm) (hfirst hb h)
      have hhead := h (f a)
      rw [List.filter_cons_of_pos (by simp), List.filter_cons_of_pos (by simp [hkey])] at hhead
      obtain ⟨rfl, -⟩ := List.cons.inj hhead
      refine congrArg (a :: ·) (ih hr hr' fun k => ?_)
      have hk := h k
      by_cases hak : f a = k
      · rw [List.filter_cons_of_pos (by simpa using hak),
          List.filter_cons_of_pos (by simpa using hak)] at hk
        exact (List.cons.inj hk).2
      · rwa [List.filter_cons_of_neg (by simpa using hak),
          List.filter_cons_of_neg (by simpa using hak)] at hk

/-- Sorting keeps the members of one key in their order. -/
theorem filter_mergeSort [DecidableEq κ] (f : α → κ) (l : List α) (k : κ) :
    ((l.mergeSort fun a b => (compare (f a) (f b)).isLE).filter fun a => f a = k) =
      l.filter fun a => f a = k := by
  have hkey {a : α} (ha : a ∈ l.filter fun a => f a = k) : f a = k := by
    simpa using (List.mem_filter.1 ha).2
  have hpairwise : (l.filter fun a => f a = k).Pairwise
      fun a b => (compare (f a) (f b)).isLE = true := by
    refine List.pairwise_of_forall_mem_list fun a ha b hb => ?_
    rw [hkey ha, hkey hb, Std.ReflOrd.compare_self]
    rfl
  have hsorted : (l.filter fun a => f a = k).Sublist
      (l.mergeSort fun a b => (compare (f a) (f b)).isLE) :=
    List.sublist_mergeSort (fun _ _ _ => Std.TransCmp.isLE_trans) (fun _ _ => isLE_total _ _)
      hpairwise List.filter_sublist
  have hsublist := hsorted.filter fun a => f a = k
  rw [List.filter_filter] at hsublist
  simp only [Bool.and_self] at hsublist
  have hperm := (List.mergeSort_perm l fun a b => (compare (f a) (f b)).isLE).filter
    fun a => f a = k
  exact (hsublist.eq_of_length hperm.length_eq.symm).symm

/-! ### Maps built from entries -/

variable [DecidableEq κ]

/-- After entries whose values are a function of their keys, these keys have these values and
the others have what they had. -/
theorem get?_foldl_insert {g : κ → α} (l : List (κ × α)) (h : ∀ e ∈ l, e.2 = g e.1)
    (m : SortedMap κ α) (k : κ) :
    (l.foldl (fun m e => m.insert e.1 e.2) m).get? k =
      if k ∈ l.map (·.1) then some (g k) else m.get? k := by
  induction l generalizing m with
  | nil => simp
  | cons e r ih =>
    rw [List.foldl_cons, ih (fun x hx => h x (List.mem_cons_of_mem _ hx)), get?_insert,
      h e List.mem_cons_self]
    by_cases hr : k ∈ r.map (·.1)
    · simp [hr]
    · by_cases hk : k = e.1
      · simp [hk]
      · simp [hr, hk]

/-- What is found after entries is one of them or was there before. -/
theorem mem_of_get?_foldl_insert {l : List (κ × α)} {m : SortedMap κ α} {k : κ} {v : α}
    (h : (l.foldl (fun m e => m.insert e.1 e.2) m).get? k = some v) :
    (k, v) ∈ l ∨ m.get? k = some v := by
  induction l generalizing m with
  | nil => exact .inr h
  | cons e r ih =>
    rcases ih h with hr | hm
    · exact .inl (List.mem_cons_of_mem _ hr)
    · rw [get?_insert] at hm
      split at hm
      · next hk =>
        cases hm
        exact .inl (hk ▸ List.mem_cons_self)
      · exact .inr hm

theorem mem_of_get?_ofList {l : List (κ × α)} {k : κ} {v : α}
    (h : (ofList l).get? k = some v) : (k, v) ∈ l := by
  rcases mem_of_get?_foldl_insert h with h | h
  · exact h
  · cases h

theorem contains_foldl_insert (l : List (κ × α)) (m : SortedMap κ α) (k : κ) :
    (l.foldl (fun m e => m.insert e.1 e.2) m).contains k = true ↔
      k ∈ l.map (·.1) ∨ m.contains k = true := by
  induction l generalizing m with
  | nil => simp
  | cons e r ih =>
    rw [List.foldl_cons, ih, List.map_cons, List.mem_cons, contains, get?_insert]
    by_cases hk : k = e.1
    · simp [hk]
    · simp [hk, contains]

theorem contains_ofList (l : List (κ × α)) (k : κ) :
    (ofList l).contains k = true ↔ k ∈ l.map (·.1) :=
  (contains_foldl_insert l empty k).trans (or_iff_left Bool.false_ne_true)

theorem get?_ofList {g : κ → α} (l : List (κ × α)) (h : ∀ e ∈ l, e.2 = g e.1) (k : κ) :
    (ofList l).get? k = if k ∈ l.map (·.1) then some (g k) else none :=
  get?_foldl_insert l h empty k

end FieldBinder.SortedMap
