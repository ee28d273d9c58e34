/-
  Maps with ordered keys, held as strictly ascending lists of entries.

  Every name table of the library (declared names, imports, modules,
  implementors, written files) is such a map.  Because the entries are strictly
  ascending, two maps with the same look-ups are equal
  (`SortedMap.ext_get?`), and the order in which a map is read off is the order
  of its keys, whatever the order of the insertions was.
-/
namespace FieldBinder

/-- A finite map whose entries are listed with strictly ascending keys. -/
structure SortedMap (κ : Type u) (α : Type v) [Ord κ] where
  entries : List (κ × α)
  sorted : entries.Pairwise (fun a b => compare a.1 b.1 = .lt)

namespace SortedMap

variable {κ : Type u} {α : Type v} [Ord κ]

/-! ### Entries -/

/-- Put an entry into an ascending list, replacing the entry of the same key. -/
def insertEntry (k : κ) (v : α) : List (κ × α) → List (κ × α)
  | [] => [(k, v)]
  | e :: r =>
    match compare k e.1 with
    | .lt => (k, v) :: e :: r
    | .eq => (k, v) :: r
    | .gt => e :: insertEntry k v r

/-- The value that an entry list holds for a key. -/
def findEntry (k : κ) : List (κ × α) → Option α
  | [] => none
  | e :: r => if compare k e.1 = .eq then some e.2 else findEntry k r

theorem mem_insertEntry {k : κ} {v : α} {l : List (κ × α)} {e : κ × α}
    (h : e ∈ insertEntry k v l) : e = (k, v) ∨ e ∈ l := by
  induction l with
  | nil => simpa [insertEntry] using h
  | cons a r ih =>
    unfold insertEntry at h
    split at h
    · simpa using h
    · rcases List.mem_cons.1 h with h | h
      · exact .inl h
      · exact .inr (List.mem_cons_of_mem _ h)
    · rcases List.mem_cons.1 h with h | h
      · exact .inr (h ▸ List.mem_cons_self)
      · exact (ih h).imp id (List.mem_cons_of_mem _)

theorem sorted_insertEntry [Std.TransOrd κ] {k : κ} {v : α} {l : List (κ × α)}
    (h : l.Pairwise (fun a b => compare a.1 b.1 = .lt)) :
    (insertEntry k v l).Pairwise (fun a b => compare a.1 b.1 = .lt) := by
  induction l with
  | nil => simp [insertEntry]
  | cons a r ih =>
    obtain ⟨ha, hr⟩ := List.pairwise_cons.1 h
    unfold insertEntry
    split
    next hlt =>
      refine List.pairwise_cons.2 ⟨fun b hb => ?_, h⟩
      rcases List.mem_cons.1 hb with rfl | hb
      · exact hlt
      · exact Std.TransCmp.lt_trans hlt (ha b hb)
    next heq =>
      exact List.pairwise_cons.2
        ⟨fun b hb => Std.TransCmp.lt_of_eq_of_lt heq (ha b hb), hr⟩
    next hgt =>
      refine List.pairwise_cons.2 ⟨fun b hb => ?_, ih hr⟩
      rcases mem_insertEntry hb with rfl | hb
      · exact Std.OrientedCmp.lt_of_gt hgt
      · exact ha b hb

/-! ### The map -/

/-- The map without entries. -/
def empty : SortedMap κ α := ⟨[], .nil⟩

instance : EmptyCollection (SortedMap κ α) := ⟨empty⟩
instance : Inhabited (SortedMap κ α) := ⟨empty⟩

/-- The value of a key, if the map has the key. -/
def get? (m : SortedMap κ α) (k : κ) : Option α := findEntry k m.entries

/-- Whether the map has a key. -/
def contains (m : SortedMap κ α) (k : κ) : Bool := (m.get? k).isSome

/-- The map with one more entry; a former value of the key is replaced. -/
def insert [Std.TransOrd κ] (m : SortedMap κ α) (k : κ) (v : α) : SortedMap κ α :=
  ⟨insertEntry k v m.entries, sorted_insertEntry m.sorted⟩

/-- The map of a list of entries; of two entries of one key the later counts. -/
def ofList [Std.TransOrd κ] (l : List (κ × α)) : SortedMap κ α :=
  l.foldl (fun m e => m.insert e.1 e.2) empty

/-- The map with every value replaced by a function of its key and itself. -/
def mapValues (f : κ → α → β) (m : SortedMap κ α) : SortedMap κ β :=
  ⟨m.entries.map fun e => (e.1, f e.1 e.2), List.pairwise_map.2 m.sorted⟩

/-- The entries whose keys satisfy a test. -/
def filterKeys (f : κ → Bool) (m : SortedMap κ α) : SortedMap κ α :=
  ⟨m.entries.filter fun e => f e.1, m.sorted.filter _⟩

/-- The entries in ascending order of their keys. -/
def toList (m : SortedMap κ α) : List (κ × α) := m.entries

/-- The keys in ascending order. -/
def keys (m : SortedMap κ α) : List κ := m.entries.map (·.1)

/-- The values in ascending order of their keys. -/
def values (m : SortedMap κ α) : List α := m.entries.map (·.2)

/-- The number of keys. -/
def size (m : SortedMap κ α) : Nat := m.entries.length

/-! ### Look-up after an insertion -/

@[simp] theorem get?_empty (k : κ) : (empty : SortedMap κ α).get? k = none := rfl

theorem findEntry_insertEntry_self [Std.ReflOrd κ] (k : κ) (v : α) (l : List (κ × α)) :
    findEntry k (insertEntry k v l) = some v := by
  induction l with
  | nil => simp [insertEntry, findEntry]
  | cons a r ih =>
    unfold insertEntry
    split
    · simp [findEntry]
    · simp [findEntry]
    next h => simp [findEntry, h, ih]

theorem findEntry_insertEntry_of_ne [Std.LawfulEqOrd κ] {k k' : κ} (v : α)
    (l : List (κ × α)) (hne : k' ≠ k) :
    findEntry k' (insertEntry k v l) = findEntry k' l := by
  have hk : compare k' k ≠ .eq := fun h => hne (Std.LawfulEqOrd.eq_of_compare h)
  induction l with
  | nil => simp [insertEntry, findEntry, hk]
  | cons a r ih =>
    unfold insertEntry
    split
    · simp [findEntry, hk]
    next h =>
      have : k = a.1 := Std.LawfulEqOrd.eq_of_compare h
      simp [findEntry, ← this, hk]
    · simp only [findEntry, ih]

@[simp] theorem get?_insert_self [Std.TransOrd κ] (m : SortedMap κ α) (k : κ) (v : α) :
    (m.insert k v).get? k = some v :=
  findEntry_insertEntry_self k v m.entries

theorem get?_insert_of_ne [Std.TransOrd κ] [Std.LawfulEqOrd κ] (m : SortedMap κ α)
    {k k' : κ} (v : α) (h : k' ≠ k) : (m.insert k v).get? k' = m.get? k' :=
  findEntry_insertEntry_of_ne v m.entries h

theorem get?_insert [Std.TransOrd κ] [Std.LawfulEqOrd κ] [DecidableEq κ]
    (m : SortedMap κ α) (k k' : κ) (v : α) :
    (m.insert k v).get? k' = if k' = k then some v else m.get? k' := by
  split
  next h => rw [h, get?_insert_self]
  next h => exact get?_insert_of_ne m v h

theorem get?_mapValues [Std.LawfulEqOrd κ] (f : κ → α → β) (m : SortedMap κ α) (k : κ) :
    (m.mapValues f).get? k = (m.get? k).map (f k) := by
  obtain ⟨l, hl⟩ := m
  simp only [get?, mapValues]
  clear hl
  induction l with
  | nil => rfl
  | cons a r ih =>
    simp only [List.map_cons, findEntry]
    split
    next h => rw [← Std.LawfulEqOrd.eq_of_compare h]; rfl
    · exact ih

theorem get?_filterKeys [Std.LawfulEqOrd κ] (f : κ → Bool) (m : SortedMap κ α) (k : κ) :
    (m.filterKeys f).get? k = if f k then m.get? k else none := by
  obtain ⟨l, hl⟩ := m
  simp only [get?, filterKeys]
  clear hl
  induction l with
  | nil => simp [findEntry]
  | cons a r ih =>
    by_cases hk : compare k a.1 = .eq
    · have hka : k = a.1 := Std.LawfulEqOrd.eq_of_compare hk
      by_cases hf : f k = true
      · simp [hka ▸ hf, findEntry, hk, hf]
      · have : f a.1 = false := by simpa [hka] using hf
        simp only [List.filter_cons, this, Bool.false_eq_true, if_false, ih, hf]
    · by_cases hf : f a.1 = true
      · simp [hf, findEntry, hk, ih]
      · simp [hf, findEntry, hk, ih]

/-! ### Entries and look-ups determine each other -/

theorem mem_of_findEntry [Std.LawfulEqOrd κ] {k : κ} {v : α} {l : List (κ × α)}
    (h : findEntry k l = some v) : (k, v) ∈ l := by
  induction l with
  | nil => simp [findEntry] at h
  | cons a r ih =>
    unfold findEntry at h
    split at h
    next hk =>
      have hk : k = a.1 := Std.LawfulEqOrd.eq_of_compare hk
      have hv : a.2 = v := by simpa using h
      exact List.mem_cons.2 (.inl (Prod.ext hk hv.symm))
    · exact List.mem_cons_of_mem _ (ih h)

theorem findEntry_of_mem [Std.TransOrd κ] {k : κ} {v : α} {l : List (κ × α)}
    (hs : l.Pairwise (fun a b => compare a.1 b.1 = .lt)) (h : (k, v) ∈ l) :
    findEntry k l = some v := by
  induction l with
  | nil => simp at h
  | cons a r ih =>
    obtain ⟨ha, hr⟩ := List.pairwise_cons.1 hs
    rcases List.mem_cons.1 h with h | h
    · subst h; simp [findEntry]
    · have hlt := ha _ h
      have hne : compare k a.1 ≠ .eq := by
        intro he
        have := Std.OrientedCmp.eq_symm he
        rw [show compare a.1 k = .lt from hlt] at this
        contradiction
      simp [findEntry, hne, ih hr h]

theorem mem_entries_iff [Std.TransOrd κ] [Std.LawfulEqOrd κ] (m : SortedMap κ α)
    (k : κ) (v : α) : (k, v) ∈ m.entries ↔ m.get? k = some v :=
  ⟨findEntry_of_mem m.sorted, mem_of_findEntry⟩

theorem eq_of_findEntry [Std.TransOrd κ] [Std.LawfulEqOrd κ] {l l' : List (κ × α)}
    (hl : l.Pairwise (fun a b => compare a.1 b.1 = .lt))
    (hl' : l'.Pairwise (fun a b => compare a.1 b.1 = .lt))
    (h : ∀ k, findEntry k l = findEntry k l') : l = l' := by
  induction l generalizing l' with
  | nil =>
    cases l' with
    | nil => rfl
    | cons b r' => simpa [findEntry] using h b.1
  | cons a r ih =>
    cases l' with
    | nil => simpa [findEntry] using h a.1
    | cons b r' =>
      obtain ⟨ha, hr⟩ := List.pairwise_cons.1 hl
      obtain ⟨hb, hr'⟩ := List.pairwise_cons.1 hl'
      have hamem : (a.1, a.2) ∈ b :: r' :=
        mem_of_findEntry ((h a.1).symm.trans (by simp [findEntry]))
      have hbmem : (b.1, b.2) ∈ a :: r :=
        mem_of_findEntry ((h b.1).trans (by simp [findEntry]))
      have hab : a = b := by
        rcases List.mem_cons.1 hamem with h1 | h1
        · exact h1
        rcases List.mem_cons.1 hbmem with h2 | h2
        · exact h2.symm
        have h3 := Std.TransCmp.lt_trans (hb _ h1) (ha _ h2)
        simp at h3
      subst hab
      refine congrArg (a :: ·) (ih hr hr' fun k => ?_)
      by_cases hk : compare k a.1 = .eq
      · have hk' : k = a.1 := Std.LawfulEqOrd.eq_of_compare hk
        have none_of : ∀ t : List (κ × α), (∀ c ∈ t, compare a.1 c.1 = .lt) →
            findEntry a.1 t = none := by
          intro t ht
          cases hf : findEntry a.1 t with
          | none => rfl
          | some v =>
            have := ht _ (mem_of_findEntry hf)
            simp at this
        rw [hk', none_of r ha, none_of r' hb]
      · simpa [findEntry, hk] using h k

/-- A map is determined by its look-ups. -/
theorem ext_get? [Std.TransOrd κ] [Std.LawfulEqOrd κ] {m m' : SortedMap κ α}
    (h : ∀ k, m.get? k = m'.get? k) : m = m' := by
  obtain ⟨l, hl⟩ := m
  obtain ⟨l', hl'⟩ := m'
  have : l = l' := eq_of_findEntry hl hl' h
  subst this
  rfl

end SortedMap

end FieldBinder
