import FieldBinder.Field.Basic
import FieldBinder.Proofs.Crate.Closure

/-!
# Fields by enclosing type

`enclosingTypes fields` are the distinct enclosing types in ascending order, `ofType t fields` the
fields of one type as they come, and `inGroups fields` all fields, type by type.  Grouping with
`FieldGroups.ofFields` yields exactly these types with these fields (`FieldGroups.toList_ofFields`).
-/

namespace FieldBinder

namespace MarkedField

/-- The fields of a type, as they come. -/
def ofType (t : TypeName) (fields : List MarkedField) : List MarkedField :=
  fields.filter fun f => f.enclosing = t

/-- The types that fields belong to, in ascending order. -/
def enclosingTypes (fields : List MarkedField) : List TypeName :=
  (TypeSet.ofList (fields.map enclosing)).members

/-- The fields by ascending enclosing type, those of one type as they come. -/
def inGroups (fields : List MarkedField) : List MarkedField :=
  (enclosingTypes fields).flatMap fun t => ofType t fields

/-- The fields of a type are those that it encloses. -/
theorem mem_ofType {t : TypeName} {fields : List MarkedField} {f : MarkedField} :
    f ∈ ofType t fields ↔ f ∈ fields ∧ f.enclosing = t := by
  simp [ofType]

/-- The types are those that enclose a field. -/
theorem mem_enclosingTypes {fields : List MarkedField} {t : TypeName} :
    t ∈ enclosingTypes fields ↔ ∃ f ∈ fields, f.enclosing = t := by
  rw [enclosingTypes, TypeSet.mem_members_ofList, List.mem_map]

/-- The types come in their order, each once. -/
theorem enclosingTypes_pairwise (fields : List MarkedField) :
    (enclosingTypes fields).Pairwise (fun a b => compare a b = .lt) :=
  SortedMap.keys_pairwise _

/-- Going through fields type by type, each type once, comes to the same fields. -/
theorem flatMap_ofType_perm {types : List TypeName} (hn : types.Nodup)
    (fields : List MarkedField) :
    (types.flatMap fun t => ofType t fields).Perm
      (fields.filter fun f => f.enclosing ∈ types) := by
  induction types with
  | nil => simp
  | cons t r ih =>
    obtain ⟨ht, hr⟩ := List.nodup_cons.1 hn
    -- The fields of `t` first, then the others, which are those of the types behind it.
    have hsplit := List.filter_append_perm (fun f => decide (f.enclosing = t))
      (fields.filter fun f => f.enclosing ∈ t :: r)
    rw [List.filter_filter, List.filter_filter] at hsplit
    rw [List.flatMap_cons]
    refine ((ih hr).append_left _).trans (List.Perm.trans (.of_eq ?_) hsplit)
    rw [ofType]
    congr 1
    · refine List.filter_congr fun f _ => ?_
      by_cases hf : f.enclosing = t <;> simp [hf]
    · refine List.filter_congr fun f _ => ?_
      by_cases hf : f.enclosing = t
      · simp [hf, ht]
      · simp [hf]

/-- The groups hold every field exactly once. -/
theorem inGroups_perm (fields : List MarkedField) : (inGroups fields).Perm fields := by
  have hn : (enclosingTypes fields).Nodup :=
    SortedMap.nodup_of_pairwise_lt (enclosingTypes_pairwise fields)
  refine (flatMap_ofType_perm hn fields).trans (.of_eq (List.filter_eq_self.2 fun f hf => ?_))
  simpa using mem_enclosingTypes.2 ⟨f, hf, rfl⟩

/-- In groups there are the same fields. -/
theorem mem_inGroups {fields : List MarkedField} {f : MarkedField} :
    f ∈ inGroups fields ↔ f ∈ fields :=
  (inGroups_perm fields).mem_iff

/-! ### Fields of some types -/

variable (p : TypeName → Bool) (fields : List MarkedField)

/-- To leave fields out by their types leaves those types out. -/
theorem filter_enclosingTypes :
    (enclosingTypes fields).filter p = enclosingTypes (fields.filter fun f => p f.enclosing) := by
  apply SortedMap.eq_of_pairwise_lt ((enclosingTypes_pairwise fields).filter p)
    (enclosingTypes_pairwise _)
  intro t
  rw [List.mem_filter, mem_enclosingTypes, mem_enclosingTypes]
  constructor
  · rintro ⟨⟨f, hf, rfl⟩, hp⟩
    exact ⟨f, List.mem_filter.2 ⟨hf, hp⟩, rfl⟩
  · rintro ⟨f, hf, rfl⟩
    obtain ⟨hf, hp⟩ := List.mem_filter.1 hf
    exact ⟨⟨f, hf, rfl⟩, hp⟩

/-- A type is left out with all of its fields, or none of them. -/
theorem filter_ofType (t : TypeName) : (ofType t fields).filter (fun f => p f.enclosing) =
    if p t = true then ofType t fields else [] := by
  split
  · next hp =>
    apply List.filter_eq_self.2
    intro f hf
    rwa [(mem_ofType.1 hf).2]
  · next hp =>
    apply List.filter_eq_nil_iff.2
    intro f hf
    rwa [(mem_ofType.1 hf).2]

/-- A type that stays keeps its fields. -/
theorem ofType_filter {t : TypeName} (hp : p t = true) :
    ofType t (fields.filter fun f => p f.enclosing) = ofType t fields := by
  have hswap : ofType t (fields.filter fun f => p f.enclosing) =
      (ofType t fields).filter fun f => p f.enclosing := by
    rw [ofType, ofType, List.filter_filter, List.filter_filter]
    simp only [Bool.and_comm]
  rw [hswap, filter_ofType, if_pos hp]

theorem filter_inGroups_eq_flatMap : (inGroups fields).filter (fun f => p f.enclosing) =
    ((enclosingTypes fields).filter p).flatMap fun t => ofType t fields := by
  rw [inGroups, List.filter_flatMap]
  induction enclosingTypes fields with
  | nil => rfl
  | cons t r ih =>
    rw [List.flatMap_cons, ih, filter_ofType, List.filter_cons]
    split
    · rw [List.flatMap_cons]
    · rfl

/-- Grouping fields of some types is grouping all fields and leaving out those of other types. -/
theorem filter_inGroups : (inGroups fields).filter (fun f => p f.enclosing) =
    inGroups (fields.filter fun f => p f.enclosing) := by
  rw [filter_inGroups_eq_flatMap, inGroups, ← filter_enclosingTypes]
  rw [List.flatMap_def, List.flatMap_def]
  congr 1
  apply List.map_congr_left
  intro t ht
  rw [ofType_filter p fields (List.mem_filter.1 ht).2]

/-- Types that come first are cut off as a whole. -/
theorem eq_filter_append_filter_not {q : TypeName → Bool} {types : List TypeName}
    (h : types.Pairwise fun t u => q u = true → q t = true) :
    types = types.filter q ++ types.filter fun t => !q t := by
  induction types with
  | nil => rfl
  | cons t r ih =>
    obtain ⟨ht, hr⟩ := List.pairwise_cons.1 h
    by_cases hq : q t = true
    · rw [List.filter_cons_of_pos hq, List.filter_cons_of_neg (by simp [hq]), List.cons_append,
        ← ih hr]
    · have hnone : ∀ u ∈ t :: r, ¬ q u = true :=
        List.forall_mem_cons.2 ⟨hq, fun u hu hqu => hq (ht u hu hqu)⟩
      rw [List.filter_eq_nil_iff.2 hnone, List.nil_append, List.filter_eq_self.2]
      intro u hu
      simpa using hnone u hu

/-- Types in ascending order are those of smaller namespaces, those of a namespace, and those of
greater ones. -/
theorem eq_append_of_pairwise_lt (home : Namespace) {types : List TypeName}
    (h : types.Pairwise fun t u => compare t u = .lt) :
    types = (types.filter fun t => compare t.home home = .lt) ++
      (types.filter fun t => t.home = home) ++
      types.filter fun t => compare t.home home = .gt := by
  have hle : types.Pairwise fun t u => (compare t.home u.home).isLE = true := by
    refine h.imp fun {t u} hlt => ?_
    rw [TypeName.compare_eq] at hlt
    cases hc : compare t.home u.home with
    | gt =>
      rw [hc] at hlt
      cases hlt
    | _ => rfl
  -- the types are cut twice: behind those of the namespaces below, then behind those of this one
  have hbelow := eq_filter_append_filter_not (q := fun t => compare t.home home = .lt) <| by
    refine hle.imp fun {t u} htu hu => ?_
    simp only [decide_eq_true_eq] at hu ⊢
    exact Std.TransCmp.lt_of_isLE_of_lt htu hu
  have hrest : (types.filter fun t => !decide (compare t.home home = .lt)).Pairwise fun t u =>
      (compare u.home home).isLE = true → (compare t.home home).isLE = true :=
    (hle.filter _).imp fun htu hu => Std.TransCmp.isLE_trans htu hu
  have hupTo := eq_filter_append_filter_not hrest
  have hown (t : TypeName) : ((compare t.home home).isLE && !decide (compare t.home home = .lt)) =
      decide (t.home = home) := by
    have heq : compare t.home home = .eq ↔ t.home = home := Std.compare_eq_iff_eq
    revert heq
    cases compare t.home home <;> simp +contextual
  have habove (t : TypeName) : (!(compare t.home home).isLE &&
      !decide (compare t.home home = .lt)) = decide (compare t.home home = .gt) := by
    cases compare t.home home <;> rfl
  rw [List.filter_filter, List.filter_filter] at hupTo
  simp only [hown, habove] at hupTo
  rw [hupTo, ← List.append_assoc] at hbelow
  exact hbelow

/-- The fields of a module stand together in the groups, behind those of smaller namespaces. -/
theorem inGroups_eq_append (home : Namespace) : inGroups fields =
    ((inGroups fields).filter fun f => compare f.enclosing.home home = .lt) ++
    ((inGroups fields).filter fun f => f.enclosing.home = home) ++
    (inGroups fields).filter fun f => compare f.enclosing.home home = .gt := by
  rw [filter_inGroups_eq_flatMap (fun t => compare t.home home = .lt),
    filter_inGroups_eq_flatMap (fun t => t.home = home),
    filter_inGroups_eq_flatMap (fun t => compare t.home home = .gt), ← List.flatMap_append,
    ← List.flatMap_append, ← eq_append_of_pairwise_lt home (enclosingTypes_pairwise fields)]
  rfl

end MarkedField

/-! ### Grouping -/

namespace FieldGroups

open MarkedField

/-- Fields are put behind those of the same type. -/
theorem get?_foldl_add (fields : List MarkedField) (g : FieldGroups) (t : TypeName) :
    SortedMap.get? (fields.foldl add g) t =
      if ofType t fields = [] then SortedMap.get? g t
      else some ((SortedMap.get? g t).getD [] ++ ofType t fields) := by
  induction fields generalizing g with
  | nil => simp [ofType]
  | cons f r ih =>
    rw [List.foldl_cons, ih, add, SortedMap.get?_insert]
    by_cases hf : f.enclosing = t
    · -- A field of `t` begins the group or goes behind the fields that are there.
      have hcons : ofType t (f :: r) = f :: ofType t r := by simp [ofType, hf]
      rw [hcons, if_neg (List.cons_ne_nil _ _), if_pos hf.symm, hf]
      by_cases hr : ofType t r = []
      · rw [if_pos hr, hr]
      · rw [if_neg hr, Option.getD_some, List.append_assoc, List.singleton_append]
    · have hcons : ofType t (f :: r) = ofType t r := by simp [ofType, hf]
      rw [hcons, if_neg (Ne.symm hf)]

/-- The group of a type has its fields in their order, and there is none without fields. -/
theorem get?_ofFields (fields : List MarkedField) (t : TypeName) :
    SortedMap.get? (ofFields fields) t =
      if ofType t fields = [] then none else some (ofType t fields) := by
  rw [ofFields, get?_foldl_add, SortedMap.get?_empty, Option.getD_none, List.nil_append]

/-- The groups are those of the enclosing types. -/
theorem keys_ofFields (fields : List MarkedField) :
    SortedMap.keys (ofFields fields) = enclosingTypes fields := by
  refine SortedMap.eq_of_pairwise_lt (SortedMap.keys_pairwise _)
    (enclosingTypes_pairwise fields) fun t => ?_
  rw [SortedMap.mem_keys_iff, get?_ofFields, mem_enclosingTypes]
  by_cases ht : ofType t fields = []
  · rw [if_pos ht]
    simpa [ofType, List.filter_eq_nil_iff] using ht
  · rw [if_neg ht]
    obtain ⟨f, hf⟩ := List.exists_mem_of_ne_nil _ ht
    simpa using ⟨f, mem_ofType.1 hf⟩

/-- The groups are the enclosing types in ascending order, each with its fields as they come. -/
theorem toList_ofFields (fields : List MarkedField) :
    SortedMap.toList (ofFields fields) =
      (enclosingTypes fields).map fun t => (t, ofType t fields) := by
  rw [← keys_ofFields]
  refine SortedMap.toList_eq_map_keys _ fun t l hl => ?_
  rw [get?_ofFields] at hl
  split at hl
  · cases hl
  · exact (Option.some.inj hl).symm

end FieldGroups

end FieldBinder
