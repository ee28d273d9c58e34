import FieldBinder.Proofs.Crate.Built
import FieldBinder.Proofs.Field.Groups
import Mathlib.Data.List.Forall2

/-!
# Where marked fields stand

A named field of a struct has a site: its module, the number of the struct among the items, and its
own number (`FieldSite`).  The sites of a crate are ordered by namespace and then by declaration,
and its marked fields are, one by one and in this order, those at the sites with an attribute of the
given name (`MarkedField.exists_sites_scan`).

Grouping is independent of how fields of different types are mixed (`FieldGroups.ofFields_eq_iff`),
and chaining the groups is a stable sort by enclosing type (`MarkedField.inGroups_eq_mergeSort`).
`FieldGroups.partition_scan` puts both together.
-/

namespace FieldBinder

/-! ### Sites -/

/-- A named field of a struct where it stands: its module, the number of the struct among the items
of the module, and the number of the field in the struct. -/
structure FieldSite where
  home : Module
  item : Nat
  struct : String
  number : Nat
  field : NamedField

namespace FieldSite

/-- Whether a crate has the field there. -/
def IsIn (x : FieldSite) (c : Crate) : Prop :=
  c.module? x.home.home = some x.home ∧ ∃ fields,
    x.home.items[x.item]? = some (.struct x.struct (.named fields)) ∧
    fields[x.number]? = some x.field

/-- Whether a field comes before another one, in the order of the namespaces and then of the
declarations. -/
def Before (x y : FieldSite) : Prop :=
  compare x.home.home y.home.home = .lt ∨
    x.home.home = y.home.home ∧ (x.item < y.item ∨ x.item = y.item ∧ x.number < y.number)

/-- Whether a field has an attribute of the given name. -/
def IsMarked (marker : String) (x : FieldSite) : Prop :=
  ∃ a ∈ x.field.attributes, a.path.isIdent marker = true

/-- Whether a marked field says what stands at a site, with the first attribute of the given name as
its directive. -/
def Describes (marker : String) (x : FieldSite) (f : MarkedField) : Prop :=
  ∃ before a after, x.field.attributes = before ++ a :: after ∧ a.path.isIdent marker = true ∧
    (∀ b ∈ before, b.path.isIdent marker = false) ∧
    f = { enclosing := .qualify x.home.home x.struct, name := x.field.name
          type := x.field.type.render, directive := .load x.home.scope a
          origin := ⟨x.home.file, x.field.line⟩ }

/-- The marked field that a field of a struct is. -/
def marked? (marker : String) (x : FieldSite) : Option MarkedField :=
  MarkedField.ofField? marker x.home (.qualify x.home.home x.struct) x.field

/-- A site gives no field just when no attribute of it has the marker. -/
theorem marked?_eq_none_iff {marker : String} {x : FieldSite} :
    x.marked? marker = none ↔ ¬ x.IsMarked marker := by
  simp [marked?, MarkedField.ofField?, IsMarked]

/-- What is made of a site describes it. -/
theorem describes_of_marked? {marker : String} {x : FieldSite} {f : MarkedField}
    (h : x.marked? marker = some f) : x.Describes marker f := by
  obtain ⟨a, hfind, rfl⟩ := Option.map_eq_some_iff.1 h
  obtain ⟨ha, before, after, hsplit, hbefore⟩ := List.find?_eq_some_iff_append.1 hfind
  exact ⟨before, a, after, hsplit, ha, fun b hb => by simpa using hbefore b hb, rfl⟩

end FieldSite

/-! ### Fields in order -/

/-- The named fields of the item of a module that has the given number. -/
def Item.fieldSites (m : Module) (k : Nat) : Item → List FieldSite
  | .struct name (.named fields) => fields.zipIdx.map fun f => ⟨m, k, name, f.2, f.1⟩
  | _ => []

/-- The named fields of the structs that are items of modules, as they come. -/
def Crate.fieldSites (c : Crate) : List FieldSite :=
  c.moduleList.flatMap fun m => m.items.zipIdx.flatMap fun i => i.1.fieldSites m i.2

/-- The sites of an item are the fields of a struct, by number. -/
theorem Item.mem_fieldSites {m : Module} {k : Nat} {i : Item} {x : FieldSite} :
    x ∈ i.fieldSites m k ↔ x.home = m ∧ x.item = k ∧ ∃ fields,
      i = .struct x.struct (.named fields) ∧ fields[x.number]? = some x.field := by
  unfold Item.fieldSites
  split
  · next name fields =>
    rw [List.mem_map]
    constructor
    · rintro ⟨⟨field, j⟩, hmem, rfl⟩
      exact ⟨rfl, rfl, fields, rfl, List.mk_mem_zipIdx_iff_getElem?.1 hmem⟩
    · obtain ⟨home, item, struct, number, field⟩ := x
      rintro ⟨rfl, rfl, fields', heq, hfield⟩
      cases heq
      exact ⟨(field, number), List.mk_mem_zipIdx_iff_getElem?.2 hfield, rfl⟩
  · next hother =>
    constructor
    · intro h
      cases h
    · rintro ⟨-, -, fields, heq, -⟩
      exact absurd heq (hother _ _)

theorem pairwise_zipIdx {α : Type u} (l : List α) : l.zipIdx.Pairwise fun a b => a.2 < b.2 := by
  have h : (l.zipIdx.map Prod.snd).Pairwise (· < ·) := by
    rw [List.zipIdx_map_snd]
    exact List.pairwise_lt_range' 1
  exact List.pairwise_map.1 h

namespace Crate

variable {c : Crate}

/-- The sites of a crate are those of its modules, items and fields. -/
theorem mem_fieldSites (hc : c.Coherent) {x : FieldSite} : x ∈ c.fieldSites ↔ x.IsIn c := by
  simp only [fieldSites, List.mem_flatMap, Item.mem_fieldSites, FieldSite.IsIn, mem_moduleList]
  constructor
  · rintro ⟨m, ⟨home, hm⟩, ⟨item, k⟩, hitem, rfl, hk, fields, rfl, hfield⟩
    obtain rfl : x.item = k := hk
    rw [(hc home x.home hm).1]
    exact ⟨hm, fields, List.mk_mem_zipIdx_iff_getElem?.1 hitem, hfield⟩
  · rintro ⟨hm, fields, hitem, hfield⟩
    exact ⟨x.home, ⟨_, hm⟩, (_, x.item), List.mk_mem_zipIdx_iff_getElem?.2 hitem, rfl, rfl, fields,
      rfl, hfield⟩

/-- Sites come in the order of modules, items and fields. -/
theorem pairwise_fieldSites (hc : c.Coherent) : c.fieldSites.Pairwise FieldSite.Before := by
  refine List.pairwise_flatMap.2 ⟨fun m _ => List.pairwise_flatMap.2 ⟨?_, ?_⟩, ?_⟩
  · -- fields of one struct
    rintro ⟨item, k⟩ -
    unfold Item.fieldSites
    split
    · refine List.pairwise_map.2 ((pairwise_zipIdx _).imp fun hlt => ?_)
      exact .inr ⟨rfl, .inr ⟨rfl, hlt⟩⟩
    · exact .nil
  · -- fields of two structs of a module
    refine (pairwise_zipIdx _).imp fun hlt x hx y hy => ?_
    obtain ⟨hx, hxk, -⟩ := Item.mem_fieldSites.1 hx
    obtain ⟨hy, hyk, -⟩ := Item.mem_fieldSites.1 hy
    exact .inr ⟨by rw [hx, hy], .inl (by omega)⟩
  · -- fields of two modules
    refine hc.pairwise_home.imp fun hlt x hx y hy => ?_
    obtain ⟨i, -, hx⟩ := List.mem_flatMap.1 hx
    obtain ⟨j, -, hy⟩ := List.mem_flatMap.1 hy
    refine .inl ?_
    rwa [(Item.mem_fieldSites.1 hx).1, (Item.mem_fieldSites.1 hy).1]

end Crate

/-! ### Marked fields in order -/

namespace MarkedField

/-- The fields of an item are made of its sites. -/
theorem filterMap_marked?_fieldSites (marker : String) (m : Module) (k : Nat) (i : Item) :
    (i.fieldSites m k).filterMap (FieldSite.marked? marker) = ofItem marker m i := by
  cases i with
  | struct name fields =>
    cases fields with
    | named fields =>
      have hfst : fields.filterMap (ofField? marker m (.qualify m.home name)) =
          (fields.zipIdx.map Prod.fst).filterMap (ofField? marker m (.qualify m.home name)) := by
        rw [List.zipIdx_map_fst]
      rw [Item.fieldSites, ofItem, hfst, List.filterMap_map, List.filterMap_map]
      rfl
    | _ => rfl
  | _ => rfl

/-- The scan makes a field of each marked site. -/
theorem scan_eq_filterMap (marker : String) (c : Crate) :
    scan marker c = c.fieldSites.filterMap (FieldSite.marked? marker) := by
  rw [scan, Crate.fieldSites, List.filterMap_flatMap]
  refine List.flatMap_congr fun m _ => ?_
  rw [List.filterMap_flatMap]
  simp only [filterMap_marked?_fieldSites]
  rw [← List.flatMap_map Prod.fst, List.zipIdx_map_fst]

open Classical in
/-- Field by field, the marked sites are described. -/
theorem forall₂_describes (marker : String) (sites : List FieldSite) :
    List.Forall₂ (FieldSite.Describes marker) (sites.filter fun x => x.IsMarked marker)
      (sites.filterMap (FieldSite.marked? marker)) := by
  induction sites with
  | nil => exact .nil
  | cons x r ih =>
    cases hx : x.marked? marker with
    | none =>
      have hnot : ¬ x.IsMarked marker := FieldSite.marked?_eq_none_iff.1 hx
      rw [List.filterMap_cons_none hx, List.filter_cons_of_neg (by simpa using hnot)]
      exact ih
    | some f =>
      have hmarked : x.IsMarked marker := by
        refine Classical.not_not.1 fun hnot => ?_
        rw [FieldSite.marked?_eq_none_iff.2 hnot] at hx
        cases hx
      rw [List.filterMap_cons_some hx, List.filter_cons_of_pos (by simpa using hmarked)]
      exact .cons (FieldSite.describes_of_marked? hx) ih

/-- The marked fields of a crate are described by its sites with an attribute of the given name, one
by one and in the order of the sites. -/
theorem exists_sites_scan {c : Crate} (hc : c.Coherent) (marker : String) :
    ∃ sites : List FieldSite, sites.Pairwise FieldSite.Before ∧
      (∀ x, x ∈ sites ↔ x.IsIn c ∧ x.IsMarked marker) ∧
      List.Forall₂ (FieldSite.Describes marker) sites (scan marker c) := by
  classical
  refine ⟨c.fieldSites.filter fun x => x.IsMarked marker,
    (Crate.pairwise_fieldSites hc).filter _, fun x => ?_, ?_⟩
  · rw [List.mem_filter, Crate.mem_fieldSites hc, decide_eq_true_eq]
  · rw [scan_eq_filterMap]
    exact forall₂_describes marker c.fieldSites

/-! ### Groups -/

/-- In the groups, the fields of a type stand as they come. -/
theorem ofType_inGroups (t : TypeName) (fields : List MarkedField) :
    ofType t (inGroups fields) = ofType t fields := by
  have hnodup : (enclosingTypes fields).Nodup :=
    SortedMap.nodup_of_pairwise_lt (enclosingTypes_pairwise fields)
  rw [ofType, filter_inGroups_eq_flatMap (fun u => u = t), List.filter_eq,
    hnodup.count]
  split
  · rw [List.replicate_one, List.flatMap_singleton]
  · next ht =>
    rw [List.replicate_zero, List.flatMap_nil, eq_comm, ofType, List.filter_eq_nil_iff]
    intro f hf heq
    exact ht (mem_enclosingTypes.2 ⟨f, hf, by simpa using heq⟩)

/-- Groups come in the order of their types. -/
theorem pairwise_inGroups (fields : List MarkedField) :
    (inGroups fields).Pairwise fun f g => (compare f.enclosing g.enclosing).isLE = true := by
  refine List.pairwise_flatMap.2 ⟨fun t _ => ?_, ?_⟩
  · refine List.pairwise_of_forall_mem_list fun f hf g hg => ?_
    rw [(mem_ofType.1 hf).2, (mem_ofType.1 hg).2, Std.ReflOrd.compare_self]
    rfl
  · refine (enclosingTypes_pairwise fields).imp fun hlt f hf g hg => ?_
    rw [(mem_ofType.1 hf).2, (mem_ofType.1 hg).2, hlt]
    rfl

/-- Going through the groups sorts the fields by enclosing type, and keeps those of one type in
their order. -/
theorem inGroups_eq_mergeSort (fields : List MarkedField) : inGroups fields =
    fields.mergeSort fun f g => (compare f.enclosing g.enclosing).isLE :=
  SortedMap.eq_of_pairwise_isLE enclosing (pairwise_inGroups fields)
    (SortedMap.pairwise_mergeSort enclosing fields) fun t =>
      (ofType_inGroups t fields).trans (SortedMap.filter_mergeSort enclosing fields t).symm

end MarkedField

namespace FieldGroups

open MarkedField

theorem getD_get?_ofFields (fields : List MarkedField) (t : TypeName) :
    (SortedMap.get? (ofFields fields) t).getD [] = ofType t fields := by
  rw [get?_ofFields]
  split
  · next hnil => exact hnil.symm
  · rfl

/-- A group is all the fields of its type, and is not empty. -/
theorem get?_ofFields_eq_some_iff {fields group : List MarkedField} {t : TypeName} :
    SortedMap.get? (ofFields fields) t = some group ↔ group ≠ [] ∧ group = ofType t fields := by
  rw [get?_ofFields]
  split
  · next hnil => simp [hnil]
  · next hne =>
    rw [Option.some.injEq]
    constructor
    · rintro rfl
      exact ⟨hne, rfl⟩
    · rintro ⟨-, rfl⟩
      rfl

/-- Lists of fields have the same groups exactly when each type has the same fields, in the same
order, in both. -/
theorem ofFields_eq_iff {fields fields' : List MarkedField} :
    ofFields fields' = ofFields fields ↔ ∀ t, ofType t fields' = ofType t fields := by
  constructor
  · intro h t
    rw [← getD_get?_ofFields, ← getD_get?_ofFields, h]
  · intro h
    refine SortedMap.ext_get? fun t => ?_
    rw [get?_ofFields, get?_ofFields, h t]

/-- Chaining the groups is going through the fields type by type. -/
theorem flatten_values_ofFields (fields : List MarkedField) :
    (SortedMap.values (ofFields fields)).flatten = inGroups fields := by
  have hvalues : SortedMap.values (ofFields fields) =
      (SortedMap.toList (ofFields fields)).map Prod.snd := rfl
  rw [hvalues, toList_ofFields, List.map_map, inGroups, List.flatMap_def]
  rfl

/-- However a crate was built, its marked fields are those that stand at its sites with an attribute
of the given name, each of them once, by namespace and then by declaration.  Whatever fields are
grouped, the groups are those of the enclosing types in strictly ascending order, a group is the
fields of its type as they come, every field is in one group, and another order of the fields makes
another index only if it is another order within a type.  To chain the groups is to sort the fields
by enclosing type, which keeps those of one type in their order. -/
theorem partition_scan (root : Namespace) (steps : List BuildStep) (marker : String) :
    (∃ sites : List FieldSite, sites.Pairwise FieldSite.Before ∧
      (∀ x, x ∈ sites ↔ x.IsIn (.build root steps) ∧ x.IsMarked marker) ∧
      List.Forall₂ (FieldSite.Describes marker) sites (scan marker (.build root steps))) ∧
    ∀ fields : List MarkedField,
      (ofFields fields).keys.Pairwise (fun t u => compare t u = .lt) ∧
      (∀ t, t ∈ (ofFields fields).keys ↔ ∃ f ∈ fields, f.enclosing = t) ∧
      (∀ t group, (ofFields fields).get? t = some group ↔
        group ≠ [] ∧ group = fields.filter fun f => f.enclosing = t) ∧
      (ofFields fields).values.flatten.Perm fields ∧
      (∀ fields' : List MarkedField, ofFields fields' = ofFields fields ↔
        ∀ t, (fields'.filter fun f => f.enclosing = t) = fields.filter fun f => f.enclosing = t) ∧
      (ofFields fields).values.flatten =
        fields.mergeSort fun f g => (compare f.enclosing g.enclosing).isLE := by
  refine ⟨exists_sites_scan (Crate.coherent_build root steps) marker, fun fields => ?_⟩
  refine ⟨SortedMap.keys_pairwise _, fun t => ?_, fun t group => get?_ofFields_eq_some_iff, ?_,
    fun fields' => ofFields_eq_iff, ?_⟩
  · rw [keys_ofFields, mem_enclosingTypes]
  · rw [flatten_values_ofFields]
    exact inGroups_perm fields
  · rw [flatten_values_ofFields, inGroups_eq_mergeSort]

end FieldGroups

end FieldBinder
