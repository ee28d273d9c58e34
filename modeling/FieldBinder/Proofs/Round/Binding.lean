import FieldBinder.Proofs.Crate.Base
import FieldBinder.Proofs.Field.Groups
import FieldBinder.Round

/-!
# The loops of a round

One step of a round (`bindField`) either goes on, and then what it adds is what the field alone
accounts for (`bindField_of_not_isFatal`), or ends the round at a field whose complete directive
names a base that is no trait (`bindField_of_isFatal`).  By induction over the fields of a type
and over the types, a round that meets no such field has added up what all fields account for
(`bindAll_of_forall_not_isFatal`), and a round that meets one has reported the fields before it
and nothing behind it (`bindAll_of_isFatal`).
-/

namespace FieldBinder

/-! ### What a field accounts for -/

namespace MarkedField

/-- The types that the directive of a field means, if it is complete. -/
def meaning? (f : MarkedField) : Option Directive.Meaning :=
  match f.directive.extract with
  | .ok meaning => some meaning
  | .error _ => none

/-- What the directive of a field lacks, if it is incomplete. -/
def gap? (f : MarkedField) : Option Directive.Gap :=
  match f.directive.extract with
  | .ok _ => none
  | .error gap => some gap

/-- Whether the directive of a field is complete and names a base that is no trait. -/
def IsFatal (c : Crate) (f : MarkedField) : Prop :=
  ∃ meaning, f.meaning? = some meaning ∧ ¬ c.LeadsToTrait meaning.base

/-- The stub line of a field, if its directive is complete. -/
def stub? (f : MarkedField) : Option String := f.meaning?.map (BinderUnit.stubLine f)

end MarkedField

namespace Round

open MarkedField

variable (r : Round) (c : Crate) (registry : Implementors)

/-- The diagnostic about a field that is left out. -/
def notice? (f : MarkedField) : Option Diagnostic :=
  f.gap?.map fun gap => .onField f (r.marker ++ ": " ++ gap.message)

/-- The base that the stub line of a field names, with the number of its implementors. -/
def count? (f : MarkedField) : Option (TypeName × Nat) :=
  f.meaning?.bind fun meaning =>
    match registry.resolve c meaning.base with
    | .ok set => some (meaning.base, set.size)
    | .error _ => none

/-- How far a round has come after some more fields of the type at hand. -/
def Progress.past (p : Progress) (fields : List MarkedField) : Progress :=
  { log := p.log ++ fields.filterMap r.notice?
    report := { p.report with
      skipped := p.report.skipped + (fields.filterMap r.notice?).length
      implementors := (fields.filterMap (count? c registry)).foldl
        (fun m e => m.insert e.1 e.2) p.report.implementors }
    stubs := p.stubs ++ fields.filterMap stub? }

/-- No fields account for nothing. -/
theorem Progress.past_nil (p : Progress) : p.past r c registry [] = p := by
  simp [past]

/-- What two lists of fields account for adds up. -/
theorem Progress.past_past (p : Progress) (l l' : List MarkedField) :
    (p.past r c registry l).past r c registry l' = p.past r c registry (l ++ l') := by
  simp [past, List.foldl_append, Nat.add_assoc]

/-! ### One field -/

variable {r c registry}

/-- A field that does not end the round adds its stub and its count, or its notice. -/
theorem bindField_of_not_isFatal {f : MarkedField} (h : ¬ f.IsFatal c) (p : Progress) :
    r.bindField c registry p f = .ok (p.past r c registry [f]) := by
  cases he : f.directive.extract with
  | error gap =>
    have hg : f.gap? = some gap := by rw [gap?, he]
    have hm : f.meaning? = none := by rw [meaning?, he]
    simp [bindField, judge, he, Progress.past, notice?, stub?, count?, hg, hm]
  | ok meaning =>
    have hg : f.gap? = none := by rw [gap?, he]
    have hm : f.meaning? = some meaning := by rw [meaning?, he]
    have hb : c.LeadsToTrait meaning.base := Classical.not_not.1 fun hb => h ⟨meaning, hm, hb⟩
    -- the base is a trait, so resolving it cannot fail
    obtain ⟨set, hset⟩ := Implementors.exists_resolve_of_leadsToTrait hb registry
    simp [bindField, judge, he, hset, Progress.past, notice?, stub?, count?, hg, hm]

/-- How a round ends at a field whose base is no trait. -/
def endAt (log : List Diagnostic) (f : MarkedField) (e : Implementors.BaseFault) : Ended :=
  let fault := RoundFault.resolution f.enclosing e
  (log ++ [.onField f fault.message], fault)

/-- A complete directive with a base that is no trait ends the round, with an error about the
field. -/
theorem bindField_of_isFatal {f : MarkedField} {meaning : Directive.Meaning}
    {e : Implementors.BaseFault} (hm : f.meaning? = some meaning) (he : e.IsFor c meaning.base)
    (p : Progress) : r.bindField c registry p f = .error (endAt p.log f e) := by
  have hx : f.directive.extract = .ok meaning := by
    rw [meaning?] at hm
    split at hm
    · next hx => rw [hx, Option.some.inj hm]
    · cases hm
  rw [bindField, judge, hx]
  simp only [Implementors.resolve_eq_error_iff.2 he, endAt]

/-! ### The fields of a type -/

/-- The fields of a type add up as long as none ends the round. -/
theorem foldlM_bindField {fields : List MarkedField} (h : ∀ f ∈ fields, ¬ f.IsFatal c)
    (p : Progress) :
    fields.foldlM (r.bindField c registry) p = .ok (p.past r c registry fields) := by
  induction fields generalizing p with
  | nil => rw [Progress.past_nil]; rfl
  | cons f rest ih =>
    rw [List.foldlM_cons, bindField_of_not_isFatal (h f List.mem_cons_self)]
    show rest.foldlM (r.bindField c registry) (p.past r c registry [f]) = _
    rw [ih fun g hg => h g (List.mem_cons_of_mem _ hg), Progress.past_past,
      List.singleton_append]

/-- The first field that ends the round does so behind the notices of those before it. -/
theorem foldlM_bindField_of_isFatal {before after : List MarkedField} {f : MarkedField}
    {meaning : Directive.Meaning} {e : Implementors.BaseFault}
    (hb : ∀ g ∈ before, ¬ g.IsFatal c) (hm : f.meaning? = some meaning)
    (he : e.IsFor c meaning.base) (p : Progress) :
    (before ++ f :: after).foldlM (r.bindField c registry) p =
      .error (endAt (p.log ++ before.filterMap r.notice?) f e) := by
  rw [List.foldlM_append, foldlM_bindField hb]
  show (f :: after).foldlM (r.bindField c registry) (p.past r c registry before) = _
  rw [List.foldlM_cons, bindField_of_isFatal hm he]
  rfl

/-! ### All types -/

variable (r c registry) in
/-- How far a round has come after some more types with their fields. -/
def Progress.pastGroups (p : Progress) (groups : List (TypeName × List MarkedField)) : Progress :=
  let fields := groups.flatMap (·.2)
  { log := p.log ++ fields.filterMap r.notice?
    report :=
      { units := p.report.units ++
          groups.map fun g => .ofStubs r.root r.unitSuffix g.1 (g.2.filterMap stub?)
        emitted := p.report.emitted + (fields.filterMap stub?).length
        skipped := p.report.skipped + (fields.filterMap r.notice?).length
        implementors := (fields.filterMap (count? c registry)).foldl
          (fun m e => m.insert e.1 e.2) p.report.implementors } }

/-- What the types account for adds up. -/
theorem Progress.pastGroups_cons (p : Progress) (g : TypeName × List MarkedField)
    (gs : List (TypeName × List MarkedField)) :
    (p.pastGroups r c registry [g]).pastGroups r c registry gs =
      p.pastGroups r c registry (g :: gs) := by
  simp [pastGroups, List.foldl_append, Nat.add_assoc]

/-- A type makes one unit of the stubs of its fields, and leaves no stubs over for the next. -/
theorem bindGroup_of_forall_not_isFatal {g : TypeName × List MarkedField}
    (h : ∀ f ∈ g.2, ¬ f.IsFatal c) {p : Progress} (hp : p.stubs = []) :
    r.bindGroup c registry p g = .ok (p.pastGroups r c registry [g]) := by
  rw [bindGroup, foldlM_bindField h]
  show Except.ok _ = _
  simp [Progress.past, Progress.pastGroups, hp]

/-- The types add up as long as no field ends the round. -/
theorem foldlM_bindGroup {groups : List (TypeName × List MarkedField)}
    (h : ∀ f ∈ groups.flatMap (·.2), ¬ f.IsFatal c) {p : Progress} (hp : p.stubs = []) :
    groups.foldlM (r.bindGroup c registry) p = .ok (p.pastGroups r c registry groups) := by
  induction groups generalizing p with
  | nil =>
    -- between types no stubs are left
    obtain ⟨log, report, stubs⟩ := p
    cases hp
    simp [Progress.pastGroups, pure, Except.pure]
  | cons g rest ih =>
    rw [List.flatMap_cons] at h
    rw [List.foldlM_cons, bindGroup_of_forall_not_isFatal
      (fun f hf => h f (List.mem_append_left _ hf)) hp]
    show rest.foldlM (r.bindGroup c registry) (p.pastGroups r c registry [g]) = _
    rw [ih (fun f hf => h f (List.mem_append_right _ hf)) rfl, Progress.pastGroups_cons]

/-- The first field that ends the round may belong to any of the types. -/
theorem foldlM_bindGroup_of_isFatal {groups : List (TypeName × List MarkedField)}
    {before after : List MarkedField} {f : MarkedField} {meaning : Directive.Meaning}
    {e : Implementors.BaseFault} (hs : groups.flatMap (·.2) = before ++ f :: after)
    (hb : ∀ g ∈ before, ¬ g.IsFatal c) (hm : f.meaning? = some meaning)
    (he : e.IsFor c meaning.base) {p : Progress} (hp : p.stubs = []) :
    groups.foldlM (r.bindGroup c registry) p =
      .error (endAt (p.log ++ before.filterMap r.notice?) f e) := by
  induction groups generalizing p before with
  | nil => simp at hs
  | cons g rest ih =>
    rw [List.flatMap_cons, List.append_eq_append_iff] at hs
    rw [List.foldlM_cons]
    rcases hs with ⟨before', rfl, hrest⟩ | ⟨after', hg, hrest⟩
    · -- the field belongs to a later type
      rw [bindGroup_of_forall_not_isFatal
        (fun g hg => hb g (List.mem_append_left _ hg)) hp]
      show rest.foldlM (r.bindGroup c registry) (p.pastGroups r c registry [g]) = _
      rw [ih hrest (fun g hg => hb g (List.mem_append_right _ hg)) rfl]
      simp [Progress.pastGroups, List.append_assoc]
    · cases after' with
      | nil =>
        -- the field is the first one of a later type
        rw [List.append_nil] at hg
        have hnone : ∀ g ∈ ([] : List MarkedField), ¬ g.IsFatal c := by simp
        have hfirst : rest.flatMap (·.2) = [] ++ f :: after := hrest.symm
        rw [bindGroup_of_forall_not_isFatal (hg ▸ hb) hp]
        show rest.foldlM (r.bindGroup c registry) (p.pastGroups r c registry [g]) = _
        rw [ih hfirst hnone rfl]
        simp [Progress.pastGroups, hg]
      | cons f' after'' =>
        -- the field belongs to this type
        obtain ⟨rfl, -⟩ := List.cons.inj hrest
        rw [bindGroup, hg, foldlM_bindField_of_isFatal hb hm he]
        rfl

/-! ### A whole round up to its units -/

variable (r c) in
/-- What a round comes to whose fields are all bound or left out. -/
def completed (log : List Diagnostic) : Progress :=
  let fields := MarkedField.scan r.marker c
  Progress.pastGroups r c (.ofCrate c r.includeNested) { log }
    ((enclosingTypes fields).map fun t => (t, ofType t fields))

/-- A round that no field ends comes to what all its fields account for. -/
theorem bindAll_of_forall_not_isFatal (h : ∀ f ∈ MarkedField.scan r.marker c, ¬ f.IsFatal c)
    (log : List Diagnostic) : r.bindAll c log = .ok (r.completed c log) := by
  rw [bindAll, FieldGroups.toList_ofFields, foldlM_bindGroup _ rfl]
  · rfl
  · intro f hf
    rw [List.flatMap_map] at hf
    exact h f (mem_inGroups.1 hf)

/-- A round ends at its first fatal field, in the order of the types. -/
theorem bindAll_of_isFatal {before after : List MarkedField} {f : MarkedField}
    {meaning : Directive.Meaning} {e : Implementors.BaseFault}
    (hs : inGroups (MarkedField.scan r.marker c) = before ++ f :: after)
    (hb : ∀ g ∈ before, ¬ g.IsFatal c) (hm : f.meaning? = some meaning)
    (he : e.IsFor c meaning.base) (log : List Diagnostic) :
    r.bindAll c log = .error (endAt (log ++ before.filterMap r.notice?) f e) := by
  have hs' : ((enclosingTypes (MarkedField.scan r.marker c)).map fun t =>
      (t, ofType t (MarkedField.scan r.marker c))).flatMap (·.2) = before ++ f :: after := by
    rw [List.flatMap_map]
    exact hs
  rw [bindAll, FieldGroups.toList_ofFields]
  exact foldlM_bindGroup_of_isFatal hs' hb hm he rfl

end Round

end FieldBinder
