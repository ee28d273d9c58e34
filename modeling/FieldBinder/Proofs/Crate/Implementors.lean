import FieldBinder.Proofs.Crate.Base
import FieldBinder.Proofs.Crate.Built
import FieldBinder.Proofs.Crate.Closure

/-!
# The implementors of traits

What it is for a type to implement a trait directly, and for a trait to be a direct subtrait of
another one, is said in terms of the items of a crate alone (`Crate.Implements`, `Crate.Subtrait`).
The registry of a crate has the traits that items declare as keys, and holds for each of them the
types that implement it or a trait below it, as far as they live where they count; resolving a base
yields what the registry holds for the trait that the base leads to (`implementors_build`).
-/

namespace FieldBinder

namespace Crate

variable {c : Crate} {m : Module} {p : Path} {base t : TypeName}

/-! ### What the items of a crate say -/

variable (c) in
/-- Whether a path in a module leads to the declaration of a name as something of a kind. -/
def PathLeadsTo (m : Module) (p : Path) (t : TypeName) (kind : DeclKind) : Prop :=
  ∃ u, m.scope.resolve p = .ok u ∧ c.canonical? u = some (t, kind)

variable (c) in
/-- Whether an item declares a trait of this name. -/
def DeclaresTrait (base : TypeName) : Prop :=
  ∃ m ∈ c.moduleList, ∃ name bounds, Item.trait name bounds ∈ m.items ∧ base = ⟨m.home, name⟩

variable (c) in
/-- Whether an item without parameters implements a trait for a type. -/
def Implements (base t : TypeName) : Prop :=
  ∃ m ∈ c.moduleList, ∃ p self, Item.impl false false (some p) (.path self) ∈ m.items ∧
    c.PathLeadsTo m p base .trait ∧
    ∃ kind, (kind = .struct ∨ kind = .enum ∨ kind = .union) ∧ c.PathLeadsTo m self t kind

variable (c) in
/-- Whether an item declares a trait with a bound that leads to another trait. -/
def Subtrait (base t : TypeName) : Prop :=
  ∃ m ∈ c.moduleList, ∃ name bounds, Item.trait name bounds ∈ m.items ∧ t = ⟨m.home, name⟩ ∧
    ∃ parens optional binder p, Bound.trait parens optional binder p ∈ bounds ∧
      c.PathLeadsTo m p base .trait

/-! ### What the registry is made of -/

/-- A path names a trait if it leads to the declaration of one. -/
theorem traitOf?_eq_some_iff : c.traitOf? m p = some base ↔ c.PathLeadsTo m p base .trait := by
  unfold traitOf? PathLeadsTo
  constructor
  · intro h
    split at h
    · cases h
    · next u hu =>
      split at h
      · next t ht =>
        cases h
        exact ⟨u, hu, ht⟩
      · cases h
  · rintro ⟨u, hu, ht⟩
    simp only [hu, ht]

theorem isConcrete_iff {kind : DeclKind} :
    kind.isConcrete = true ↔ kind = .struct ∨ kind = .enum ∨ kind = .union := by
  cases kind <;> decide

/-- A path names a type with values if it leads to a struct, an enum or a union. -/
theorem concreteOf?_eq_some_iff : c.concreteOf? m p = some t ↔
    ∃ kind, (kind = .struct ∨ kind = .enum ∨ kind = .union) ∧ c.PathLeadsTo m p t kind := by
  simp only [concreteOf?, PathLeadsTo, ← isConcrete_iff]
  constructor
  · intro h
    split at h
    · cases h
    · next u hu =>
      split at h
      · next t' kind ht =>
        split at h
        · next hk =>
          cases h
          exact ⟨kind, hk, u, hu, ht⟩
        · cases h
      · cases h
  · rintro ⟨kind, hk, u, hu, ht⟩
    simp only [hu, ht, if_pos hk]

/-- The traits of a crate are those that one of its modules declares. -/
theorem mem_traits : base ∈ c.traits ↔ c.DeclaresTrait base := by
  rw [traits, List.mem_flatMap]
  refine exists_congr fun m => and_congr_right fun _ => ?_
  rw [List.mem_filterMap]
  constructor
  · rintro ⟨i, hi, h⟩
    cases i with
    | trait name bounds =>
      cases h
      exact ⟨name, bounds, hi, rfl⟩
    | _ => cases h
  · rintro ⟨name, bounds, hi, rfl⟩
    exact ⟨_, hi, rfl⟩

/-- An item counts as an implementation if it is neither negative nor generic, and both its paths
lead to something of the right kind. -/
theorem implementation?_eq_some_iff {i : Item} : c.implementation? m i = some (base, t) ↔
    ∃ p self, i = .impl false false (some p) (.path self) ∧ c.PathLeadsTo m p base .trait ∧
      ∃ kind, (kind = .struct ∨ kind = .enum ∨ kind = .union) ∧ c.PathLeadsTo m self t kind := by
  simp only [← traitOf?_eq_some_iff, ← concreteOf?_eq_some_iff]
  rw [implementation?.eq_def]
  constructor
  · intro h
    split at h
    · next p self =>
      obtain ⟨b, hb, h⟩ := Option.bind_eq_some_iff.1 h
      obtain ⟨u, hu, h⟩ := Option.bind_eq_some_iff.1 h
      cases h
      exact ⟨p, self, rfl, hb, hu⟩
    · cases h
  · rintro ⟨p, self, rfl, hb, hu⟩
    simp only [hb, hu, Option.bind_eq_bind, Option.bind_some, pure]

/-- The pairs are those of the implementations in any module. -/
theorem mem_implementations : (base, t) ∈ c.implementations ↔ c.Implements base t := by
  rw [implementations, List.mem_flatMap]
  refine exists_congr fun m => and_congr_right fun _ => ?_
  simp only [List.mem_filterMap, implementation?_eq_some_iff]
  constructor
  · rintro ⟨_, hi, p, self, rfl, h⟩
    exact ⟨p, self, hi, h⟩
  · rintro ⟨p, self, hi, h⟩
    exact ⟨_, hi, p, self, rfl, h⟩

/-- A trait is below those that its bounds name, whatever stands in front of the names. -/
theorem mem_subtraitPairs {i : Item} : (base, t) ∈ c.subtraitPairs m i ↔
    ∃ name bounds, i = .trait name bounds ∧ t = ⟨m.home, name⟩ ∧
      ∃ parens optional binder p, Bound.trait parens optional binder p ∈ bounds ∧
        c.PathLeadsTo m p base .trait := by
  simp only [← traitOf?_eq_some_iff]
  constructor
  · intro h
    cases i with
    | trait name bounds =>
      obtain ⟨p, hp, h⟩ := List.mem_filterMap.1 h
      obtain ⟨b, hb, hbound⟩ := List.mem_filterMap.1 hp
      obtain ⟨base', hbase, h⟩ := Option.map_eq_some_iff.1 h
      cases h
      -- A bound that is no trait, such as a lifetime, is passed over.
      cases b with
      | trait parens optional binder q =>
        cases hbound
        exact ⟨name, bounds, rfl, rfl, parens, optional, binder, p, hb, hbase⟩
      | _ => cases hbound
    | _ => cases h
  · rintro ⟨name, bounds, rfl, rfl, parens, optional, binder, p, hb, hbase⟩
    refine List.mem_filterMap.2 ⟨p, List.mem_filterMap.2 ⟨_, hb, rfl⟩, ?_⟩
    rw [hbase]
    rfl

/-- The pairs are those of the declarations of traits in any module. -/
theorem mem_subtraits : (base, t) ∈ c.subtraits ↔ c.Subtrait base t := by
  rw [subtraits, List.mem_flatMap]
  refine exists_congr fun m => and_congr_right fun _ => ?_
  simp only [List.mem_flatMap, mem_subtraitPairs]
  constructor
  · rintro ⟨_, hi, name, bounds, rfl, h⟩
    exact ⟨name, bounds, hi, h⟩
  · rintro ⟨name, bounds, hi, h⟩
    exact ⟨_, hi, name, bounds, rfl, h⟩

/-- What implements a trait is declared, as a type with values. -/
theorem Implements.exists_lookup? (h : c.Implements base t) :
    ∃ kind : DeclKind, kind.isConcrete = true ∧ c.lookup? t = some kind := by
  obtain ⟨m, -, p, self, -, -, kind, hk, u, -, hu⟩ := h
  exact ⟨kind, isConcrete_iff.2 hk, lookup?_of_canonical? hu⟩

/-- A name that leads to a trait leads to one that an item declares. -/
theorem Coherent.declaresTrait_of_canonical? (hc : c.Coherent)
    (h : c.canonical? t = some (base, .trait)) : c.DeclaresTrait base := by
  obtain ⟨m, hm, hhome, i, hi, hdecl⟩ := hc.exists_item_of_lookup? (lookup?_of_canonical? h)
  cases i with
  | trait name bounds =>
    cases hdecl
    exact ⟨m, hm, _, bounds, hi, by rw [hhome]⟩
  | _ => cases hdecl

end Crate

/-! ### The registry -/

namespace Implementors

variable {c : Crate} {nested : Bool} {base t : TypeName}

/-- A type counts for a trait in its module, or below that if nested modules count too. -/
theorem counts_iff : counts nested base t = true ↔
    t.home = base.home ∨ (nested = true ∧ base.home.segments <+: t.home.segments) := by
  cases nested with
  | false => simp [counts]
  | true =>
    simp only [counts, if_true, Namespace.isWithin_iff, true_and]
    exact ⟨.inr, fun h => h.elim (fun heq => heq ▸ List.prefix_rfl) id⟩

variable (c nested) in
/-- The types that the registry of a crate holds for a trait. -/
def setFor (base : TypeName) : TypeSet :=
  .ofList ((targets c.implementations (reachable c.subtraits base)).filter (counts nested base))

/-- The registry has an entry for each trait of the crate, and no other. -/
theorem of?_ofCrate :
    (ofCrate c nested).of? base =
      if base ∈ c.traits then some (setFor c nested base) else none := by
  have hkeys : (c.traits.map fun b => (b, setFor c nested b)).map (·.1) = c.traits := by
    simp [Function.comp_def]
  rw [← hkeys]
  refine SortedMap.get?_ofList (g := setFor c nested) _ (fun e he => ?_) base
  obtain ⟨b, -, rfl⟩ := List.mem_map.1 he
  rfl

/-- The entry of a trait holds what implements it or a trait below it, in any number of steps, as
far as that counts. -/
theorem mem_setFor : t ∈ (setFor c nested base).members ↔
    (∃ b, Relation.ReflTransGen c.Subtrait base b ∧ c.Implements b t) ∧
    (t.home = base.home ∨ (nested = true ∧ base.home.segments <+: t.home.segments)) := by
  rw [setFor, TypeSet.mem_members_ofList, List.mem_filter, mem_targets, counts_iff]
  simp only [mem_reachable, Crate.mem_subtraits, Crate.mem_implementations]

/-- Nothing that the registry holds is dropped when a base is resolved. -/
theorem filterKeys_setFor :
    (setFor c nested base).filterKeys (fun t => (c.lookup? t).any DeclKind.isConcrete) =
      setFor c nested base := by
  refine TypeSet.filterKeys_eq_self fun t ht => ?_
  obtain ⟨⟨b, -, himpl⟩, -⟩ := mem_setFor.1 ht
  obtain ⟨kind, hk, hlookup⟩ := himpl.exists_lookup?
  rw [hlookup]
  exact hk

/-- A base that leads to a trait has the entry of that trait. -/
theorem resolve_ofCrate (hc : c.Coherent) {b : TypeName}
    (h : c.canonical? b = some (base, .trait)) :
    (ofCrate c nested).resolve c b = .ok (setFor c nested base) := by
  have hmem : base ∈ c.traits := Crate.mem_traits.2 (hc.declaresTrait_of_canonical? h)
  rw [resolve, h]
  simp only [of?_ofCrate, if_pos hmem, if_true, Option.getD_some, filterKeys_setFor]

/-- The keys of the registry are the declared traits. -/
theorem mem_keys_ofCrate : base ∈ (ofCrate c nested).byTrait.keys ↔ c.DeclaresTrait base := by
  rw [SortedMap.mem_keys_iff, ← Crate.mem_traits]
  show ((ofCrate c nested).of? base).isSome ↔ _
  rw [of?_ofCrate]
  split <;> simp_all

/-- However a crate was built, its registry has the traits that items declare as keys, and holds
for each of them the types that implement it, or a trait below it, and live where they count; a
base resolves to what the registry holds for the trait that the base leads to, and to a fault when
it leads to none. -/
theorem implementors_build (root : Namespace) (steps : List BuildStep) (nested : Bool) :
    let c := Crate.build root steps
    let registry := ofCrate c nested
    (∀ base, base ∈ registry.byTrait.keys ↔ c.DeclaresTrait base) ∧
    (∀ base set, registry.of? base = some set → ∀ t, t ∈ set.members ↔
      (∃ b, Relation.ReflTransGen c.Subtrait base b ∧ c.Implements b t) ∧
      (t.home = base.home ∨ (nested = true ∧ base.home.segments <+: t.home.segments))) ∧
    (∀ b e, registry.resolve c b = .error e ↔ e.IsFor c b) ∧
    ∀ b set, registry.resolve c b = .ok set ↔
      ∃ base, c.canonical? b = some (base, .trait) ∧ registry.of? base = some set := by
  intro c registry
  have hc : c.Coherent := Crate.coherent_build root steps
  refine ⟨fun base => mem_keys_ofCrate, fun base set h t => ?_, fun b e => resolve_eq_error_iff,
    fun b set => ?_⟩
  · rw [of?_ofCrate] at h
    split at h
    · cases h
      exact mem_setFor
    · cases h
  -- What a path leads to is declared as a trait, so the registry has a set for it.
  have hof {base : TypeName} (h : c.canonical? b = some (base, .trait)) :
      registry.of? base = some (setFor c nested base) := by
    rw [of?_ofCrate, if_pos (Crate.mem_traits.2 (hc.declaresTrait_of_canonical? h))]
  constructor
  · intro hr
    obtain ⟨base, hbase⟩ := leadsToTrait_of_resolve_eq_ok hr
    rw [resolve_ofCrate hc hbase] at hr
    cases hr
    exact ⟨base, hbase, hof hbase⟩
  · rintro ⟨base, hbase, hset⟩
    rw [hof hbase] at hset
    cases hset
    exact resolve_ofCrate hc hbase

end Implementors

end FieldBinder
