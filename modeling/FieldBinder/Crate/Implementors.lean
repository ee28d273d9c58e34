import FieldBinder.Crate.Basic

/-
  The concrete implementors of traits.

  A type implements a trait directly by an implementation without parameters,
  and indirectly by implementing a trait below it.  Of these types only those
  are counted that live in the module of the trait, or in it and the modules
  below it.
-/
namespace FieldBinder

/-- A set of type names. -/
abbrev TypeSet := SortedMap TypeName Unit

namespace TypeSet

/-- The set of the members of a list. -/
def ofList (l : List TypeName) : TypeSet := SortedMap.ofList (l.map fun t => (t, ()))

/-- The members in ascending order. -/
def members (s : TypeSet) : List TypeName := s.keys

end TypeSet

namespace Crate

/-- The trait that a path means in a module. -/
def traitOf? (c : Crate) (m : Module) (p : Path) : Option TypeName :=
  match m.scope.resolve p with
  | .error _ => none
  | .ok t =>
    match c.canonical? t with
    | some (t, .trait) => some t
    | _ => none

/-- The concrete type that a path means in a module. -/
def concreteOf? (c : Crate) (m : Module) (p : Path) : Option TypeName :=
  match m.scope.resolve p with
  | .error _ => none
  | .ok t =>
    match c.canonical? t with
    | some (t, kind) => if kind.isConcrete then some t else none
    | none => none

/-- The trait that an item of a module declares. -/
def declaredTrait? (m : Module) : Item → Option TypeName
  | .trait name _ => some (.qualify m.home name)
  | _ => none

/-- The trait and the type of an implementation without parameters. -/
def implementation? (c : Crate) (m : Module) : Item → Option (TypeName × TypeName)
  | .impl false false (some base) (.path self) => do
    return (← c.traitOf? m base, ← c.concreteOf? m self)
  | _ => none

/-- The path of a bound that is a trait. -/
def boundPath? : Bound → Option Path
  | .trait _ _ _ p => some p
  | _ => none

/-- The traits above the trait that an item declares, each with this trait. -/
def subtraitPairs (c : Crate) (m : Module) : Item → List (TypeName × TypeName)
  | .trait name bounds =>
    (bounds.filterMap boundPath?).filterMap fun p =>
      (c.traitOf? m p).map fun base => (base, .qualify m.home name)
  | _ => []

/-- The traits that the modules declare. -/
def traits (c : Crate) : List TypeName :=
  c.moduleList.flatMap fun m => m.items.filterMap (declaredTrait? m)

/-- The traits of the crate with their direct implementors. -/
def implementations (c : Crate) : List (TypeName × TypeName) :=
  c.moduleList.flatMap fun m => m.items.filterMap (c.implementation? m)

/-- The traits of the crate with the traits directly below them. -/
def subtraits (c : Crate) : List (TypeName × TypeName) :=
  c.moduleList.flatMap fun m => m.items.flatMap (c.subtraitPairs m)

end Crate

/-! ### Closure -/

/-- The names that pairs lead to from names. -/
def targets (pairs : List (TypeName × TypeName)) (from_ : List TypeName) : List TypeName :=
  (pairs.filter fun p => from_.contains p.1).map (·.2)

/-- A name that was not seen accounts for the pairs that start from it. -/
theorem length_filter_unseen {t : TypeName} {seen : List TypeName} (ht : t ∉ seen)
    (pairs : List (TypeName × TypeName)) :
    (pairs.filter fun p => !(t :: seen).contains p.1).length + (targets pairs [t]).length =
      (pairs.filter fun p => !seen.contains p.1).length := by
  induction pairs with
  | nil => rfl
  | cons p r ih =>
    by_cases hp : p.1 = t
    · subst hp
      simp_all [targets]
      omega
    · by_cases hs : p.1 ∈ seen
      · simp_all [targets]
      · simp_all [targets]
        omega

/-- Go through pending names one by one; what pairs lead to from a name that was not seen
before is pending as well.  The names that were seen in the end. -/
def collect (pairs : List (TypeName × TypeName)) (seen : List TypeName) :
    List TypeName → List TypeName
  | [] => seen
  | t :: pending =>
    if t ∈ seen then collect pairs seen pending
    else collect pairs (t :: seen) (targets pairs [t] ++ pending)
-- a pair is pending at most once, when its start is seen
termination_by pending => (pairs.filter fun p => !seen.contains p.1).length + pending.length
decreasing_by
  · simp
  · have := length_filter_unseen ‹t ∉ seen› pairs
    simp only [List.length_append, List.length_cons]
    omega

/-- The names that pairs lead to from a name in any number of steps. -/
def reachable (pairs : List (TypeName × TypeName)) (start : TypeName) : List TypeName :=
  collect pairs [] [start]

/-! ### The registry -/

/-- The implementors of every trait. -/
structure Implementors where
  byTrait : SortedMap TypeName TypeSet
deriving Inhabited

namespace Implementors

/-- The registry without traits. -/
def empty : Implementors := ⟨.empty⟩

/-- Whether a type lives where the implementors of a trait are counted. -/
def counts (nested : Bool) (base t : TypeName) : Bool :=
  if nested then t.home.isWithin base.home else t.home = base.home

/-- The registry of a crate. -/
def ofCrate (c : Crate) (nested : Bool) : Implementors :=
  let implementations := c.implementations
  let subtraits := c.subtraits
  let ofTrait (base : TypeName) : TypeSet :=
    .ofList ((targets implementations (reachable subtraits base)).filter (counts nested base))
  ⟨.ofList (c.traits.map fun base => (base, ofTrait base))⟩

/-- The implementors of a trait, if the registry has it. -/
def of? (r : Implementors) (base : TypeName) : Option TypeSet := r.byTrait.get? base

/-! ### Bases of directives -/

/-- Why a base has no implementors. -/
inductive BaseFault
  | notATrait (base : TypeName) (kind : DeclKind)
  | unknown (base : TypeName)
deriving DecidableEq, Repr

/-- The words for a base without implementors. -/
def BaseFault.message : BaseFault → String
  | notATrait base kind =>
    "base type '" ++ base.display ++ "' is a " ++ kind.label ++ ", not a trait"
  | unknown base =>
    "base type '" ++ base.display ++
      "' cannot be loaded: it is not declared in the scanned sources"

/-- The implementors of the trait that a name leads to, as far as the crate still declares
them. -/
def resolve (r : Implementors) (c : Crate) (base : TypeName) : Except BaseFault TypeSet :=
  match c.canonical? base with
  | none => .error (.unknown base)
  | some (t, kind) =>
    if kind = .trait then
      .ok (((r.of? t).getD .empty).filterKeys fun u => (c.lookup? u).any DeclKind.isConcrete)
    else .error (.notATrait base kind)

end Implementors

end FieldBinder
