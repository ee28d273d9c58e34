import FieldBinder.Name.Namespace

/-
  Qualified type names: a namespace and the simple name of a type in it.
-/
namespace FieldBinder

/-- A resolved reference to a type. -/
structure TypeName where
  home : Namespace
  name : String
deriving DecidableEq, Repr, Inhabited

namespace TypeName

/-- Type names are ordered by namespace, then by simple name. -/
instance : Ord TypeName := ⟨fun a b => (compare a.home b.home).then (compare a.name b.name)⟩

theorem compare_eq (a b : TypeName) :
    compare a b = (compare a.home b.home).then (compare a.name b.name) := rfl

instance : Std.TransOrd TypeName :=
  (inferInstance :
    Std.TransCmp (compareLex (compareOn TypeName.home) (compareOn TypeName.name)))

instance : Std.LawfulEqOrd TypeName where
  compare_self {a} := by simp
  eq_of_compare {a b} h := by
    rw [compare_eq, Ordering.then_eq_eq] at h
    have h1 := Std.LawfulEqOrd.eq_of_compare h.1
    have h2 := Std.LawfulEqOrd.eq_of_compare h.2
    cases a; cases b; simp_all

/-- The name of a type in a namespace. -/
def qualify (n : Namespace) (name : String) : TypeName := ⟨n, name⟩

/-- The type name whose last segment is the simple name. -/
def ofSegments? (l : List String) : Option TypeName :=
  l.getLast?.map fun name => ⟨⟨l.dropLast⟩, name⟩

/-- Read a path text whose last segment is the simple name. -/
def parse? (s : String) : Option TypeName :=
  (Namespace.parse? s).bind fun n => ofSegments? n.segments

/-- The namespace and the simple name as one path. -/
def segments (t : TypeName) : List String := t.home.segments ++ [t.name]

/-- The namespace that a module of this name has. -/
def asNamespace (t : TypeName) : Namespace := ⟨t.segments⟩

/-- The written form: `home::name`, or the simple name alone in the empty namespace. -/
def display (t : TypeName) : String :=
  if t.home.segments.isEmpty then t.name else t.home.display ++ "::" ++ t.name

@[simp] theorem ofSegments?_append (l : List String) (n : String) :
    ofSegments? (l ++ [n]) = some ⟨⟨l⟩, n⟩ := by
  simp [ofSegments?]

@[simp] theorem ofSegments?_segments (t : TypeName) : ofSegments? t.segments = some t :=
  ofSegments?_append ..

theorem segments_of_ofSegments? {l : List String} {t : TypeName}
    (h : ofSegments? l = some t) : t.segments = l := by
  rcases List.eq_nil_or_concat l with rfl | ⟨r, n, rfl⟩
  · simp [ofSegments?] at h
  · rw [List.concat_eq_append, ofSegments?_append] at h
    cases h
    simp [segments]

end TypeName

end FieldBinder
