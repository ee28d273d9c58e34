import FieldBinder.Proofs.FileTree.Descent
import FieldBinder.Proofs.Round.Lines
import FieldBinder.Proofs.Sink.Agreement
import FieldBinder.Proofs.Text.AsciiName
import FieldBinder.Proofs.Text.SnakeCase

/-!
# The paths of units

The path of a unit leads through one directory for each module below the root to a file that is
named for the struct (`BinderUnit.components_pathOf`).  The names of modules have no slashes, but
one that comes from the name of a file can be `.` or `..`.  Where no module of a unit has such a
name, all paths are made of names, and the units of a round are for different files below whatever
directory they are written to (`Round.separate_units`).

Such a path tells the module and, up to the words of snake case, the struct
(`BinderUnit.same_pathOf_iff`), so a round that finds two units at one path has them from one module
(`Round.pathOf_below`).
-/

namespace FieldBinder

open FilePath (IsName IsPiece isName_iff)
open FileTree (locationOf)

/-! ### Words and suffixes -/

theorem isPiece_of_isNameText {w : String} (hw : IsNameText w) : IsPiece w := by
  constructor
  · rintro rfl
    obtain ⟨c, r, heq, -⟩ := hw.exists_cons
    cases heq
  · exact hw.slash_not_mem

theorem isName_of_isNameText {w : String} (hw : IsNameText w) : IsName w := by
  have hstart {text : String} (htext : text.toList.head? = some '.') : w ≠ text := by
    rintro rfl
    obtain ⟨c, r, heq, hc⟩ := hw.exists_cons
    rw [heq, List.head?_cons, Option.some.injEq] at htext
    rw [htext] at hc
    revert hc
    decide
  exact isName_iff.2 ⟨isPiece_of_isNameText hw, hstart (by decide), hstart (by decide)⟩

theorem isPiece_of_isAsciiIdent {w : String} (hw : Text.isAsciiIdent w = true) : IsPiece w :=
  have hname := (Text.isAsciiIdent_iff.1 hw).1
  ⟨hname.ne_empty, hname.continues.slash_not_mem⟩

theorem Settings.slash_not_mem_of_isSuffix {text : String} (h : isSuffix text = true) :
    '/' ∉ text.toList :=
  (isSuffix_iff.1 h).2.slash_not_mem

theorem isName_source {stem : String} (h : '/' ∉ stem.toList) : IsName (stem ++ ".rs") := by
  have hlength : 3 ≤ (stem ++ ".rs").toList.length := by
    rw [String.toList_append, List.length_append]
    exact Nat.le_add_left _ _
  have hne {text : String} (hshort : text.toList.length < 3) : stem ++ ".rs" ≠ text := by
    rintro rfl
    omega
  refine isName_iff.2 ⟨⟨hne (by decide), ?_⟩, hne (by decide), hne (by decide)⟩
  rw [String.toList_append, List.mem_append, not_or]
  exact ⟨h, by decide⟩

/-! ### The path of a unit -/

namespace Namespace

theorem mem_of_mem_relativeTo {n outer : Namespace} {segment : String}
    (h : segment ∈ n.relativeTo outer) : segment ∈ n.segments := by
  rw [relativeTo] at h
  split at h
  · exact List.mem_of_mem_drop h
  · exact h

/-- Below one root, the segments behind it tell namespaces apart. -/
theorem relativeTo_inj {n m outer : Namespace} (hn : n.isWithin outer = true)
    (hm : m.isWithin outer = true) : n.relativeTo outer = m.relativeTo outer ↔ n = m := by
  constructor
  · intro h
    have hsegments : n.segments = m.segments := by
      rw [← append_relativeTo hn, h, append_relativeTo hm]
    cases n
    cases m
    exact congrArg Namespace.mk hsegments
  · rintro rfl
    rfl

end Namespace

/-- A struct whose unit has a place: it is below the root, the modules that lead to it from there
have names that files can have, and its own name has no slash. -/
structure TypeName.Placed (root : Namespace) (t : TypeName) : Prop where
  within : t.home.isWithin root = true
  segments : ∀ segment ∈ t.home.relativeTo root, IsNameText segment ∨ IsName segment
  name : '/' ∉ t.name.toList

namespace BinderUnit

variable {root : Namespace} {suffix : String} {t u : TypeName}

/-- The path of a unit is made of the names of the modules below the root and of the name of the
file. -/
theorem components_pathOf (hhome : ∀ segment ∈ t.home.relativeTo root, IsName segment)
    (hname : '/' ∉ t.name.toList) (hsuffix : '/' ∉ suffix.toList) :
    (pathOf root suffix t).components =
      (t.home.relativeTo root ++ [Text.snakeCase (nameOf suffix t) ++ ".rs"]).map .normal := by
  have hsnake : '/' ∉ (Text.snakeCase (nameOf suffix t)).toList := by
    refine Text.slash_not_mem_snakeCase ?_
    rw [nameOf, String.toList_append, List.mem_append, not_or]
    exact ⟨hname, hsuffix⟩
  rw [pathOf, FilePath.components_join_name _ (isName_source hsnake),
    FilePath.components_ofSegments hhome, List.map_append, List.map_singleton]

/-- The names on the way to the unit of a struct: those of the modules below the root, and that of
the file. -/
def pathNames (root : Namespace) (suffix : String) (t : TypeName) : List String :=
  t.home.relativeTo root ++ [Text.snakeCase (nameOf suffix t) ++ ".rs"]

theorem components_pathOf_of_placed (ht : t.Placed root) (hsuffix : '/' ∉ suffix.toList) :
    (pathOf root suffix t).components = (pathNames root suffix t).map .normal :=
  components_pathOf (fun segment h => (ht.segments segment h).elim isName_of_isNameText id) ht.name
    hsuffix

/-- The segments tell the modules apart and the last name, the extension taken off, the units. -/
theorem pathNames_inj (ht : t.Placed root) (hu : u.Placed root) :
    pathNames root suffix t = pathNames root suffix u ↔
      t.home = u.home ∧
        Text.snakeCase (nameOf suffix t) = Text.snakeCase (nameOf suffix u) := by
  rw [pathNames, pathNames]
  constructor
  · intro h
    obtain ⟨hhome, hfile⟩ := List.append_inj' h (by simp only [List.length_singleton])
    exact ⟨(Namespace.relativeTo_inj ht.within hu.within).1 hhome,
      (String.append_left_inj _).1 (List.singleton_inj.1 hfile)⟩
  · rintro ⟨hhome, hname⟩
    rw [hhome, hname]

theorem same_pathOf_iff (ht : t.Placed root) (hu : u.Placed root) (hsuffix : '/' ∉ suffix.toList) :
    (pathOf root suffix t).same (pathOf root suffix u) = true ↔
      t.home = u.home ∧
        Text.snakeCase (nameOf suffix t) = Text.snakeCase (nameOf suffix u) := by
  rw [FilePath.same, beq_iff_eq, components_pathOf_of_placed ht hsuffix,
    components_pathOf_of_placed hu hsuffix,
    (List.map_injective_iff.2 fun _ _ => Component.normal.inj).eq_iff, pathNames_inj ht hu]

/-- Names lead down only, so the place of a unit is below the directory it is written to. -/
theorem location_join_pathOf (ht : t.Placed root) (hsuffix : '/' ∉ suffix.toList)
    (out : FilePath) :
    (pathOf root suffix t).isAbsolute = false ∧
      (out.join (pathOf root suffix t)).components =
        out.components ++ (pathNames root suffix t).map .normal ∧
      locationOf (out.join (pathOf root suffix t)).components =
        locationOf out.components ++ pathNames root suffix t := by
  have hpath := components_pathOf_of_placed ht hsuffix
  have hroot : .root ∉ (pathOf root suffix t).components := by
    rw [hpath]
    simp
  have hcurrent : .current ∉ (pathOf root suffix t).components := by
    rw [hpath]
    simp
  have hjoin := FilePath.components_join out hroot hcurrent
  rw [hpath] at hjoin
  refine ⟨FilePath.isAbsolute_eq_false hroot, hjoin, ?_⟩
  rw [hjoin, FileTree.locationOf_append_map_normal]

end BinderUnit

/-! ### The units of a round -/

namespace Round

open BinderUnit

variable {r : Round} {c : Crate}

/-- A unit is for a struct with marked fields, at the path of this struct. -/
theorem path_of_mem_units {u : BinderUnit} (hu : u ∈ r.units c) :
    u.path = pathOf r.root r.unitSuffix u.enclosing ∧
      ∃ f ∈ MarkedField.scan r.marker c, f.enclosing = u.enclosing := by
  obtain ⟨t, ht, rfl⟩ := List.mem_map.1 hu
  have henclosing := MarkedField.mem_enclosingTypes.1 ht
  simp only [ofStubs]
  exact ⟨trivial, henclosing⟩

/-- The structs with units are named by such words as the crate is. -/
theorem spelled_of_mem_units {P : String → Prop} (hP : ∀ w, IsNameText w → P w) (hc : c.Spelled P)
    (hcoherent : c.Coherent) {u : BinderUnit} (hu : u ∈ r.units c) : u.enclosing.Spelled P := by
  obtain ⟨-, f, hf, henclosing⟩ := path_of_mem_units hu
  obtain ⟨m, hm, name, fields, hitem, field, -, hfield⟩ := MarkedField.mem_scan.1 hf
  rw [← henclosing, (MarkedField.ofField?_eq_some hfield).1]
  exact hc.spelled_struct hP hcoherent hm hitem

/-- Units for different files have paths that are made of names if no module of one is called `.` or
`..`. -/
theorem separate_units (hc : c.Spelled IsPiece) (hcoherent : c.Coherent)
    (hsuffix : '/' ∉ r.unitSuffix.toList) (hapart : (r.units c).Pairwise Apart)
    (hdots : ∀ u ∈ r.units c, "." ∉ u.enclosing.home.segments ∧ ".." ∉ u.enclosing.home.segments) :
    Separate (r.units c) where
  apart := hapart
  normal := by
    intro u hu component hcomponent
    have hspelled := spelled_of_mem_units (fun _ => isPiece_of_isNameText) hc hcoherent hu
    obtain ⟨hdot, hdotdot⟩ := hdots u hu
    -- The segments are words of the source or parts of a path; `.` and `..` are ruled out apart.
    have hhome : ∀ segment ∈ u.enclosing.home.relativeTo r.root, IsName segment := by
      intro segment hsegment
      have hmem := Namespace.mem_of_mem_relativeTo hsegment
      refine isName_iff.2 ⟨hspelled _ (List.mem_append_left _ hmem), ?_, ?_⟩
      · rintro rfl
        exact hdot hmem
      · rintro rfl
        exact hdotdot hmem
    have hname : '/' ∉ u.enclosing.name.toList :=
      (hspelled _ (List.mem_append_right _ (List.mem_singleton_self _))).2
    rw [(path_of_mem_units hu).1, components_pathOf hhome hname hsuffix] at hcomponent
    obtain ⟨name, -, rfl⟩ := List.mem_map.1 hcomponent
    exact ⟨name, rfl⟩

/-! ### Collisions -/

theorem pairwise_enclosing_units :
    (r.units c).Pairwise fun u v => compare u.enclosing v.enclosing = .lt :=
  List.pairwise_map.2 (MarkedField.enclosingTypes_pairwise _)

/-- Two units that a round finds at one path are for different structs, of which each has a place,
so they are for structs of one module. -/
theorem home_eq_of_collision {σ : Type u}
    (hplaced : ∀ f ∈ MarkedField.scan r.marker c, f.enclosing.Placed r.root)
    (hsuffix : '/' ∉ r.unitSuffix.toList)
    {commit : List BinderUnit → σ → Except EmissionFault Unit × σ} {s : σ} {log : List Diagnostic}
    {path : FilePath} {first second : TypeName}
    (h : (r.run c commit s log).2.1 = .error (.emission .emit (.collision path first second))) :
    first ≠ second ∧ first.home = second.home := by
  have hends := run_ends r c commit s log
  generalize r.run c commit s log = ran at hends h
  cases hends with
  | resolution => cases h
  | commit => cases h
  | report => cases h
  | @collision before after u v _ split _ claimed same =>
    cases h
    have hmem : u ∈ r.units c ∧ v ∈ r.units c := by
      rw [split]
      exact ⟨List.mem_append_left _ claimed, List.mem_append_right _ List.mem_cons_self⟩
    obtain ⟨hu, f, hf, hfu⟩ := path_of_mem_units hmem.1
    obtain ⟨hv, g, hg, hgv⟩ := path_of_mem_units hmem.2
    rw [hu, hv, same_pathOf_iff (hfu ▸ hplaced f hf) (hgv ▸ hplaced g hg) hsuffix] at same
    refine ⟨fun heq => ?_, same.1⟩
    -- The units are in the order of their types, so two of them are never for the same type.
    have hlt := pairwise_enclosing_units (r := r) (c := c)
    rw [split, List.pairwise_append] at hlt
    have hlt := hlt.2.2 u claimed v List.mem_cons_self
    rw [heq, Std.ReflOrd.compare_self] at hlt
    cases hlt

/-- With a suffix that settings can have, the path of a unit is relative and made of names, one for
each module below the root and one for the file, so from any directory it leads to a place below it;
two structs have one path exactly when they are in one module and their units have the same name in
snake case; and so a round finds a collision only between two structs of one module. -/
theorem pathOf_below (r : Round) (hsuffix : Settings.isSuffix r.unitSuffix = true) :
    (∀ t : TypeName, t.Placed r.root →
      (pathOf r.root r.unitSuffix t).components = (pathNames r.root r.unitSuffix t).map .normal ∧
      ∀ out : FilePath,
        (pathOf r.root r.unitSuffix t).isAbsolute = false ∧
        (out.join (pathOf r.root r.unitSuffix t)).components =
          out.components ++ (pathNames r.root r.unitSuffix t).map .normal ∧
        locationOf (out.join (pathOf r.root r.unitSuffix t)).components =
          locationOf out.components ++ pathNames r.root r.unitSuffix t) ∧
    (∀ t u : TypeName, t.Placed r.root → u.Placed r.root →
      ((pathOf r.root r.unitSuffix t).same (pathOf r.root r.unitSuffix u) = true ↔
        t.home = u.home ∧
          Text.snakeCase (nameOf r.unitSuffix t) = Text.snakeCase (nameOf r.unitSuffix u))) ∧
    ∀ c : Crate, (∀ f ∈ MarkedField.scan r.marker c, f.enclosing.Placed r.root) →
      ∀ (σ : Type u) (commit : List BinderUnit → σ → Except EmissionFault Unit × σ) (s : σ)
        (log : List Diagnostic) (path : FilePath) (first second : TypeName),
      (r.run c commit s log).2.1 = .error (.emission .emit (.collision path first second)) →
      first ≠ second ∧ first.home = second.home := by
  have hslash := Settings.slash_not_mem_of_isSuffix hsuffix
  refine ⟨fun t ht => ?_, fun t u ht hu => same_pathOf_iff ht hu hslash, ?_⟩
  · exact ⟨components_pathOf_of_placed ht hslash, location_join_pathOf ht hslash⟩
  · intro c hplaced σ commit s log path first second hcollision
    exact home_eq_of_collision hplaced hslash hcollision

/-- A module with two structs whose units have the same name in snake case. -/
def twinCrate : Crate :=
  let fields : Fields := .named
    [⟨[⟨.ofIdent "country_field_binder", .none⟩], "code", 2, .path (.ofIdent "u8")⟩]
  ((Crate.empty ⟨["crate"]⟩).insert ⟨["crate", "sales"]⟩ ⟨"sales.rs"⟩
    [.struct "Order" fields, .struct "Order_" fields]).1

theorem pathOf_below_twinCrate :
    let order : TypeName := ⟨⟨["crate", "sales"]⟩, "Order"⟩
    let twin : TypeName := ⟨⟨["crate", "sales"]⟩, "Order_"⟩
    (pathOf ⟨["crate"]⟩ "Binder" order).components = [.normal "sales", .normal "order_binder.rs"] ∧
    (pathOf ⟨["crate"]⟩ "Binder" order).same (pathOf ⟨["crate"]⟩ "Binder" twin) = true ∧
    (∃ path, (run { root := ⟨["crate"]⟩ } twinCrate MemorySink.commit .empty).2.1 =
      .error (.emission .emit (.collision path order twin))) ∧
    order ≠ twin ∧ order.home = twin.home := by
  intro order twin
  have hbelow := pathOf_below { root := ⟨["crate"]⟩ } (by decide)
  have hplaced {name : String} (hname : '/' ∉ name.toList) :
      TypeName.Placed ⟨["crate"]⟩ ⟨⟨["crate", "sales"]⟩, name⟩ := by
    refine ⟨(by decide : Namespace.isWithin ⟨["crate", "sales"]⟩ ⟨["crate"]⟩ = true), ?_, hname⟩
    intro segment hsegment
    obtain rfl := List.mem_singleton.1 hsegment
    exact .inr (by decide)
  have horder : order.Placed ⟨["crate"]⟩ := hplaced (by decide)
  have htwin : twin.Placed ⟨["crate"]⟩ := hplaced (by decide)
  have hfields : (MarkedField.scan "country_field_binder" twinCrate).map (·.enclosing) =
      [order, twin] := by
    decide +kernel
  have hran : (run { root := ⟨["crate"]⟩ } twinCrate MemorySink.commit .empty).2.1.map
      (fun _ => ()) =
        .error (.emission .emit (.collision ⟨"sales/order_binder.rs"⟩ order twin)) := by
    decide +kernel
  have hcollision : (run { root := ⟨["crate"]⟩ } twinCrate MemorySink.commit .empty).2.1 =
      .error (.emission .emit (.collision ⟨"sales/order_binder.rs"⟩ order twin)) := by
    cases h : (run { root := ⟨["crate"]⟩ } twinCrate MemorySink.commit .empty).2.1 with
    | ok => rw [h] at hran; cases hran
    | error => rw [h] at hran; cases hran; rfl
  have hsame := (hbelow.2.1 order twin horder htwin).2 ⟨rfl, by decide⟩
  refine ⟨(hbelow.1 order horder).1.trans (by decide +kernel), hsame, ⟨_, hcollision⟩,
    hbelow.2.2 twinCrate ?_ MemorySink MemorySink.commit .empty [] _ _ _ hcollision⟩
  intro f hf
  have henclosing := List.mem_map_of_mem (f := (·.enclosing)) hf
  rw [hfields, List.mem_pair] at henclosing
  rcases henclosing with henclosing | henclosing
  · rw [henclosing]
    exact horder
  · rw [henclosing]
    exact htwin

end Round

end FieldBinder
