import FieldBinder.Proofs.Crate.RelativePaths
import FieldBinder.Proofs.Crate.Scopes
import FieldBinder.Proofs.Generation
import FieldBinder.Proofs.Name.Display
import FieldBinder.Proofs.Source.Name
import FieldBinder.Proofs.Text.AsciiName

/-!
# Valid settings

The root of a crate is cut out of the text of its setting without another look at the pieces, which
is right for settings that are valid: the text is then a path of ASCII names, so reading it with
`Namespace.parse?` gives the same namespace (`Settings.parse?_crateNamespace`).  Paths that start
with `crate` lead below this root, and so do the files of the crate (`Scope.resolve_of_crate`,
`Crate.place_of_load`).  A suffix can begin with a digit, for it only goes on with a name
(`BinderUnit.isAsciiName_nameOf`).

All settings that are read from a document are valid, and so are those that hold when there is none.
Hence a generation that starts from the manifest never finds its settings invalid
(`Generation.outcome_ofManifest_ne_invalid`).
-/

namespace FieldBinder

/-! ### ASCII names as segments -/

namespace Text

/-- No ASCII name has a colon or a blank in it. -/
theorem IsAsciiName.isBare {s : String} (h : IsAsciiName s) : Namespace.IsBare s := by
  have hbetween (c : Char) (hc : c ∈ s.toList) : Lexeme.isBetween c = false := by
    refine Lexeme.isBetween_eq_false (.inr ?_)
    rcases h.continues c hc with rfl | halnum
    · rfl
    · rw [isIdentContinue, halnum, Bool.or_true, Bool.true_or]
  have hblank (c : Char) (hc : c ∈ s.toList) : isBlank c = false := by
    rw [← Bool.not_eq_true]
    intro hblank
    exact absurd (hbetween c hc) (by simp [Lexeme.isBetween, Lexeme.isGap, hblank])
  refine ⟨h.ne_empty, fun hcolon => ?_, fun c hc => ?_, fun c hc => ?_⟩
  · exact absurd (hbetween ':' hcolon) (by decide)
  · exact hblank c (List.mem_of_mem_head? hc)
  · exact hblank c (List.mem_of_getLast? hc)

end Text

open Text (IsAsciiName)

/-! ### The root -/

namespace Settings

variable {s : Settings}

/-- Cut into pieces, the text of the crate namespace is not changed, whatever it is. -/
theorem display_root (s : Settings) : s.root.display = s.crateNamespace := by
  have hpieces : s.root.segments.map String.toList =
      Namespace.cutAtColons s.crateNamespace.toList := by
    rw [root, crateSegments, List.map_map]
    exact (List.map_congr_left fun piece _ => String.toList_ofList).trans (List.map_id _)
  rw [← String.toList_inj, Namespace.toList_display, hpieces]
  exact Namespace.intercalate_of_cuts (Namespace.cuts_cutAtColons _)

theorem segments_root_ne_nil (s : Settings) : s.root.segments ≠ [] := by
  rw [root, crateSegments, ne_eq, List.map_eq_nil_iff]
  exact Namespace.cutAtColons_ne_nil _

theorem isAsciiName_of_mem_root (h : s.fault? = none) {segment : String}
    (hsegment : segment ∈ s.root.segments) : IsAsciiName segment ∧ segment ≠ "_" :=
  Text.isAsciiIdent_iff.1 ((Generation.isAsciiIdent_of_fault?_eq_none h).1 segment hsegment)

/-- The root of valid settings is what their crate namespace reads as. -/
theorem parse?_crateNamespace (h : s.fault? = none) :
    Namespace.parse? s.crateNamespace = some s.root := by
  rw [← display_root]
  exact Namespace.parse?_display fun segment hsegment =>
    (isAsciiName_of_mem_root h hsegment).1.isBare

end Settings

/-! ### Paths through the root -/

namespace Scope

variable {s : Scope} {rest : List String}

theorem absolute?_crate (s : Scope) (rest : List String) :
    s.absolute? false ("crate" :: rest) = some (s.root.segments ++ rest) := rfl

/-- Below a root that is not empty, a path that starts with `crate` means a type. -/
theorem resolve_of_crate (hne : s.root.segments ≠ []) {p : Path} (hp : p.isPlain = true)
    (hl : p.isLeading = false) (hidents : p.idents = "crate" :: rest) :
    ∃ t, s.resolve p = .ok t ∧ t.segments = s.root.segments ++ rest := by
  refine resolve_of_absolute?_eq_some hp (List.append_ne_nil_of_left_ne_nil hne rest) ?_
  rw [hl, hidents, absolute?_crate]

end Scope

namespace TypeName

variable {root : Namespace} {rest : List String} {t : TypeName}

/-- The text of a type below a root is that of the root with the rest behind it. -/
theorem display_of_segments (hne : root.segments ≠ []) (h : t.segments = root.segments ++ rest) :
    t.display = "::".intercalate (root.display :: rest) := by
  rw [display_eq, asNamespace, h, Namespace.display]
  cases rest with
  | nil => rw [List.append_nil, String.intercalate_singleton, Namespace.display]
  | cons first rest =>
    rw [String.intercalate_append_of_ne_nil hne (List.cons_ne_nil _ _),
      String.intercalate_cons_of_ne_nil (List.cons_ne_nil _ _), Namespace.display]

/-- A type behind a root is in a module at or below it. -/
theorem isWithin_home_of_segments (hrest : rest ≠ []) (h : t.segments = root.segments ++ rest) :
    t.home.isWithin root = true := by
  obtain ⟨below, name, rfl⟩ := (List.eq_nil_or_concat rest).resolve_left hrest
  rw [List.concat_eq_append, ← List.append_assoc, segments] at h
  rw [Namespace.isWithin_iff, (List.append_inj' h rfl).1]
  exact List.prefix_append _ _

end TypeName

theorem Namespace.ne_root_of_isWithin {n outer : Namespace} (hne : outer.segments ≠ [])
    (h : n.isWithin outer = true) : n ≠ .root := by
  rintro rfl
  exact hne (List.prefix_nil.1 (isWithin_iff.1 h))

/-! ### Modules below the root -/

namespace Crate

/-- Every module of a loaded crate is at or below its root, and so its scope has it. -/
theorem place_of_load {t : FileTree} {path : FilePath} {root : Namespace} {c : Crate}
    (h : load t path root = .ok c) {m : Module} (hm : m ∈ c.moduleList) :
    m.home.isWithin root = true ∧ m.scope.place = (root, m.home) := by
  obtain ⟨home, hmodule⟩ := mem_moduleList.1 hm
  obtain ⟨rfl, -⟩ := coherent_of_load h home m hmodule
  obtain ⟨files, -, hfiles⟩ := exists_files_of_load h
  have hspelled : c.Spelled fun _ => True :=
    spelled_ofFiles (fun _ _ => trivial) (fun _ _ => trivial) (fun _ _ _ _ => trivial) hfiles
  obtain ⟨steps, rfl⟩ := exists_build_of_ofFiles hfiles
  constructor
  · rw [Namespace.isWithin_iff, ← root_build root steps]
    exact (hspelled.modules _ m hmodule).below
  · refine forall_module_build (P := fun home m => m.scope.place = (root, home)) ?_ ?_ hmodule
    · exact fun home file items => Scope.place_foldl_importItem items _
    · exact fun _ _ _ _ hplace => hplace

end Crate

/-! ### The names of units -/

/-- With a suffix that settings can have, a struct that is named by an ASCII name has a unit that
is, too. -/
theorem BinderUnit.isAsciiName_nameOf {suffix : String} (hsuffix : Settings.isSuffix suffix = true)
    {t : TypeName} (ht : IsAsciiName t.name) :
    IsAsciiName (nameOf suffix t) ∧ nameOf suffix t ≠ "_" := by
  obtain ⟨hne, hcontinues⟩ := Settings.isSuffix_iff.1 hsuffix
  refine ⟨ht.append hcontinues, fun heq => ?_⟩
  -- the name and the suffix have a character each
  have hlength : (nameOf suffix t).toList.length = 1 := by
    rw [heq]
    rfl
  obtain ⟨c, r, hname, -⟩ := ht
  have hsuffix : 0 < suffix.toList.length := by
    rw [List.length_pos_iff, ne_eq, ← String.toList_empty, String.toList_inj]
    exact hne
  rw [nameOf, String.toList_append, hname, List.length_append, List.length_cons] at hlength
  omega

/-! ### Valid settings -/

namespace Settings

theorem fault?_default : ({} : Settings).fault? = none := by decide

/-- The settings that a manifest directory has are valid, with a file of settings or without. -/
theorem fault?_of_loadOrDefault {t : FileTree} {path : FilePath} {s : Settings}
    (h : loadOrDefault t path = .ok s) : s.fault? = none := by
  rw [loadOrDefault] at h
  split at h
  · rw [load] at h
    split at h
    · cases h
    · next text _ =>
      cases htext : ofToml text with
      | error fault =>
        rw [htext] at h
        cases h
      | ok s' =>
        rw [htext] at h
        cases h
        exact fault?_of_ofToml htext
  · cases h
    exact fault?_default

end Settings

namespace Generation

variable {s : Settings} {manifest out : FilePath} {t : FileTree} {fault : Settings.Fault}

/-- A generation ends because its settings are invalid exactly when they have a fault. -/
theorem outcome_ofSettings_eq_invalid_iff :
    (ofSettings s manifest out t).outcome = .error (.invalid fault) ↔ s.fault? = some fault := by
  cases hfault : s.fault? with
  | some fault' => simp [ofSettings, hfault]
  | none =>
    refine iff_of_false (fun h => ?_) (by simp)
    cases hload : Crate.load t (manifest.join s.sourceRoot) s.root with
    | error sourceFault =>
      simp only [ofSettings, hfault, hload] at h
      cases h
    | ok c =>
      rcases hrun : s.round.run c DiskSink.commit ({ out := outputDirectory s out }, t) with
        ⟨log, outcome, sink, t'⟩
      rw [ofSettings_of_run hfault hload hrun] at h
      cases outcome <;> cases h

/-- Settings that come from the manifest directory are not found to be invalid afterwards. -/
theorem outcome_ofManifest_ne_invalid :
    (ofManifest manifest out t).outcome ≠ .error (.invalid fault) := by
  intro h
  unfold ofManifest at h
  dsimp only at h
  split at h
  · cases h
  · next s hload =>
    have hvalid := Settings.fault?_of_loadOrDefault hload
    rw [outcome_ofSettings_eq_invalid_iff.1 h] at hvalid
    cases hvalid

end Generation

namespace Settings

/-- Valid settings, and all settings read from a document are, have a root that is what the text of
their crate namespace reads as: it is not empty, its segments are ASCII names, and it is written as
the text.  A path that starts with `crate` leads below it, in every scope of the root and so in
every module of the crate, where it is never read as a name without a module.  The unit of a struct
with an ASCII name has an ASCII name. -/
theorem usable_of_valid :
    (∀ s : Settings, s.fault? = none →
      Namespace.parse? s.crateNamespace = some s.root ∧
      s.root ≠ .root ∧
      (∀ segment ∈ s.root.segments, IsAsciiName segment ∧ segment ≠ "_") ∧
      s.root.display = s.crateNamespace ∧
      (∀ scope : Scope, scope.root = s.root → ∀ rest : List String,
        scope.absolute? false ("crate" :: rest) = some (s.root.segments ++ rest) ∧
        s.root.segments ++ rest ≠ [] ∧
        ∀ p : Path, p.isPlain = true → p.isLeading = false → p.idents = "crate" :: rest →
          ∃ t, scope.resolve p = .ok t ∧ t.segments = s.root.segments ++ rest ∧
            t.display = "::".intercalate (s.crateNamespace :: rest) ∧
            (rest ≠ [] → t.home.isWithin s.root = true ∧ t.home ≠ .root)) ∧
      (∀ (tree : FileTree) (source : FilePath) (c : Crate),
        Crate.load tree source s.root = .ok c → ∀ m ∈ c.moduleList,
          m.scope.root = s.root ∧ m.home.isWithin s.root = true ∧ m.home ≠ .root) ∧
      ∀ t : TypeName, IsAsciiName t.name →
        IsAsciiName (BinderUnit.nameOf s.unitSuffix t) ∧
          BinderUnit.nameOf s.unitSuffix t ≠ "_") ∧
    ∀ (text : String) (s : Settings), ofToml text = .ok s → s.fault? = none := by
  refine ⟨fun s h => ?_, fun text s => fault?_of_ofToml⟩
  have hne : s.root.segments ≠ [] := segments_root_ne_nil s
  -- The root is not empty, so nothing inside it is the empty namespace.
  have hbelow (n : Namespace) (hn : n.isWithin s.root = true) : n ≠ .root :=
    Namespace.ne_root_of_isWithin hne hn
  refine ⟨parse?_crateNamespace h, ?_, fun segment => isAsciiName_of_mem_root h, display_root s,
    fun scope hscope rest => ?_, fun tree source c hload m hm => ?_,
    fun t => BinderUnit.isAsciiName_nameOf (Generation.isAsciiIdent_of_fault?_eq_none h).2⟩
  · exact fun heq => hne (congrArg Namespace.segments heq)
  · rw [← hscope] at hne hbelow ⊢
    refine ⟨Scope.absolute?_crate scope rest, List.append_ne_nil_of_left_ne_nil hne rest, ?_⟩
    intro p hp hl hidents
    obtain ⟨t, ht, hsegments⟩ := Scope.resolve_of_crate hne hp hl hidents
    refine ⟨t, ht, hsegments, ?_, fun hrest => ?_⟩
    · rw [TypeName.display_of_segments hne hsegments, hscope, display_root]
    · have hwithin := TypeName.isWithin_home_of_segments hrest hsegments
      exact ⟨hwithin, hbelow _ hwithin⟩
  · obtain ⟨hwithin, hplace⟩ := Crate.place_of_load hload hm
    exact ⟨congrArg Prod.fst hplace, hwithin, hbelow _ hwithin⟩

/-- Settings with a root below another module, and a suffix that is a digit. -/
def appSettings : Settings := { crateNamespace := "crate::app", unitSuffix := "2" }

theorem usable_of_valid_appSettings :
    let root : Namespace := ⟨["crate", "app"]⟩
    ofToml "crate_namespace = \"crate::app\"\nunit_suffix = \"2\"" = .ok appSettings ∧
    appSettings.fault? = none ∧ Namespace.parse? "crate::app" = some root ∧
    (∃ c m t, Crate.load Generation.orderTree ⟨"src"⟩ root = .ok c ∧ m ∈ c.moduleList ∧
      m.home.isWithin root = true ∧
      m.scope.resolve (.mk false [.mk "crate" .none, .mk "Order" .none]) = .ok t ∧
      t.display = "crate::app::Order" ∧ t.home.isWithin root = true) ∧
    IsAsciiName "Order" ∧ IsAsciiName "Order2" := by
  intro root
  obtain ⟨hvalid, hread⟩ := usable_of_valid
  have htext :
      ofToml "crate_namespace = \"crate::app\"\nunit_suffix = \"2\"" = .ok appSettings := by
    decide +kernel
  have hfault := hread _ _ htext
  have hroot : appSettings.root = root := by decide
  obtain ⟨hparse, -, -, -, hpaths, hmodules, hunits⟩ := hvalid appSettings hfault
  rw [hroot] at hparse hpaths hmodules
  have hload : (Crate.load Generation.orderTree ⟨"src"⟩ root).toOption.map
      (fun c => (c.module? root).isSome) = some true := by
    decide +kernel
  obtain ⟨c, hc, hmodule⟩ := Option.map_eq_some_iff.1 hload
  obtain ⟨m, hm⟩ := Option.isSome_iff_exists.1 hmodule
  have hc := toOption_eq_some hc
  have hmem : m ∈ c.moduleList := Crate.mem_moduleList.2 ⟨_, hm⟩
  obtain ⟨hscope, hwithin, -⟩ := hmodules _ _ c hc m hmem
  obtain ⟨-, -, hresolve⟩ := hpaths m.scope hscope ["Order"]
  obtain ⟨t, ht, -, hdisplay, hhome⟩ :=
    hresolve (.mk false [.mk "crate" .none, .mk "Order" .none]) rfl rfl rfl
  have hname : IsAsciiName "Order" := by decide
  exact ⟨htext, hfault, hparse, ⟨c, m, t, hc, hmem, hwithin, ht, hdisplay, (hhome (by simp)).1⟩,
    hname, (hunits ⟨root, "Order"⟩ hname).1⟩

end Settings

end FieldBinder
