import FieldBinder.Proofs.Crate.UseLeaves

/-!
# Relative paths

A path that starts with `crate`, `self` or `super` is read without a look at what the module
declares or imports.  Behind such a start it leads to a place in the crate, or out of it
(`LeadsTo`), and where it leads is its absolute form (`Scope.absolute?_of_leadsTo`).  So a relative
path means a type below the root or climbs out, and an imported name is recorded with its target or
dropped, in the same way (`Scope.ofItems_relative`).

The keywords are read at the start of a path only: `crate`, `self`, or `super` some times.  What
stands behind is kept as it is written (`keptSegments`), keywords included.  In particular `self` in
front of `super` makes a module name of it (`Scope.ofItems_keptSegments`).
-/

namespace FieldBinder

/-! ### Where a relative path leads -/

/-- Where a relative path leads in the module `below` a root: the keywords at its start lead to a
module, from which the rest goes on, or out of the crate. -/
inductive LeadsTo (root below : List String) : List String → Option (List String) → Prop
  | crate {r : List String} (hr : r.head? ≠ some "super") :
    LeadsTo root below ("crate" :: r) (some (root ++ r))
  | self {r : List String} (hr : r.head? ≠ some "super") :
    LeadsTo root below ("self" :: r) (some (root ++ below ++ r))
  | super {r : List String} {k : Nat} (hr : r.head? ≠ some "super") (hk : 1 ≤ k)
    (hbelow : k ≤ below.length) :
    LeadsTo root below (List.replicate k "super" ++ r)
      (some (root ++ below.take (below.length - k) ++ r))
  | outside {r : List String} {k : Nat} (hr : r.head? ≠ some "super") (hk : 1 ≤ k)
    (hbelow : below.length < k) : LeadsTo root below (List.replicate k "super" ++ r) none

variable {root below path : List String} {target? : Option (List String)}

/-- A relative path leads to no place outside of the root. -/
theorem prefix_of_leadsTo {target : List String} (h : LeadsTo root below path (some target)) :
    root <+: target := by
  cases h with
  | crate => exact List.prefix_append ..
  | self | super => rw [List.append_assoc]; exact List.prefix_append ..

namespace Scope

theorem climb_of_head?_ne {base : Namespace} {r : List String} (hr : r.head? ≠ some "super") :
    climb ⟨root⟩ base r = some (base.segments ++ r) := by
  cases r with
  | nil => rw [climb, List.append_nil]
  | cons w r =>
    have hw : w ≠ "super" := fun h => hr (congrArg some h)
    rw [climb, if_neg hw]

/-- Climbing `k` times from below the root leaves out the last `k` modules, if there are as many. -/
theorem climb_replicate {r : List String} (hr : r.head? ≠ some "super") (k : Nat) :
    climb ⟨root⟩ ⟨root ++ below⟩ (List.replicate k "super" ++ r) =
      if k ≤ below.length then some (root ++ below.take (below.length - k) ++ r) else none := by
  -- each `super` leaves out the last module, so what stands below the root changes with `k`
  induction k generalizing below with
  | zero =>
    rw [List.replicate_zero, List.nil_append, climb_of_head?_ne hr, if_pos (Nat.zero_le _),
      Nat.sub_zero, List.take_length]
  | succ k ih =>
    rw [List.replicate_succ, List.cons_append, climb, if_pos rfl]
    rcases List.eq_nil_or_concat below with rfl | ⟨above, last, rfl⟩
    · rw [if_pos (by simp), if_neg (by simp)]
    · rw [List.concat_eq_append]
      have hgoes : ¬ (root ++ (above ++ [last])).length ≤ root.length := by simp
      have hdrop : (root ++ (above ++ [last])).dropLast = root ++ above := by
        rw [← List.append_assoc, List.dropLast_concat]
      have hlength : (above ++ [last]).length = above.length + 1 := by simp
      rw [if_neg hgoes, hdrop, ih, hlength, Nat.add_sub_add_right,
        List.take_append_of_le_length (Nat.sub_le _ _)]
      exact if_congr Nat.add_le_add_iff_right.symm rfl rfl

/-- The root of the crate of a scope, and its module: all that a relative path depends on. -/
def place (s : Scope) : Namespace × Namespace := (s.root, s.home)

variable {s : Scope}

theorem place_foldl_importName (leading : Bool) (l : List (String × List String)) (s : Scope) :
    (l.foldl (importName leading) s).place = s.place :=
  foldl_kept (importName_kept (fun _ _ => rfl) leading) l s

theorem place_foldl_importItem (items : List Item) (s : Scope) :
    (items.foldl importItem s).place = s.place :=
  foldl_kept (importItem_kept fun _ _ _ => rfl) items s

/-- The absolute form of a relative path is where it leads, whatever the module declares or
imports. -/
theorem absolute?_of_leadsTo (hs : s.place = (⟨root⟩, ⟨root ++ below⟩))
    (h : LeadsTo root below path target?) : s.absolute? false path = target? := by
  obtain ⟨hroot, hhome⟩ := Prod.mk.inj hs
  have hclimb {r : List String} {k : Nat} (hr : r.head? ≠ some "super") (hk : 1 ≤ k) :
      s.absolute? false (List.replicate k "super" ++ r) =
        if k ≤ below.length then some (root ++ below.take (below.length - k) ++ r) else none := by
    obtain ⟨k, rfl⟩ : ∃ n, k = n + 1 := ⟨k - 1, by omega⟩
    rw [← climb_replicate hr, ← hroot, ← hhome]
    rfl
  cases h with
  | crate hr => exact congrArg (fun n : Namespace => some (n.segments ++ _)) hroot
  | self hr => exact congrArg (fun n : Namespace => some (n.segments ++ _)) hhome
  | super hr hk hbelow => rw [hclimb hr hk, if_pos hbelow]
  | outside hr hk hbelow => rw [hclimb hr hk, if_neg (by omega)]

/-! ### Types -/

theorem resolve_eq_ok_iff {p : Path} {t : TypeName} : s.resolve p = .ok t ↔
    p.isPlain = true ∧ s.absolute? p.isLeading p.idents = some t.segments := by
  rw [resolve]
  cases hp : p.isPlain with
  | false => simp
  | true =>
    simp only [Bool.not_true, Bool.false_eq_true, if_false, true_and]
    cases habsolute : s.absolute? p.isLeading p.idents with
    | none => simp
    | some l =>
      rw [Option.bind_some, Option.some.injEq]
      constructor
      · intro h
        split at h
        · next u hu =>
          cases h
          exact (TypeName.segments_of_ofSegments? hu).symm
        · cases h
      · rintro rfl
        rw [TypeName.ofSegments?_segments]

theorem resolve_of_absolute?_eq_none {p : Path} (hp : p.isPlain = true)
    (h : s.absolute? p.isLeading p.idents = none) :
    s.resolve p = .error (.outsideCrate p.display) := by
  rw [resolve, hp, h]
  rfl

/-- A path whose absolute form is not empty means a type. -/
theorem resolve_of_absolute?_eq_some {p : Path} (hp : p.isPlain = true) {target : List String}
    (hne : target ≠ []) (h : s.absolute? p.isLeading p.idents = some target) :
    ∃ t, s.resolve p = .ok t ∧ t.segments = target := by
  -- the last segment is the name of the type
  obtain ⟨home, name, rfl⟩ := (List.eq_nil_or_concat target).resolve_left hne
  rw [List.concat_eq_append] at h ⊢
  exact ⟨⟨⟨home⟩, name⟩, resolve_eq_ok_iff.2 ⟨hp, h⟩, rfl⟩

/-- A relative path means the type where it leads. -/
theorem resolve_of_leadsTo (hne : root ≠ []) (hs : s.place = (⟨root⟩, ⟨root ++ below⟩)) {p : Path}
    (hp : p.isPlain = true) (hl : p.isLeading = false) {target : List String}
    (h : LeadsTo root below p.idents (some target)) :
    ∃ t, s.resolve p = .ok t ∧ t.segments = target := by
  refine resolve_of_absolute?_eq_some hp ?_ ?_
  · -- the place is at or below the root
    rintro rfl
    exact hne (List.prefix_nil.1 (prefix_of_leadsTo h))
  · rw [hl]
    exact absolute?_of_leadsTo hs h

/-! ### Imports -/

/-- A name that an item binds once is imported from what its path means in scopes of the module. -/
theorem get?_importItem_of_mem_bindings {i : Item} {name : String}
    (hmem : (name, path) ∈ i.bindings) (honce : i.boundNames.count name = 1)
    (hpath : ∀ s' : Scope, s'.place = s.place → s'.absolute? i.isLeading path = target?)
    (hfree : s.imports.get? name = none) : (s.importItem i).imports.get? name = target? := by
  -- neither the names before this one nor those behind it decide what it is imported from
  obtain ⟨l₁, l₂, hl⟩ := List.append_of_mem hmem
  rw [Item.boundNames, hl, List.map_append, List.map_cons, List.count_append,
    List.count_cons_self] at honce
  have hbefore : name ∉ l₁.map (·.1) := List.count_eq_zero.1 (by omega)
  have hafter : name ∉ l₂.map (·.1) := List.count_eq_zero.1 (by omega)
  rw [imports_importItem, hl, List.foldl_append, List.foldl_cons,
    get?_foldl_importName_of_not_mem hafter, get?_importName, if_pos rfl,
    get?_foldl_importName_of_not_mem hbefore, hfree, Option.or_none]
  exact hpath _ (place_foldl_importName i.isLeading l₁ s)

section

variable {home root : Namespace} {items : List Item} {i : Item}

/-- A name that a module imports once is imported from what its path means in scopes of the
module. -/
theorem get?_ofItems_of_mem_bindings (hi : i ∈ items) {name : String}
    (hmem : (name, path) ∈ i.bindings)
    (honce : (items.flatMap Item.boundNames).count name = 1)
    (hpath : ∀ s : Scope, s.place = (root, home) → s.absolute? i.isLeading path = target?) :
    (ofItems home root items).imports.get? name = target? := by
  obtain ⟨l₁, l₂, rfl⟩ := List.append_of_mem hi
  have hbound : 1 ≤ i.boundNames.count name :=
    List.one_le_count_iff.2 (List.mem_map.2 ⟨_, hmem, rfl⟩)
  rw [List.flatMap_append, List.flatMap_cons, List.count_append, List.count_append] at honce
  have hbefore : name ∉ l₁.flatMap Item.boundNames := List.count_eq_zero.1 (by omega)
  have hafter : name ∉ l₂.flatMap Item.boundNames := List.count_eq_zero.1 (by omega)
  rw [ofItems_eq, List.foldl_append, List.foldl_cons, get?_foldl_importItem_of_not_mem hafter]
  apply get?_importItem_of_mem_bindings hmem (by omega)
  · intro s hs
    exact hpath s (hs.trans (place_foldl_importItem l₁ _))
  · rw [get?_foldl_importItem_of_not_mem hbefore]
    exact SortedMap.get?_empty name

theorem mem_globs_foldl_importItem {target : List String} (items : List Item)
    (h : target ∈ s.globs) : target ∈ (items.foldl importItem s).globs := by
  induction items generalizing s with
  | nil => exact h
  | cons i r ih =>
    apply ih
    rw [globs_importItem]
    exact List.mem_append_left _ h

/-- A glob of a module is recorded with what its path means in scopes of the module. -/
theorem mem_globs_ofItems (hi : i ∈ items) (hmem : path ∈ i.globPaths) {target : List String}
    (hpath : ∀ s : Scope, s.place = (root, home) → s.absolute? i.isLeading path = some target) :
    target ∈ (ofItems home root items).globs := by
  obtain ⟨l₁, l₂, rfl⟩ := List.append_of_mem hi
  rw [ofItems_eq, List.foldl_append, List.foldl_cons]
  apply mem_globs_foldl_importItem
  rw [globs_importItem]
  refine List.mem_append_right _ (List.mem_filterMap.2 ⟨path, hmem, hpath _ ?_⟩)
  exact (place_foldl_importName i.isLeading _ _).trans (place_foldl_importItem l₁ _)

end

/-! ### Leaves that climb out -/

theorem importName_of_outside {leading : Bool} {leaf : String × List String}
    (h : s.absolute? leading leaf.2 = none) : importName leading s leaf = s := by
  rw [importName, h]

theorem importGlob_of_outside {leading : Bool} (h : s.absolute? leading path = none) :
    importGlob leading s path = s := by
  rw [importGlob, h]

/-- A leaf that climbs out of the crate can be left out. -/
theorem importItem_of_outside {leading : Bool} {t t' : UseTree} {l : UseLeaf}
    {l₁ l₂ : List UseLeaf} (ht : t.leaves [] = l₁ ++ l :: l₂) (ht' : t'.leaves [] = l₁ ++ l₂)
    (hl : ∀ s' : Scope, s'.place = s.place → s'.absolute? leading l.path = none) :
    s.importItem (.use leading t) = s.importItem (.use leading t') := by
  -- No import moves the place of the scope, and where the leaf leads depends on the place only.
  have hglobs (paths : List (List String)) (s' : Scope) :
      (paths.foldl (importGlob leading) s').place = s'.place :=
    foldl_kept (importGlob_kept (fun _ _ => rfl) leading) paths s'
  simp only [importItem, ht, ht', List.filterMap_append, List.filterMap_cons]
  cases l with
  | binding name target =>
    simp only [UseLeaf.binding?, UseLeaf.glob?, List.foldl_append, List.foldl_cons]
    congr 3
    exact importName_of_outside (hl _ (place_foldl_importName ..))
  | glob target =>
    simp only [UseLeaf.binding?, UseLeaf.glob?, List.foldl_append, List.foldl_cons]
    congr 1
    apply importGlob_of_outside
    apply hl
    rw [hglobs, place_foldl_importName, place_foldl_importName]

theorem ofItems_of_outside {home root : Namespace} (before after : List Item) {leading : Bool}
    {t t' : UseTree} {l : UseLeaf} {l₁ l₂ : List UseLeaf} (ht : t.leaves [] = l₁ ++ l :: l₂)
    (ht' : t'.leaves [] = l₁ ++ l₂)
    (hl : ∀ s : Scope, s.place = (root, home) → s.absolute? leading l.path = none) :
    ofItems home root (before ++ .use leading t' :: after) =
      ofItems home root (before ++ .use leading t :: after) := by
  have hdeclared : (before ++ .use leading t' :: after).filterMap Item.declaration? =
      (before ++ .use leading t :: after).filterMap Item.declaration? := by
    rw [List.filterMap_append, List.filterMap_append]
    rfl
  rw [ofItems_eq, ofItems_eq, ofDeclarations, ofDeclarations, hdeclared, List.foldl_append,
    List.foldl_append, List.foldl_cons, List.foldl_cons, importItem_of_outside ht ht']
  intro s hs
  exact hl s (hs.trans (place_foldl_importItem before _))

/-! ### Relative paths stay in the crate -/

/-- In every scope of a module below a root, a relative path means the type where it leads, which
lies below the root, or climbs out of the crate.  A name that a module imports once by a relative
path is recorded with the place where the path leads, and so is a glob; a leaf that climbs out is
dropped, as if the item did not have it. -/
theorem ofItems_relative (hne : root ≠ []) (below : List String) :
    (∀ s : Scope, s.root = ⟨root⟩ → s.home = ⟨root ++ below⟩ →
      ∀ p : Path, p.isPlain = true → p.isLeading = false →
        (∀ target, LeadsTo root below p.idents (some target) →
          ∃ t, s.resolve p = .ok t ∧ t.segments = target ∧ root <+: t.segments) ∧
        (LeadsTo root below p.idents none →
          s.resolve p = .error (.outsideCrate p.display))) ∧
    ∀ items, let s := ofItems ⟨root ++ below⟩ ⟨root⟩ items
      s.root = ⟨root⟩ ∧ s.home = ⟨root ++ below⟩ ∧
      (∀ i ∈ items, i.isLeading = false →
        (∀ name path target?, .binding name path ∈ i.leaves → LeadsTo root below path target? →
          (items.flatMap Item.boundNames).count name = 1 → s.imports.get? name = target?) ∧
        ∀ path target, .glob path ∈ i.leaves → LeadsTo root below path (some target) →
          target ∈ s.globs) ∧
      ∀ before t t' after l₁ l l₂, items = before ++ .use false t :: after →
        t.leaves [] = l₁ ++ l :: l₂ → t'.leaves [] = l₁ ++ l₂ →
        LeadsTo root below l.path none →
        ofItems ⟨root ++ below⟩ ⟨root⟩ (before ++ .use false t' :: after) = s := by
  refine ⟨fun s hroot hhome p hp hl => ?_, fun items => ⟨?_, ?_, fun i hi hl => ⟨?_, ?_⟩, ?_⟩⟩
  · have hs : s.place = (⟨root⟩, ⟨root ++ below⟩) := Prod.ext hroot hhome
    constructor
    · intro target h
      obtain ⟨t, ht, htarget⟩ := resolve_of_leadsTo hne hs hp hl h
      exact ⟨t, ht, htarget, htarget ▸ prefix_of_leadsTo h⟩
    · intro h
      -- A path that leaves the crate is made absolute as nothing, and that is the one fault it has.
      apply resolve_of_absolute?_eq_none hp
      rw [hl]
      exact absolute?_of_leadsTo hs h
  · exact foldl_kept root_importItem items _
  · exact home_ofItems _ _ items
  · intro name path target? hmem h honce
    -- The leaf is read against the imports in front of it; where it leads depends on none of them.
    refine get?_ofItems_of_mem_bindings hi (List.mem_filterMap.2 ⟨_, hmem, rfl⟩) honce ?_
    intro s hs
    rw [hl]
    exact absolute?_of_leadsTo hs h
  · intro path target hmem h
    refine mem_globs_ofItems hi (List.mem_filterMap.2 ⟨_, hmem, rfl⟩) ?_
    intro s hs
    rw [hl]
    exact absolute?_of_leadsTo hs h
  · rintro before t t' after l₁ l l₂ rfl ht ht' h
    exact ofItems_of_outside before after ht ht' fun s hs => absolute?_of_leadsTo hs h

/-- An item whose leaves climb two modules, with one that climbs out. -/
def outerTree : UseTree :=
  .path "super" (.path "super" (.group
    [.path "geo" (.name "Country"), .path "super" (.name "Lost"), .path "geo" .glob]))

theorem ofItems_relative_outerTree :
    let s := ofItems ⟨["crate", "sales", "orders"]⟩ ⟨["crate"]⟩ [.use false outerTree]
    (∃ t, s.resolve (.mk false [.mk "super" .none, .mk "super" .none, .mk "Cur" .none]) = .ok t ∧
      t.segments = ["crate", "Cur"]) ∧
    s.imports.get? "Country" = some ["crate", "geo", "Country"] ∧
    s.imports.get? "Lost" = none ∧ ["crate", "geo"] ∈ s.globs ∧
    ofItems ⟨["crate", "sales", "orders"]⟩ ⟨["crate"]⟩ [.use false (.path "super" (.path "super"
      (.group [.path "geo" (.name "Country"), .path "geo" .glob])))] = s := by
  obtain ⟨hpaths, hitems⟩ := ofItems_relative (show ["crate"] ≠ [] by decide) ["sales", "orders"]
  obtain ⟨hroot, hhome, hleaves, hdropped⟩ := hitems [.use false outerTree]
  obtain ⟨hnames, hglobs⟩ := hleaves (.use false outerTree) (by simp) rfl
  have hlost : LeadsTo ["crate"] ["sales", "orders"] ["super", "super", "super", "Lost"] none :=
    .outside (r := ["Lost"]) (k := 3) (by decide) (by decide) (by decide)
  refine ⟨?_, ?_, ?_, ?_, ?_⟩
  · obtain ⟨t, ht, hsegments, -⟩ := (hpaths _ hroot hhome
      (.mk false [.mk "super" .none, .mk "super" .none, .mk "Cur" .none]) rfl rfl).1 _
      (.super (r := ["Cur"]) (k := 2) (by decide) (by decide) (by decide))
    exact ⟨t, ht, hsegments⟩
  · exact hnames _ _ _ (by decide)
      (.super (r := ["geo", "Country"]) (k := 2) (by decide) (by decide) (by decide)) (by decide)
  · exact hnames _ _ _ (by decide) hlost (by decide)
  · exact hglobs _ _ (by decide)
      (.super (r := ["geo"]) (k := 2) (by decide) (by decide) (by decide))
  · exact hdropped [] outerTree _ [] _ _ _ rfl rfl rfl hlost

end Scope

/-! ### Keywords that are kept -/

/-- Whether none of the names is a keyword that a path can start with. -/
def KeywordFree (names : List String) : Prop := ∀ w ∈ names, w ∉ ["crate", "self", "super"]

instance (names : List String) : Decidable (KeywordFree names) :=
  inferInstanceAs (Decidable (∀ w ∈ names, w ∉ ["crate", "self", "super"]))

/-- The segments of a path that are kept as they are written: all of them behind a leading `::`, or
else those behind `crate`, behind `self`, behind all `super` at the start, or behind a name. -/
def keptSegments : Bool → List String → List String
  | true, path => path
  | false, [] => []
  | false, first :: r => if first = "super" then r.dropWhile (· = "super") else r

/-- Whether no keyword stands for a module in an absolute path, but in the root itself. -/
def KeepsNoKeyword (root path : List String) : Prop :=
  KeywordFree path ∨ ∃ r, path = root ++ r ∧ KeywordFree r

theorem keywordFree_append {l r : List String} :
    KeywordFree (l ++ r) ↔ KeywordFree l ∧ KeywordFree r :=
  List.forall_mem_append

theorem KeepsNoKeyword.append {r : List String} (h : KeepsNoKeyword root path)
    (hr : KeywordFree r) : KeepsNoKeyword root (path ++ r) := by
  rcases h with h | ⟨r', rfl, h⟩
  · exact .inl (keywordFree_append.2 ⟨h, hr⟩)
  · exact .inr ⟨r' ++ r, List.append_assoc .., keywordFree_append.2 ⟨h, hr⟩⟩

theorem keepsNoKeyword_root_append_iff {l r : List String} (hl : KeywordFree l) :
    KeepsNoKeyword root (root ++ l ++ r) ↔ KeywordFree r := by
  constructor
  · rintro (h | ⟨r', heq, h⟩)
    · exact (keywordFree_append.1 h).2
    · rw [List.append_assoc, List.append_cancel_left_eq] at heq
      exact (keywordFree_append.1 (heq ▸ h)).2
  · intro hr
    exact .inr ⟨l ++ r, List.append_assoc .., keywordFree_append.2 ⟨hl, hr⟩⟩

namespace Scope

theorem length_le_of_climb {root base : Namespace} {target : List String}
    (h : climb root base path = some target) :
    target.length ≤ base.segments.length + path.length := by
  induction path generalizing base with
  | nil =>
    cases h
    exact Nat.le_refl _
  | cons w r ih =>
    rw [climb] at h
    split at h
    · split at h
      · cases h
      · have := ih h
        rw [List.length_dropLast] at this
        rw [List.length_cons]
        omega
    · cases h
      exact Nat.le_of_eq (List.length_append ..)

/-- `self` in front of `super` leads below the module, where `super` alone does not lead. -/
theorem absolute?_self_super (s : Scope) (hpath : path.head? = some "super") :
    s.absolute? false ("self" :: path) = some (s.home.segments ++ path) ∧
      s.absolute? false path ≠ some (s.home.segments ++ path) := by
  refine ⟨rfl, fun h => ?_⟩
  obtain ⟨r, rfl⟩ := List.head?_eq_some_iff.1 hpath
  change climb s.root s.home ("super" :: r) = _ at h
  rw [climb, if_pos rfl] at h
  split at h
  · cases h
  · -- what has been climbed once is too short
    have hlength := length_le_of_climb h
    simp only [List.length_append, List.length_cons, List.length_dropLast] at hlength
    omega

/-- Climbing from below the root leads to a module on the way, and what is not climbed stands
behind. -/
theorem exists_of_climb {target : List String}
    (h : climb ⟨root⟩ ⟨root ++ below⟩ path = some target) :
    ∃ above, above <+: below ∧ target = root ++ above ++ path.dropWhile (· = "super") := by
  induction path generalizing below with
  | nil =>
    cases h
    exact ⟨below, List.prefix_rfl, by simp⟩
  | cons w r ih =>
    rw [climb] at h
    split at h
    · next hw =>
      rcases List.eq_nil_or_concat below with rfl | ⟨above, last, rfl⟩
      · rw [if_pos (by simp)] at h
        cases h
      · rw [List.concat_eq_append, if_neg (by simp), ← List.append_assoc, List.dropLast_concat] at h
        obtain ⟨above', habove', rfl⟩ := ih h
        refine ⟨above', habove'.trans (List.prefix_concat last above), ?_⟩
        rw [List.dropWhile_cons_of_pos (by simpa using hw)]
    · next hw =>
      cases h
      exact ⟨below, List.prefix_rfl, by rw [List.dropWhile_cons_of_neg (by simpa using hw)]⟩

/-- Where a path with a keyword at its start leads, the segments that are kept stand behind a module
between the root and the module of the scope. -/
theorem exists_of_absolute?_keyword {s : Scope} (hs : s.place = (⟨root⟩, ⟨root ++ below⟩))
    {first : String} (hfirst : first ∈ ["crate", "self", "super"]) (hhead : path.head? = some first)
    {target : List String} (h : s.absolute? false path = some target) :
    ∃ above, above <+: below ∧ target = root ++ above ++ keptSegments false path := by
  obtain ⟨hroot, hhome⟩ := Prod.mk.inj hs
  obtain ⟨r, rfl⟩ := List.head?_eq_some_iff.1 hhead
  simp only [List.mem_cons, List.not_mem_nil, or_false] at hfirst
  rcases hfirst with rfl | rfl | rfl
  · refine ⟨[], List.nil_prefix, ?_⟩
    rw [List.append_nil, ← show s.root.segments = root by rw [hroot]]
    exact (Option.some.inj h).symm
  · refine ⟨below, List.prefix_rfl, ?_⟩
    rw [← show s.home.segments = root ++ below by rw [hhome]]
    exact (Option.some.inj h).symm
  · change climb s.root s.home ("super" :: r) = _ at h
    rw [hroot, hhome] at h
    have hclimb := exists_of_climb h
    exact hclimb

theorem keywordFree_of_start {l l' : List String} (h : KeywordFree l) (hl : l' <+: l) :
    KeywordFree l' :=
  fun w hw => h w (hl.subset hw)

variable {s : Scope}

/-- A path with a keyword at its start leads to a place without further keywords exactly when none
is kept. -/
theorem keepsNoKeyword_iff (hbelow : KeywordFree below)
    (hs : s.place = (⟨root⟩, ⟨root ++ below⟩)) {first : String}
    (hfirst : first ∈ ["crate", "self", "super"]) (hhead : path.head? = some first)
    {target : List String} (h : s.absolute? false path = some target) :
    KeepsNoKeyword root target ↔ KeywordFree (keptSegments false path) := by
  obtain ⟨above, habove, rfl⟩ := exists_of_absolute?_keyword hs hfirst hhead h
  exact keepsNoKeyword_root_append_iff (keywordFree_of_start hbelow habove)

/-- What a name means keeps no keyword, if its import does not. -/
theorem keepsNoKeyword_meaning (hbelow : KeywordFree below) (hhome : s.home = ⟨root ++ below⟩)
    {name : String} (himport : ∀ target ∈ s.imports.get? name, KeepsNoKeyword root target)
    (hname : name ∉ ["crate", "self", "super"]) : KeepsNoKeyword root (s.meaning name) := by
  have hword : KeywordFree [name] := by simpa [KeywordFree] using hname
  rw [meaning]
  cases htarget : s.imports.get? name with
  | some target => exact himport target htarget
  | none =>
    rw [Option.getD_none]
    split
    · rw [hhome]
      exact .inr ⟨below ++ [name], List.append_assoc .., keywordFree_append.2 ⟨hbelow, hword⟩⟩
    · exact .inl hword

/-- A path that keeps no keyword leads to a place without keywords, if no import keeps one. -/
theorem keepsNoKeyword_of_absolute? (hbelow : KeywordFree below)
    (hs : s.place = (⟨root⟩, ⟨root ++ below⟩))
    (himports : ∀ name, ∀ target ∈ s.imports.get? name, KeepsNoKeyword root target)
    {leading : Bool} (hpath : KeywordFree (keptSegments leading path)) {target : List String}
    (h : s.absolute? leading path = some target) : KeepsNoKeyword root target := by
  match leading, path with
  | true, path =>
    obtain rfl : path = target := Option.some.inj h
    exact .inl hpath
  | false, [] =>
    obtain rfl : [] = target := Option.some.inj h
    exact .inl hpath
  | false, first :: r =>
    by_cases hfirst : first ∈ ["crate", "self", "super"]
    · exact (keepsNoKeyword_iff hbelow hs hfirst rfl h).2 hpath
    · have hname : firstName? false (first :: r) = some first := if_neg hfirst
      have hsuper : first ≠ "super" := fun heq => hfirst (by simp [heq])
      rw [keptSegments, if_neg hsuper] at hpath
      rw [absolute?_of_firstName? hname, Option.some.injEq] at h
      rw [← h]
      exact (keepsNoKeyword_meaning hbelow (Prod.mk.inj hs).2 (himports first) hfirst).append hpath

/-! ### Imports that keep no keyword -/

/-- Whether no import of a scope of a module keeps a keyword. -/
structure ImportsKeepNone (root below : List String) (s : Scope) : Prop where
  place : s.place = (⟨root⟩, ⟨root ++ below⟩)
  imports : ∀ name, ∀ target ∈ s.imports.get? name, KeepsNoKeyword root target

theorem ImportsKeepNone.importName (hbelow : KeywordFree below) (hs : s.ImportsKeepNone root below)
    {leading : Bool} {leaf : String × List String}
    (hleaf : KeywordFree (keptSegments leading leaf.2)) :
    (importName leading s leaf).ImportsKeepNone root below := by
  refine ⟨(importName_kept (fun _ _ => rfl) leading s leaf).trans hs.place, fun name target h => ?_⟩
  rw [get?_importName] at h
  split at h
  · rcases Option.or_eq_some_iff.1 h with h | ⟨-, h⟩
    · exact keepsNoKeyword_of_absolute? hbelow hs.place hs.imports hleaf h
    · exact hs.imports name target h
  · exact hs.imports name target h

theorem ImportsKeepNone.importItem (hbelow : KeywordFree below) (hs : s.ImportsKeepNone root below)
    {i : Item} (hi : ∀ l ∈ i.leaves, KeywordFree (keptSegments i.isLeading l.path)) :
    (s.importItem i).ImportsKeepNone root below := by
  have hnames : (i.bindings.foldl (Scope.importName i.isLeading) s).ImportsKeepNone root below := by
    refine List.foldlRecOn (motive := fun s : Scope => s.ImportsKeepNone root below) _ _ hs ?_
    intro s hs leaf hleaf
    obtain ⟨l, hl, hbinding⟩ := List.mem_filterMap.1 hleaf
    apply hs.importName hbelow
    cases l with
    | binding name target =>
      cases hbinding
      exact hi _ hl
    | glob target => cases hbinding
  refine ⟨(importItem_kept (fun _ _ _ => rfl) s i).trans hs.place, fun name target h => ?_⟩
  rw [imports_importItem] at h
  exact hnames.imports name target h

theorem importsKeepNone_ofItems (hbelow : KeywordFree below) {items : List Item}
    (hitems : ∀ i ∈ items, ∀ l ∈ i.leaves, KeywordFree (keptSegments i.isLeading l.path)) :
    (ofItems ⟨root ++ below⟩ ⟨root⟩ items).ImportsKeepNone root below := by
  refine List.foldlRecOn (motive := fun s : Scope => s.ImportsKeepNone root below) _ _
    ⟨rfl, fun name target h => ?_⟩ fun s hs i hi => hs.importItem hbelow (hitems i hi)
  cases h

/-! ### `self` in front of `super` -/

/-- A path with `self` in front of `super` means a type below the module, and not what the path
means without `self`. -/
theorem resolve_self_super (s : Scope) {p q : Path} (hp : p.isLeading = false)
    (hhead : p.idents.head? = some "super") (hq : q.isPlain = true) (hl : q.isLeading = false)
    (hidents : q.idents = "self" :: p.idents) :
    (∃ t, s.resolve q = .ok t ∧ t.segments = s.home.segments ++ p.idents) ∧
      s.resolve q ≠ s.resolve p := by
  obtain ⟨hbelow, hdiffers⟩ := absolute?_self_super s hhead
  have hne : s.home.segments ++ p.idents ≠ [] := by
    intro hnil
    rw [(List.append_eq_nil_iff.1 hnil).2] at hhead
    cases hhead
  obtain ⟨home, name, hsegments⟩ := (List.eq_nil_or_concat _).resolve_left hne
  rw [List.concat_eq_append] at hsegments
  have hself : s.resolve q = .ok ⟨⟨home⟩, name⟩ := by
    rw [resolve_eq_ok_iff, hl, hidents, hbelow, hsegments]
    exact ⟨hq, rfl⟩
  refine ⟨⟨_, hself, hsegments.symm⟩, ?_⟩
  rw [hself]
  intro hsame
  have hsuper := (resolve_eq_ok_iff.1 hsame.symm).2
  rw [hp] at hsuper
  exact hdiffers (hsuper.trans (congrArg some hsegments.symm))

/-- A name that is imported by a path with `self` in front of `super` is imported from below the
module, and not from where the path leads without `self`. -/
theorem get?_ofItems_self_super {home root : Namespace} {items : List Item} {i : Item}
    (hi : i ∈ items) (hl : i.isLeading = false) {name : String}
    (hmem : .binding name ("self" :: path) ∈ i.leaves) (hhead : path.head? = some "super")
    (honce : (items.flatMap Item.boundNames).count name = 1) :
    let s := ofItems home root items
    s.imports.get? name = some (home.segments ++ path) ∧
      s.imports.get? name ≠ s.absolute? false path := by
  intro s
  have himport : s.imports.get? name = some (home.segments ++ path) := by
    refine get?_ofItems_of_mem_bindings hi (List.mem_filterMap.2 ⟨_, hmem, rfl⟩) honce ?_
    intro s hs
    rw [hl, (absolute?_self_super s hhead).1, (Prod.mk.inj hs).2]
  refine ⟨himport, ?_⟩
  have hdiffers := (absolute?_self_super s hhead).2
  rw [home_ofItems] at hdiffers
  rw [himport]
  exact hdiffers.symm

/-- The keywords of a path are read at its start, `self` by itself, so that `self` in front of
`super` never means what `super` alone does: it leads below the module and keeps `super` as the name
of a module, for types as for imports.  A path that starts with a keyword keeps no keyword in its
type exactly when none stands behind those that are read; where this holds of all imports too, no
path without such a keyword keeps one. -/
theorem ofItems_keptSegments (root : List String) (hbelow : KeywordFree below) :
    (∀ s : Scope, ∀ p q : Path, p.isLeading = false → p.idents.head? = some "super" →
      q.isPlain = true → q.isLeading = false → q.idents = "self" :: p.idents →
      (∃ t, s.resolve q = .ok t ∧ t.segments = s.home.segments ++ p.idents) ∧
        s.resolve q ≠ s.resolve p) ∧
    (∀ home root items, ∀ i ∈ items, i.isLeading = false → ∀ name path,
      .binding name ("self" :: path) ∈ i.leaves → path.head? = some "super" →
      (items.flatMap Item.boundNames).count name = 1 →
      let s := ofItems home root items
      s.imports.get? name = some (home.segments ++ path) ∧
        s.imports.get? name ≠ s.absolute? false path) ∧
    (∀ s : Scope, s.root = ⟨root⟩ → s.home = ⟨root ++ below⟩ → ∀ p t, s.resolve p = .ok t →
      p.isLeading = false → ∀ first ∈ ["crate", "self", "super"], p.idents.head? = some first →
      (KeepsNoKeyword root t.segments ↔ KeywordFree (keptSegments false p.idents))) ∧
    ∀ items, (∀ i ∈ items, ∀ l ∈ i.leaves, KeywordFree (keptSegments i.isLeading l.path)) →
      let s := ofItems ⟨root ++ below⟩ ⟨root⟩ items
      (∀ name, ∀ target ∈ s.imports.get? name, KeepsNoKeyword root target) ∧
      ∀ p t, s.resolve p = .ok t → KeywordFree (keptSegments p.isLeading p.idents) →
        KeepsNoKeyword root t.segments := by
  refine ⟨?_, ?_, ?_, ?_⟩
  · intro s p q hp hhead hq hl hidents
    exact resolve_self_super s hp hhead hq hl hidents
  · intro home root items i hi hl name path hmem hhead honce
    exact get?_ofItems_self_super hi hl hmem hhead honce
  · intro s hroot hhome p t ht hl first hfirst hhead
    have habsolute := (resolve_eq_ok_iff.1 ht).2
    rw [hl] at habsolute
    exact keepsNoKeyword_iff hbelow (Prod.ext hroot hhome) hfirst hhead habsolute
  · intro items hitems
    -- The imports are settled item by item first; a path is read against all of them.
    have hnone : (ofItems ⟨root ++ below⟩ ⟨root⟩ items).ImportsKeepNone root below :=
      importsKeepNone_ofItems hbelow hitems
    refine ⟨hnone.imports, fun p t ht hp => ?_⟩
    exact keepsNoKeyword_of_absolute? hbelow hnone.place hnone.imports hp
      (resolve_eq_ok_iff.1 ht).2

/-- The path `super::geo::Country`. -/
def outerCountry : Path := .mk false [.mk "super" .none, .mk "geo" .none, .mk "Country" .none]

/-- The path `self::super::geo::Country`. -/
def selfOuterCountry : Path :=
  .mk false [.mk "self" .none, .mk "super" .none, .mk "geo" .none, .mk "Country" .none]

theorem ofItems_keptSegments_outerCountry :
    let s := ofItems ⟨["crate", "sales"]⟩ ⟨["crate"]⟩
      [.use false (.path "self" (.path "super" (.path "geo" (.name "Region"))))]
    KeywordFree ["sales"] ∧
    (∃ t, s.resolve selfOuterCountry = .ok t ∧
      t.segments = ["crate", "sales", "super", "geo", "Country"]) ∧
    s.imports.get? "Region" = some ["crate", "sales", "super", "geo", "Region"] ∧
    ∃ t, s.resolve outerCountry = .ok t ∧ KeepsNoKeyword ["crate"] t.segments := by
  intro s
  have hbelow : KeywordFree ["sales"] := by decide
  obtain ⟨hself, himport, hkept, -⟩ := ofItems_keptSegments ["crate"] hbelow
  refine ⟨hbelow, (hself s outerCountry selfOuterCountry rfl rfl rfl rfl rfl).1,
    (himport _ _ _ _ (List.mem_singleton_self _) rfl "Region" _ (by decide) rfl (by decide)).1, ?_⟩
  exact ⟨⟨⟨["crate", "geo"]⟩, "Country"⟩, rfl,
    (hkept s rfl rfl outerCountry _ rfl rfl "super" (by decide) rfl).2 (by decide)⟩

/-- In the module `crate::sales` the paths `self::super::geo::Country` and `super::geo::Country` are
different types, and the first one has a module `super`. -/
theorem resolve_selfOuterCountry_ne :
    let s := ofItems ⟨["crate", "sales"]⟩ ⟨["crate"]⟩ []
    s.resolve selfOuterCountry ≠ s.resolve outerCountry ∧
    s.resolve selfOuterCountry = .ok ⟨⟨["crate", "sales", "super", "geo"]⟩, "Country"⟩ ∧
    s.resolve outerCountry = .ok ⟨⟨["crate", "geo"]⟩, "Country"⟩ := by
  exact ⟨fun h => absurd (Except.ok.inj h) (by decide), rfl, rfl⟩

end Scope
end FieldBinder
