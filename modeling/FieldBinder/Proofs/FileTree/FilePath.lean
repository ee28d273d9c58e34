import FieldBinder.FileTree.FilePath
import Mathlib.Data.List.DropRight

/-!
# Paths and their pieces

The components of a path are a function of its pieces between slashes (`components_eq`), and pieces
that are written with slashes between them are read back (`cutAtSlashes_intercalate`).  So

* the directory that a path lies in has all but the last of its components
  (`components_of_parent?`),
* a path joined with a name ends in this name (`exists_steps_join`),
* a path joined with one that is made of names and `..` has the components of both
  (`components_join`).
-/

namespace FieldBinder.FilePath

/-! ### Pieces -/

/-- A character other than a slash goes on with the first piece. -/
theorem cutAtSlashes_cons_of_ne {c : Char} (hc : c ≠ '/') {r piece : List Char}
    {pieces : List (List Char)} (h : cutAtSlashes r = piece :: pieces) :
    cutAtSlashes (c :: r) = (c :: piece) :: pieces := by
  rw [cutAtSlashes.eq_3 c r (by rintro rfl; exact hc rfl), h]

theorem cutAtSlashes_ne_nil (cs : List Char) : cutAtSlashes cs ≠ [] := by
  induction cs with
  | nil => simp [cutAtSlashes]
  | cons c r ih =>
    by_cases hc : c = '/'
    · subst hc
      simp [cutAtSlashes]
    · obtain ⟨piece, pieces, hr⟩ := List.exists_cons_of_ne_nil ih
      rw [cutAtSlashes_cons_of_ne hc hr]
      exact List.cons_ne_nil _ _

/-- A slash cuts a text into two. -/
theorem cutAtSlashes_append_slash (a b : List Char) :
    cutAtSlashes (a ++ '/' :: b) = cutAtSlashes a ++ cutAtSlashes b := by
  induction a with
  | nil => rfl
  | cons c r ih =>
    by_cases hc : c = '/'
    · subst hc
      simp [cutAtSlashes, ih]
    · obtain ⟨piece, pieces, hr⟩ := List.exists_cons_of_ne_nil (cutAtSlashes_ne_nil r)
      rw [hr, List.cons_append] at ih
      rw [List.cons_append, cutAtSlashes_cons_of_ne hc ih, cutAtSlashes_cons_of_ne hc hr,
        List.cons_append]

/-- A text without slashes is one piece. -/
theorem cutAtSlashes_of_not_mem {cs : List Char} (h : '/' ∉ cs) : cutAtSlashes cs = [cs] := by
  induction cs with
  | nil => rfl
  | cons c r ih =>
    rw [List.mem_cons, not_or] at h
    exact cutAtSlashes_cons_of_ne (Ne.symm h.1) (ih h.2)

/-- No piece has a slash. -/
theorem not_mem_of_mem_cutAtSlashes {cs piece : List Char} (h : piece ∈ cutAtSlashes cs) :
    '/' ∉ piece := by
  induction cs generalizing piece with
  | nil =>
    rw [cutAtSlashes, List.mem_singleton] at h
    simp [h]
  | cons c r ih =>
    by_cases hc : c = '/'
    · subst hc
      rw [cutAtSlashes, List.mem_cons] at h
      rcases h with rfl | h
      · exact List.not_mem_nil
      · exact ih h
    · obtain ⟨first, rest, hr⟩ := List.exists_cons_of_ne_nil (cutAtSlashes_ne_nil r)
      rw [cutAtSlashes_cons_of_ne hc hr, List.mem_cons] at h
      rw [hr] at ih
      rcases h with rfl | h
      · rw [List.mem_cons, not_or]
        exact ⟨Ne.symm hc, ih List.mem_cons_self⟩
      · exact ih (List.mem_cons_of_mem _ h)

/-- Pieces that are written with slashes between them are read back. -/
theorem cutAtSlashes_intercalate {pieces : List (List Char)} (hne : pieces ≠ [])
    (h : ∀ piece ∈ pieces, '/' ∉ piece) :
    cutAtSlashes (List.intercalate ['/'] pieces) = pieces := by
  induction pieces with
  | nil => exact absurd rfl hne
  | cons piece rest ih =>
    have hpiece : cutAtSlashes piece = [piece] := cutAtSlashes_of_not_mem (h _ List.mem_cons_self)
    cases rest with
    | nil => rw [List.intercalate_singleton, hpiece]
    | cons second rest =>
      rw [List.intercalate_cons_cons, List.append_assoc, List.singleton_append,
        cutAtSlashes_append_slash, hpiece,
        ih (List.cons_ne_nil _ _) fun q hq => h q (List.mem_cons_of_mem _ hq)]
      rfl

/-! ### The order of paths -/

instance : Std.TransOrd FilePath :=
  (inferInstance : Std.TransCmp (compareOn components))

/-- Paths compare as equal just when they have the same components. -/
theorem compare_eq_iff {p q : FilePath} : compare p q = .eq ↔ p.same q = true := by
  have hcompare : compare p q = compare p.components q.components := rfl
  rw [hcompare, Std.LawfulEqOrd.compare_eq_iff_eq, same, beq_iff_eq]

/-! ### Components -/

/-- The component that stands for the way in which pieces begin. -/
def leadOf : List (List Char) → List Component
  | [] :: _ :: _ => [.root]
  | ['.'] :: _ => [.current]
  | _ => []

/-- A path that starts with a name has no lead. -/
theorem leadOf_cons {lead : List Char} (h : lead ≠ []) (h' : lead ≠ ['.'])
    (body : List (List Char)) : leadOf (lead :: body) = [] := by
  rw [leadOf.eq_3]
  · intro _ _ heq
    exact h (List.cons.inj heq).1
  · intro _ heq
    exact h' (List.cons.inj heq).1

/-- A path starts at the root, at the current directory, or with a name. -/
theorem leadOf_cases (pieces : List (List Char)) :
    leadOf pieces = [] ∨ leadOf pieces = [.root] ∨ leadOf pieces = [.current] := by
  fun_cases leadOf pieces
  · exact .inr (.inl rfl)
  · exact .inr (.inr rfl)
  · exact .inl rfl

/-- An absolute path starts with an empty piece, behind which there is another. -/
theorem isAbsolute_iff {p : FilePath} :
    p.isAbsolute = true ↔ ∃ piece rest, cutAtSlashes p.text.toList = [] :: piece :: rest := by
  rw [isAbsolute, beq_iff_eq]
  rcases p.text.toList with _ | ⟨c, r⟩
  · simp [cutAtSlashes]
  obtain ⟨piece, pieces, hr⟩ := List.exists_cons_of_ne_nil (cutAtSlashes_ne_nil r)
  by_cases hc : c = '/'
  · subst hc
    simp [cutAtSlashes, hr]
  · simp [cutAtSlashes_cons_of_ne hc hr, hc]

/-- The components are the lead and what the pieces say. -/
theorem components_eq (p : FilePath) : p.components =
    leadOf (cutAtSlashes p.text.toList) ++ (cutAtSlashes p.text.toList).filterMap componentOf? := by
  rw [components]
  by_cases habs : p.isAbsolute = true
  · obtain ⟨piece, rest, hpieces⟩ := isAbsolute_iff.1 habs
    simp only [if_pos habs, hpieces, leadOf]
  obtain ⟨lead, body, hpieces⟩ := List.exists_cons_of_ne_nil (cutAtSlashes_ne_nil p.text.toList)
  simp only [if_neg habs, hpieces, List.head?_cons, beq_iff_eq, Option.some.injEq]
  -- A relative path keeps a dot in front; an empty piece there would have made it absolute.
  by_cases hdot : lead = ['.']
  · subst hdot
    rfl
  · rw [if_neg hdot]
    by_cases hlead : lead = []
    · subst hlead
      cases body with
      | nil => rfl
      | cons piece rest => exact absurd (isAbsolute_iff.2 ⟨piece, rest, hpieces⟩) habs
    · rw [leadOf_cons hlead hdot]

/-- A piece that says something is `..` or a name. -/
theorem componentOf?_cases {piece : List Char} {c : Component} (h : componentOf? piece = some c) :
    c = .parent ∨ c = .normal (String.ofList piece) := by
  unfold componentOf? at h
  split at h
  · cases h
  · split at h
    · exact .inl (Option.some.inj h).symm
    · exact .inr (Option.some.inj h).symm

/-- Only the lead can be the current directory. -/
theorem getLast?_filterMap_ne (pieces : List (List Char)) :
    (pieces.filterMap componentOf?).getLast? ≠ some .current := by
  intro h
  obtain ⟨piece, -, hpiece⟩ := List.mem_filterMap.1 (List.mem_of_getLast? h)
  rcases componentOf?_cases hpiece with h | h <;> cases h

/-- The components of a path that is written from pieces. -/
theorem components_intercalate {pieces : List (List Char)} (h : ∀ piece ∈ pieces, '/' ∉ piece) :
    (FilePath.mk (String.ofList (List.intercalate ['/'] pieces))).components =
      leadOf pieces ++ pieces.filterMap componentOf? := by
  rw [components_eq, String.toList_ofList]
  cases pieces with
  | nil => rfl
  | cons piece rest => rw [cutAtSlashes_intercalate (List.cons_ne_nil _ _) h]

/-! ### The directory that a path lies in -/

theorem dropIdle_concat (pieces : List (List Char)) (piece : List Char) :
    dropIdle (pieces ++ [piece]) =
      if (componentOf? piece).isNone then dropIdle pieces else pieces ++ [piece] :=
  List.rdropWhile_concat _ _ _

/-- Pieces that say nothing can be dropped. -/
theorem filterMap_dropIdle (pieces : List (List Char)) :
    (dropIdle pieces).filterMap componentOf? = pieces.filterMap componentOf? := by
  induction pieces using List.reverseRecOn with
  | nil => rfl
  | append_singleton pieces piece ih =>
    rw [dropIdle_concat]
    split
    · next hnone =>
      rw [ih, List.filterMap_append, List.filterMap_cons_none (Option.isNone_iff_eq_none.1 hnone),
        List.filterMap_nil, List.append_nil]
    · rfl

/-- To drop the last piece that says something drops the last component. -/
theorem filterMap_dropLastPiece (pieces : List (List Char)) :
    (dropLastPiece pieces).filterMap componentOf? = (pieces.filterMap componentOf?).dropLast := by
  induction pieces using List.reverseRecOn with
  | nil => rfl
  | append_singleton pieces piece ih =>
    rw [dropLastPiece, dropIdle_concat, List.filterMap_append]
    cases hc : componentOf? piece with
    | none =>
      rw [List.filterMap_cons_none hc, List.filterMap_nil, List.append_nil]
      exact ih
    | some c =>
      rw [List.filterMap_cons_some hc, List.filterMap_nil, List.dropLast_concat]
      simp [filterMap_dropIdle]

theorem prefix_dropLastPiece (pieces : List (List Char)) : dropLastPiece pieces <+: pieces :=
  (List.rdropWhile_prefix _ _).trans
    ((List.dropLast_prefix _).trans (List.rdropWhile_prefix _ _))

/-- A first piece that stands for no component is no last one either. -/
theorem filterMap_cons_dropLastPiece {lead : List Char} (h : componentOf? lead = none)
    (body : List (List Char)) : (lead :: dropLastPiece body).filterMap componentOf? =
      ((lead :: body).filterMap componentOf?).dropLast := by
  rw [List.filterMap_cons_none h, List.filterMap_cons_none h, filterMap_dropLastPiece]

/-- The path of a directory, written from the first piece of a path and others of its pieces. -/
theorem components_intercalate_cons {lead : List Char} {body : List (List Char)}
    (hslash : ∀ piece ∈ lead :: body, '/' ∉ piece) :
    (FilePath.mk (String.ofList (List.intercalate ['/'] (lead :: dropLastPiece body)))).components =
      leadOf (lead :: dropLastPiece body) ++
        (lead :: dropLastPiece body).filterMap componentOf? := by
  refine components_intercalate fun piece hpiece => hslash piece ?_
  rcases List.mem_cons.1 hpiece with rfl | hpiece
  · exact List.mem_cons_self
  · exact List.mem_cons_of_mem _ ((prefix_dropLastPiece body).subset hpiece)

theorem leadOf_dropLastPiece {lead : List Char} (h : lead ≠ []) (h' : lead ≠ ['.'])
    (body : List (List Char)) : leadOf (dropLastPiece (lead :: body)) = [] := by
  cases heq : dropLastPiece (lead :: body) with
  | nil => rfl
  | cons first rest =>
    have hpre := prefix_dropLastPiece (lead :: body)
    rw [heq, List.cons_prefix_cons] at hpre
    rw [hpre.1, leadOf_cons h h']

/-- A path that ends in `.` has no other component. -/
theorem components_of_getLast?_current {p : FilePath}
    (h : p.components.getLast? = some .current) : p.components = [.current] := by
  have hp := components_eq p
  have hnil : (cutAtSlashes p.text.toList).filterMap componentOf? = [] := by
    refine Classical.not_not.1 fun hne => getLast?_filterMap_ne (cutAtSlashes p.text.toList) ?_
    rw [← h, hp, List.getLast?_append_of_ne_nil _ hne]
  rw [hnil, List.append_nil] at hp
  rw [hp] at h ⊢
  rcases leadOf_cases (cutAtSlashes p.text.toList) with hlead | hlead | hlead
  · rw [hlead] at h
    cases h
  · rw [hlead] at h
    cases h
  · exact hlead

/-- A path whose last component is a name or `..` has a piece that stands for a component. -/
theorem filterMap_ne_nil_of_getLast? {p : FilePath} {c : Component}
    (h : p.components.getLast? = some c) (hroot : c ≠ .root) (hcurrent : c ≠ .current) :
    (cutAtSlashes p.text.toList).filterMap componentOf? ≠ [] := by
  intro hnil
  rw [components_eq, hnil, List.append_nil] at h
  rcases leadOf_cases (cutAtSlashes p.text.toList) with hlead | hlead | hlead
  · rw [hlead] at h
    cases h
  · rw [hlead] at h
    exact hroot (Option.some.inj h).symm
  · rw [hlead] at h
    exact hcurrent (Option.some.inj h).symm

/-- The directory that a path lies in has all but the last of its components. -/
theorem components_of_parent? {p dir : FilePath} (h : p.parent? = some dir) :
    p.components ≠ [] ∧ dir.components = p.components.dropLast := by
  have hp := components_eq p
  have hslash : ∀ piece ∈ cutAtSlashes p.text.toList, '/' ∉ piece :=
    fun _ => not_mem_of_mem_cutAtSlashes
  unfold parent? at h
  split at h
  · cases h
  · cases h
  · next hlast =>
    cases h
    rw [components_of_getLast?_current hlast]
    exact ⟨List.cons_ne_nil _ _, rfl⟩
  · next hnil _ _ _ => exact absurd hnil (cutAtSlashes_ne_nil _)
  · next c lead body hroot hcurrent hlast hpieces =>
    have hne := filterMap_ne_nil_of_getLast? hlast hroot hcurrent
    rw [hpieces] at hp hslash hne
    refine ⟨by rw [hp]; exact List.append_ne_nil_of_right_ne_nil _ hne, ?_⟩
    rw [hp, List.dropLast_append_of_ne_nil hne]
    split at h
    · next habs =>
      -- the path starts at the root
      obtain ⟨piece, rest, heq⟩ := isAbsolute_iff.1 habs
      rw [hpieces] at heq
      obtain ⟨rfl, rfl⟩ := List.cons.inj heq
      rw [← filterMap_cons_dropLastPiece rfl]
      split at h
      · next hnil =>
        cases h
        rw [hnil]
        rfl
      · next hcons =>
        cases h
        obtain ⟨first, others, heq⟩ := List.exists_cons_of_ne_nil hcons
        rw [components_intercalate_cons hslash, heq]
        rfl
    · next habs =>
      split at h
      · next hdot =>
        subst hdot
        cases h
        rw [components_intercalate_cons hslash, filterMap_cons_dropLastPiece rfl]
        rfl
      · next hdot =>
        cases h
        have hlead : lead ≠ [] := by
          rintro rfl
          cases body with
          | nil => exact hne rfl
          | cons piece rest => exact habs (isAbsolute_iff.2 ⟨piece, rest, hpieces⟩)
        rw [components_intercalate fun q hq => hslash q ((prefix_dropLastPiece _).subset hq),
          leadOf_dropLastPiece hlead hdot, leadOf_cons hlead hdot, filterMap_dropLastPiece]

/-! ### Paths joined with a name -/

/-- Whether a text is the name of a file: a piece of a path that stands for itself. -/
def IsName (name : String) : Prop :=
  '/' ∉ name.toList ∧ componentOf? name.toList = some (.normal name)

instance (name : String) : Decidable (IsName name) := inferInstanceAs (Decidable (_ ∧ _))

/-- Whether a text can stand between the slashes of a path. -/
def IsPiece (text : String) : Prop := text ≠ "" ∧ '/' ∉ text.toList

/-- Between slashes, all but `.` and `..` are names. -/
theorem isName_iff {text : String} :
    IsName text ↔ IsPiece text ∧ text ≠ "." ∧ text ≠ ".." := by
  have htoList (s : String) : text.toList = s.toList ↔ text = s := String.toList_inj
  rw [IsName, IsPiece, componentOf?, ne_eq, ne_eq, ne_eq, ← htoList "", ← htoList ".",
    ← htoList ".."]
  by_cases hempty : text.toList = []
  · simp [hempty]
  · by_cases hdot : text.toList = ['.']
    · simp [hdot]
    · by_cases hdots : text.toList = ['.', '.']
      · simp [hdots]
      · simp [hempty, hdot, hdots]

theorem IsName.isPiece {text : String} (h : IsName text) : IsPiece text := (isName_iff.1 h).1

/-- The names among the components of a path are names. -/
theorem isName_of_mem_components {p : FilePath} {name : String}
    (h : .normal name ∈ p.components) : IsName name := by
  rw [components_eq, List.mem_append] at h
  rcases h with h | h
  · rcases leadOf_cases (cutAtSlashes p.text.toList) with hlead | hlead | hlead
    all_goals simp [hlead] at h
  · obtain ⟨piece, hpiece, hcomponent⟩ := List.mem_filterMap.1 h
    rcases componentOf?_cases hcomponent with hparent | hnormal
    · cases hparent
    · cases hnormal
      refine ⟨?_, ?_⟩
      · rw [String.toList_ofList]
        exact not_mem_of_mem_cutAtSlashes hpiece
      · rw [String.toList_ofList]
        exact hcomponent

/-- A joined path is written as the name behind nothing or behind a slash. -/
theorem exists_toList_text_join (dir : FilePath) {name : String} (hname : IsName name) :
    ∃ before, (dir.join ⟨name⟩).text.toList = before ++ name.toList ∧
      (before = [] ∨ ∃ outer, before = outer ++ ['/']) := by
  have hrelative : isAbsolute ⟨name⟩ = false := by
    rw [isAbsolute, beq_eq_false_iff_ne]
    exact fun h => hname.1 (List.mem_of_head? h)
  rw [join, if_neg (by simp [hrelative])]
  split
  · exact ⟨[], rfl, .inl rfl⟩
  · next c hlast =>
    split
    · next hc =>
      refine ⟨dir.text.toList, String.toList_append, .inr ⟨dir.text.toList.dropLast, ?_⟩⟩
      rw [← hc]
      exact (List.dropLast_append_getLast? c hlast).symm
    · exact ⟨dir.text.toList ++ ['/'], by simp, .inr ⟨_, rfl⟩⟩

/-- To join a name adds it as a piece of its own. -/
theorem exists_cutAtSlashes_join (dir : FilePath) {name : String} (hname : IsName name) :
    ∃ pieces, cutAtSlashes (dir.join ⟨name⟩).text.toList = pieces ++ [name.toList] := by
  obtain ⟨before, htext, hbefore⟩ := exists_toList_text_join dir hname
  rw [htext]
  rcases hbefore with rfl | ⟨outer, rfl⟩
  · exact ⟨[], cutAtSlashes_of_not_mem hname.1⟩
  · rw [List.append_assoc, List.singleton_append, cutAtSlashes_append_slash,
      cutAtSlashes_of_not_mem hname.1]
    exact ⟨_, rfl⟩

theorem IsName.toList_ne_nil {name : String} (h : IsName name) : name.toList ≠ [] := by
  intro hnil
  have := h.2
  rw [hnil] at this
  cases this

/-- A path that ends in a name ends in no slash. -/
theorem endsInSlash_join (dir : FilePath) {name : String} (hname : IsName name) :
    (dir.join ⟨name⟩).endsInSlash = false := by
  obtain ⟨before, htext, -⟩ := exists_toList_text_join dir hname
  rw [endsInSlash, htext, List.getLast?_append_of_ne_nil _ hname.toList_ne_nil,
    beq_eq_false_iff_ne]
  exact fun h => hname.1 (List.mem_of_getLast? h)

/-- All components of a path that ends in a name are steps. -/
theorem steps_join (dir : FilePath) {name : String} (hname : IsName name) :
    (dir.join ⟨name⟩).steps = (dir.join ⟨name⟩).components := by
  obtain ⟨pieces, hpieces⟩ := exists_cutAtSlashes_join dir hname
  have hlast : ((pieces ++ [name.toList]).filter (!·.isEmpty)).getLast? = some name.toList := by
    have : name.toList.isEmpty = false := by simpa using hname.toList_ne_nil
    simp [List.filter_append, this]
  rw [steps, hpieces, hlast]
  split
  · next heq =>
    have := hname.2
    rw [Option.some.inj heq] at this
    cases this
  · rfl

/-- A path joined with a name ends in this name. -/
theorem exists_steps_join (dir : FilePath) {name : String} (hname : IsName name) :
    ∃ steps, (dir.join ⟨name⟩).steps = steps ++ [.normal name] := by
  obtain ⟨pieces, hpieces⟩ := exists_cutAtSlashes_join dir hname
  rw [steps_join dir hname, components_eq, hpieces, List.filterMap_append,
    List.filterMap_cons_some hname.2, List.filterMap_nil, ← List.append_assoc]
  exact ⟨_, rfl⟩

/-! ### Paths joined with relative paths -/

theorem eq_nil_of_cutAtSlashes {cs : List Char} (h : cutAtSlashes cs = [[]]) : cs = [] := by
  cases cs with
  | nil => rfl
  | cons c r =>
    obtain ⟨piece, pieces, hr⟩ := List.exists_cons_of_ne_nil (cutAtSlashes_ne_nil r)
    by_cases hc : c = '/'
    · subst hc
      rw [cutAtSlashes, hr] at h
      cases h
    · rw [cutAtSlashes_cons_of_ne hc hr] at h
      cases h

/-- What comes after a first piece that is not empty does not matter. -/
theorem leadOf_cons_of_ne {piece : List Char} (h : piece ≠ []) (a b : List (List Char)) :
    leadOf (piece :: a) = leadOf (piece :: b) := by
  by_cases hdot : piece = ['.']
  · subst hdot
    rfl
  · rw [leadOf_cons h hdot, leadOf_cons h hdot]

/-- What a path starts with does not depend on its end. -/
theorem leadOf_append {first : List (List Char)} (hfirst : first ≠ []) {a b : List (List Char)}
    (ha : a ≠ []) (hb : b ≠ []) : leadOf (first ++ a) = leadOf (first ++ b) := by
  obtain ⟨piece, rest, rfl⟩ := List.exists_cons_of_ne_nil hfirst
  by_cases hnil : piece = []
  · subst hnil
    obtain ⟨x, xs, hx⟩ := List.exists_cons_of_ne_nil (List.append_ne_nil_of_right_ne_nil rest ha)
    obtain ⟨y, ys, hy⟩ := List.exists_cons_of_ne_nil (List.append_ne_nil_of_right_ne_nil rest hb)
    rw [List.cons_append, List.cons_append, hx, hy, leadOf, leadOf]
  · exact leadOf_cons_of_ne hnil _ _

/-- A path without root and current directory has no lead. -/
theorem leadOf_eq_nil {p : FilePath} (hroot : .root ∉ p.components)
    (hcurrent : .current ∉ p.components) : leadOf (cutAtSlashes p.text.toList) = [] := by
  rw [components_eq] at hroot hcurrent
  rcases leadOf_cases (cutAtSlashes p.text.toList) with h | h | h
  · exact h
  · exact absurd (List.mem_append_left _ (h ▸ List.mem_singleton_self _)) hroot
  · exact absurd (List.mem_append_left _ (h ▸ List.mem_singleton_self _)) hcurrent

theorem isAbsolute_eq_false {p : FilePath} (hroot : .root ∉ p.components) :
    p.isAbsolute = false := by
  rw [← Bool.not_eq_true]
  intro habs
  obtain ⟨piece, rest, heq⟩ := isAbsolute_iff.1 habs
  rw [components_eq, heq] at hroot
  exact hroot List.mem_cons_self

/-- A path joined with one that is made of names and `..` has the components of both. -/
theorem components_join (p : FilePath) {q : FilePath} (hroot : .root ∉ q.components)
    (hcurrent : .current ∉ q.components) :
    (p.join q).components = p.components ++ q.components := by
  have hrelative := isAbsolute_eq_false hroot
  have hq := leadOf_eq_nil hroot hcurrent
  have hqne := cutAtSlashes_ne_nil q.text.toList
  rw [join, if_neg (by simp [hrelative])]
  split
  · next hlast =>
    have hp : p.text.toList = [] := List.getLast?_eq_none_iff.1 hlast
    rw [components_eq p, hp]
    rfl
  · next c hlast =>
    rw [components_eq p, components_eq q, hq, List.nil_append]
    split
    · next hc =>
      -- the slash is there already
      subst hc
      obtain ⟨outer, hp⟩ : ∃ outer, p.text.toList = outer ++ ['/'] :=
        ⟨_, (List.dropLast_append_getLast? _ hlast).symm⟩
      have hcut : cutAtSlashes p.text.toList = cutAtSlashes outer ++ [[]] := by
        rw [hp, cutAtSlashes_append_slash]
        rfl
      have hjoin : (p.text ++ q.text).toList = outer ++ '/' :: q.text.toList := by
        rw [String.toList_append, hp, List.append_assoc, List.singleton_append]
      rw [components_eq, hjoin, cutAtSlashes_append_slash, hcut, List.filterMap_append,
        List.filterMap_append, leadOf_append (cutAtSlashes_ne_nil outer) hqne
          (List.cons_ne_nil [] []), ← List.append_assoc]
      simp [componentOf?]
    · next hc =>
      have hjoin : (p.text ++ "/" ++ q.text).toList = p.text.toList ++ '/' :: q.text.toList := by
        simp
      have hlead : leadOf (cutAtSlashes p.text.toList ++ cutAtSlashes q.text.toList) =
          leadOf (cutAtSlashes p.text.toList) := by
        obtain ⟨piece, rest, hcut⟩ := List.exists_cons_of_ne_nil (cutAtSlashes_ne_nil p.text.toList)
        have hpiece : rest = [] → piece ≠ [] := by
          rintro rfl rfl
          rw [eq_nil_of_cutAtSlashes hcut] at hlast
          cases hlast
        rw [hcut]
        cases rest with
        | nil => exact leadOf_cons_of_ne (hpiece rfl) _ _
        | cons second rest => exact leadOf_append (List.cons_ne_nil piece []) (by simp) (by simp)
      rw [components_eq, hjoin, cutAtSlashes_append_slash, List.filterMap_append, hlead,
        ← List.append_assoc]
/-- Only the empty path has no components. -/
theorem text_eq_of_components_eq_nil {p : FilePath} (h : p.components = []) : p.text = "" := by
  rw [components_eq, List.append_eq_nil_iff] at h
  obtain ⟨hlead, hpieces⟩ := h
  obtain ⟨piece, rest, hcut⟩ := List.exists_cons_of_ne_nil (cutAtSlashes_ne_nil p.text.toList)
  rw [hcut] at hlead hpieces
  have hpiece : componentOf? piece = none :=
    List.filterMap_eq_nil_iff.1 hpieces piece List.mem_cons_self
  have hnil : piece = [] := by
    by_cases hdot : piece = ['.']
    · subst hdot
      cases hlead
    · refine Classical.not_not.1 fun hne => ?_
      rw [componentOf?, if_neg (by simp [hne, hdot])] at hpiece
      split at hpiece <;> cases hpiece
  subst hnil
  cases rest with
  | nil => rw [← String.toList_inj, eq_nil_of_cutAtSlashes hcut, String.toList_empty]
  | cons second rest => cases hlead

/-- A path joined with one without components is the latter or ends in a slash. -/
theorem join_of_components_eq_nil (p : FilePath) {q : FilePath} (h : q.components = []) :
    p.join q = q ∨ (p.join q).endsInSlash = true := by
  obtain ⟨text⟩ := q
  obtain rfl : text = "" := text_eq_of_components_eq_nil h
  rw [join, if_neg (by decide)]
  split
  · exact .inl rfl
  · next c hlast =>
    right
    split
    · next hc =>
      rw [endsInSlash, String.append_empty, hlast, hc]
      rfl
    · rw [endsInSlash, String.append_empty, String.toList_append]
      simp

end FieldBinder.FilePath
