import FieldBinder.Name.TypeName
import Mathlib.Data.List.Infix
import Mathlib.Data.List.TakeWhile

/-!
# Names as texts

A path text is cut at its separators from the left, so three colons are a separator in front of a
colon (`Namespace.Cuts`, `Namespace.cuts_iff`).  Names whose segments are bare, that is, without
colons and without blanks around them, are read back from their texts (`TypeName.parse?_display`,
`Namespace.parse?_display`).  A text is no name exactly if it has a blank piece
(`Namespace.parse?_eq_none_iff`), or, for the name of a type, is blank itself
(`TypeName.parse?_eq_none_iff`).
-/

namespace FieldBinder

/-! ### Blanks at the ends -/

namespace Text

theorem trimChars_eq_nil_iff {cs : List Char} :
    trimChars cs = [] ↔ ∀ c ∈ cs, isBlank c = true := by
  rw [trimChars, List.reverse_eq_nil_iff, List.dropWhile_eq_nil_iff]
  constructor
  · intro h
    rw [← List.dropWhile_eq_nil_iff]
    by_contra hne
    -- what is left starts with a character that is not blank
    obtain ⟨c, r, heq⟩ := List.exists_cons_of_ne_nil hne
    have hhead := List.head?_dropWhile_not isBlank cs
    rw [heq, List.head?_cons] at hhead
    have hblank := h c (by rw [heq]; simp)
    rw [hhead] at hblank
    cases hblank
  · intro h c hc
    exact h c (List.dropWhile_subset _ (List.mem_reverse.1 hc))

theorem dropWhile_of_head? {cs : List Char} (h : ∀ c ∈ cs.head?, isBlank c = false) :
    cs.dropWhile isBlank = cs := by
  cases cs with
  | nil => rfl
  | cons c r => exact List.dropWhile_cons_of_neg (by simp [h c rfl])

/-- Nothing is taken off a text that has no blanks at its ends. -/
theorem trimChars_of_ends {cs : List Char} (hhead : ∀ c ∈ cs.head?, isBlank c = false)
    (hlast : ∀ c ∈ cs.getLast?, isBlank c = false) : trimChars cs = cs := by
  rw [trimChars, dropWhile_of_head? hhead, dropWhile_of_head?, List.reverse_reverse]
  rwa [List.head?_reverse]

end Text

open Text

/-! ### Cutting at separators -/

namespace Namespace

/-- Whether a text falls into pieces when it is cut at the first separator in it, and what follows
at the first one there, and so on. -/
inductive Cuts : List Char → List (List Char) → Prop
  | whole {piece : List Char} (none : ¬ [':', ':'] <:+: piece) : Cuts piece [piece]
  | cut {piece rest : List Char} {pieces : List (List Char)}
    (first : ¬ [':', ':'] <:+: piece ++ [':']) (cuts : Cuts rest pieces) :
    Cuts (piece ++ ':' :: ':' :: rest) (piece :: pieces)

/-- A separator at the start does not reach beyond the first colon of a separator further on. -/
theorem separator_prefix_iff {c : Char} {piece rest : List Char} :
    [':', ':'] <+: c :: (piece ++ ':' :: rest) ↔ [':', ':'] <+: c :: (piece ++ [':']) := by
  have hstart : c :: (piece ++ [':']) <+: c :: (piece ++ ':' :: rest) :=
    ⟨rest, by simp⟩
  constructor
  · intro h
    exact List.prefix_of_prefix_length_le h hstart (by simp)
  · exact fun h => h.trans hstart

theorem cutAtColons_ne_nil (cs : List Char) : cutAtColons cs ≠ [] := by
  fun_cases cutAtColons cs <;> simp

theorem cutAtColons_cons_of_not_start {c : Char} {r : List Char} (h : ¬ [':', ':'] <+: c :: r)
    {piece : List Char} {pieces : List (List Char)} (hr : cutAtColons r = piece :: pieces) :
    cutAtColons (c :: r) = (c :: piece) :: pieces := by
  rw [cutAtColons, hr]
  rintro rest rfl rfl
  exact h ⟨rest, rfl⟩

theorem cutAtColons_of_whole {cs : List Char} (h : ¬ [':', ':'] <:+: cs) :
    cutAtColons cs = [cs] := by
  induction cs with
  | nil => rfl
  | cons c r ih =>
    rw [List.infix_cons_iff, not_or] at h
    exact cutAtColons_cons_of_not_start h.1 (ih h.2)

theorem cutAtColons_append {piece rest : List Char} (h : ¬ [':', ':'] <:+: piece ++ [':']) :
    cutAtColons (piece ++ ':' :: ':' :: rest) = piece :: cutAtColons rest := by
  induction piece with
  | nil => rw [List.nil_append, cutAtColons]
  | cons c r ih =>
    rw [List.cons_append, List.infix_cons_iff, not_or] at h
    exact cutAtColons_cons_of_not_start (mt separator_prefix_iff.1 h.1) (ih h.2)

theorem cuts_cutAtColons (cs : List Char) : Cuts cs (cutAtColons cs) := by
  fun_induction cutAtColons cs with
  | case1 => exact .whole (by decide)
  | case2 r ih =>
    have hcut : Cuts ([] ++ ':' :: ':' :: r) ([] :: cutAtColons r) := .cut (by decide) ih
    exact hcut
  | case3 c r hsep heq ih => exact absurd heq (cutAtColons_ne_nil r)
  -- The character joins the first piece, which gains no `::`: none begins in front of it.
  | case4 c r hsep piece pieces heq ih =>
    have hstart : ¬ [':', ':'] <+: c :: r := by
      rintro ⟨rest, hrest⟩
      cases hrest
      exact hsep rest rfl rfl
    rw [heq] at ih
    cases ih with
    | whole none => exact .whole (by rw [List.infix_cons_iff, not_or]; exact ⟨hstart, none⟩)
    | cut first cuts =>
      rw [← List.cons_append]
      refine .cut ?_ cuts
      rw [List.cons_append, List.infix_cons_iff, not_or]
      exact ⟨mt separator_prefix_iff.2 hstart, first⟩

/-- A text falls into pieces in one way. -/
theorem cuts_iff {cs : List Char} {pieces : List (List Char)} :
    Cuts cs pieces ↔ cutAtColons cs = pieces := by
  constructor
  · intro h
    induction h with
    | whole none => exact cutAtColons_of_whole none
    | cut first cuts ih => rw [cutAtColons_append first, ih]
  · rintro rfl
    exact cuts_cutAtColons cs

/-! ### Bare segments -/

/-- Whether a text can be a segment as it stands: it is not empty, has no colons, and no blanks at
its ends. -/
structure IsBare (s : String) : Prop where
  ne_empty : s ≠ ""
  colon : ':' ∉ s.toList
  head : ∀ c ∈ s.toList.head?, isBlank c = false
  last : ∀ c ∈ s.toList.getLast?, isBlank c = false

theorem isBare_iff {s : String} : IsBare s ↔ s ≠ "" ∧ ':' ∉ s.toList ∧
    s.toList.head?.all (!isBlank ·) = true ∧ s.toList.getLast?.all (!isBlank ·) = true := by
  simp only [Option.all_eq_true, Bool.not_eq_true']
  constructor
  · exact fun h => ⟨h.ne_empty, h.colon, h.head, h.last⟩
  · exact fun ⟨hne, hcolon, hhead, hlast⟩ => ⟨hne, hcolon, hhead, hlast⟩

instance (s : String) : Decidable (IsBare s) := decidable_of_iff' _ isBare_iff

theorem IsBare.toList_ne_nil {s : String} (h : IsBare s) : s.toList ≠ [] := by
  rw [ne_eq, ← String.toList_empty, String.toList_inj]
  exact h.ne_empty

/-- A separator needs two colons. -/
theorem not_infix_of_count_lt {cs : List Char} (h : cs.count ':' < 2) : ¬ [':', ':'] <:+: cs := by
  intro hseparator
  have hle := hseparator.sublist.count_le ':'
  have htwo : [':', ':'].count ':' = 2 := by decide
  omega

/-- Pieces without colons are what the text that joins them falls into. -/
theorem cuts_intercalate {pieces : List (List Char)} (hne : pieces ≠ [])
    (h : ∀ piece ∈ pieces, ':' ∉ piece) : Cuts (List.intercalate [':', ':'] pieces) pieces := by
  induction pieces with
  | nil => exact absurd rfl hne
  | cons piece rest ih =>
    -- A piece has no colon, so with the one of the next `::` it has too few for a cut inside.
    have hcount : piece.count ':' = 0 := List.count_eq_zero.2 (h piece List.mem_cons_self)
    cases rest with
    | nil =>
      rw [List.intercalate_singleton]
      exact .whole (not_infix_of_count_lt (by omega))
    | cons second rest =>
      rw [List.intercalate_cons_cons, List.append_assoc]
      refine .cut (not_infix_of_count_lt ?_) ?_
      · rw [List.count_append, hcount]
        decide
      · exact ih (List.cons_ne_nil _ _) fun q hq => h q (List.mem_cons_of_mem _ hq)

/-- What a text falls into joins to the text. -/
theorem intercalate_of_cuts {cs : List Char} {pieces : List (List Char)} (h : Cuts cs pieces) :
    List.intercalate [':', ':'] pieces = cs := by
  induction h with
  | whole none => exact List.intercalate_singleton
  | @cut piece rest pieces first cuts ih =>
    have hne : pieces ≠ [] := by
      rw [← cuts_iff.1 cuts]
      exact cutAtColons_ne_nil rest
    obtain ⟨second, others, rfl⟩ := List.exists_cons_of_ne_nil hne
    rw [List.intercalate_cons_cons, ih, List.append_assoc]
    rfl

theorem head?_intercalate {sep piece : List Char} (hpiece : piece ≠ [])
    (pieces : List (List Char)) :
    (List.intercalate sep (piece :: pieces)).head? = piece.head? := by
  cases pieces with
  | nil => rw [List.intercalate_singleton]
  | cons second rest =>
    rw [List.intercalate_cons_cons, List.append_assoc, List.head?_append_of_ne_nil _ hpiece]

theorem getLast?_intercalate {sep piece : List Char} (hpiece : piece ≠ [])
    (pieces : List (List Char)) :
    (List.intercalate sep (pieces ++ [piece])).getLast? = piece.getLast? := by
  induction pieces with
  | nil => rw [List.nil_append, List.intercalate_singleton]
  | cons first rest ih =>
    obtain ⟨second, others, heq⟩ := List.exists_cons_of_ne_nil
      (List.append_ne_nil_of_right_ne_nil rest (List.cons_ne_nil piece []))
    rw [List.cons_append, heq, List.intercalate_cons_cons, ← heq, List.getLast?_append, ih]
    rw [List.getLast?_eq_some_getLast hpiece]
    rfl

/-! ### Reading and writing namespaces -/

theorem toList_display (n : Namespace) :
    n.display.toList = List.intercalate [':', ':'] (n.segments.map String.toList) :=
  String.toList_intercalate

/-- The text of a namespace has no blanks at its ends. -/
theorem trimChars_display {n : Namespace} (h : ∀ s ∈ n.segments, IsBare s) :
    trimChars n.display.toList = n.display.toList := by
  rw [toList_display]
  refine trimChars_of_ends ?_ ?_
  · -- The text begins as its first segment does, and ends as its last.
    rcases hsegments : n.segments with _ | ⟨s, rest⟩
    · simp
    · rw [hsegments, List.forall_mem_cons] at h
      rw [List.map_cons, head?_intercalate h.1.toList_ne_nil]
      exact h.1.head
  · rcases List.eq_nil_or_concat n.segments with hsegments | ⟨rest, s, hsegments⟩
    · simp [hsegments]
    · rw [hsegments, List.concat_eq_append, List.forall_mem_append, List.forall_mem_singleton] at h
      rw [hsegments, List.concat_eq_append, List.map_append, List.map_singleton,
        getLast?_intercalate h.2.toList_ne_nil]
      exact h.2.last

theorem cutPath_display {n : Namespace} (hne : n.segments ≠ [])
    (h : ∀ s ∈ n.segments, IsBare s) : cutPath n.display.toList = n.segments := by
  have hcuts : Cuts n.display.toList (n.segments.map String.toList) := by
    rw [toList_display]
    refine cuts_intercalate (by simpa using hne) ?_
    rw [List.forall_mem_map]
    exact fun s hs => (h s hs).colon
  rw [cutPath, cuts_iff.1 hcuts, List.map_map]
  refine (List.map_congr_left fun s hs => ?_).trans (List.map_id _)
  rw [Function.comp_apply, trimChars_of_ends (h s hs).head (h s hs).last, String.ofList_toList, id]

theorem parse?_of_trimChars_ne_nil {text : String} (h : trimChars text.toList ≠ []) :
    parse? text = if (cutPath (trimChars text.toList)).contains "" then none
      else some ⟨cutPath (trimChars text.toList)⟩ := by
  rw [parse?]
  split
  · next heq => exact absurd heq h
  · next c r heq => rw [heq]

/-- A namespace of bare segments is read back from its text. -/
theorem parse?_display {n : Namespace} (h : ∀ s ∈ n.segments, IsBare s) :
    parse? n.display = some n := by
  by_cases hne : n.segments = []
  · obtain ⟨segments⟩ := n
    subst hne
    rfl
  · have htext : trimChars n.display.toList ≠ [] := by
      rw [trimChars_display h]
      intro hnil
      -- an empty text has one empty piece
      have hsegments := cutPath_display hne h
      rw [hnil] at hsegments
      have hempty : "" ∈ n.segments := by
        rw [← hsegments]
        decide
      exact (h "" hempty).ne_empty rfl
    rw [parse?_of_trimChars_ne_nil htext, trimChars_display h, cutPath_display hne h, if_neg]
    rw [List.contains_iff_mem]
    exact fun hempty => (h "" hempty).ne_empty rfl

/-- Whether a text has a blank piece. -/
def HasBlankPiece (cs : List Char) : Prop :=
  ∃ pieces, Cuts cs pieces ∧ ∃ piece ∈ pieces, ∀ c ∈ piece, isBlank c = true

theorem empty_mem_cutPath_iff {cs : List Char} : "" ∈ cutPath cs ↔ HasBlankPiece cs := by
  have hempty (piece : List Char) :
      String.ofList (trimChars piece) = "" ↔ ∀ c ∈ piece, isBlank c = true := by
    rw [← trimChars_eq_nil_iff, ← String.toList_inj, String.toList_ofList, String.toList_empty]
  simp only [cutPath, HasBlankPiece, List.mem_map, hempty, cuts_iff, exists_eq_left']

/-- A text that is not blank is no namespace exactly if it has a blank piece. -/
theorem parse?_eq_none_iff {text : String} : parse? text = none ↔
    trimChars text.toList ≠ [] ∧ HasBlankPiece (trimChars text.toList) := by
  by_cases hnil : trimChars text.toList = []
  · rw [parse?, hnil]
    simp
  · rw [parse?_of_trimChars_ne_nil hnil, ← empty_mem_cutPath_iff, and_iff_right hnil,
      ← List.contains_iff_mem]
    split <;> simp_all

end Namespace

/-! ### Reading and writing names of types -/

namespace TypeName

open Namespace (IsBare HasBlankPiece)

/-- The name of a type is written as the namespace that a module of this name has. -/
theorem display_eq (t : TypeName) : t.display = t.asNamespace.display := by
  have hpath : t.asNamespace.display = "::".intercalate (t.home.segments ++ [t.name]) := rfl
  rw [hpath, display, Namespace.display]
  split
  · next hempty =>
    rw [List.isEmpty_iff.1 hempty, List.nil_append, String.intercalate_singleton]
  · next hne =>
    rw [List.isEmpty_iff] at hne
    rw [String.intercalate_append_of_ne_nil hne (List.cons_ne_nil _ _),
      String.intercalate_singleton]

/-- A name of bare segments is read back from its text. -/
theorem parse?_display {t : TypeName} (h : ∀ s ∈ t.segments, IsBare s) :
    parse? t.display = some t := by
  have hparse : Namespace.parse? t.asNamespace.display = some t.asNamespace :=
    Namespace.parse?_display h
  rw [parse?, display_eq, hparse]
  exact ofSegments?_segments t

/-- A text is no name of a type exactly if it is blank or no namespace. -/
theorem parse?_eq_none_iff {text : String} : parse? text = none ↔
    trimChars text.toList = [] ∨ Namespace.parse? text = none := by
  by_cases hnil : trimChars text.toList = []
  · have hroot : Namespace.parse? text = some .root := by
      rw [Namespace.parse?, hnil]
    simp [parse?, hroot, hnil, Namespace.root, ofSegments?]
  · rw [parse?, Namespace.parse?_of_trimChars_ne_nil hnil, or_iff_right hnil]
    split
    · simp
    · have hne : Namespace.cutPath (trimChars text.toList) ≠ [] := by
        simp [Namespace.cutPath, Namespace.cutAtColons_ne_nil]
      simp [ofSegments?, hne]

/-- Parsing undoes the display of namespaces and of names of types whose segments are bare, so these
have different texts.  A text is no namespace exactly if, without the blanks at its ends, it is not
empty and has a blank piece between its separators; it is no name of a type exactly in this case
and if it is blank. -/
theorem parse?_inverts_display :
    (∀ n : Namespace, (∀ s ∈ n.segments, IsBare s) → Namespace.parse? n.display = some n) ∧
    (∀ t : TypeName, (∀ s ∈ t.segments, IsBare s) → parse? t.display = some t) ∧
    (∀ n m : Namespace, (∀ s ∈ n.segments, IsBare s) → (∀ s ∈ m.segments, IsBare s) →
      n.display = m.display → n = m) ∧
    (∀ t u : TypeName, (∀ s ∈ t.segments, IsBare s) → (∀ s ∈ u.segments, IsBare s) →
      t.display = u.display → t = u) ∧
    ∀ text : String,
      (Namespace.parse? text = none ↔
        trimChars text.toList ≠ [] ∧ HasBlankPiece (trimChars text.toList)) ∧
      (parse? text = none ↔
        (trimChars text.toList ≠ [] ∧ HasBlankPiece (trimChars text.toList)) ∨
          trimChars text.toList = []) := by
  refine ⟨fun n hn => Namespace.parse?_display hn, fun t ht => parse?_display ht,
    fun n m hn hm heq => ?_, fun t u ht hu heq => ?_,
    fun text => ⟨Namespace.parse?_eq_none_iff, ?_⟩⟩
  · have hparse := Namespace.parse?_display hn
    rw [heq, Namespace.parse?_display hm] at hparse
    exact (Option.some.inj hparse).symm
  · have hparse := parse?_display ht
    rw [heq, parse?_display hu] at hparse
    exact (Option.some.inj hparse).symm
  · rw [parse?_eq_none_iff, Namespace.parse?_eq_none_iff, or_comm]

/-- Blanks inside a segment stay, and a third colon belongs to the segment behind the separator. -/
theorem parse?_inverts_display_innerBlank :
    let town : Namespace := ⟨["crate", "my town"]⟩
    parse? "crate::my town::Street" = some ⟨town, "Street"⟩ ∧
    Namespace.parse? "crate::my town" = some town ∧ town.display ≠ Namespace.root.display ∧
    (qualify town "Street").display ≠ (qualify town "Square").display ∧
    Namespace.parse? " crate:::town " ≠ none ∧ Namespace.parse? "crate::::town" = none := by
  intro town
  have htown : ∀ s ∈ town.segments, IsBare s := by decide +kernel
  have hstreet : ∀ s ∈ (qualify town "Street").segments, IsBare s := by decide +kernel
  have hsquare : ∀ s ∈ (qualify town "Square").segments, IsBare s := by decide +kernel
  obtain ⟨hnamespace, hname, hinj, hinj', hnone⟩ := parse?_inverts_display
  refine ⟨hname _ hstreet, hnamespace town htown, fun heq => ?_, fun heq => ?_, ?_, ?_⟩
  · exact absurd (hinj town .root htown (by simp [Namespace.root]) heq) (by decide)
  · exact absurd (hinj' _ _ hstreet hsquare heq) (by decide)
  · rw [ne_eq, (hnone _).1]
    rintro ⟨-, pieces, hcuts, piece, hpiece, hblank⟩
    obtain rfl := Namespace.cuts_iff.1 hcuts
    have hsolid : ∀ piece ∈ Namespace.cutAtColons (trimChars " crate:::town ".toList),
        piece.all isBlank = false := by
      decide +kernel
    rw [← List.all_eq_true, hsolid piece hpiece] at hblank
    cases hblank
  · rw [(hnone _).1]
    exact ⟨by decide +kernel, _, Namespace.cuts_cutAtColons _, [], by decide +kernel, by simp⟩

end TypeName

end FieldBinder
