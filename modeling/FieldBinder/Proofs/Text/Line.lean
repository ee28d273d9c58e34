import FieldBinder.Source.TypeText

/-!
# Texts in one line

A text stands in one line if no line ends in it (`Text.IsLine`).  Texts that do, each with the end
of a line behind it, are the lines of the whole (`Text.splitOn_lines`).
-/

namespace FieldBinder.Text

/-- Whether a text stands in one line. -/
def IsLine (s : String) : Prop := '\n' ∉ s.toList

instance (s : String) : Decidable (IsLine s) := inferInstanceAs (Decidable ('\n' ∉ s.toList))

/-- A text is on one line if both of its parts are. -/
theorem isLine_append {s s' : String} : IsLine (s ++ s') ↔ IsLine s ∧ IsLine s' := by
  rw [IsLine, String.toList_append, List.mem_append, not_or]
  rfl

/-- Texts that are joined on one line are on one line if each is. -/
theorem isLine_joinTexts (sep : String) (hsep : IsLine sep) {l : List String} :
    IsLine (joinTexts sep l) ↔ ∀ s ∈ l, IsLine s := by
  fun_induction joinTexts sep l with
  | case1 => simp [IsLine]
  | case2 s => simp
  | case3 s s' r ih =>
    rw [isLine_append, isLine_append, ih, and_assoc, List.forall_mem_cons (a := s)]
    exact and_congr_right fun _ => and_iff_right hsep

theorem isLine_intercalate (sep : String) (hsep : IsLine sep) {l : List String} :
    IsLine (sep.intercalate l) ↔ ∀ s ∈ l, IsLine s := by
  induction l with
  | nil => simp [IsLine]
  | cons s r ih =>
    cases r with
    | nil => simp [IsLine]
    | cons s' r =>
      rw [String.intercalate_cons_cons, isLine_append, isLine_append, ih, and_assoc,
        List.forall_mem_cons (a := s)]
      exact and_congr_right fun _ => and_iff_right hsep

/-- Texts in one line each are the lines of what they make up. -/
theorem splitOn_lines {lines : List String} (h : ∀ s ∈ lines, IsLine s) (hne : lines ≠ []) :
    ("\n".intercalate lines ++ "\n").toList.splitOn '\n' = (lines ++ [""]).map String.toList := by
  have hwhole : "\n".intercalate lines ++ "\n" = "\n".intercalate (lines ++ [""]) := by
    rw [String.intercalate_append_of_ne_nil hne (by simp), String.intercalate_singleton,
      String.append_empty]
  rw [hwhole, String.toList_intercalate]
  refine List.splitOn_intercalate '\n' (fun l hl => ?_) (by simp)
  obtain ⟨s, hs, rfl⟩ := List.mem_map.1 hl
  rcases List.mem_append.1 hs with hs | hs
  · exact h s hs
  · rw [List.mem_singleton.1 hs]
    simp

end FieldBinder.Text
