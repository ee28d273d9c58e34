import FieldBinder.Proofs.Source.Literal.Number
import FieldBinder.Proofs.Source.Literal.Strings

/-!
# Literals in texts

What is taken from a text as a literal is taken again when a bracket is closed behind it
(`scan?_append`), and the decimal digits of a number are a literal (`scan?_decimal`).

A text or a character is told from what follows it by itself.  Of a number this holds up to what
could go on with it: a digit, a point or a letter.
-/

namespace FieldBinder.Literal

open Text Lexeme

variable {cs t r x : List Char}

theorem scan?_of_quoted? (h : quoted? cs = some (t, r)) :
    scan? cs = some (t ++ (suffix r).1, (suffix r).2) := by
  rw [scan?, h]

theorem scan?_of_character? (hquoted : quoted? cs = none) (h : character? cs = some (t, r)) :
    scan? cs = some (t ++ (suffix r).1, (suffix r).2) := by
  rw [scan?, hquoted, h]

/-- What starts with an apostrophe, perhaps behind a letter, is not quoted text. -/
theorem quoted?_eq_none_of_character? (h : character? cs = some (t, r)) (x : List Char) :
    quoted? (t ++ x) = none := by
  unfold character? at h
  split at h
  · obtain ⟨⟨u, r'⟩, -, heq⟩ := Option.map_eq_some_iff.1 h
    cases heq
    rfl
  · obtain ⟨⟨u, r'⟩, -, heq⟩ := Option.map_eq_some_iff.1 h
    cases heq
    rfl
  · cases h

/-- What starts with a digit is a number if it is a literal. -/
theorem scan?_of_isDigit {c : Char} (hc : c.isDigit = true) (w : List Char) :
    scan? (c :: w) = number? (c :: w) := by
  have hne {d : Char} (hd : d.isDigit = false) : c ≠ d := by
    rintro rfl
    rw [hc] at hd
    cases hd
  have hquoted : quoted? (c :: w) = none := by
    unfold quoted?
    split
    all_goals first
      | rfl
      | next heq => exact absurd (List.cons.inj heq).1 (hne (by decide))
  have hcharacter : character? (c :: w) = none := by
    unfold character?
    split
    all_goals first
      | rfl
      | next heq => exact absurd (List.cons.inj heq).1 (hne (by decide))
  rw [scan?, hquoted, hcharacter]

/-- The characters that literals start with, digits apart. -/
def starts : List Char := "\"'rbc".toList

theorem scan?_eq_none {c : Char} (hdigit : c.isDigit = false) (hc : c ∉ starts)
    (w : List Char) : scan? (c :: w) = none := by
  have hne (d : Char) (hd : d ∈ starts) : c ≠ d := by
    rintro rfl
    exact hc hd
  have hquoted : quoted? (c :: w) = none := by
    unfold quoted?
    split
    case h_7 => rfl
    all_goals
      next heq => exact absurd (List.cons.inj heq).1 (hne _ (by decide))
  have hcharacter : character? (c :: w) = none := by
    unfold character?
    split
    case h_3 => rfl
    all_goals
      next heq => exact absurd (List.cons.inj heq).1 (hne _ (by decide))
  rw [scan?, hquoted, hcharacter]
  simp [number?, hdigit]

/-- What is taken as a literal is taken again in front of a closing bracket. -/
theorem scan?_append (h : scan? cs = some (t, r)) (hx : Closes x) :
    scan? (t ++ x) = some (t, x) := by
  have hsuffix (r : List Char) : suffix ((suffix r).1 ++ x) = ((suffix r).1, x) := by
    rw [suffix_append hx, (suffix_spec r).2.1]
    rfl
  cases hquoted : quoted? cs with
  | some s =>
    obtain ⟨t', r'⟩ := s
    rw [scan?_of_quoted? hquoted] at h
    obtain ⟨rfl, -⟩ := Prod.mk.inj (Option.some.inj h)
    obtain ⟨-, hagain⟩ := delimits_quoted? _ _ _ hquoted
    rw [List.append_assoc, scan?_of_quoted? (hagain _), hsuffix]
  | none =>
  cases hcharacter : character? cs with
  | some s =>
    obtain ⟨t', r'⟩ := s
    rw [scan?_of_character? hquoted hcharacter] at h
    obtain ⟨rfl, -⟩ := Prod.mk.inj (Option.some.inj h)
    obtain ⟨-, hagain⟩ := delimits_character? _ _ _ hcharacter
    rw [List.append_assoc,
      scan?_of_character? (quoted?_eq_none_of_character? hcharacter _) (hagain _), hsuffix]
  | none =>
    have hnumber : number? cs = some (t, r) := by
      rw [scan?, hquoted, hcharacter] at h
      exact h
    -- A number is read again alone first; a closing bracket behind it then changes nothing.
    have hself := number?_self hnumber
    have hagain : number? (t ++ x) = some (t, x) := by
      rw [number?_append hx, hself]
      rfl
    cases t with
    | nil => cases hself
    | cons c t =>
      have hc : c.isDigit = true := by
        rw [number?] at hself
        split at hself
        · assumption
        · cases hself
      rw [List.cons_append, scan?_of_isDigit hc, ← List.cons_append, hagain]

/-- The digits of a number are a literal. -/
theorem scan?_decimal (n : Nat) : scan? (toString n).toList = some ((toString n).toList, []) := by
  rw [Nat.toString_eq_repr, Nat.toList_repr]
  have hdigits : ∀ c ∈ Nat.toDigits 10 n, c.isDigit = true :=
    fun c hc => Nat.isDigit_of_mem_toDigits (by decide) (by decide) hc
  have hne : Nat.toDigits 10 n ≠ [] := List.length_pos_iff.1 Nat.length_toDigits_pos
  have hnumber := number?_of_forall_isDigit hdigits hne
  cases hw : Nat.toDigits 10 n with
  | nil => exact absurd hw hne
  | cons c w =>
    rw [hw] at hnumber hdigits
    rw [scan?_of_isDigit (hdigits c List.mem_cons_self), hnumber]

end FieldBinder.Literal
