import FieldBinder.Source.Lexer
import Mathlib.Tactic.IntervalCases

/-!
# Quoted texts

The escapes of a quoted text are what a scanner of literals takes for one: a text that is quoted is
one literal, whatever characters it has (`scan?_quote`), and it is all on one line
(`newline_not_mem_quote`).
-/

namespace FieldBinder.Literal

/-! ### Code points -/

/-- The digit for a number below sixteen has that value. -/
theorem hexValue?_digitChar {d : Nat} (h : d < 16) : hexValue? d.digitChar = some d := by
  interval_cases d <;> decide

/-- A digit goes on with a code point, of which there may be six digits. -/
theorem codePoint?_digitChar {d : Nat} (h : d < 16) {value len : Nat} (hlen : len < 6)
    (r : List Char) : codePoint? value len (d.digitChar :: r) =
      (codePoint? (16 * value + d) (len + 1) r).map
        fun (t, v, r') => (d.digitChar :: t, v, r') := by
  have hvalue := hexValue?_digitChar h
  have hne {c : Char} (hc : hexValue? c = none) : d.digitChar ≠ c := by
    intro heq
    rw [heq, hc] at hvalue
    cases hvalue
  have hbrace : d.digitChar ≠ '\x7d' := hne (by decide)
  have hgap : d.digitChar ≠ '_' := hne (by decide)
  rw [codePoint?, if_neg hbrace, if_neg (fun h => hgap h.1), hvalue]
  exact if_neg (Nat.ne_of_lt hlen)

/-- The digits of a number are read as this number. -/
theorem codePoint?_hexDigits {n : Nat} (h : (Text.hexDigits n).length ≤ 6) (r : List Char) :
    codePoint? 0 0 (Text.hexDigits n ++ r) =
      (codePoint? n (Text.hexDigits n).length r).map fun (t, v, r') =>
        (Text.hexDigits n ++ t, v, r') := by
  rw [Text.hexDigits] at h ⊢
  -- The last digit is read last, so the induction takes it off the end.
  induction n using Nat.strong_induction_on generalizing r with
  | _ n ih =>
    by_cases hn : n < 16
    · rw [Nat.toDigits_of_lt_base hn, List.singleton_append,
        codePoint?_digitChar hn (by decide)]
      simp
    · have hdigits := Nat.toDigits_of_base_le (b := 16) (by decide) (Nat.le_of_not_lt hn)
      rw [hdigits, List.length_append, List.length_singleton] at h
      have hmod : 16 * (n / 16) + n % 16 = n := Nat.div_add_mod n 16
      rw [hdigits, List.append_assoc, List.singleton_append,
        ih (n / 16) (by omega) (by omega), codePoint?_digitChar (by omega) (by omega), hmod]
      simp [Option.map_map, Function.comp_def]

/-- No character needs more than six digits. -/
theorem length_hexDigits_le (c : Char) : (Text.hexDigits c.toNat).length ≤ 6 := by
  rw [Text.hexDigits, Nat.length_toDigits_le_iff (by decide) (by decide)]
  have : c.toNat.isValidChar := c.valid
  rw [Nat.isValidChar] at this
  omega

/-- The digits of a character are read back as the character. -/
theorem codePoint?_char (c : Char) (r : List Char) :
    codePoint? 0 0 (Text.hexDigits c.toNat ++ '\x7d' :: r) =
      some (Text.hexDigits c.toNat ++ ['\x7d'], c.toNat, r) := by
  rw [codePoint?_hexDigits (length_hexDigits_le c)]
  have hvalid : c.toNat.isValidChar := c.valid
  have hpos : 0 < (Text.hexDigits c.toNat).length := Nat.length_toDigits_pos
  rw [codePoint?, if_pos rfl, if_pos ⟨hpos, hvalid⟩]
  rfl

/-! ### Quoted characters -/

/-- The written form of a character is taken as a whole. -/
theorem cooked_quoteChar (c : Char) (next acc : List Char) (n : Nat) (r : List Char) :
    cooked .text acc (n + 1) (Text.quoteChar c next ++ r) =
      cooked .text ((Text.quoteChar c next).reverse ++ acc) n r := by
  unfold Text.quoteChar
  split
  · split
    · split <;> rfl
    · rfl
  · split
    · rfl
    split
    · rfl
    split
    · rfl
    split
    · rfl
    split
    · rfl
    split
    · -- The last two branches: an unprintable character by its number, any other as it is.
      have hescape := codePoint?_char c r
      simp only [List.cons_append, List.nil_append, List.append_assoc, cooked]
      simp [escape?, hescape]
    · simp [cooked, *, Flavour.admits]

/-- No character is quoted by nothing. -/
theorem quoteChar_ne_nil (c : Char) (next : List Char) : Text.quoteChar c next ≠ [] := by
  unfold Text.quoteChar
  grind

/-- Quoting makes no text shorter. -/
theorem length_le_length_quoteChars (cs : List Char) : cs.length ≤ (Text.quoteChars cs).length := by
  induction cs with
  | nil => exact Nat.le_refl _
  | cons c r ih =>
    have hpos := List.length_pos_iff.2 (quoteChar_ne_nil c r)
    rw [Text.quoteChars, List.length_append, List.length_cons]
    omega

/-- Quoted characters are taken up to the closing quote. -/
theorem cooked_quoteChars (cs acc : List Char) {n : Nat} (hn : cs.length < n) (r : List Char) :
    cooked .text acc n (Text.quoteChars cs ++ '"' :: r) =
      some (acc.reverse ++ Text.quoteChars cs ++ ['"'], r) := by
  induction cs generalizing acc n with
  | nil =>
    obtain ⟨n, rfl⟩ := Nat.exists_eq_add_one_of_ne_zero (Nat.ne_zero_of_lt hn)
    simp [Text.quoteChars, cooked]
  | cons c rest ih =>
    obtain ⟨n, rfl⟩ := Nat.exists_eq_add_one_of_ne_zero (Nat.ne_zero_of_lt hn)
    rw [Text.quoteChars, List.append_assoc, cooked_quoteChar, ih _ (by simpa using hn)]
    simp

theorem toList_quote (s : String) :
    (Text.quote s).toList = '"' :: (Text.quoteChars s.toList ++ ['"']) := by
  rw [Text.quote, String.toList_ofList]
  rfl

/-- A quoted text is one literal. -/
theorem scan?_quote (s : String) {r : List Char} (hr : suffix r = ([], r)) :
    scan? ((Text.quote s).toList ++ r) = some ((Text.quote s).toList, r) := by
  have hquoted : quoted? ((Text.quote s).toList ++ r) = some ((Text.quote s).toList, r) := by
    have hlength := length_le_length_quoteChars s.toList
    rw [toList_quote, List.cons_append, List.append_assoc, List.singleton_append, quoted?,
      cooked_quoteChars _ _ (by simp; omega)]
    rfl
  rw [scan?, hquoted]
  simp only [hr, List.append_nil]

/-! ### Lines -/

/-- The digits are those of numbers below sixteen. -/
theorem exists_of_mem_hexDigits {n : Nat} {d : Char} (h : d ∈ Text.hexDigits n) :
    ∃ v < 16, d = v.digitChar := by
  rw [Text.hexDigits] at h
  induction n using Nat.strong_induction_on with
  | _ n ih =>
    by_cases hn : n < 16
    · rw [Nat.toDigits_of_lt_base hn, List.mem_singleton] at h
      exact ⟨n, hn, h⟩
    · rw [Nat.toDigits_of_base_le (by decide) (Nat.le_of_not_lt hn), List.mem_append,
        List.mem_singleton] at h
      rcases h with h | h
      · exact ih (n / 16) (by omega) h
      · exact ⟨n % 16, by omega, h⟩

theorem newline_not_mem_hexDigits (n : Nat) : '\n' ∉ Text.hexDigits n := by
  intro h
  obtain ⟨v, hv, heq⟩ := exists_of_mem_hexDigits h
  have := hexValue?_digitChar hv
  rw [← heq] at this
  cases this

/-- A line break is quoted by an escape. -/
theorem newline_not_mem_quoteChar (c : Char) (next : List Char) :
    '\n' ∉ Text.quoteChar c next := by
  have hdigits := newline_not_mem_hexDigits c.toNat
  unfold Text.quoteChar
  grind

/-- So no quoted text has one. -/
theorem newline_not_mem_quoteChars (cs : List Char) : '\n' ∉ Text.quoteChars cs := by
  induction cs with
  | nil => exact List.not_mem_nil
  | cons c r ih =>
    rw [Text.quoteChars, List.mem_append, not_or]
    exact ⟨newline_not_mem_quoteChar c r, ih⟩

/-- No line ends inside a quoted text. -/
theorem newline_not_mem_quote (s : String) : '\n' ∉ (Text.quote s).toList := by
  simp [toList_quote, newline_not_mem_quoteChars]

end FieldBinder.Literal
