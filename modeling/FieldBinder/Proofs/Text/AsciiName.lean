import FieldBinder.Config.Settings

/-!
# ASCII names

Settings name modules by ASCII names other than the lone underscore (`isAsciiIdent_iff`), and extend
the names of types by what goes on with one (`Settings.isSuffix_iff`).
-/

namespace FieldBinder

namespace Text

/-- Whether the characters can go on with an ASCII name: they are letters, digits and
underscores. -/
def ContinuesAsciiName (cs : List Char) : Prop := ∀ c ∈ cs, c = '_' ∨ c.isAlphanum = true

/-- Whether a text is an ASCII letter or an underscore with such characters behind it. -/
def IsAsciiName (s : String) : Prop :=
  ∃ c r, s.toList = c :: r ∧ (c = '_' ∨ c.isAlpha = true) ∧ ContinuesAsciiName r

/-- An ASCII identifier is an ASCII name, but not the underscore alone. -/
theorem isAsciiIdent_iff {s : String} : isAsciiIdent s = true ↔ IsAsciiName s ∧ s ≠ "_" := by
  rw [isAsciiIdent, IsAsciiName]
  split
  · next heq => simp [heq]
  · next c r heq => simp [heq, ContinuesAsciiName, and_assoc]

instance (s : String) : Decidable (IsAsciiName s) :=
  decidable_of_iff (isAsciiIdent s = true ∨ s = "_") (by
    constructor
    · rintro (h | rfl)
      · exact (isAsciiIdent_iff.1 h).1
      · exact ⟨'_', [], rfl, .inl rfl, by simp [ContinuesAsciiName]⟩
    · intro h
      exact (Decidable.em (s = "_")).symm.imp_left fun hne => isAsciiIdent_iff.2 ⟨h, hne⟩)

/-- No slash goes on with a name. -/
theorem ContinuesAsciiName.slash_not_mem {cs : List Char} (h : ContinuesAsciiName cs) :
    '/' ∉ cs :=
  fun hslash => absurd (h _ hslash) (by decide)

namespace IsAsciiName

variable {s : String}

theorem ne_empty (h : IsAsciiName s) : s ≠ "" := by
  rintro rfl
  obtain ⟨c, r, heq, -⟩ := h
  cases heq

/-- A name could go on with all of its characters, the first one too. -/
theorem continues (h : IsAsciiName s) : ContinuesAsciiName s.toList := by
  obtain ⟨c, r, heq, hc, hr⟩ := h
  rw [heq]
  refine List.forall_mem_cons.2 ⟨hc.imp_right fun halpha => ?_, hr⟩
  rw [Char.isAlphanum, halpha, Bool.true_or]

/-- A name can be extended by what goes on with it. -/
theorem append (h : IsAsciiName s) {suffix : String} (hsuffix : ContinuesAsciiName suffix.toList) :
    IsAsciiName (s ++ suffix) := by
  obtain ⟨c, r, heq, hc, hr⟩ := h
  refine ⟨c, r ++ suffix.toList, ?_, hc, List.forall_mem_append.2 ⟨hr, hsuffix⟩⟩
  rw [String.toList_append, heq, List.cons_append]

end IsAsciiName

end Text

/-- A suffix is what goes on with a name, and is not empty. -/
theorem Settings.isSuffix_iff {text : String} :
    isSuffix text = true ↔ text ≠ "" ∧ Text.ContinuesAsciiName text.toList := by
  simp [isSuffix, Text.ContinuesAsciiName, or_comm]

end FieldBinder
