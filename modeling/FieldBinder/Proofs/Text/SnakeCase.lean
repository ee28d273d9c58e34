import FieldBinder.Text.SnakeCase
import Mathlib.Data.List.Basic

/-!
# Snake case adds no slashes

The words of a name are made of its characters (`mem_of_mem_words`), and no other character than a
slash has a slash in its lower case (`slash_not_mem_lowerChar`).  So a name without slashes has none
in snake case (`slash_not_mem_snakeCase`).
-/

namespace FieldBinder.Text

/-! ### Lower case -/

/-- The image of a character in a table of runs is no less than the first image of its run. -/
theorem exists_image_of_imageInRuns {n k : Nat} {runs : List (Nat × Nat × Nat × Nat)}
    (h : imageInRuns n runs = some k) : ∃ run ∈ runs, run.2.2.2 ≤ k := by
  induction runs with
  | nil => cases h
  | cons run r ih =>
    rw [imageInRuns] at h
    split at h
    · cases h
      exact ⟨run, List.mem_cons_self, Nat.le_add_right _ _⟩
    · obtain ⟨run', hmem, hle⟩ := ih h
      exact ⟨run', List.mem_cons_of_mem _ hmem, hle⟩

/-- Only its own number makes a slash; numbers of no character make another one. -/
theorem eq_of_ofNat_eq_slash {k : Nat} (h : Char.ofNat k = '/') : k = 0x2F := by
  by_cases hk : k.isValidChar
  · rw [Char.ofNat, dif_pos hk] at h
    exact congrArg Char.toNat h
  · rw [Char.ofNat, dif_neg hk] at h
    cases h

/-- Only a slash has a slash in its lower case: the tables have none. -/
theorem slash_not_mem_lowerChar {c : Char} (h : c ≠ '/') : '/' ∉ lowerChar c := by
  unfold lowerChar
  split
  · next hascii =>
    -- of the ASCII characters each is looked at
    have htable : ∀ n < 128, (Char.ofNat n).toLower = '/' → Char.ofNat n = '/' := by decide
    rw [List.mem_singleton]
    intro heq
    have hc := htable c.toNat hascii
    rw [Char.ofNat_toNat] at hc
    exact h (hc heq.symm)
  · -- beyond ASCII, every image is a letter or an accent
    unfold imageOf
    split
    · next image hlookup =>
      have htable : ∀ e ∈ lowerSpecial, 0x2F ∉ e.2 := by decide
      rw [List.mem_map]
      rintro ⟨k, hk, hslash⟩
      rw [eq_of_ofNat_eq_slash hslash] at hk
      obtain ⟨before, after, heq, -⟩ := List.lookup_eq_some_iff.1 hlookup
      exact htable (c.toNat, image) (by rw [heq]; simp) hk
    · split
      · next k hk =>
        -- the images of a run begin above the slash
        have htable : ∀ run ∈ lowerRuns, 0x2F < run.2.2.2 := by decide +kernel
        obtain ⟨run, hrun, hle⟩ := exists_image_of_imageInRuns hk
        rw [List.mem_singleton]
        intro hslash
        have := htable run hrun
        have := eq_of_ofNat_eq_slash hslash.symm
        omega
      · rw [List.mem_singleton]
        exact h.symm

/-- The final sigma is no slash either. -/
theorem slash_not_mem_lowerAfter (before : List Char) {cs : List Char} (h : '/' ∉ cs) :
    '/' ∉ lowerAfter before cs := by
  induction cs generalizing before with
  | nil => exact List.not_mem_nil
  | cons c r ih =>
    rw [List.mem_cons, not_or] at h
    rw [lowerAfter, List.mem_append, not_or]
    refine ⟨?_, ih _ h.2⟩
    split
    · split <;> decide
    · exact slash_not_mem_lowerChar (Ne.symm h.1)

/-! ### Words -/

/-- A word is made of what was taken of it before and of the clusters that follow. -/
theorem mem_of_mem_wordsFrom {gs : List (List Char)} {word w : List Char} {c : Char}
    (hw : w ∈ wordsFrom word gs) (hc : c ∈ w) : c ∈ word ∨ c ∈ gs.flatten := by
  induction gs generalizing word with
  | nil =>
    rw [wordsFrom, List.mem_singleton] at hw
    exact .inl (hw ▸ hc)
  | cons g r ih =>
    rw [List.flatten_cons, List.mem_append]
    rw [wordsFrom] at hw
    -- a cut drops the cluster or keeps it for one of the two words
    split at hw
    · rcases List.mem_cons.1 hw with rfl | hw
      · exact .inl hc
      · exact .inr (.inr ((ih hw).resolve_left List.not_mem_nil))
    · split at hw
      · rcases List.mem_cons.1 hw with rfl | hw
        · exact (List.mem_append.1 hc).imp_right .inl
        · exact .inr (.inr ((ih hw).resolve_left List.not_mem_nil))
      · rcases ih hw with h | h
        · exact (List.mem_append.1 h).imp_right .inl
        · exact .inr (.inr h)

/-- The words of a name are made of its characters. -/
theorem mem_of_mem_words {s : String} {w : List Char} (hw : w ∈ words s) :
    ∀ c ∈ w, c ∈ s.toList := by
  intro c hc
  have h := (mem_of_mem_wordsFrom hw hc).resolve_left List.not_mem_nil
  rwa [flatten_clusters] at h

/-- What is in a joined list is in one of the parts or in the separator. -/
theorem mem_intercalate {α : Type u} {sep : List α} {l : List (List α)} {a : α}
    (h : a ∈ List.intercalate sep l) : a ∈ sep ∨ ∃ part ∈ l, a ∈ part := by
  rw [List.intercalate, List.mem_flatten] at h
  obtain ⟨part, hpart, ha⟩ := h
  induction l with
  | nil => cases hpart
  | cons first r ih =>
    cases r with
    | nil => exact .inr ⟨part, hpart, ha⟩
    | cons second r =>
      rw [List.intersperse_cons_cons, List.mem_cons, List.mem_cons] at hpart
      rcases hpart with rfl | rfl | hpart
      · exact .inr ⟨part, List.mem_cons_self, ha⟩
      · exact .inl ha
      · exact (ih hpart).imp_right fun ⟨p, hp, h⟩ => ⟨p, List.mem_cons_of_mem _ hp, h⟩

/-- A name without slashes has none in snake case. -/
theorem slash_not_mem_snakeCase {s : String} (h : '/' ∉ s.toList) : '/' ∉ (snakeCase s).toList := by
  rw [snakeCase, String.toList_ofList]
  intro hslash
  rcases mem_intercalate hslash with hslash | ⟨part, hpart, hslash⟩
  · simp at hslash
  · obtain ⟨w, hw, rfl⟩ := List.mem_map.1 hpart
    exact slash_not_mem_lowerAfter [] (fun hmem => h (mem_of_mem_words hw _ hmem)) hslash

end FieldBinder.Text
