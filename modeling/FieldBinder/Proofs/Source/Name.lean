import FieldBinder.Source.Lexer
import Mathlib.Data.List.TakeWhile

/-!
# Names in texts

A name is taken from a text as a whole, whatever comes after it that could not go on with it
(`leaf?_name`, `leaf?_lifetime`), and what is taken is a name (`isName_of_name?`).  A name has no
white space in it.
-/

namespace FieldBinder

open Text

/-! ### Characters of names -/

namespace Lexeme

/-- Whether a character stands between names: white space, punctuation, a delimiter, a quote or a
backslash. -/
def isBetween (c : Char) : Bool := isGap c || isPunct c || "()[]\x7b\x7d\"\\".toList.contains c

/-- What holds of the first 128 characters, holds of a character among them. -/
theorem forall_ascii {P : Char → Prop} (h : ∀ n < 128, P (Char.ofNat n)) {c : Char}
    (hc : c.toNat < 128) : P c := by
  have := h c.toNat hc
  rwa [Char.ofNat_toNat] at this

/-- The code points beyond ASCII that stand between names. -/
def gapsBeyondAscii : List (Nat × Nat) := (0x200E, 0x200F) :: blankBeyondAscii

/-- Whether no range of a list meets one of another list. -/
def rangesApart (l l' : List (Nat × Nat)) : Bool :=
  l.all fun p => l'.all fun q => Nat.blt p.2 q.1 || Nat.blt q.2 p.1

theorem not_inRanges_of_rangesApart {l l' : List (Nat × Nat)} (h : rangesApart l l' = true)
    {n : Nat} (hn : inRanges l n = true) : inRanges l' n = false := by
  obtain ⟨p, hp, hpn⟩ := List.any_eq_true.1 hn
  rw [Bool.and_eq_true, decide_eq_true_eq, decide_eq_true_eq] at hpn
  rw [inRanges, List.any_eq_false]
  intro q hq hqn
  rw [Bool.and_eq_true, decide_eq_true_eq, decide_eq_true_eq] at hqn
  have hapart := List.all_eq_true.1 (List.all_eq_true.1 h p hp) q hq
  simp only [Bool.or_eq_true, Nat.blt_eq] at hapart
  omega

/-- No code point beyond ASCII that stands between names starts one or goes on with one. -/
theorem rangesApart_gapsBeyondAscii : rangesApart gapsBeyondAscii identStartRanges = true ∧
    rangesApart gapsBeyondAscii identContinueRanges = true := by
  decide +kernel

theorem isBetween_ascii {c : Char} (hc : c.toNat < 128) : isBetween c = true →
    isIdentStart c = false ∧ isIdentContinue c = false :=
  forall_ascii (P := fun c => isBetween c = true →
    isIdentStart c = false ∧ isIdentContinue c = false) (by decide +kernel) hc

theorem lt_of_isAlphanum {c : Char} (h : c.isAlphanum = true) : c.toNat < 128 := by
  have hval : c.toNat = c.val.toNat := rfl
  have hranges : ((decide ('A'.val ≤ c.val ∧ c.val ≤ 'Z'.val) ||
      (decide ('a'.val ≤ c.val) && decide (c.val ≤ 'z'.val))) ||
      (decide ('0'.val ≤ c.val) && decide (c.val ≤ '9'.val))) = true := h
  simp only [UInt32.le_iff_toNat_le, Bool.or_eq_true, Bool.and_eq_true, decide_eq_true_eq]
    at hranges
  rcases hranges with (⟨-, h⟩ | ⟨-, h⟩) | ⟨-, h⟩
  all_goals
    rw [hval]
    exact Nat.lt_of_le_of_lt h (by decide)

theorem lt_of_mem_toList {s : String} (hs : s.toList.all (fun c => c.toNat < 128) = true) {c : Char}
    (hc : s.toList.contains c = true) : c.toNat < 128 := by
  have := List.all_eq_true.1 hs c (List.contains_iff_mem.1 hc)
  simpa using this

/-- What stands between names neither starts a name nor goes on with one. -/
theorem not_isIdent_of_isBetween {c : Char} (h : isBetween c = true) :
    isIdentStart c = false ∧ isIdentContinue c = false := by
  by_cases hc : c.toNat < 128
  · exact isBetween_ascii hc h
  -- beyond ASCII there is only white space between names
  have hgap : inRanges gapsBeyondAscii c.toNat = true := by
    simp only [isBetween, Bool.or_eq_true] at h
    rcases h with (h | h) | h
    · simp only [isGap, isBlank, Bool.or_eq_true, beq_iff_eq, Bool.and_eq_true,
        decide_eq_true_eq] at h
      rcases h with (((rfl | h) | h) | rfl) | rfl
      · exact absurd (by decide) hc
      · exact absurd (Nat.lt_of_le_of_lt h.2 (by decide)) hc
      · rw [inRanges, gapsBeyondAscii, List.any_cons, Bool.or_eq_true]
        exact .inr h
      · decide
      · decide
    · exact absurd (lt_of_mem_toList (by decide) h) hc
    · exact absurd (lt_of_mem_toList (by decide) h) hc
  have hstart := not_inRanges_of_rangesApart rangesApart_gapsBeyondAscii.1 hgap
  have hcontinue := not_inRanges_of_rangesApart rangesApart_gapsBeyondAscii.2 hgap
  have hblank : c ≠ '_' := by
    rintro rfl
    exact hc (by decide)
  have halnum : c.isAlphanum = false := by
    rw [← Bool.not_eq_true]
    exact fun h => hc (lt_of_isAlphanum h)
  have halpha : c.isAlpha = false := by
    rw [Char.isAlphanum, Bool.or_eq_false_iff] at halnum
    exact halnum.1
  simp [isIdentStart, isIdentContinue, hblank, halpha, halnum, hstart, hcontinue]

theorem isBetween_eq_false {c : Char} (h : isIdentStart c = true ∨ isIdentContinue c = true) :
    isBetween c = false := by
  rw [← Bool.not_eq_true]
  intro hb
  obtain ⟨hs, hc⟩ := not_isIdent_of_isBetween hb
  rcases h with h | h
  · rw [hs] at h
    cases h
  · rw [hc] at h
    cases h

theorem ne_of_isIdent {c : Char} (h : isIdentStart c = true ∨ isIdentContinue c = true) {d : Char}
    (hd : isBetween d = true) : c ≠ d := by
  rintro rfl
  rw [isBetween_eq_false h] at hd
  cases hd

theorem isDigit_eq_false {c : Char} (h : isIdentStart c = true) : c.isDigit = false := by
  rw [← Bool.not_eq_true]
  intro hd
  have hc : 48 ≤ c.toNat ∧ c.toNat ≤ 57 := by
    simpa [Char.isDigit, UInt32.le_iff_toNat_le] using hd
  have hdigits : ∀ k < 10, isIdentStart (Char.ofNat (48 + k)) = false := by decide
  have hstart := hdigits (c.toNat - 48) (by omega)
  rw [Nat.add_sub_cancel' hc.1, Char.ofNat_toNat, h] at hstart
  cases hstart

/-! ### Names -/

/-- Whether characters are a name without `r#`. -/
def IsPlainName (cs : List Char) : Prop :=
  ∃ c r, cs = c :: r ∧ isIdentStart c = true ∧ ∀ d ∈ r, isIdentContinue d = true

/-- Whether characters are a name, raw or not. -/
def IsName (cs : List Char) : Prop :=
  IsPlainName cs ∨ ∃ r, cs = 'r' :: '#' :: r ∧ IsPlainName r ∧ neverRaw r = false

/-- Whether a text goes on with nothing that could belong to a name before it, or make a literal
of the name. -/
def EndsName (cs : List Char) : Prop :=
  ∀ c ∈ cs.head?, isIdentContinue c = false ∧ c ≠ '"' ∧ c ≠ '\'' ∧ c ≠ '#'

theorem endsName_nil : EndsName [] := by simp [EndsName]

theorem endsName_cons {c : Char} (h : c ∈ " ,;:<>()]".toList) (r : List Char) :
    EndsName (c :: r) := by
  have hchars : " ,;:<>()]".toList.all (fun c =>
      decide (isIdentContinue c = false ∧ c ≠ '"' ∧ c ≠ '\'' ∧ c ≠ '#')) = true := by
    decide
  intro d hd
  obtain rfl : c = d := by simpa using hd
  exact of_decide_eq_true (List.all_eq_true.1 hchars c h)

variable {cs w x : List Char}

theorem takeWhile_append_of_all {p : Char → Bool} {l : List Char} (hl : ∀ d ∈ l, p d = true)
    (hx : ∀ c ∈ x.head?, p c = false) : (l ++ x).takeWhile p = l ∧ (l ++ x).dropWhile p = x := by
  rw [List.takeWhile_append_of_pos hl, List.dropWhile_append_of_pos hl]
  cases x with
  | nil => simp
  | cons c r => simp [hx c rfl]

theorem plainName?_append (hw : IsPlainName w) (hx : ∀ c ∈ x.head?, isIdentContinue c = false) :
    plainName? (w ++ x) = some (w, x) := by
  obtain ⟨c, r, rfl, hc, hr⟩ := hw
  obtain ⟨htake, hdrop⟩ := takeWhile_append_of_all hr hx
  rw [List.cons_append, plainName?]
  simp only [hc, if_true, htake, hdrop]

theorem isPlainName_of_plainName? {r : List Char} (h : plainName? cs = some (w, r)) :
    IsPlainName w ∧ cs = w ++ r ∧ ∀ c ∈ r.head?, isIdentContinue c = false := by
  cases cs with
  | nil => cases h
  | cons c cs =>
    rw [plainName?] at h
    split at h
    · next hc =>
      cases h
      refine ⟨⟨c, _, rfl, hc, fun d hd => List.mem_takeWhile_imp hd⟩, by simp, fun d hd => ?_⟩
      have := List.head?_dropWhile_not isIdentContinue cs
      rw [Option.mem_def.1 hd] at this
      simpa using this
    · cases h

/-- A plain name in its context does not begin as a raw one does. -/
theorem ne_raw_of_isPlainName (hw : IsPlainName w) (hx : EndsName x) (r : List Char) :
    w ++ x ≠ 'r' :: '#' :: r := by
  obtain ⟨c, t, rfl, -, ht⟩ := hw
  intro heq
  cases t with
  | nil =>
    obtain ⟨-, rfl⟩ := List.cons.inj heq
    exact (hx '#' rfl).2.2.2 rfl
  | cons d t =>
    obtain ⟨-, heq⟩ := List.cons.inj heq
    exact absurd (List.cons.inj heq).1 (ne_of_isIdent (.inr (ht d List.mem_cons_self)) (by decide))

theorem name?_eq_plainName? (h : ∀ r, cs ≠ 'r' :: '#' :: r) : name? cs = plainName? cs := by
  unfold name?
  split
  · next r => exact absurd rfl (h r)
  · rfl

/-- A name is taken as a whole. -/
theorem name?_append (hw : IsName w) (hx : EndsName x) : name? (w ++ x) = some (w, x) := by
  have hend : ∀ c ∈ x.head?, isIdentContinue c = false := fun c hc => (hx c hc).1
  rcases hw with hw | ⟨r, rfl, hr, hraw⟩
  · rw [name?_eq_plainName? (ne_raw_of_isPlainName hw hx), plainName?_append hw hend]
  · rw [List.cons_append, List.cons_append, name?]
    simp only [plainName?_append hr hend, hraw, Bool.false_eq_true, if_false]

theorem isName_of_name? {r : List Char} (h : name? cs = some (w, r)) : IsName w := by
  unfold name? at h
  split at h
  · split at h
    · next t rest ht =>
      split at h
      · cases h
      · next hraw =>
        cases h
        exact .inr ⟨t, rfl, (isPlainName_of_plainName? ht).1, by simpa using hraw⟩
    · cases h
  · exact .inl (isPlainName_of_plainName? h).1

/-- The characters of a name are those that names are made of, but for the hash sign of a raw
one. -/
theorem IsName.mem (hw : IsName w) {d : Char} (hd : d ∈ w) :
    isIdentStart d = true ∨ isIdentContinue d = true ∨ d = '#' := by
  have hplain {v : List Char} (hv : IsPlainName v) (hd : d ∈ v) :
      isIdentStart d = true ∨ isIdentContinue d = true := by
    obtain ⟨c, r, rfl, hc, hr⟩ := hv
    rcases List.mem_cons.1 hd with rfl | hd
    · exact .inl hc
    · exact .inr (hr d hd)
  rcases hw with hw | ⟨r, rfl, hr, -⟩
  · rcases hplain hw hd with h | h
    · exact .inl h
    · exact .inr (.inl h)
  · simp only [List.mem_cons] at hd
    rcases hd with rfl | rfl | hd
    · exact .inl (by decide)
    · exact .inr (.inr rfl)
    · rcases hplain hr hd with h | h
      · exact .inl h
      · exact .inr (.inl h)

/-- But for the hash sign of a raw one, a name has no character that stands between names. -/
theorem IsName.not_mem (hw : IsName w) {d : Char} (hd : isBetween d = true) (hne : d ≠ '#') :
    d ∉ w := by
  intro hmem
  rcases hw.mem hmem with h | h | h
  · exact ne_of_isIdent (.inl h) hd rfl
  · exact ne_of_isIdent (.inr h) hd rfl
  · exact hne h

/-- A name is all on one line. -/
theorem IsName.newline_not_mem (hw : IsName w) : '\n' ∉ w := hw.not_mem (by decide) (by decide)

theorem IsName.slash_not_mem (hw : IsName w) : '/' ∉ w := hw.not_mem (by decide) (by decide)

/-- A name starts with a character that names start with. -/
theorem IsName.exists_cons (hw : IsName w) : ∃ c r, w = c :: r ∧ isIdentStart c = true := by
  rcases hw with ⟨c, r, rfl, hc, -⟩ | ⟨r, rfl, -⟩
  · exact ⟨c, r, rfl, hc⟩
  · exact ⟨'r', _, rfl, by decide⟩

/-! ### Names and literals -/

/-- Letters and a quote or hash sign after them do not open a literal where a plain name stands. -/
theorem not_prefix_of_ident {letters t : List Char} {q : Char} (hq : q ∈ ['"', '#', '\''])
    (hletters : ∀ d ∈ letters, isIdentContinue d = true)
    (hw : ∀ d ∈ w, isIdentStart d = true ∨ isIdentContinue d = true) (hx : EndsName x) :
    ¬ letters ++ q :: t <+: w ++ x := by
  -- The mark that opens a literal is no character of a name, so the name ends in front of it.
  have hbetween : isBetween q = true := by
    simp only [List.mem_cons, List.not_mem_nil, or_false] at hq
    rcases hq with rfl | rfl | rfl <;> decide
  induction w generalizing letters with
  | nil =>
    rintro ⟨u, hu⟩
    rw [List.nil_append] at hu
    cases letters with
    | nil =>
      obtain ⟨-, h1, h2, h3⟩ := hx q (by rw [← hu]; rfl)
      simp only [List.mem_cons, List.not_mem_nil, or_false] at hq
      rcases hq with rfl | rfl | rfl
      · exact h1 rfl
      · exact h3 rfl
      · exact h2 rfl
    | cons a letters =>
      have := (hx a (by rw [← hu]; rfl)).1
      rw [hletters a List.mem_cons_self] at this
      cases this
  | cons d w ih =>
    intro hopened
    cases letters with
    | nil =>
      obtain rfl : q = d := (List.cons_prefix_cons.1 hopened).1
      exact ne_of_isIdent (hw q List.mem_cons_self) hbetween rfl
    | cons a letters =>
      exact ih (fun e he => hletters e (List.mem_cons_of_mem _ he))
        (fun e he => hw e (List.mem_cons_of_mem _ he)) (List.cons_prefix_cons.1 hopened).2

/-- No name in its context looks like the start of a literal. -/
theorem opens_no_literal (hw : IsName w) (hx : EndsName x) :
    literalOpenings.any (·.isPrefixOf (w ++ x)) = false := by
  rw [List.any_eq_false]
  rintro o ho hopened
  rw [List.isPrefixOf_iff_prefix] at hopened
  rcases hw with hw | ⟨r, rfl, hr, -⟩
  · have hletters : ∃ letters q t, o = letters ++ q :: t ∧ q ∈ ['"', '#', '\''] ∧
        letters.all isIdentContinue = true := by
      simp only [literalOpenings, List.map_cons, List.map_nil, List.mem_cons, List.not_mem_nil,
        or_false] at ho
      rcases ho with rfl | rfl | rfl | rfl | rfl | rfl | rfl | rfl | rfl | rfl
      · exact ⟨['r'], '"', [], rfl, by decide, by decide⟩
      · exact ⟨['r'], '#', ['"'], rfl, by decide, by decide⟩
      · exact ⟨['r'], '#', ['#'], rfl, by decide, by decide⟩
      · exact ⟨['b'], '"', [], rfl, by decide, by decide⟩
      · exact ⟨['b'], '\'', [], rfl, by decide, by decide⟩
      · exact ⟨['b', 'r'], '"', [], rfl, by decide, by decide⟩
      · exact ⟨['b', 'r'], '#', [], rfl, by decide, by decide⟩
      · exact ⟨['c'], '"', [], rfl, by decide, by decide⟩
      · exact ⟨['c', 'r'], '"', [], rfl, by decide, by decide⟩
      · exact ⟨['c', 'r'], '#', [], rfl, by decide, by decide⟩
    obtain ⟨letters, q, t, rfl, hq, hletters⟩ := hletters
    obtain ⟨c, r, rfl, hc, hr⟩ := hw
    refine not_prefix_of_ident hq (List.all_eq_true.1 hletters) (fun d hd => ?_) hx hopened
    rcases List.mem_cons.1 hd with rfl | hd
    · exact .inl hc
    · exact .inr (hr d hd)
  · -- behind `r#` there is no further hash sign and no quote
    obtain ⟨c, r, rfl, hc, -⟩ := hr
    have hquote : c ≠ '"' := ne_of_isIdent (.inl hc) (by decide)
    have hhash : c ≠ '#' := ne_of_isIdent (.inl hc) (by decide)
    simp only [literalOpenings, List.map_cons, List.map_nil, List.mem_cons, List.not_mem_nil,
      or_false] at ho
    rcases ho with rfl | rfl | rfl | rfl | rfl | rfl | rfl | rfl | rfl | rfl <;>
      simp [hquote.symm, hhash.symm] at hopened

/-- What stands behind the letters of a raw text: a quote, or a hash sign with a quote or a further
one behind it. -/
def rawOpenings : List (List Char) := ["\"", "#\"", "##"].map String.toList

theorem rawOpening?_eq_none {f : Literal.Flavour} {r : List Char}
    (h : ∀ o ∈ rawOpenings, ¬ o <+: r) : Literal.rawOpening? f r = none := by
  unfold Literal.rawOpening?
  cases r with
  | nil => rfl
  | cons d r =>
    by_cases hd : d = '#'
    · subst hd
      cases r with
      | nil => rfl
      | cons e r =>
        have hquote : e ≠ '"' := by
          rintro rfl
          exact h "#\"".toList (by decide) ⟨r, rfl⟩
        have hhash : e ≠ '#' := by
          rintro rfl
          exact h "##".toList (by decide) ⟨r, rfl⟩
        simp [hquote, hhash]
    · have hquote : d ≠ '"' := by
        rintro rfl
        exact h "\"".toList (by decide) ⟨r, rfl⟩
      simp [hd, hquote]

variable {c : Char} {r : List Char}

/-- Behind letters there is no raw text where no literal opens with the letters. -/
theorem rawOpening?_eq_none_of_letters {f : Literal.Flavour} (letters : List Char)
    (hletters : ∀ o ∈ rawOpenings, ∃ o' ∈ literalOpenings, o' <+: letters ++ o)
    (h : ∀ o ∈ literalOpenings, ¬ o <+: letters ++ r) : Literal.rawOpening? f r = none := by
  refine rawOpening?_eq_none fun o ho hr => ?_
  obtain ⟨o', ho', hopen⟩ := hletters o ho
  exact h o' ho' (hopen.trans ((List.prefix_append_right_inj letters).2 hr))

theorem quoted?_eq_none (hc : isIdentStart c = true) (h : ∀ o ∈ literalOpenings, ¬ o <+: c :: r) :
    Literal.quoted? (c :: r) = none := by
  -- One case for each opening: a quote, or letters of a prefix in front of one.
  unfold Literal.quoted?
  split
  · next heq =>
    cases heq
    exact absurd rfl (ne_of_isIdent (.inl hc) (d := '"') (by decide))
  · next heq =>
    cases heq
    rw [rawOpening?_eq_none_of_letters ['r'] (by decide) h, Option.map_none]
  · next r' heq =>
    cases heq
    exact absurd ⟨r', rfl⟩ (h "b\"".toList (by decide))
  · next heq =>
    cases heq
    rw [rawOpening?_eq_none_of_letters ['b', 'r'] (by decide) h, Option.map_none]
  · next r' heq =>
    cases heq
    exact absurd ⟨r', rfl⟩ (h "c\"".toList (by decide))
  · next heq =>
    cases heq
    rw [rawOpening?_eq_none_of_letters ['c', 'r'] (by decide) h, Option.map_none]
  · rfl

theorem character?_eq_none (hc : isIdentStart c = true)
    (h : ∀ o ∈ literalOpenings, ¬ o <+: c :: r) : Literal.character? (c :: r) = none := by
  unfold Literal.character?
  split
  · next heq =>
    cases heq
    exact absurd rfl (ne_of_isIdent (.inl hc) (d := '\'') (by decide))
  · next r' heq =>
    cases heq
    exact absurd ⟨r', rfl⟩ (h "b'".toList (by decide))
  · rfl

/-- What starts with a letter and opens no quoted literal is no literal. -/
theorem scan?_eq_none (hc : isIdentStart c = true)
    (h : literalOpenings.any (·.isPrefixOf (c :: r)) = false) : Literal.scan? (c :: r) = none := by
  have hopen : ∀ o ∈ literalOpenings, ¬ o <+: c :: r := by
    simpa only [List.any_eq_false, List.isPrefixOf_iff_prefix] using h
  have hnumber : Literal.number? (c :: r) = none := by
    simp [Literal.number?, isDigit_eq_false hc]
  rw [Literal.scan?, quoted?_eq_none hc hopen]
  simp only [character?_eq_none hc hopen, hnumber]

/-! ### Tokens -/

/-- A name in its context is one token. -/
theorem leaf?_name (hw : IsName w) (hx : EndsName x) (line : Nat) :
    leaf? line (w ++ x) = some (.ident (String.ofList w) line, w, x) := by
  have hliteral := opens_no_literal hw hx
  have hname := name?_append hw hx
  obtain ⟨c, r, rfl, hc⟩ := hw.exists_cons
  rw [List.cons_append] at hliteral hname ⊢
  have hquote : c ≠ '\'' := ne_of_isIdent (.inl hc) (by decide)
  have hpunct : startsPunct (c :: (r ++ x)) = false := by
    have hslash : c ≠ '/' := ne_of_isIdent (.inl hc) (by decide)
    have hpunct : isPunct c = false := by
      have := isBetween_eq_false (.inl hc)
      simp only [isBetween, Bool.or_eq_false_iff] at this
      exact this.1.2
    simp [startsPunct, hslash, hpunct]
  have hparen : c ≠ '(' := ne_of_isIdent (.inl hc) (by decide)
  have homission : Literal.omission.isPrefixOf (c :: (r ++ x)) = false := by
    rw [show Literal.omission = '(' :: "/*ERROR*/)".toList from rfl, List.isPrefixOf_cons_cons,
      beq_false_of_ne hparen.symm, Bool.false_and]
  simp only [leaf?, scan?_eq_none hc hliteral, if_neg hquote, hpunct, hliteral, homission, hname,
    Bool.false_eq_true, if_false, Option.map_some]

/-- A lifetime in its context is one token. -/
theorem leaf?_lifetime (hw : IsName w) (hx : EndsName x) (line : Nat) :
    leaf? line ('\'' :: (w ++ x)) =
      some (.lifetime (String.ofList ('\'' :: w)), '\'' :: w, x) := by
  have hliteral := opens_no_literal hw hx
  have hname := name?_append hw hx
  have hsingle : Literal.single? .text (w ++ x) = none := by
    -- what comes behind the first character of the name is no apostrophe
    have hapostrophe : ∀ c r, w ++ x = c :: r → c ≠ '\\' ∧ ∀ r', r ≠ '\'' :: r' := by
      intro c r heq
      obtain ⟨d, t, rfl, hd⟩ := hw.exists_cons
      obtain ⟨rfl, rfl⟩ := List.cons.inj heq
      refine ⟨ne_of_isIdent (.inl hd) (by decide), fun r' heq' => ?_⟩
      cases t with
      | nil =>
        subst heq'
        exact (hx '\'' rfl).2.2.1 rfl
      | cons e t =>
        obtain rfl : e = '\'' := (List.cons.inj heq').1
        rcases hw.mem (d := '\'') (by simp) with h | h | h
        · exact ne_of_isIdent (.inl h) (by decide) rfl
        · exact ne_of_isIdent (.inr h) (by decide) rfl
        · cases h
    cases hcs : w ++ x with
    | nil => rfl
    | cons c r =>
      obtain ⟨hc, hr⟩ := hapostrophe c r hcs
      simp only [Literal.single?, if_neg hc, Literal.Flavour.admits, if_true]
      split
      · next heq =>
        cases heq
        exact absurd rfl (hr _)
      · rfl
  have hscan : Literal.scan? ('\'' :: (w ++ x)) = none := by
    simp [Literal.scan?, Literal.quoted?, Literal.character?, hsingle, Literal.number?]
  have hquote : x.head? ≠ some '\'' := fun h => (hx _ h).2.2.1 rfl
  have hhash : x.head? ≠ some '#' := fun h => (hx _ h).2.2.2 rfl
  simp only [leaf?, hscan, if_true, hname, hquote, hhash, false_and, or_self, if_false, hliteral,
    Bool.false_eq_true]

end Lexeme

end FieldBinder
