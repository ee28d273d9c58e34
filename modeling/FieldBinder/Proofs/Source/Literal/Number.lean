import FieldBinder.Proofs.Source.Literal.Pointed

/-!
# Numbers as literals

What a character is where digits are read does not depend on what is around it (`digits?_cons`), so
digits are told from what follows them (`digits?_spec`).  What is taken as a number is a number by
itself (`number?_self`), also in front of a closing bracket (`number?_append`).

A number is tried with a point or an exponent first, and read without them where this fails.  It
fails in front of the suffix alone too, of which the first letter may be that of an exponent
(`finishNumber_pointed?_eq_none`).
-/

namespace FieldBinder.Literal

open Text Lexeme

variable {cs t r w x : List Char}

/-! ### Digits in a base -/

theorem isDigit_of_hexValue? {c : Char} {d : Nat} (h : hexValue? c = some d) (hd : d < 10) :
    c.isDigit = true := by
  rw [hexValue?] at h
  split at h
  · next hc =>
    rw [Char.isDigit, Bool.and_eq_true, decide_eq_true_eq, decide_eq_true_eq]
    exact hc
  split at h
  · cases h
    omega
  split at h
  · cases h
    omega
  · cases h

theorem hexValue?_of_isDigit {c : Char} (h : c.isDigit = true) :
    ∃ d < 10, hexValue? c = some d := by
  rw [Char.isDigit, Bool.and_eq_true, decide_eq_true_eq, decide_eq_true_eq] at h
  refine ⟨c.toNat - '0'.toNat, ?_, if_pos h⟩
  have hc : c.toNat ≤ 57 := UInt32.le_iff_toNat_le.1 h.2
  have h0 : '0'.toNat = 48 := rfl
  omega

theorem isDigitOrGap_eq_false {c : Char} (hdigit : c.isDigit = false) (hgap : c ≠ '_') :
    isDigitOrGap c = false := by
  simp [isDigitOrGap, hdigit, hgap]

/-- What one character is where digits are read: it goes on with them, or they end in front of it,
or there is no number. -/
theorem digits?_cons (base : Nat) (isEmpty : Bool) (c : Char) :
    (∃ isEmpty', (base = 10 → isDigitOrGap c = true) ∧
      ∀ acc cs, digits? base isEmpty acc (c :: cs) = digits? base isEmpty' (c :: acc) cs) ∨
    (isEmpty = false ∧ (base = 10 → isDigitOrGap c = false) ∧
      ∀ acc cs, digits? base isEmpty acc (c :: cs) = some (acc.reverse, c :: cs)) ∨
    ∀ acc cs, digits? base isEmpty acc (c :: cs) = none := by
  by_cases hgap : c = '_'
  · -- a decimal number does not begin with a gap
    by_cases hfirst : isEmpty = true ∧ base = 10
    · exact .inr (.inr fun acc cs => by simp [digits?, hgap, hfirst])
    · refine .inl ⟨isEmpty, fun _ => by simp [isDigitOrGap, hgap], fun acc cs => ?_⟩
      rw [digits?, if_pos hgap, if_neg (by simpa using hfirst)]
  cases hd : hexValue? c with
  | none =>
    cases isEmpty with
    | true => exact .inr (.inr fun acc cs => by simp [digits?, hgap, hd])
    | false =>
      have hdigit : c.isDigit = false := by
        rw [← Bool.not_eq_true]
        intro hdigit
        obtain ⟨d, -, hd'⟩ := hexValue?_of_isDigit hdigit
        rw [hd] at hd'
        cases hd'
      exact .inr (.inl ⟨rfl, fun _ => isDigitOrGap_eq_false hdigit hgap, fun acc cs => by
        simp [digits?, hgap, hd]⟩)
  | some d =>
    by_cases hbase : d < base
    · refine .inl ⟨false, fun h10 => ?_, fun acc cs => by simp [digits?, hgap, hd, hbase]⟩
      simp [isDigitOrGap, isDigit_of_hexValue? hd (h10 ▸ hbase)]
    by_cases hstop : c.isDigit = true ∨ isEmpty = true
    · exact .inr (.inr fun acc cs => by simp [digits?, hgap, hd, hbase, hstop])
    · have hempty : isEmpty = false := by simpa using fun he => hstop (.inr he)
      have hdigit : c.isDigit = false := by simpa using fun hdigit => hstop (.inl hdigit)
      exact .inr (.inl ⟨hempty, fun _ => isDigitOrGap_eq_false hdigit hgap, fun acc cs => by
        simp [digits?, hgap, hd, hbase, hstop]⟩)

/-- The digits of a number in a base, in front of a closing bracket. -/
theorem digits?_append (hx : Closes x) (base : Nat) (isEmpty : Bool) (acc w : List Char) :
    digits? base isEmpty acc (w ++ x) =
      (digits? base isEmpty acc w).map fun s => (s.1, s.2 ++ x) := by
  induction w generalizing isEmpty acc with
  | nil =>
    rcases hx.eq_nil_or_cons with rfl | ⟨y, rfl⟩ <;> cases isEmpty <;> rfl
  | cons c w ih =>
    rw [List.cons_append]
    obtain ⟨isEmpty', -, hstep⟩ | ⟨-, -, hstep⟩ | hstep := digits?_cons base isEmpty c
    · rw [hstep, hstep]
      exact ih isEmpty' _
    · rw [hstep, hstep]
      rfl
    · rw [hstep, hstep]
      rfl

/-- What `u` is as the digits of a number in a base in front of `r`: not empty, unless digits were
taken before; a decimal number has nothing but digits and gaps, and ends where neither follows; the
digits are taken again where the same character follows. -/
structure IsDigits (base : Nat) (isEmpty : Bool) (u r : List Char) : Prop where
  ne_nil : isEmpty = true → u ≠ []
  decimal : base = 10 → ∀ c ∈ u, isDigitOrGap c = true
  stops : base = 10 → ∀ c ∈ r.head?, isDigitOrGap c = false
  again : ∀ z acc, z = [] ∨ z.head? = r.head? →
    digits? base isEmpty acc (u ++ z) = some (acc.reverse ++ u, z)

/-- One more digit, or a gap, in front of others. -/
theorem IsDigits.cons {base : Nat} {isEmpty isEmpty' : Bool} {c : Char} {u : List Char}
    (h : IsDigits base isEmpty' u r) (hc : base = 10 → isDigitOrGap c = true)
    (hstep : ∀ acc cs, digits? base isEmpty acc (c :: cs) = digits? base isEmpty' (c :: acc) cs) :
    IsDigits base isEmpty (c :: u) r where
  ne_nil := by simp
  decimal hbase d hd := by
    rcases List.mem_cons.1 hd with rfl | hd
    · exact hc hbase
    · exact h.decimal hbase d hd
  stops := h.stops
  again z acc hz := by
    rw [List.cons_append, hstep, h.again z _ hz]
    simp

/-- Digits end in front of a character that is none. -/
theorem IsDigits.stop {base : Nat} {c : Char} (hc : base = 10 → isDigitOrGap c = false)
    (hstop : ∀ acc cs, digits? base false acc (c :: cs) = some (acc.reverse, c :: cs))
    (cs : List Char) : IsDigits base false [] (c :: cs) where
  ne_nil := by simp
  decimal := by simp
  stops hbase := by simpa using hc hbase
  again z acc hz := by
    rw [List.nil_append, List.append_nil]
    cases z with
    | nil => simp [digits?]
    | cons d z =>
      obtain rfl : d = c := by simpa using hz
      exact hstop acc z

/-- Digits end with the text. -/
theorem isDigits_nil (base : Nat) : IsDigits base false [] [] where
  ne_nil := by simp
  decimal := by simp
  stops := by simp
  again z acc hz := by
    obtain rfl : z = [] := by simpa using hz
    simp [digits?]

/-- The digits of a number in a base are what stands in front. -/
theorem digits?_spec {base : Nat} {isEmpty : Bool} {acc : List Char}
    (h : digits? base isEmpty acc cs = some (t, r)) :
    ∃ u, t = acc.reverse ++ u ∧ cs = u ++ r ∧ IsDigits base isEmpty u r := by
  induction cs generalizing isEmpty acc t with
  | nil =>
    cases isEmpty with
    | true => cases h
    | false =>
      cases h
      exact ⟨[], by simp, rfl, isDigits_nil base⟩
  | cons c cs ih =>
    -- a digit goes in front of those behind it; where they end, none is taken
    obtain ⟨isEmpty', hc, hstep⟩ | ⟨rfl, hc, hstop⟩ | hnone := digits?_cons base isEmpty c
    · rw [hstep] at h
      obtain ⟨u, rfl, rfl, hu⟩ := ih h
      exact ⟨c :: u, by simp, rfl, hu.cons hc hstep⟩
    · rw [hstop] at h
      cases h
      exact ⟨[], by simp, rfl, .stop hc hstop cs⟩
    · rw [hnone] at h
      cases h

/-! ### Numbers without point and exponent -/

/-- The letters of the bases other than ten. -/
def baseLetters : List Char := ['x', 'o', 'b']

theorem whole?_eq (h : ∀ c ∈ baseLetters, ∀ r, cs ≠ '0' :: c :: r) :
    whole? cs = digits? 10 true [] cs := by
  unfold whole?
  split
  · exact absurd rfl (h 'x' (by decide) _)
  · exact absurd rfl (h 'o' (by decide) _)
  · exact absurd rfl (h 'b' (by decide) _)
  · rfl

theorem exists_whole?_eq {c : Char} (hc : c ∈ baseLetters) :
    ∃ base, ∀ r, whole? ('0' :: c :: r) = digits? base true [c, '0'] r := by
  simp only [baseLetters, List.mem_cons, List.not_mem_nil, or_false] at hc
  rcases hc with rfl | rfl | rfl
  · exact ⟨16, fun _ => rfl⟩
  · exact ⟨8, fun _ => rfl⟩
  · exact ⟨2, fun _ => rfl⟩

/-- A number without point and exponent, in front of a closing bracket. -/
theorem whole?_append (hx : Closes x) (w : List Char) :
    whole? (w ++ x) = (whole? w).map fun s => (s.1, s.2 ++ x) := by
  by_cases hw : ∃ c ∈ baseLetters, ∃ r, w = '0' :: c :: r
  · obtain ⟨c, hc, r, rfl⟩ := hw
    obtain ⟨base, hbase⟩ := exists_whole?_eq hc
    rw [List.cons_append, List.cons_append, hbase, hbase]
    exact digits?_append hx _ _ _ _
  · have hw : ∀ c ∈ baseLetters, ∀ r, w ≠ '0' :: c :: r :=
      fun c hc r heq => hw ⟨c, hc, r, heq⟩
    -- A lone `0` is followed by a closing bracket or nothing, and neither is the letter of a base.
    have hwx : ∀ c ∈ baseLetters, ∀ r, w ++ x ≠ '0' :: c :: r := by
      intro c hc r heq
      cases w with
      | nil =>
        rw [List.nil_append] at heq
        cases hx '0' (by rw [heq]; rfl)
      | cons d w =>
        obtain ⟨hd, heq⟩ := List.cons.inj heq
        cases w with
        | nil =>
          obtain rfl : x = c :: r := heq
          obtain rfl : c = ']' := hx c rfl
          exact absurd hc (by decide)
        | cons d' w =>
          obtain ⟨hd', -⟩ := List.cons.inj heq
          exact hw c hc w (by rw [hd, hd'])
    rw [whole?_eq hw, whole?_eq hwx]
    exact digits?_append hx _ _ _ _

/-- A number without point and exponent is taken again in front of its suffix.  It has a letter for
its base, or consists of digits up to where none follows. -/
theorem whole?_spec (h : whole? cs = some (t, r)) :
    cs = t ++ r ∧ whole? (t ++ (suffix r).1) = some (t, (suffix r).1) ∧
      ((∃ c ∈ baseLetters, ∃ u, t = '0' :: c :: u) ∨
        (t ≠ [] ∧ (∀ c ∈ t, isDigitOrGap c = true) ∧ ∀ c ∈ r.head?, isDigitOrGap c = false)) := by
  have hsuffix := (suffix_spec r).2.2
  by_cases hcs : ∃ c ∈ baseLetters, ∃ r, cs = '0' :: c :: r
  · obtain ⟨c, hc, r', rfl⟩ := hcs
    obtain ⟨base, hbase⟩ := exists_whole?_eq hc
    rw [hbase] at h
    obtain ⟨u, rfl, rfl, hu⟩ := digits?_spec h
    refine ⟨rfl, ?_, .inl ⟨c, hc, u, rfl⟩⟩
    exact (hbase _).trans (hu.again _ _ hsuffix)
  · have hcs : ∀ c ∈ baseLetters, ∀ r, cs ≠ '0' :: c :: r :=
      fun c hc r heq => hcs ⟨c, hc, r, heq⟩
    rw [whole?_eq hcs] at h
    obtain ⟨u, rfl, rfl, hu⟩ := digits?_spec h
    refine ⟨rfl, ?_, .inr ⟨hu.ne_nil rfl, hu.decimal rfl, hu.stops rfl⟩⟩
    -- The digits with their suffix begin the text, so they begin with no base where it does not.
    have hprefix : ∀ c ∈ baseLetters, ∀ r', t ++ (suffix r).1 ≠ '0' :: c :: r' := by
      intro c hc r' heq
      refine hcs c hc (r' ++ (suffix r).2) ?_
      calc t ++ r = t ++ (suffix r).1 ++ (suffix r).2 := by
            rw [List.append_assoc, ← (suffix_spec r).1]
        _ = '0' :: c :: (r' ++ (suffix r).2) := congrArg (· ++ (suffix r).2) heq
    rw [whole?_eq hprefix]
    exact hu.again _ _ hsuffix

/-! ### Numbers with their suffixes -/

theorem wordGoesOn_append (hx : Closes x) (w : List Char) :
    wordGoesOn (w ++ x) = wordGoesOn w := by
  cases w with
  | nil =>
    rcases hx.eq_nil_or_cons with rfl | ⟨y, rfl⟩ <;> rfl
  | cons c w => rfl

theorem finishNumber_append (hx : Closes x) (s : Scan) :
    finishNumber (s.map fun s => (s.1, s.2 ++ x)) =
      (finishNumber s).map fun s => (s.1, s.2 ++ x) := by
  cases s with
  | none => rfl
  | some s =>
    simp only [finishNumber, Option.map_some, Option.bind_some, suffix_append hx,
      wordGoesOn_append hx]
    split <;> rfl

/-- A number is finished by what is its suffix again. -/
theorem finishNumber_suffix (t r : List Char) :
    finishNumber (some (t, (suffix r).1)) = some (t ++ (suffix r).1, []) := by
  simp only [finishNumber, Option.bind_some, (suffix_spec r).2.1]
  rfl

theorem finishNumber_eq_some {s : Scan} (h : finishNumber s = some (t, r)) :
    ∃ t' r', s = some (t', r') ∧ t = t' ++ (suffix r').1 ∧ r = (suffix r').2 ∧
      wordGoesOn r = false := by
  obtain ⟨⟨t', r'⟩, rfl, h'⟩ := Option.bind_eq_some_iff.1 h
  simp only at h'
  split at h'
  · cases h'
  · next hword =>
    cases h'
    exact ⟨t', r', rfl, rfl, rfl, by simpa using hword⟩

/-- A number whose end is part of a word can be finished where the word ends. -/
theorem finishNumber_word {t' s r' : List Char} (hword : ∀ c ∈ s, isIdentContinue c = true)
    (h : finishNumber (some (t, s)) ≠ none) (hr : wordGoesOn r' = false) :
    finishNumber (some (t', s ++ r')) ≠ none := by
  have hstop : ∀ c ∈ r'.head?, isIdentContinue c = false := by
    intro c hc
    cases r' with
    | nil => cases hc
    | cons d r' =>
      cases hc
      exact hr
  have hsuffix : wordGoesOn (suffix (s ++ r')).2 = false := by
    cases s with
    | nil =>
      rw [List.nil_append]
      unfold suffix
      split
      · next c r =>
        split
        · cases hd : r.dropWhile isIdentContinue with
          | nil => rfl
          | cons d r' => exact head?_dropWhile (p := isIdentContinue) (w := r) d (by rw [hd]; rfl)
        · exact hr
      · rfl
    | cons c s =>
      obtain ⟨htake, hdrop⟩ := takeWhile_append_of_all
        (fun d hd => hword d (List.mem_cons_of_mem _ hd)) hstop
      rw [List.cons_append, suffix]
      split
      · rw [hdrop]
        exact hr
      · next hc =>
        -- a word that starts with no letter cannot be a suffix
        refine absurd ?_ h
        simp only [finishNumber, Option.bind_some, suffix, if_neg hc]
        exact if_pos (hword c List.mem_cons_self)
  simp [finishNumber, hsuffix]

/-- Digits with a word behind them have no point and no exponent if they have none where more
stands behind the word. -/
theorem finishNumber_pointed?_eq_none {t' r' : List Char}
    (hdigits : ∀ c ∈ t', isDigitOrGap c = true)
    (hstop : ∀ c ∈ r'.head?, isDigitOrGap c = false) (hword : wordGoesOn (suffix r').2 = false)
    (h : finishNumber (pointed? (t' ++ r')) = none) :
    finishNumber (pointed? (t' ++ (suffix r').1)) = none := by
  obtain ⟨htake, hdrop⟩ := takeWhile_append_of_all hdigits hstop
  obtain ⟨htake', hdrop'⟩ := takeWhile_append_of_all hdigits
    (stops_of_head? (suffix_spec r').2.2 hstop)
  have hpoint (v : List Char) : (suffix r').1 ≠ '.' :: v := by
    intro hv
    obtain ⟨w, -, hstart, -⟩ := exists_of_suffix_eq_cons hv
    exact absurd hstart (by decide)
  rw [pointed?_of_no_point (by rwa [hdrop']), htake', hdrop']
  by_cases hno : NoExponent (suffix r').1
  · rw [withExponent_of_noExponent hno]
    rfl
  · -- an exponent in the word is one where more stands behind the word
    obtain ⟨e, v, u, rest, hv, he, hu⟩ := exists_exponent hno
    obtain ⟨w, rfl, hstart, rfl, hrest⟩ := exists_of_suffix_eq_cons hv
    have hpoint' : e ≠ '.' := ne_of_isIdent (.inl hstart) (by decide)
    rw [pointed?_of_no_point (by rw [hdrop]; exact fun r' heq => hpoint' (List.cons.inj heq).1),
      htake, hdrop, withExponent, if_pos he, exponent?_of_word hu] at h
    rw [hv, withExponent, if_pos he, hu]
    rw [hrest] at hword
    have hall : ∀ d ∈ rest, isIdentContinue d = true := by
      intro d hd
      refine List.mem_takeWhile_imp (l := w) (p := isIdentContinue) ?_
      rw [(exponent?_spec hu).1]
      exact List.mem_append_right _ hd
    by_contra hne
    exact finishNumber_word hall hne hword h

/-- What is taken as a number is a number by itself. -/
theorem number?_self (h : number? cs = some (t, r)) : number? t = some (t, []) := by
  cases cs with
  | nil => cases h
  | cons c cs =>
  rw [number?] at h
  split at h
  · next hc =>
    -- what is taken begins as the text does
    have hhead {t' r' : List Char} (hcs : c :: cs = t' ++ r') (hne : t' ++ (suffix r').1 ≠ []) :
        ∃ u, t' ++ (suffix r').1 = c :: u := by
      rcases head?_append_suffix t' r' with hnil | hhead
      · exact absurd hnil hne
      · rw [← hcs] at hhead
        obtain ⟨u, hu⟩ := List.head?_eq_some_iff.1 hhead
        exact ⟨u, hu⟩
    split at h
    · next s hs =>
      cases h
      obtain ⟨t', r', hpointed, rfl, -, -⟩ := finishNumber_eq_some hs
      obtain ⟨hcs, hagain⟩ := pointed?_spec hpointed
      have hne : t' ++ (suffix r').1 ≠ [] := by
        intro hnil
        rw [hnil] at hagain
        cases hagain
      obtain ⟨u, hu⟩ := hhead hcs hne
      rw [hu] at hagain ⊢
      rw [number?, if_pos hc, hagain, finishNumber_suffix, hu]
    · next hnone =>
      obtain ⟨t', r', hwhole, rfl, rfl, hword⟩ := finishNumber_eq_some h
      obtain ⟨hcs, hagain, hform⟩ := whole?_spec hwhole
      have hne : t' ++ (suffix r').1 ≠ [] := by
        intro hnil
        rw [hnil] at hagain
        cases hagain
      have hpointed : finishNumber (pointed? (t' ++ (suffix r').1)) = none := by
        rcases hform with ⟨d, hd, u, rfl⟩ | ⟨-, hdigits, hstop⟩
        · -- the letter of a base is neither a point nor an exponent
          simp only [baseLetters, List.mem_cons, List.not_mem_nil, or_false] at hd
          rcases hd with rfl | rfl | rfl <;> rfl
        · rw [hcs] at hnone
          exact finishNumber_pointed?_eq_none hdigits hstop hword hnone
      obtain ⟨u, hu⟩ := hhead hcs hne
      rw [hu] at hagain hpointed ⊢
      rw [number?, if_pos hc, hpointed, hagain, finishNumber_suffix, hu]
  · cases h

/-- A number in front of a closing bracket. -/
theorem number?_append (hx : Closes x) (w : List Char) :
    number? (w ++ x) = (number? w).map fun s => (s.1, s.2 ++ x) := by
  cases w with
  | nil =>
    rcases hx.eq_nil_or_cons with rfl | ⟨y, rfl⟩ <;> rfl
  | cons c w =>
    rw [List.cons_append, number?, number?]
    split
    · rw [← List.cons_append, pointed?_append hx, whole?_append hx, finishNumber_append hx,
        finishNumber_append hx]
      cases finishNumber (pointed? (c :: w)) <;> rfl
    · rfl

/-! ### Decimal digits -/

theorem digits?_of_forall_isDigit (hw : ∀ c ∈ w, c.isDigit = true) {isEmpty : Bool}
    (hempty : isEmpty = true → w ≠ []) (acc : List Char) :
    digits? 10 isEmpty acc w = some (acc.reverse ++ w, []) := by
  induction w generalizing isEmpty acc with
  | nil =>
    obtain rfl : isEmpty = false := by simpa using hempty
    simp [digits?]
  | cons c w ih =>
    have hc := hw c List.mem_cons_self
    obtain ⟨d, hd, hvalue⟩ := hexValue?_of_isDigit hc
    have hgap : c ≠ '_' := by
      rintro rfl
      cases hc
    rw [digits?, if_neg hgap, hvalue]
    simp only [if_pos hd]
    rw [ih (fun d hd => hw d (List.mem_cons_of_mem _ hd)) (by simp)]
    simp

theorem number?_of_forall_isDigit (hw : ∀ c ∈ w, c.isDigit = true) (hne : w ≠ []) :
    number? w = some (w, []) := by
  have hgaps : ∀ c ∈ w, isDigitOrGap c = true := fun c hc => by simp [isDigitOrGap, hw c hc]
  have hpointed : pointed? w = none := by
    have hdrop := List.dropWhile_eq_nil_iff.2 hgaps
    have hpoint : ∀ r, w.dropWhile isDigitOrGap ≠ '.' :: r := by
      rw [hdrop]
      exact fun r heq => List.cons_ne_nil _ _ heq.symm
    rw [pointed?_of_no_point hpoint, hdrop]
    rfl
  have hwhole : whole? w = some (w, []) := by
    rw [whole?_eq, digits?_of_forall_isDigit hw fun _ => hne]
    · rfl
    · rintro c hc r rfl
      have := hw c (by simp)
      simp only [baseLetters, List.mem_cons, List.not_mem_nil, or_false] at hc
      rcases hc with rfl | rfl | rfl <;> cases this
  cases w with
  | nil => exact absurd rfl hne
  | cons c w =>
    rw [number?, if_pos (hw c List.mem_cons_self), hpointed, hwhole]
    simp [finishNumber, suffix, wordGoesOn]

end FieldBinder.Literal
